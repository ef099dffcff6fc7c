import ScopeLang.Machine.Fuel

namespace ScopeLang

/-!
# Runs

A run that ends is described by a derivation: one rule for every way in which
an evaluator can take its next step. The derivations are exactly the runs that
end with some fuel, so what is proved by induction on derivations holds of
every run that ends, and what a derivation shows to end does end.
-/

/-- What there is to run. -/
inductive Task where
  | eval (expr : Expr)
  | apply (param : Name) (body : List Stmt) (arg : Value)
  | exec (statement : Stmt)
  | loop (condition : Expr) (body : List Stmt)
  | block (body : List Stmt)
  | execAll (body : List Stmt)

/-- Run a task with some fuel. Whatever is not an expression or a call yields unset. -/
def Task.run (context : Context) (fuel : Nat) : Task → Machine → Option (Value × Machine)
  | .eval expr, machine => Machine.eval context fuel expr machine
  | .apply param body arg, machine => Machine.apply context fuel param body arg machine
  | .exec statement, machine => (Machine.exec context fuel statement machine).map (.unset, ·)
  | .loop condition body, machine =>
      (Machine.loop context fuel condition body machine).map (.unset, ·)
  | .block body, machine => (Machine.block context fuel body machine).map (.unset, ·)
  | .execAll body, machine => (Machine.execAll context fuel body machine).map (.unset, ·)

/-- Whether a statement is passed over while the flag is up. -/
def Stmt.IsGuarded : Stmt → Prop
  | .skip | .block _ | .loop _ _ => False
  | _ => True

/-- The runs that end, each with the value it yields and the machine it leaves. -/
inductive Run (context : Context) : Task → Machine → Value → Machine → Prop where
  | number {before value} :
      Run context (.eval (.number value)) before (.number value) before
  | bool {before value} :
      Run context (.eval (.bool value)) before (.bool value) before
  | ident {before name} {result : Value × Machine} :
      before.settle ((before.env.lookup name).mapError (.ofScope context.names)) = result →
      Run context (.eval (.ident name)) before result.1 result.2
  | binary {before middle last op left right first second} {result : Value × Machine} :
      Run context (.eval left) before first middle →
      Run context (.eval right) middle second last →
      last.settle (op.apply first second) = result →
      Run context (.eval (.binary op left right)) before result.1 result.2
  | unary {before middle op operand value} {result : Value × Machine} :
      Run context (.eval operand) before value middle →
      middle.settle (op.apply value) = result →
      Run context (.eval (.unary op operand)) before result.1 result.2
  | read {before} {result : Value × Machine} :
      before.readNumber context.config.readPrompt = result →
      Run context (.eval .read) before result.1 result.2
  | retSkipped {before value} :
      before.failed = true →
      Run context (.eval (.ret value)) before .unset before
  | ret {before middle expr value} :
      before.failed = false →
      Run context (.eval expr) before value middle →
      Run context (.eval (.ret expr)) before .unset (middle.pushReturn value)
  | lambda {before param body} {result : Value × Machine} :
      before.settle (.ok (.closure param body)) = result →
      Run context (.eval (.lambda param body)) before result.1 result.2
  | callSkipped {before callee arg} :
      before.failed = true →
      Run context (.eval (.call callee arg)) before .unset before
  | call {before called supplied after callee arg param body value result} :
      before.failed = false →
      Run context (.eval callee) before (.closure param body) called →
      Run context (.eval arg) called value supplied →
      Run context (.apply param body value) supplied result after →
      Run context (.eval (.call callee arg)) before result after
  | callRefused {before called callee arg function} :
      before.failed = false →
      Run context (.eval callee) before function called →
      (∀ param body, function ≠ .closure param body) →
      Run context (.eval (.call callee arg)) before .unset (called.report .callNonFunction)
  | applyRefused {before param body arg limit} :
      before.brokenLimit? context.config = some limit →
      Run context (.apply param body arg) before .unset (before.report (.recursionLimit limit))
  | apply {before last param body arg} {result : Value × Machine} :
      before.brokenLimit? context.config = none →
      Run context (.execAll body) (before.enterCall context.names param arg) .unset last →
      last.leaveCall = result →
      Run context (.apply param body arg) before result.1 result.2
  | skip {before} :
      Run context (.exec .skip) before .unset before
  | skipped {before statement} :
      statement.IsGuarded →
      before.failed = true →
      Run context (.exec statement) before .unset before
  | execBlock {before after body} :
      Run context (.block body) before .unset after →
      Run context (.exec (.block body)) before .unset after
  | ifThenTaken {before middle chosen after condition thenBody value} :
      before.failed = false →
      Run context (.eval condition) before value middle →
      middle.decideCondition value = (some true, chosen) →
      Run context (.block thenBody) chosen .unset after →
      Run context (.exec (.ifThen condition thenBody)) before .unset after
  | ifThenLeft {before middle after condition thenBody value decision} :
      before.failed = false →
      Run context (.eval condition) before value middle →
      middle.decideCondition value = (decision, after) →
      decision ≠ some true →
      Run context (.exec (.ifThen condition thenBody)) before .unset after
  | ifElseTaken {before middle chosen after condition thenBody elseBody value} :
      before.failed = false →
      Run context (.eval condition) before value middle →
      middle.decideCondition value = (some true, chosen) →
      Run context (.block thenBody) chosen .unset after →
      Run context (.exec (.ifElse condition thenBody elseBody)) before .unset after
  | ifElseOther {before middle chosen after condition thenBody elseBody value} :
      before.failed = false →
      Run context (.eval condition) before value middle →
      middle.decideCondition value = (some false, chosen) →
      Run context (.block elseBody) chosen .unset after →
      Run context (.exec (.ifElse condition thenBody elseBody)) before .unset after
  | ifElseLeft {before middle after condition thenBody elseBody value} :
      before.failed = false →
      Run context (.eval condition) before value middle →
      middle.decideCondition value = (none, after) →
      Run context (.exec (.ifElse condition thenBody elseBody)) before .unset after
  | execLoop {before after condition body} :
      Run context (.loop condition body) before .unset after →
      Run context (.exec (.loop condition body)) before .unset after
  | declare {before middle name expr value} :
      before.failed = false →
      Run context (.eval expr) before value middle →
      Run context (.exec (.declare name expr)) before .unset
        (middle.declare context.names name value)
  | assign {before middle name expr value} :
      before.failed = false →
      Run context (.eval expr) before value middle →
      Run context (.exec (.assign name expr)) before .unset
        (middle.assign context.names name value)
  | write {before middle expr value} :
      before.failed = false →
      Run context (.eval expr) before value middle →
      Run context (.exec (.write expr)) before .unset (middle.write value.text)
  | evalOnly {before after expr value} :
      before.failed = false →
      Run context (.eval expr) before value after →
      Run context (.exec (.eval expr)) before .unset after
  | loopSkipped {before condition body} :
      before.failed = true →
      Run context (.loop condition body) before .unset before
  | loopAgain {before middle chosen again after condition body value} :
      before.failed = false →
      Run context (.eval condition) before value middle →
      middle.decideCondition value = (some true, chosen) →
      Run context (.block body) chosen .unset again →
      Run context (.loop condition body) again .unset after →
      Run context (.loop condition body) before .unset after
  | loopLeft {before middle after condition body value decision} :
      before.failed = false →
      Run context (.eval condition) before value middle →
      middle.decideCondition value = (decision, after) →
      decision ≠ some true →
      Run context (.loop condition body) before .unset after
  | block {before last body} :
      Run context (.execAll body) before.openScope .unset last →
      Run context (.block body) before .unset last.closeScope
  | nil {before} :
      Run context (.execAll []) before .unset before
  | cons {before middle after statement rest} :
      Run context (.exec statement) before .unset middle →
      Run context (.execAll rest) middle .unset after →
      Run context (.execAll (statement :: rest)) before .unset after

/-- With some fuel, whatever ends has a derivation. -/
private structure Derived (context : Context) (fuel : Nat) : Prop where
  eval : ∀ {expr before value after},
    Machine.eval context fuel expr before = some (value, after) →
      Run context (.eval expr) before value after
  apply : ∀ {param body arg before value after},
    Machine.apply context fuel param body arg before = some (value, after) →
      Run context (.apply param body arg) before value after
  exec : ∀ {statement before after},
    Machine.exec context fuel statement before = some after →
      Run context (.exec statement) before .unset after
  loop : ∀ {condition body before after},
    Machine.loop context fuel condition body before = some after →
      Run context (.loop condition body) before .unset after
  block : ∀ {body before after},
    Machine.block context fuel body before = some after →
      Run context (.block body) before .unset after
  execAll : ∀ {body before after},
    Machine.execAll context fuel body before = some after →
      Run context (.execAll body) before .unset after

/-- A step that is passed over while the flag is up, or else begins with another run. -/
private theorem guarded_cases
    {failed : Bool}
    {passed result : β}
    {first : Option α}
    {next : α → Option β}
    (ended :
      (if failed = true then some passed else first.bind next) = some result) :
    (failed = true ∧ passed = result) ∨
      (failed = false ∧
        ∃ value, first = some value ∧ next value = some result) := by
  cases failed with
  | true =>
      exact Or.inl ⟨rfl, Option.some.inj ended⟩
  | false =>
      exact Or.inr ⟨rfl, Option.bind_eq_some_iff.mp ended⟩

section

variable {context : Context} {fuel : Nat}

private theorem derived_eval
    (derived : Derived context fuel)
    {expr : Expr}
    {before after : Machine}
    {value : Value}
    (ended : Machine.eval context (fuel + 1) expr before = some (value, after)) :
    Run context (.eval expr) before value after := by
  unfold Machine.eval at ended
  cases expr with
  | number =>
      obtain ⟨rfl, rfl⟩ := Prod.mk.inj (Option.some.inj ended)
      exact .number
  | bool =>
      obtain ⟨rfl, rfl⟩ := Prod.mk.inj (Option.some.inj ended)
      exact .bool
  | ident =>
      exact .ident (Option.some.inj ended)
  | read =>
      exact .read (Option.some.inj ended)
  | lambda =>
      exact .lambda (Option.some.inj ended)
  | binary op left right =>
      obtain ⟨⟨first, middle⟩, leftEnded, ended⟩ :=
        Option.bind_eq_some_iff.mp ended
      obtain ⟨⟨second, last⟩, rightEnded, ended⟩ :=
        Option.bind_eq_some_iff.mp ended
      exact .binary (derived.eval leftEnded) (derived.eval rightEnded)
        (Option.some.inj ended)
  | unary op operand =>
      obtain ⟨⟨operandValue, middle⟩, operandEnded, ended⟩ :=
        Option.bind_eq_some_iff.mp ended
      exact .unary (derived.eval operandEnded) (Option.some.inj ended)
  | ret expr =>
      rcases guarded_cases ended with
          ⟨failed, passed⟩ | ⟨running, ⟨returned, middle⟩, innerEnded, ended⟩
      · obtain ⟨rfl, rfl⟩ := Prod.mk.inj passed
        exact .retSkipped failed
      · obtain ⟨rfl, rfl⟩ := Prod.mk.inj (Option.some.inj ended)
        exact .ret running (derived.eval innerEnded)
  | call callee arg =>
      rcases guarded_cases ended with
          ⟨failed, passed⟩ | ⟨running, ⟨function, called⟩, calleeEnded, ended⟩
      · obtain ⟨rfl, rfl⟩ := Prod.mk.inj passed
        exact .callSkipped failed
      · cases function with
        | closure param body =>
            obtain ⟨⟨argValue, supplied⟩, argEnded, applyEnded⟩ :=
              Option.bind_eq_some_iff.mp ended
            exact .call running (derived.eval calleeEnded)
              (derived.eval argEnded) (derived.apply applyEnded)
        | number | bool | unset =>
            obtain ⟨rfl, rfl⟩ := Prod.mk.inj (Option.some.inj ended)
            refine .callRefused running (derived.eval calleeEnded) ?_
            intro param body isClosure
            cases isClosure

private theorem derived_apply
    (derived : Derived context fuel)
    {param : Name}
    {body : List Stmt}
    {arg value : Value}
    {before after : Machine}
    (ended :
      Machine.apply context (fuel + 1) param body arg before = some (value, after)) :
    Run context (.apply param body arg) before value after := by
  unfold Machine.apply at ended
  split at ended
  · rename_i limit broken
    obtain ⟨rfl, rfl⟩ := Prod.mk.inj (Option.some.inj ended)
    exact .applyRefused broken
  · rename_i allowed
    obtain ⟨last, bodyEnded, ended⟩ := Option.bind_eq_some_iff.mp ended
    exact .apply allowed (derived.execAll bodyEnded) (Option.some.inj ended)

private theorem derived_exec
    (derived : Derived context fuel)
    {statement : Stmt}
    {before after : Machine}
    (ended : Machine.exec context (fuel + 1) statement before = some after) :
    Run context (.exec statement) before .unset after := by
  unfold Machine.exec at ended
  cases statement with
  | skip =>
      obtain rfl := Option.some.inj ended
      exact .skip
  | block body =>
      exact .execBlock (derived.block ended)
  | loop condition body =>
      exact .execLoop (derived.loop ended)
  | ifThen condition thenBody =>
      rcases guarded_cases ended with
          ⟨failed, rfl⟩ | ⟨running, ⟨value, middle⟩, conditionEnded, ended⟩
      · exact .skipped trivial failed
      · dsimp only at ended
        split at ended
        · rename_i chosen decided
          exact .ifThenTaken running (derived.eval conditionEnded) decided
            (derived.block ended)
        · rename_i decision chosen notTrue decided
          obtain rfl := Option.some.inj ended
          exact .ifThenLeft running (derived.eval conditionEnded) decided
            notTrue
  | ifElse condition thenBody elseBody =>
      rcases guarded_cases ended with
          ⟨failed, rfl⟩ | ⟨running, ⟨value, middle⟩, conditionEnded, ended⟩
      · exact .skipped trivial failed
      · dsimp only at ended
        split at ended
        · rename_i chosen decided
          exact .ifElseTaken running (derived.eval conditionEnded) decided
            (derived.block ended)
        · rename_i chosen decided
          exact .ifElseOther running (derived.eval conditionEnded) decided
            (derived.block ended)
        · rename_i chosen decided
          obtain rfl := Option.some.inj ended
          exact .ifElseLeft running (derived.eval conditionEnded) decided
  | declare name expr =>
      rcases guarded_cases ended with
          ⟨failed, rfl⟩ | ⟨running, ⟨value, middle⟩, innerEnded, ended⟩
      · exact .skipped trivial failed
      · obtain rfl := Option.some.inj ended
        exact .declare running (derived.eval innerEnded)
  | assign name expr =>
      rcases guarded_cases ended with
          ⟨failed, rfl⟩ | ⟨running, ⟨value, middle⟩, innerEnded, ended⟩
      · exact .skipped trivial failed
      · obtain rfl := Option.some.inj ended
        exact .assign running (derived.eval innerEnded)
  | write expr =>
      rcases guarded_cases ended with
          ⟨failed, rfl⟩ | ⟨running, ⟨value, middle⟩, innerEnded, ended⟩
      · exact .skipped trivial failed
      · obtain rfl := Option.some.inj ended
        exact .write running (derived.eval innerEnded)
  | eval expr =>
      rcases guarded_cases ended with
          ⟨failed, rfl⟩ | ⟨running, ⟨value, middle⟩, innerEnded, ended⟩
      · exact .skipped trivial failed
      · obtain rfl := Option.some.inj ended
        exact .evalOnly running (derived.eval innerEnded)

private theorem derived_loop
    (derived : Derived context fuel)
    {condition : Expr}
    {body : List Stmt}
    {before after : Machine}
    (ended : Machine.loop context (fuel + 1) condition body before = some after) :
    Run context (.loop condition body) before .unset after := by
  unfold Machine.loop at ended
  rcases guarded_cases ended with
      ⟨failed, rfl⟩ | ⟨running, ⟨value, middle⟩, conditionEnded, ended⟩
  · exact .loopSkipped failed
  · dsimp only at ended
    split at ended
    · rename_i chosen decided
      obtain ⟨again, bodyEnded, ended⟩ := Option.bind_eq_some_iff.mp ended
      exact .loopAgain running (derived.eval conditionEnded) decided
        (derived.block bodyEnded) (derived.loop ended)
    · rename_i decision chosen notTrue decided
      obtain rfl := Option.some.inj ended
      exact .loopLeft running (derived.eval conditionEnded) decided
        notTrue

private theorem derived_execAll
    (derived : Derived context fuel)
    {body : List Stmt}
    {before after : Machine}
    (ended : Machine.execAll context (fuel + 1) body before = some after) :
    Run context (.execAll body) before .unset after := by
  cases body with
  | nil =>
      rw [Machine.execAll] at ended
      obtain rfl := Option.some.inj ended
      exact .nil
  | cons statement rest =>
      rw [Machine.execAll] at ended
      obtain ⟨middle, firstEnded, restEnded⟩ := Option.bind_eq_some_iff.mp ended
      exact .cons (derived.exec firstEnded) (derived.execAll restEnded)

private theorem derived_block
    (derived : Derived context fuel)
    {body : List Stmt}
    {before after : Machine}
    (ended : Machine.block context (fuel + 1) body before = some after) :
    Run context (.block body) before .unset after := by
  unfold Machine.block at ended
  obtain ⟨last, bodyEnded, ended⟩ := Option.bind_eq_some_iff.mp ended
  obtain rfl := Option.some.inj ended
  exact .block (derived.execAll bodyEnded)

end

private theorem derived
    (context : Context)
    (fuel : Nat) :
    Derived context fuel := by
  induction fuel with
  | zero =>
      constructor <;> intros <;>
        simp_all [Machine.eval, Machine.apply, Machine.exec, Machine.loop,
          Machine.block, Machine.execAll]
  | succ fuel inductionHypothesis =>
      exact {
        eval := derived_eval inductionHypothesis
        apply := derived_apply inductionHypothesis
        exec := derived_exec inductionHypothesis
        loop := derived_loop inductionHypothesis
        block := derived_block inductionHypothesis
        execAll := derived_execAll inductionHypothesis }

namespace Run

/-- Every task that ends with some fuel has a derivation. -/
theorem of_run
    {context : Context}
    {fuel : Nat}
    {task : Task}
    {before after : Machine}
    {value : Value}
    (ended : task.run context fuel before = some (value, after)) :
    Run context task before value after := by
  have known := derived context fuel
  cases task with
  | eval =>
      exact known.eval ended
  | apply =>
      exact known.apply ended
  | exec =>
      obtain ⟨_, reached, same⟩ := Option.map_eq_some_iff.mp ended
      obtain ⟨rfl, rfl⟩ := Prod.mk.inj same
      exact known.exec reached
  | loop =>
      obtain ⟨_, reached, same⟩ := Option.map_eq_some_iff.mp ended
      obtain ⟨rfl, rfl⟩ := Prod.mk.inj same
      exact known.loop reached
  | block =>
      obtain ⟨_, reached, same⟩ := Option.map_eq_some_iff.mp ended
      obtain ⟨rfl, rfl⟩ := Prod.mk.inj same
      exact known.block reached
  | execAll =>
      obtain ⟨_, reached, same⟩ := Option.map_eq_some_iff.mp ended
      obtain ⟨rfl, rfl⟩ := Prod.mk.inj same
      exact known.execAll reached

end Run

/-- More fuel does not change how a task ends. -/
theorem Task.run_mono
    {context : Context}
    {less more : Nat}
    {task : Task}
    {before : Machine}
    {result : Value × Machine}
    (order : less ≤ more)
    (ended : task.run context less before = some result) :
    task.run context more before = some result := by
  induction order with
  | refl =>
      exact ended
  | step _ inductionHypothesis =>
      have stable := Machine.stable context
      cases task with
      | eval =>
          exact (stable _).eval inductionHypothesis
      | apply =>
          exact (stable _).apply inductionHypothesis
      | exec =>
          obtain ⟨after, reached, same⟩ :=
            Option.map_eq_some_iff.mp inductionHypothesis
          exact Option.map_eq_some_iff.mpr ⟨after, (stable _).exec reached, same⟩
      | loop =>
          obtain ⟨after, reached, same⟩ :=
            Option.map_eq_some_iff.mp inductionHypothesis
          exact Option.map_eq_some_iff.mpr ⟨after, (stable _).loop reached, same⟩
      | block =>
          obtain ⟨after, reached, same⟩ :=
            Option.map_eq_some_iff.mp inductionHypothesis
          exact Option.map_eq_some_iff.mpr ⟨after, (stable _).block reached, same⟩
      | execAll =>
          obtain ⟨after, reached, same⟩ :=
            Option.map_eq_some_iff.mp inductionHypothesis
          exact Option.map_eq_some_iff.mpr ⟨after, (stable _).execAll reached, same⟩

namespace Run

private theorem commonFuel
    {context : Context}
    {first second : Task}
    {before middle : Machine}
    {firstResult secondResult : Value × Machine}
    (firstEnds : ∃ fuel, first.run context fuel before = some firstResult)
    (secondEnds : ∃ fuel, second.run context fuel middle = some secondResult) :
    ∃ fuel,
      first.run context fuel before = some firstResult ∧
        second.run context fuel middle = some secondResult := by
  obtain ⟨firstFuel, firstEnded⟩ := firstEnds
  obtain ⟨secondFuel, secondEnded⟩ := secondEnds
  exact ⟨max firstFuel secondFuel,
    Task.run_mono (Nat.le_max_left _ _) firstEnded,
    Task.run_mono (Nat.le_max_right _ _) secondEnded⟩

/-- Every derivation is a run that ends with enough fuel. -/
theorem exists_fuel
    {context : Context}
    {task : Task}
    {before after : Machine}
    {value : Value}
    (run : Run context task before value after) :
    ∃ fuel, task.run context fuel before = some (value, after) := by
  induction run with
  | number | bool | skip | nil =>
      exact ⟨1, rfl⟩
  | ident settled | read settled | lambda settled =>
      exact ⟨1, congrArg some settled⟩
  | retSkipped failed | callSkipped failed | loopSkipped failed =>
      exact ⟨1, by simp [Task.run, Machine.eval, Machine.loop, failed]⟩
  | binary _ _ settled firstHypothesis secondHypothesis =>
      obtain ⟨fuel, firstEnded, secondEnded⟩ := commonFuel firstHypothesis secondHypothesis
      exact ⟨fuel + 1, by simp_all [Task.run, Machine.eval]⟩
  | unary _ settled hypothesis =>
      obtain ⟨fuel, ended⟩ := hypothesis
      exact ⟨fuel + 1, by simp_all [Task.run, Machine.eval]⟩
  | ret running _ hypothesis =>
      obtain ⟨fuel, ended⟩ := hypothesis
      exact ⟨fuel + 1, by simp_all [Task.run, Machine.eval]⟩
  | call running _ _ _ calleeHypothesis argHypothesis applyHypothesis =>
      obtain ⟨early, calleeEnded, argEnded⟩ := commonFuel calleeHypothesis argHypothesis
      obtain ⟨late, applyEnded⟩ := applyHypothesis
      have calleeEnded := Task.run_mono (Nat.le_max_left early late) calleeEnded
      have argEnded := Task.run_mono (Nat.le_max_left early late) argEnded
      have applyEnded := Task.run_mono (Nat.le_max_right early late) applyEnded
      exact ⟨max early late + 1, by simp_all [Task.run, Machine.eval]⟩
  | @callRefused _ _ _ _ function running _ notClosure hypothesis =>
      obtain ⟨fuel, ended⟩ := hypothesis
      refine ⟨fuel + 1, ?_⟩
      cases function with
      | closure param body =>
          exact (notClosure param body rfl).elim
      | number | bool | unset =>
          simp_all [Task.run, Machine.eval]
  | applyRefused broken =>
      exact ⟨1, by simp [Task.run, Machine.apply, broken]⟩
  | apply allowed _ left hypothesis =>
      obtain ⟨fuel, ended⟩ := hypothesis
      exact ⟨fuel + 1, by simp_all [Task.run, Machine.apply]⟩
  | @skipped _ statement guarded failed =>
      refine ⟨1, ?_⟩
      cases statement <;>
        simp_all [Task.run, Machine.exec, Stmt.IsGuarded]
  | execBlock _ hypothesis | execLoop _ hypothesis =>
      obtain ⟨fuel, ended⟩ := hypothesis
      exact ⟨fuel + 1, by simp_all [Task.run, Machine.exec]⟩
  | ifThenTaken running _ decided _ conditionHypothesis bodyHypothesis
  | ifElseTaken running _ decided _ conditionHypothesis bodyHypothesis
  | ifElseOther running _ decided _ conditionHypothesis bodyHypothesis =>
      obtain ⟨fuel, conditionEnded, bodyEnded⟩ :=
        commonFuel conditionHypothesis bodyHypothesis
      exact ⟨fuel + 1, by simp_all [Task.run, Machine.exec]⟩
  | ifThenLeft running _ decided notTrue hypothesis =>
      obtain ⟨fuel, ended⟩ := hypothesis
      exact ⟨fuel + 1, by simp_all [Task.run, Machine.exec]⟩
  | ifElseLeft running _ decided hypothesis =>
      obtain ⟨fuel, ended⟩ := hypothesis
      exact ⟨fuel + 1, by simp_all [Task.run, Machine.exec]⟩
  | declare running _ hypothesis | assign running _ hypothesis
  | write running _ hypothesis | evalOnly running _ hypothesis =>
      obtain ⟨fuel, ended⟩ := hypothesis
      exact ⟨fuel + 1, by simp_all [Task.run, Machine.exec]⟩
  | loopAgain running _ decided _ _ conditionHypothesis bodyHypothesis loopHypothesis =>
      obtain ⟨early, conditionEnded, bodyEnded⟩ :=
        commonFuel conditionHypothesis bodyHypothesis
      obtain ⟨late, loopEnded⟩ := loopHypothesis
      have conditionEnded := Task.run_mono (Nat.le_max_left early late) conditionEnded
      have bodyEnded := Task.run_mono (Nat.le_max_left early late) bodyEnded
      have loopEnded := Task.run_mono (Nat.le_max_right early late) loopEnded
      refine ⟨max early late + 1, ?_⟩
      simp_all [Task.run, Machine.loop]
  | loopLeft running _ decided notTrue hypothesis =>
      obtain ⟨fuel, ended⟩ := hypothesis
      exact ⟨fuel + 1, by simp_all [Task.run, Machine.loop]⟩
  | block _ hypothesis =>
      obtain ⟨fuel, ended⟩ := hypothesis
      exact ⟨fuel + 1, by simp_all [Task.run, Machine.block]⟩
  | cons _ _ firstHypothesis restHypothesis =>
      obtain ⟨fuel, firstEnded, restEnded⟩ := commonFuel firstHypothesis restHypothesis
      exact ⟨fuel + 1, by simp_all [Task.run, Machine.execAll]⟩

/-- From some amount of fuel on, a task with a derivation ends as the derivation says. -/
theorem exists_least_fuel
    {context : Context}
    {task : Task}
    {before after : Machine}
    {value : Value}
    (run : Run context task before value after) :
    ∃ least, ∀ fuel, least ≤ fuel →
      task.run context fuel before = some (value, after) := by
  obtain ⟨least, ended⟩ := run.exists_fuel
  exact ⟨least, fun _ enough => Task.run_mono enough ended⟩

/-- The derivations are exactly the runs that end. -/
theorem iff_exists_fuel
    {context : Context}
    {task : Task}
    {before after : Machine}
    {value : Value} :
    Run context task before value after ↔
      ∃ fuel, task.run context fuel before = some (value, after) :=
  ⟨exists_fuel, fun ⟨_, ended⟩ => of_run ended⟩

/-- Two sequences that end one after the other end as one sequence. -/
theorem execAll_append
    {context : Context}
    {body rest : List Stmt}
    {before middle after : Machine}
    (earlier : Run context (.execAll body) before .unset middle)
    (later : Run context (.execAll rest) middle .unset after) :
    Run context (.execAll (body ++ rest)) before .unset after := by
  induction body generalizing before with
  | nil =>
      cases earlier
      exact later
  | cons statement body inductionHypothesis =>
      cases earlier with
      | cons first others =>
          exact .cons first (inductionHypothesis others)

end Run

/-- A fragment ends exactly when its statements end on a machine with the flag lowered. -/
theorem Machine.exists_runFragment_iff
    {context : Context}
    {fragment : List Stmt}
    {before after : Machine}
    {succeeded : Bool} :
    (∃ fuel, before.runFragment context fuel fragment = some (succeeded, after)) ↔
      Run context (.execAll fragment) before.clearFailure .unset after ∧
        succeeded = !after.failed := by
  rw [Run.iff_exists_fuel]
  simp only [Task.run, Option.map_eq_some_iff, Prod.mk.injEq, true_and, exists_eq_right]
  constructor
  · rintro ⟨fuel, ended⟩
    obtain ⟨reached, bodyEnded, same⟩ := Option.bind_eq_some_iff.mp ended
    obtain ⟨rfl, rfl⟩ := Prod.mk.inj (Option.some.inj same)
    exact ⟨⟨fuel, bodyEnded⟩, rfl⟩
  · rintro ⟨⟨fuel, bodyEnded⟩, rfl⟩
    exact ⟨fuel, Option.bind_eq_some_iff.mpr ⟨after, bodyEnded, rfl⟩⟩

end ScopeLang
