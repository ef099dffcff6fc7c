import ScopeLang.Proofs.Machine.Closures
import ScopeLang.Proofs.Machine.ScopeDiscipline

namespace ScopeLang

/-!
# With a limit on calls, everything without a loop ends

A call runs a body that is found at run time and may be larger than the call. With
a limit on active calls this cannot go on for ever: each body runs with one active
call more than the call it belongs to, and inside of a body the syntax gets smaller
from one run to the next. All this needs that no loop enters through a closure, and
the closures alive stay free of loops when nothing else is written.
-/

mutual

/-- No loop is written in an expression, the bodies of its lambdas included. -/
def Expr.LoopFree : Expr → Prop
  | .ident _ | .number _ | .bool _ | .read => True
  | .binary _ left right => left.LoopFree ∧ right.LoopFree
  | .unary _ operand => operand.LoopFree
  | .ret value => value.LoopFree
  | .lambda _ body => Stmt.AllLoopFree body
  | .call callee arg => callee.LoopFree ∧ arg.LoopFree

/-- A statement is no loop, and no loop is written in it, the bodies of lambdas included. -/
def Stmt.LoopFree : Stmt → Prop
  | .skip => True
  | .block body => Stmt.AllLoopFree body
  | .ifThen condition thenBody => condition.LoopFree ∧ Stmt.AllLoopFree thenBody
  | .ifElse condition thenBody elseBody =>
      condition.LoopFree ∧ Stmt.AllLoopFree thenBody ∧ Stmt.AllLoopFree elseBody
  | .loop _ _ => False
  | .declare _ value | .assign _ value | .write value | .eval value => value.LoopFree

/-- No loop is written in the statements of a sequence. -/
def Stmt.AllLoopFree : List Stmt → Prop
  | [] => True
  | statement :: rest => statement.LoopFree ∧ Stmt.AllLoopFree rest

end

/-- No loop is written in the body of a lambda. -/
def Lambda.LoopFree (lambda : Lambda) : Prop :=
  Stmt.AllLoopFree lambda.body

/-- A value is no closure with a loop anywhere in its body. -/
def Value.LoopFree : Value → Prop
  | .closure _ body => Stmt.AllLoopFree body
  | _ => True

mutual

/-- The lambdas of an expression without loops have bodies without loops. -/
theorem Expr.LoopFree.every :
    {expr : Expr} →
      expr.LoopFree →
      ∀ lambda ∈ expr.lambdas, lambda.LoopFree
  | .ident _, _ | .number _, _ | .bool _, _ | .read, _ =>
      List.forall_mem_nil _
  | .binary _ _ _, ⟨left, right⟩ =>
      List.forall_mem_append.mpr ⟨Expr.LoopFree.every left, Expr.LoopFree.every right⟩
  | .unary _ operand, free =>
      @Expr.LoopFree.every operand free
  | .ret value, free =>
      @Expr.LoopFree.every value free
  | .lambda _ _, free =>
      List.forall_mem_cons.mpr ⟨free, Stmt.AllLoopFree.every free⟩
  | .call _ _, ⟨callee, arg⟩ =>
      List.forall_mem_append.mpr ⟨Expr.LoopFree.every callee, Expr.LoopFree.every arg⟩

/-- A statement without loops has none in the closures written in it. -/
theorem Stmt.LoopFree.every :
    {statement : Stmt} →
      statement.LoopFree →
      ∀ lambda ∈ statement.lambdas, lambda.LoopFree
  | .skip, _ =>
      List.forall_mem_nil _
  | .block body, free =>
      @Stmt.AllLoopFree.every body free
  | .ifThen _ _, ⟨condition, thenBody⟩ =>
      List.forall_mem_append.mpr
        ⟨Expr.LoopFree.every condition, Stmt.AllLoopFree.every thenBody⟩
  | .ifElse _ _ _, ⟨condition, thenBody, elseBody⟩ =>
      List.forall_mem_append.mpr
        ⟨Expr.LoopFree.every condition,
          List.forall_mem_append.mpr
            ⟨Stmt.AllLoopFree.every thenBody, Stmt.AllLoopFree.every elseBody⟩⟩
  | .declare _ value, free | .assign _ value, free | .write value, free | .eval value, free =>
      @Expr.LoopFree.every value free

/-- Statements without loops have none in the closures written in them. -/
theorem Stmt.AllLoopFree.every :
    {body : List Stmt} →
      Stmt.AllLoopFree body →
      ∀ lambda ∈ Stmt.allLambdas body, lambda.LoopFree
  | [], _ =>
      List.forall_mem_nil _
  | _ :: _, ⟨statement, rest⟩ =>
      List.forall_mem_append.mpr ⟨Stmt.LoopFree.every statement, Stmt.AllLoopFree.every rest⟩

end

/-- A value without loops holds no closure with one. -/
theorem Value.LoopFree.every
    {value : Value}
    (free : value.LoopFree) :
    value.Every Lambda.LoopFree := by
  cases value with
  | closure param body =>
      exact List.forall_mem_cons.mpr ⟨free, Stmt.AllLoopFree.every free⟩
  | number | bool | unset =>
      exact List.forall_mem_nil _

namespace Machine

/-- Some number of calls is active, and no closure alive has a loop in its body. -/
structure Ready (calls : Nat) (machine : Machine) : Prop where
  calls : machine.activeCalls = calls
  held : machine.Holds (Value.Every Lambda.LoopFree)

namespace Ready

variable {context : Context} {calls : Nat} {before after : Machine}

/-- A run that is given no loop yields no loop and leaves the machine ready. -/
theorem run
    {task : Task}
    {value : Value}
    (ready : Ready calls before)
    (run : Run context task before value after)
    (written : task.Every Lambda.LoopFree) :
    value.Every Lambda.LoopFree ∧ Ready calls after := by
  obtain ⟨yielded, left⟩ := run.every written ready.held
  exact ⟨yielded, run.tidy.calls.trans ready.calls, left⟩

theorem decideCondition
    {value : Value}
    {decision : Option Bool}
    (ready : Ready calls before)
    (decided : before.decideCondition value = (decision, after)) :
    Ready calls after :=
  ⟨(Tidy.decideCondition decided).calls.trans ready.calls, ready.held.decideCondition decided⟩

theorem openScope (ready : Ready calls before) : Ready calls before.openScope :=
  ⟨ready.calls, ready.held.openScope⟩

/-- The body of a call runs with one more active call. -/
theorem enterCall
    {arg : Value}
    (ready : Ready calls before)
    (free : arg.Every Lambda.LoopFree)
    (names : NameTable)
    (param : Name) :
    Ready (calls + 1) (before.enterCall names param arg) := by
  refine ⟨?_, ready.held.enterCall free names param⟩
  have declared :=
    Tidy.declare { before.openScope with activeCalls := before.activeCalls + 1 } names param arg
  rw [← ready.calls]
  exact declared.calls

end Ready

/-- Every sequence without loops ends on a machine with some number of active calls. -/
def BodiesEnd (context : Context) (calls : Nat) : Prop :=
  ∀ body machine, Stmt.AllLoopFree body → Ready calls machine →
    ∃ after, Run context (.execAll body) machine .unset after

end Machine

namespace Run

open Machine

section

variable {context : Context} {limit calls : Nat} {machine : Machine}

/-- A call that is refused has ended, and else its body ends by what is known of deeper calls. -/
theorem apply_ends
    (limited : context.config.maxDepth = some limit)
    (deeper : calls < limit → BodiesEnd context (calls + 1))
    {param : Name}
    {body : List Stmt}
    {arg : Value}
    (bodyFree : Stmt.AllLoopFree body)
    (argFree : arg.Every Lambda.LoopFree)
    (ready : Ready calls machine) :
    ∃ value after, Run context (.apply param body arg) machine value after := by
  cases broken : machine.brokenLimit? context.config with
  | some reached =>
      exact ⟨_, _, .applyRefused broken⟩
  | none =>
      have room : calls < limit := by
        simpa [brokenLimit?, limited, ready.calls] using broken
      obtain ⟨last, bodyRun⟩ :=
        deeper room body _ bodyFree (ready.enterCall argFree context.names param)
      exact ⟨_, _, .apply broken bodyRun rfl⟩

/-- A statement that is passed over while the flag is up need only end with the flag down. -/
theorem guarded_ends
    {statement : Stmt}
    (guarded : statement.IsGuarded)
    (runs :
      machine.failed = false →
        ∃ after, Run context (.exec statement) machine .unset after) :
    ∃ after, Run context (.exec statement) machine .unset after := by
  cases flag : machine.failed with
  | true =>
      exact ⟨_, .skipped guarded flag⟩
  | false =>
      exact runs flag

mutual

/--
By induction on the syntax. Calls alone need what is known of deeper calls, since the body
of a closure is no part of the syntax but came out of the environment.
-/
theorem eval_ends
    (limited : context.config.maxDepth = some limit)
    (deeper : calls < limit → BodiesEnd context (calls + 1)) :
    (expr : Expr) →
      expr.LoopFree →
      {machine : Machine} →
      Ready calls machine →
      ∃ value after, Run context (.eval expr) machine value after
  | .number _, _, _, _ =>
      ⟨_, _, .number⟩
  | .bool _, _, _, _ =>
      ⟨_, _, .bool⟩
  | .ident _, _, _, _ =>
      ⟨_, _, .ident rfl⟩
  | .read, _, _, _ =>
      ⟨_, _, .read rfl⟩
  | .lambda _ _, _, _, _ =>
      ⟨_, _, .lambda rfl⟩
  | .binary _ left right, ⟨leftFree, rightFree⟩, _, ready => by
      obtain ⟨first, middle, leftRun⟩ := eval_ends limited deeper left leftFree ready
      obtain ⟨-, middleReady⟩ := ready.run leftRun leftFree.every
      obtain ⟨second, last, rightRun⟩ := eval_ends limited deeper right rightFree middleReady
      exact ⟨_, _, .binary leftRun rightRun rfl⟩
  | .unary _ operand, free, _, ready => by
      obtain ⟨value, middle, operandRun⟩ := eval_ends limited deeper operand free ready
      exact ⟨_, _, .unary operandRun rfl⟩
  | .ret value, free, machine, ready => by
      cases flag : machine.failed with
      | true =>
          exact ⟨_, _, .retSkipped flag⟩
      | false =>
          obtain ⟨_, middle, valueRun⟩ := eval_ends limited deeper value free ready
          exact ⟨_, _, .ret flag valueRun⟩
  | .call callee arg, ⟨calleeFree, argFree⟩, machine, ready => by
      cases flag : machine.failed with
      | true =>
          exact ⟨_, _, .callSkipped flag⟩
      | false =>
          obtain ⟨function, called, calleeRun⟩ :=
            eval_ends limited deeper callee calleeFree ready
          obtain ⟨functionFree, calledReady⟩ := ready.run calleeRun calleeFree.every
          cases function with
          | closure param body =>
              obtain ⟨bodyFree, -⟩ := List.forall_mem_cons.mp functionFree
              obtain ⟨value, supplied, argRun⟩ :=
                eval_ends limited deeper arg argFree calledReady
              obtain ⟨valueFree, suppliedReady⟩ := calledReady.run argRun argFree.every
              obtain ⟨result, after, applyRun⟩ :=
                apply_ends limited deeper bodyFree valueFree suppliedReady
              exact ⟨_, _, .call flag calleeRun argRun applyRun⟩
          | number | bool | unset =>
              exact ⟨_, _, .callRefused flag calleeRun nofun⟩

/-- A statement without loops ends when the bodies one call further in do. -/
theorem exec_ends
    (limited : context.config.maxDepth = some limit)
    (deeper : calls < limit → BodiesEnd context (calls + 1)) :
    (statement : Stmt) →
      statement.LoopFree →
      {machine : Machine} →
      Ready calls machine →
      ∃ after, Run context (.exec statement) machine .unset after
  | .skip, _, _, _ =>
      ⟨_, .skip⟩
  | .block body, free, _, ready => by
      obtain ⟨last, bodyRun⟩ := execAll_ends limited deeper body free ready.openScope
      exact ⟨_, .execBlock (.block bodyRun)⟩
  | .ifThen condition thenBody, ⟨conditionFree, thenFree⟩, _, ready =>
      guarded_ends trivial fun running => by
        obtain ⟨value, middle, conditionRun⟩ :=
          eval_ends limited deeper condition conditionFree ready
        obtain ⟨-, middleReady⟩ := ready.run conditionRun conditionFree.every
        cases decided : middle.decideCondition value with
        | mk decision chosen =>
            by_cases holds : decision = some true
            · subst holds
              obtain ⟨last, thenRun⟩ :=
                execAll_ends limited deeper thenBody thenFree
                  (middleReady.decideCondition decided).openScope
              exact ⟨_, .ifThenTaken running conditionRun decided (.block thenRun)⟩
            · exact ⟨_, .ifThenLeft running conditionRun decided holds⟩
  | .ifElse condition thenBody elseBody, ⟨conditionFree, thenFree, elseFree⟩, _, ready =>
      guarded_ends trivial fun running => by
        obtain ⟨value, middle, conditionRun⟩ :=
          eval_ends limited deeper condition conditionFree ready
        obtain ⟨-, middleReady⟩ := ready.run conditionRun conditionFree.every
        cases decided : middle.decideCondition value with
        | mk decision chosen =>
            have chosenReady := (middleReady.decideCondition decided).openScope
            cases decision with
            | none =>
                exact ⟨_, .ifElseLeft running conditionRun decided⟩
            | some truth =>
                cases truth with
                | true =>
                    obtain ⟨last, thenRun⟩ :=
                      execAll_ends limited deeper thenBody thenFree chosenReady
                    exact ⟨_, .ifElseTaken running conditionRun decided (.block thenRun)⟩
                | false =>
                    obtain ⟨last, elseRun⟩ :=
                      execAll_ends limited deeper elseBody elseFree chosenReady
                    exact ⟨_, .ifElseOther running conditionRun decided (.block elseRun)⟩
  | .declare _ value, free, _, ready =>
      guarded_ends trivial fun running => by
        obtain ⟨_, _, valueRun⟩ := eval_ends limited deeper value free ready
        exact ⟨_, .declare running valueRun⟩
  | .assign _ value, free, _, ready =>
      guarded_ends trivial fun running => by
        obtain ⟨_, _, valueRun⟩ := eval_ends limited deeper value free ready
        exact ⟨_, .assign running valueRun⟩
  | .write value, free, _, ready =>
      guarded_ends trivial fun running => by
        obtain ⟨_, _, valueRun⟩ := eval_ends limited deeper value free ready
        exact ⟨_, .write running valueRun⟩
  | .eval value, free, _, ready =>
      guarded_ends trivial fun running => by
        obtain ⟨_, _, valueRun⟩ := eval_ends limited deeper value free ready
        exact ⟨_, .evalOnly running valueRun⟩

/-- Statements without loops end, one after the other. -/
theorem execAll_ends
    (limited : context.config.maxDepth = some limit)
    (deeper : calls < limit → BodiesEnd context (calls + 1)) :
    (body : List Stmt) →
      Stmt.AllLoopFree body →
      {machine : Machine} →
      Ready calls machine →
      ∃ after, Run context (.execAll body) machine .unset after
  | [], _, _, _ =>
      ⟨_, .nil⟩
  | statement :: rest, ⟨firstFree, restFree⟩, _, ready => by
      obtain ⟨middle, firstRun⟩ := exec_ends limited deeper statement firstFree ready
      obtain ⟨-, middleReady⟩ := ready.run firstRun firstFree.every
      obtain ⟨after, restRun⟩ := execAll_ends limited deeper rest restFree middleReady
      exact ⟨after, .cons firstRun restRun⟩

end

end

/-- By induction on how many more calls may become active. -/
theorem bodiesEnd
    {context : Context}
    {limit : Nat}
    (limited : context.config.maxDepth = some limit)
    (calls : Nat) :
    BodiesEnd context calls := by
  induction room : limit - calls generalizing calls with
  | zero =>
      intro body machine free ready
      refine execAll_ends limited (fun less => ?_) body free ready
      omega
  | succ fewer inductionHypothesis =>
      intro body machine free ready
      refine execAll_ends limited (fun less => ?_) body free ready
      exact inductionHypothesis (calls + 1) (by omega)

end Run

namespace Machine

/--
With a limit on calls, and with no closure alive that has a loop in its body, every
expression, statement and sequence without loops ends.
-/
theorem ends_of_loopFree
    (context : Context)
    (limit : Nat)
    (limited : context.config.maxDepth = some limit)
    (machine : Machine)
    (held : machine.Holds Value.LoopFree) :
    (∀ expr : Expr, expr.LoopFree →
        ∃ result least, ∀ fuel, least ≤ fuel →
          eval context fuel expr machine = some result) ∧
      (∀ statement : Stmt, statement.LoopFree →
        ∃ after least, ∀ fuel, least ≤ fuel →
          exec context fuel statement machine = some after) ∧
      (∀ body, Stmt.AllLoopFree body →
        ∃ after least, ∀ fuel, least ≤ fuel →
          execAll context fuel body machine = some after) := by
  have ready : Ready machine.activeCalls machine :=
    ⟨rfl, held.mono fun _ => Value.LoopFree.every⟩
  have deeper (_ : machine.activeCalls < limit) := Run.bodiesEnd limited (machine.activeCalls + 1)
  refine ⟨?_, ?_, ?_⟩
  · intro expr free
    obtain ⟨value, after, run⟩ := Run.eval_ends limited deeper expr free ready
    obtain ⟨least, ends⟩ := run.exists_least_fuel
    exact ⟨(value, after), least, ends⟩
  · intro statement free
    obtain ⟨after, run⟩ := Run.exec_ends limited deeper statement free ready
    obtain ⟨least, ends⟩ := run.exists_least_fuel
    refine ⟨after, least, fun fuel enough => ?_⟩
    simpa [Task.run] using ends fuel enough
  · intro body free
    obtain ⟨after, run⟩ := Run.execAll_ends limited deeper body free ready
    obtain ⟨least, ends⟩ := run.exists_least_fuel
    refine ⟨after, least, fun fuel enough => ?_⟩
    simpa [Task.run] using ends fuel enough

/-- A closure that calls itself without end is stopped by the limit. -/
theorem ends_of_loopFree_endless_recursion :
    let context : Context := ⟨.initial, { maxDepth := some 1000 }⟩
    let closure : Value := .closure ⟨2⟩ [.eval (.ret (.call (.ident ⟨1⟩) (.ident ⟨2⟩)))]
    let statement : Stmt := .declare ⟨3⟩ (.call (.ident ⟨1⟩) (.number 0))
    let machine := (ofConsole (.ofInput .closed)).declare context.names ⟨1⟩ closure
    machine.Holds Value.LoopFree ∧
      statement.LoopFree ∧
        ∃ after least, ∀ fuel, least ≤ fuel →
          exec context fuel statement machine = some after := by
  intro context closure statement machine
  have held : machine.Holds Value.LoopFree :=
    (Holds.ofConsole _).declare ⟨⟨trivial, trivial⟩, trivial⟩ context.names ⟨1⟩
  have free : statement.LoopFree :=
    ⟨trivial, trivial⟩
  exact ⟨held, free, (ends_of_loopFree context 1000 rfl machine held).2.1 statement free⟩

end Machine

end ScopeLang
