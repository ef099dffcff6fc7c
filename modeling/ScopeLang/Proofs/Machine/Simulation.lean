import ScopeLang.Proofs.Ast.Renaming
import ScopeLang.Proofs.Machine.Moments
import ScopeLang.Proofs.Machine.ScopeDiscipline

namespace ScopeLang

/-!
# Machines that run alike

Two machines that are alike stay alike while they run the same task, or tasks
that differ in their names only, provided that every elementary step keeps them
alike. What a comparison of two runs has to supply is what "alike" means and one
rule for each elementary step; the induction over runs is done here.

Scopes are counted from the scope in which the comparison begins. There, at
depth zero, the two machines need not agree on what the current scope declares,
so tasks that declare names directly are left out.

Some comparisons hold of certain runs only. Reading and leaving a call are the two
steps whose effect depends on what was there before the comparison began, so these
may be restricted to the machines on which the first run takes them.
-/

/-! ## Where a run reads and leaves calls -/

/--
The runs that a moment reaches read on certain machines only, and leave the calls that
they have entered on certain machines only.
-/
structure Moment.Meets
    (context : Context)
    (reads leaves : Machine → Prop)
    (start : Moment) :
    Prop where
  reads : ∀ place,
    Reaches context start ⟨.eval .read, place⟩ →
    reads place
  leaves : ∀ param body arg entry last,
    Reaches context start ⟨.apply param body arg, entry⟩ →
    entry.brokenLimit? context.config = none →
    Run context (.execAll body) (entry.enterCall context.names param arg) .unset last →
    leaves last

namespace Moment.Meets

variable
  {context : Context}
  {reads leaves : Machine → Prop}
  {outer inner : Moment}

/-- Where nothing is asked of the machines, every run meets it. -/
theorem of_forall
    (everyRead : ∀ machine, reads machine)
    (everyLeft : ∀ machine, leaves machine)
    (start : Moment) :
    start.Meets context reads leaves :=
  ⟨fun place _ => everyRead place, fun _ _ _ _ last _ _ _ => everyLeft last⟩

/-- What a run meets is met by the runs that it reaches. -/
theorem of_reaches
    (meets : outer.Meets context reads leaves)
    (reaches : Reaches context outer inner) :
    inner.Meets context reads leaves :=
  ⟨fun place further => meets.reads place (reaches.trans further),
    fun param body arg entry last further =>
      meets.leaves param body arg entry last (reaches.trans further)⟩

/-- What a run meets is met by the runs that it starts. -/
theorem starts
    (meets : outer.Meets context reads leaves)
    (starts : Starts context outer inner) :
    inner.Meets context reads leaves :=
  meets.of_reaches (.starts .refl starts)

/-- What a call meets is met by its body. -/
theorem enters
    {entry : Machine}
    {param : Name}
    {body : List Stmt}
    {arg : Value}
    (meets : Moment.Meets context reads leaves ⟨.apply param body arg, entry⟩)
    (allowed : entry.brokenLimit? context.config = none) :
    Moment.Meets context reads leaves
      ⟨.execAll body, entry.enterCall context.names param arg⟩ :=
  meets.of_reaches (.enters .refl allowed)

end Moment.Meets

/-! ## Simulations -/

/-- Tasks of one shape whose names and values correspond. -/
inductive Task.Renamed (names : Renaming) : Task → Task → Prop where
  | eval {expr other} :
      Expr.Renamed names expr other →
      Task.Renamed names (.eval expr) (.eval other)
  | apply {param otherParam body otherBody arg otherArg} :
      names param otherParam →
      Stmt.AllRenamed names body otherBody →
      Value.Renamed names arg otherArg →
      Task.Renamed names (.apply param body arg) (.apply otherParam otherBody otherArg)
  | exec {statement other} :
      Stmt.Renamed names statement other →
      Task.Renamed names (.exec statement) (.exec other)
  | loop {condition otherCondition body otherBody} :
      Expr.Renamed names condition otherCondition →
      Stmt.AllRenamed names body otherBody →
      Task.Renamed names (.loop condition body) (.loop otherCondition otherBody)
  | block {body otherBody} :
      Stmt.AllRenamed names body otherBody →
      Task.Renamed names (.block body) (.block otherBody)
  | execAll {body otherBody} :
      Stmt.AllRenamed names body otherBody →
      Task.Renamed names (.execAll body) (.execAll otherBody)

/-- Every task is a renaming of itself. -/
theorem Task.Renamed.refl
    (task : Task) :
    Task.Renamed Eq task task := by
  have same (name : Name) : name = name :=
    rfl
  cases task with
  | eval expr =>
      exact .eval (.refl same expr)
  | apply param body arg =>
      exact .apply rfl (.refl same body) (.refl same arg)
  | exec statement =>
      cases Stmt.AllRenamed.refl same [statement] with
      | cons first =>
          exact .exec first
  | loop condition body =>
      exact .loop (.refl same condition) (.refl same body)
  | block body =>
      exact .block (.refl same body)
  | execAll body =>
      exact .execAll (.refl same body)

namespace Machine

/-- Values that correspond, on machines that are alike. -/
def Results
    (names : Renaming)
    (alike : Machine → Machine → Prop)
    (result other : Value × Machine) :
    Prop :=
  Value.Renamed names result.1 other.1 ∧ alike result.2 other.2

/--
Machines that are alike after every elementary step that two contexts make on
them, where the first of them is one to read on and one to leave a call on.
`alike depth` compares machines that have opened `depth` scopes since the
comparison began.
-/
structure SimulationWhere
    (reads leaves : Machine → Prop)
    (first second : Context)
    (names : Renaming)
    (alike : Nat → Machine → Machine → Prop) :
    Prop where
  failed : ∀ {depth machine other},
    alike depth machine other →
    other.failed = machine.failed
  report : ∀ {depth machine other} (error : EvalError),
    alike depth machine other →
    alike depth (machine.report error) (other.report error)
  ident : ∀ {depth machine other name otherName},
    alike depth machine other →
    names name otherName →
    Results names (alike depth)
      (machine.settle ((machine.env.lookup name).mapError (.ofScope first.names)))
      (other.settle ((other.env.lookup otherName).mapError (.ofScope second.names)))
  read : ∀ {depth machine other},
    alike depth machine other →
    reads machine →
    Results names (alike depth)
      (machine.readNumber first.config.readPrompt)
      (other.readNumber second.config.readPrompt)
  write : ∀ {depth machine other} (text : String),
    alike depth machine other →
    alike depth (machine.write text) (other.write text)
  pushReturn : ∀ {depth machine other value otherValue},
    alike depth machine other →
    Value.Renamed names value otherValue →
    alike depth (machine.pushReturn value) (other.pushReturn otherValue)
  limit : ∀ {depth machine other},
    alike depth machine other →
    other.brokenLimit? second.config = machine.brokenLimit? first.config
  enterCall : ∀ {depth machine other param otherParam arg otherArg},
    alike depth machine other →
    names param otherParam →
    Value.Renamed names arg otherArg →
    alike (depth + 1) (machine.enterCall first.names param arg)
      (other.enterCall second.names otherParam otherArg)
  leaveCall : ∀ {depth machine other},
    alike (depth + 1) machine other →
    leaves machine →
    Results names (alike depth) machine.leaveCall other.leaveCall
  openScope : ∀ {depth machine other},
    alike depth machine other →
    alike (depth + 1) machine.openScope other.openScope
  closeScope : ∀ {depth machine other},
    alike (depth + 1) machine other →
    alike depth machine.closeScope other.closeScope
  declare : ∀ {depth machine other name otherName value otherValue},
    alike (depth + 1) machine other →
    names name otherName →
    Value.Renamed names value otherValue →
    alike (depth + 1) (machine.declare first.names name value)
      (other.declare second.names otherName otherValue)
  assign : ∀ {depth machine other name otherName value otherValue},
    alike depth machine other →
    names name otherName →
    Value.Renamed names value otherValue →
    alike depth (machine.assign first.names name value)
      (other.assign second.names otherName otherValue)

/-- Machines that are alike after every elementary step, wherever it is taken. -/
abbrev Simulation :=
  SimulationWhere (fun _ => True) (fun _ => True)

namespace SimulationWhere

variable
  {reads leaves : Machine → Prop}
  {first second : Context}
  {names : Renaming}
  {alike : Nat → Machine → Machine → Prop}

/-- A result is settled alike. -/
theorem settle
    (simulation : SimulationWhere reads leaves first second names alike)
    {depth : Nat}
    {machine other : Machine}
    {result otherResult : Except EvalError Value}
    (related : alike depth machine other)
    (renamed : Value.ResultRenamed names result otherResult) :
    Results names (alike depth) (machine.settle result) (other.settle otherResult) := by
  have flag := simulation.failed related
  unfold Machine.settle
  rw [flag]
  split
  · exact ⟨.unset, related⟩
  · cases renamed with
    | ok value =>
        exact ⟨value, related⟩
    | error =>
        exact ⟨.unset, simulation.report _ related⟩

/-- A condition is decided alike. -/
theorem decideCondition
    (simulation : SimulationWhere reads leaves first second names alike)
    {depth : Nat}
    {machine other chosen : Machine}
    {value otherValue : Value}
    {decision : Option Bool}
    (related : alike depth machine other)
    (renamed : Value.Renamed names value otherValue)
    (decided : machine.decideCondition value = (decision, chosen)) :
    ∃ otherChosen,
      other.decideCondition otherValue = (decision, otherChosen) ∧
        alike depth chosen otherChosen := by
  have flag := simulation.failed related
  unfold Machine.decideCondition at decided ⊢
  rw [flag]
  split at decided
  · rename_i up
    obtain ⟨rfl, rfl⟩ := Prod.mk.inj decided
    exact ⟨other, if_pos up, related⟩
  · rename_i down
    rw [if_neg down]
    cases renamed with
    | bool =>
        obtain ⟨rfl, rfl⟩ := Prod.mk.inj decided
        exact ⟨other, rfl, related⟩
    | number | closure | unset =>
        obtain ⟨rfl, rfl⟩ := Prod.mk.inj decided
        exact ⟨_, rfl, simulation.report _ related⟩

end SimulationWhere

end Machine

/-- A run of a task that ends with a given value, up to names, on a machine like a given one. -/
def Run.Matched
    (context : Context)
    (names : Renaming)
    (alike : Machine → Machine → Prop)
    (task : Task)
    (before : Machine)
    (value : Value)
    (after : Machine) :
    Prop :=
  ∃ otherValue otherAfter,
    Run context task before otherValue otherAfter ∧
      Machine.Results names alike (value, after) (otherValue, otherAfter)

namespace Run

section

variable
  {context : Context}
  {names : Renaming}
  {alike : Machine → Machine → Prop}

/-- The match of a run without a value is a run without a value. -/
theorem Matched.unset
    {task : Task}
    {before after : Machine}
    (matched : Matched context names alike task before .unset after) :
    ∃ otherAfter, Run context task before .unset otherAfter ∧ alike after otherAfter := by
  obtain ⟨otherValue, otherAfter, run, renamed, related⟩ := matched
  cases renamed
  exact ⟨otherAfter, run, related⟩

/-- Paired results are a match as soon as the other side has a run to its own. -/
theorem Matched.of_results
    {task : Task}
    {before : Machine}
    {result other : Value × Machine}
    (results : Machine.Results names alike result other)
    (run : Run context task before other.1 other.2) :
    Matched context names alike task before result.1 result.2 :=
  ⟨other.1, other.2, run, results⟩

end

end Run

/-- A condition that is matched is decided alike. -/
theorem Machine.SimulationWhere.matched_decision
    {reads leaves : Machine → Prop}
    {first second : Context}
    {names : Renaming}
    {alike : Nat → Machine → Machine → Prop}
    (simulation : Machine.SimulationWhere reads leaves first second names alike)
    {depth : Nat}
    {condition : Expr}
    {before middle chosen : Machine}
    {value : Value}
    {decision : Option Bool}
    (matched : Run.Matched second names (alike depth) (.eval condition) before value middle)
    (decided : middle.decideCondition value = (decision, chosen)) :
    ∃ otherValue otherMiddle otherChosen,
      Run second (.eval condition) before otherValue otherMiddle ∧
        otherMiddle.decideCondition otherValue = (decision, otherChosen) ∧
          alike depth chosen otherChosen := by
  obtain ⟨otherValue, otherMiddle, run, renamed, related⟩ := matched
  obtain ⟨otherChosen, otherDecided, chosenRelated⟩ :=
    simulation.decideCondition related renamed decided
  exact ⟨otherValue, otherMiddle, otherChosen, run, otherDecided, chosenRelated⟩

namespace Run

/--
The run lemma: what is run in the first context is matched in the second one.
The induction is on the first run, with the second machine left open. A declaration adds
a name to the current scope, so it has to stand in a scope opened since the beginning.
-/
theorem simulated_where
    {reads leaves : Machine → Prop}
    {first second : Context}
    {names : Renaming}
    {alike : Nat → Machine → Machine → Prop}
    (simulation : Machine.SimulationWhere reads leaves first second names alike)
    {task : Task}
    {before after : Machine}
    {value : Value}
    (run : Run first task before value after) :
    ∀ {depth : Nat} {otherTask : Task} {otherBefore : Machine},
      Moment.Meets first reads leaves ⟨task, before⟩ →
      (depth = 0 → task.declaredNames = []) →
      task.Renamed names otherTask →
      alike depth before otherBefore →
      Matched second names (alike depth) otherTask otherBefore value after := by
  induction run with
  | number =>
      intro depth _ other meets _ renamed related
      cases renamed with
      | eval renamed =>
          cases renamed with
          | number =>
              exact ⟨_, _, .number, .number, related⟩
  | bool =>
      intro depth _ other meets _ renamed related
      cases renamed with
      | eval renamed =>
          cases renamed with
          | bool =>
              exact ⟨_, _, .bool, .bool, related⟩
  | ident settled =>
      intro depth _ other meets _ renamed related
      cases renamed with
      | eval renamed =>
          cases renamed with
          | ident pair =>
              subst settled
              exact .of_results (simulation.ident related pair) (.ident rfl)
  | read answered =>
      intro depth _ other meets _ renamed related
      cases renamed with
      | eval renamed =>
          cases renamed with
          | read =>
              subst answered
              exact .of_results (simulation.read related (meets.reads _ .refl)) (.read rfl)
  | lambda settled =>
      intro depth _ other meets _ renamed related
      cases renamed with
      | eval renamed =>
          cases renamed with
          | lambda param body =>
              subst settled
              exact .of_results (simulation.settle related (.ok (.closure param body)))
                (.lambda rfl)
  | binary leftRun _ settled leftHypothesis rightHypothesis =>
      intro depth _ other meets _ renamed related
      cases renamed with
      | eval renamed =>
          cases renamed with
          | binary left right =>
              subst settled
              obtain ⟨leftValue, middle, otherLeft, leftRenamed, middleRelated⟩ :=
                leftHypothesis (meets.starts .left) (fun _ => rfl) (.eval left) related
              obtain ⟨rightValue, last, otherRight, rightRenamed, lastRelated⟩ :=
                rightHypothesis (meets.starts (.right leftRun)) (fun _ => rfl) (.eval right)
                  middleRelated
              exact .of_results (simulation.settle lastRelated (leftRenamed.binary _ rightRenamed))
                (.binary otherLeft otherRight rfl)
  | unary _ settled operandHypothesis =>
      intro depth _ other meets _ renamed related
      cases renamed with
      | eval renamed =>
          cases renamed with
          | unary operand =>
              subst settled
              obtain ⟨operandValue, middle, operandRun, operandRenamed, middleRelated⟩ :=
                operandHypothesis (meets.starts .operand) (fun _ => rfl) (.eval operand) related
              exact .of_results (simulation.settle middleRelated (operandRenamed.unary _))
                (.unary operandRun rfl)
  | retSkipped up =>
      intro depth _ other meets _ renamed related
      cases renamed with
      | eval renamed =>
          cases renamed with
          | ret =>
              exact ⟨_, _, .retSkipped ((simulation.failed related).trans up), .unset, related⟩
  | ret down _ valueHypothesis =>
      intro depth _ other meets _ renamed related
      cases renamed with
      | eval renamed =>
          cases renamed with
          | ret returned =>
              obtain ⟨_, middle, valueRun, valueRenamed, middleRelated⟩ :=
                valueHypothesis (meets.starts (.returned down)) (fun _ => rfl) (.eval returned)
                  related
              exact ⟨_, _, .ret ((simulation.failed related).trans down) valueRun, .unset,
                simulation.pushReturn middleRelated valueRenamed⟩
  | callSkipped up =>
      intro depth _ other meets _ renamed related
      cases renamed with
      | eval renamed =>
          cases renamed with
          | call =>
              exact ⟨_, _, .callSkipped ((simulation.failed related).trans up), .unset, related⟩
  | call down calleeRun argRun _ calleeHypothesis argHypothesis applyHypothesis =>
      intro depth _ other meets _ renamed related
      cases renamed with
      | eval renamed =>
          cases renamed with
          | call callee arg =>
              obtain ⟨_, called, otherCallee, calleeRenamed, calledRelated⟩ :=
                calleeHypothesis (meets.starts (.callee down)) (fun _ => rfl) (.eval callee)
                  related
              obtain ⟨_, supplied, otherArg, argRenamed, suppliedRelated⟩ :=
                argHypothesis (meets.starts (.arg down calleeRun)) (fun _ => rfl) (.eval arg)
                  calledRelated
              cases calleeRenamed with
              | closure param body =>
                  obtain ⟨_, _, otherApply, results⟩ :=
                    applyHypothesis (meets.starts (.call down calleeRun argRun)) (fun _ => rfl)
                      (.apply param body argRenamed) suppliedRelated
                  exact ⟨_, _, .call ((simulation.failed related).trans down) otherCallee otherArg
                    otherApply, results⟩
  | callRefused down _ notClosure calleeHypothesis =>
      intro depth _ other meets _ renamed related
      cases renamed with
      | eval renamed =>
          cases renamed with
          | call callee =>
              obtain ⟨_, called, calleeRun, calleeRenamed, calledRelated⟩ :=
                calleeHypothesis (meets.starts (.callee down)) (fun _ => rfl) (.eval callee)
                  related
              refine ⟨_, _, .callRefused ((simulation.failed related).trans down) calleeRun ?_,
                .unset, simulation.report _ calledRelated⟩
              rintro param body rfl
              cases calleeRenamed with
              | closure =>
                  exact notClosure _ _ rfl
  | applyRefused broken =>
      intro depth _ other meets _ renamed related
      cases renamed with
      | apply =>
          exact ⟨_, _, .applyRefused ((simulation.limit related).trans broken), .unset,
            simulation.report _ related⟩
  | apply allowed firstRun left bodyHypothesis =>
      intro depth _ other meets _ renamed related
      cases renamed with
      | apply param body arg =>
          subst left
          obtain ⟨last, bodyRun, lastRelated⟩ :=
            (bodyHypothesis (meets.enters allowed) (by simp) (.execAll body)
              (simulation.enterCall related param arg)).unset
          have leaves := meets.leaves _ _ _ _ _ .refl allowed firstRun
          exact .of_results (simulation.leaveCall lastRelated leaves)
            (.apply ((simulation.limit related).trans allowed) bodyRun rfl)
  | skip =>
      intro depth _ other meets _ renamed related
      cases renamed with
      | exec renamed =>
          cases renamed with
          | skip =>
              exact ⟨_, _, .skip, .unset, related⟩
  | skipped guarded up =>
      intro depth _ other meets _ renamed related
      cases renamed with
      | exec renamed =>
          refine ⟨_, _, .skipped ?_ ((simulation.failed related).trans up), .unset, related⟩
          cases renamed <;> exact guarded
  | execBlock _ bodyHypothesis =>
      intro depth _ other meets _ renamed related
      cases renamed with
      | exec renamed =>
          cases renamed with
          | block body =>
              obtain ⟨last, bodyRun, lastRelated⟩ :=
                (bodyHypothesis (meets.starts .execBlock) (fun _ => rfl) (.block body)
                  related).unset
              exact ⟨_, _, .execBlock bodyRun, .unset, lastRelated⟩
  | execLoop _ loopHypothesis =>
      intro depth _ other meets _ renamed related
      cases renamed with
      | exec renamed =>
          cases renamed with
          | loop condition body =>
              obtain ⟨last, loopRun, lastRelated⟩ :=
                (loopHypothesis (meets.starts .execLoop) (fun _ => rfl) (.loop condition body)
                  related).unset
              exact ⟨_, _, .execLoop loopRun, .unset, lastRelated⟩
  | ifThenTaken down firstRun decided _ conditionHypothesis bodyHypothesis =>
      intro depth _ other meets _ renamed related
      cases renamed with
      | exec renamed =>
          cases renamed with
          | ifThen condition thenBody =>
              obtain ⟨_, _, chosen, conditionRun, otherDecided, chosenRelated⟩ :=
                simulation.matched_decision
                  (conditionHypothesis (meets.starts (.ifThen down)) (fun _ => rfl)
                    (.eval condition) related) decided
              obtain ⟨last, bodyRun, lastRelated⟩ :=
                (bodyHypothesis (meets.starts (.ifThenTaken down firstRun decided)) (fun _ => rfl)
                  (.block thenBody) chosenRelated).unset
              exact ⟨_, _, .ifThenTaken ((simulation.failed related).trans down) conditionRun
                otherDecided bodyRun, .unset, lastRelated⟩
  | ifThenLeft down _ decided notTrue conditionHypothesis =>
      intro depth _ other meets _ renamed related
      cases renamed with
      | exec renamed =>
          cases renamed with
          | ifThen condition =>
              obtain ⟨_, _, chosen, conditionRun, otherDecided, chosenRelated⟩ :=
                simulation.matched_decision
                  (conditionHypothesis (meets.starts (.ifThen down)) (fun _ => rfl)
                    (.eval condition) related) decided
              exact ⟨_, _, .ifThenLeft ((simulation.failed related).trans down) conditionRun
                otherDecided notTrue, .unset, chosenRelated⟩
  | ifElseTaken down firstRun decided _ conditionHypothesis bodyHypothesis =>
      intro depth _ other meets _ renamed related
      cases renamed with
      | exec renamed =>
          cases renamed with
          | ifElse condition thenBody =>
              obtain ⟨_, _, chosen, conditionRun, otherDecided, chosenRelated⟩ :=
                simulation.matched_decision
                  (conditionHypothesis (meets.starts (.ifElse down)) (fun _ => rfl)
                    (.eval condition) related) decided
              obtain ⟨last, bodyRun, lastRelated⟩ :=
                (bodyHypothesis (meets.starts (.ifElseTaken down firstRun decided)) (fun _ => rfl)
                  (.block thenBody) chosenRelated).unset
              exact ⟨_, _, .ifElseTaken ((simulation.failed related).trans down) conditionRun
                otherDecided bodyRun, .unset, lastRelated⟩
  | ifElseOther down firstRun decided _ conditionHypothesis bodyHypothesis =>
      intro depth _ other meets _ renamed related
      cases renamed with
      | exec renamed =>
          cases renamed with
          | ifElse condition _ elseBody =>
              obtain ⟨_, _, chosen, conditionRun, otherDecided, chosenRelated⟩ :=
                simulation.matched_decision
                  (conditionHypothesis (meets.starts (.ifElse down)) (fun _ => rfl)
                    (.eval condition) related) decided
              obtain ⟨last, bodyRun, lastRelated⟩ :=
                (bodyHypothesis (meets.starts (.ifElseOther down firstRun decided)) (fun _ => rfl)
                  (.block elseBody) chosenRelated).unset
              exact ⟨_, _, .ifElseOther ((simulation.failed related).trans down) conditionRun
                otherDecided bodyRun, .unset, lastRelated⟩
  | ifElseLeft down _ decided conditionHypothesis =>
      intro depth _ other meets _ renamed related
      cases renamed with
      | exec renamed =>
          cases renamed with
          | ifElse condition =>
              obtain ⟨_, _, chosen, conditionRun, otherDecided, chosenRelated⟩ :=
                simulation.matched_decision
                  (conditionHypothesis (meets.starts (.ifElse down)) (fun _ => rfl)
                    (.eval condition) related) decided
              exact ⟨_, _, .ifElseLeft ((simulation.failed related).trans down) conditionRun
                otherDecided, .unset, chosenRelated⟩
  | declare down _ valueHypothesis =>
      intro depth _ other meets inside renamed related
      cases renamed with
      | exec renamed =>
          cases renamed with
          | declare pair declared =>
              obtain ⟨_, middle, valueRun, valueRenamed, middleRelated⟩ :=
                valueHypothesis (meets.starts (.declare down)) (fun _ => rfl) (.eval declared)
                  related
              cases depth with
              | zero =>
                  cases inside rfl
              | succ depth =>
                  exact ⟨_, _, .declare ((simulation.failed related).trans down) valueRun, .unset,
                    simulation.declare middleRelated pair valueRenamed⟩
  | assign down _ valueHypothesis =>
      intro depth _ other meets _ renamed related
      cases renamed with
      | exec renamed =>
          cases renamed with
          | assign pair assigned =>
              obtain ⟨_, middle, valueRun, valueRenamed, middleRelated⟩ :=
                valueHypothesis (meets.starts (.assign down)) (fun _ => rfl) (.eval assigned)
                  related
              exact ⟨_, _, .assign ((simulation.failed related).trans down) valueRun, .unset,
                simulation.assign middleRelated pair valueRenamed⟩
  | write down _ valueHypothesis =>
      intro depth _ other meets _ renamed related
      cases renamed with
      | exec renamed =>
          cases renamed with
          | write written =>
              obtain ⟨_, middle, valueRun, valueRenamed, middleRelated⟩ :=
                valueHypothesis (meets.starts (.write down)) (fun _ => rfl) (.eval written)
                  related
              rw [valueRenamed.text_eq]
              exact ⟨_, _, .write ((simulation.failed related).trans down) valueRun, .unset,
                simulation.write _ middleRelated⟩
  | evalOnly down _ valueHypothesis =>
      intro depth _ other meets _ renamed related
      cases renamed with
      | exec renamed =>
          cases renamed with
          | eval evaluated =>
              obtain ⟨_, last, valueRun, -, lastRelated⟩ :=
                valueHypothesis (meets.starts (.evalOnly down)) (fun _ => rfl) (.eval evaluated)
                  related
              exact ⟨_, _, .evalOnly ((simulation.failed related).trans down) valueRun, .unset,
                lastRelated⟩
  | loopSkipped up =>
      intro depth _ other meets _ renamed related
      cases renamed with
      | loop =>
          exact ⟨_, _, .loopSkipped ((simulation.failed related).trans up), .unset, related⟩
  | loopAgain down firstRun decided firstBody _ conditionHypothesis bodyHypothesis loopHypothesis =>
      intro depth _ other meets _ renamed related
      cases renamed with
      | loop condition body =>
          obtain ⟨_, _, chosen, conditionRun, otherDecided, chosenRelated⟩ :=
            simulation.matched_decision
              (conditionHypothesis (meets.starts (.loop down)) (fun _ => rfl) (.eval condition)
                related) decided
          obtain ⟨again, bodyRun, againRelated⟩ :=
            (bodyHypothesis (meets.starts (.loopBody down firstRun decided)) (fun _ => rfl)
              (.block body) chosenRelated).unset
          obtain ⟨last, loopRun, lastRelated⟩ :=
            (loopHypothesis (meets.starts (.loopAgain down firstRun decided firstBody))
              (fun _ => rfl) (.loop condition body) againRelated).unset
          exact ⟨_, _, .loopAgain ((simulation.failed related).trans down) conditionRun
            otherDecided bodyRun loopRun, .unset, lastRelated⟩
  | loopLeft down _ decided notTrue conditionHypothesis =>
      intro depth _ other meets _ renamed related
      cases renamed with
      | loop condition =>
          obtain ⟨_, _, chosen, conditionRun, otherDecided, chosenRelated⟩ :=
            simulation.matched_decision
              (conditionHypothesis (meets.starts (.loop down)) (fun _ => rfl) (.eval condition)
                related) decided
          exact ⟨_, _, .loopLeft ((simulation.failed related).trans down) conditionRun
            otherDecided notTrue, .unset, chosenRelated⟩
  | block _ bodyHypothesis =>
      intro depth _ other meets _ renamed related
      cases renamed with
      | block body =>
          obtain ⟨last, bodyRun, lastRelated⟩ :=
            (bodyHypothesis (meets.starts .block) (by simp) (.execAll body)
              (simulation.openScope related)).unset
          exact ⟨_, _, .block bodyRun, .unset, simulation.closeScope lastRelated⟩
  | nil =>
      intro depth _ other meets _ renamed related
      cases renamed with
      | execAll renamed =>
          cases renamed with
          | nil =>
              exact ⟨_, _, .nil, .unset, related⟩
  | @cons _ _ _ statement rest firstRun _ firstHypothesis restHypothesis =>
      intro depth _ other meets inside renamed related
      cases renamed with
      | execAll renamed =>
          cases renamed with
          | cons statementRenamed restRenamed =>
              have split := Stmt.declaredNames_cons statement rest
              have parts : depth = 0 →
                  Stmt.declaredNames [statement] = [] ∧ Stmt.declaredNames rest = [] := by
                intro outermost
                exact List.append_eq_nil_iff.mp (split.symm.trans (inside outermost))
              obtain ⟨middle, otherFirst, middleRelated⟩ :=
                (firstHypothesis (meets.starts .first) (fun outermost => (parts outermost).1)
                  (.exec statementRenamed) related).unset
              obtain ⟨last, otherRest, lastRelated⟩ :=
                (restHypothesis (meets.starts (.rest firstRun))
                  (fun outermost => (parts outermost).2) (.execAll restRenamed)
                  middleRelated).unset
              exact ⟨_, _, .cons otherFirst otherRest, .unset, lastRelated⟩

/-- Where nothing is asked of the machines, every run is matched. -/
theorem simulated
    {first second : Context}
    {names : Renaming}
    {alike : Nat → Machine → Machine → Prop}
    {depth : Nat}
    {task otherTask : Task}
    {before after otherBefore : Machine}
    {value : Value}
    (simulation : Machine.Simulation first second names alike)
    (run : Run first task before value after)
    (inside : depth = 0 → task.declaredNames = [])
    (renamed : task.Renamed names otherTask)
    (related : alike depth before otherBefore) :
    Matched second names (alike depth) otherTask otherBefore value after :=
  run.simulated_where simulation (.of_forall (fun _ => trivial) (fun _ => trivial) _) inside renamed
    related

/-- A sequence that ends inside a scope ends likewise on a machine like the first one. -/
theorem execAll_simulated
    {first second : Context}
    {names : Renaming}
    {alike : Nat → Machine → Machine → Prop}
    {body otherBody : List Stmt}
    {before after otherBefore : Machine}
    (simulation : Machine.Simulation first second names alike)
    (run : Run first (.execAll body) before .unset after)
    (renamed : Stmt.AllRenamed names body otherBody)
    (related : alike 1 before otherBefore) :
    ∃ otherAfter,
      Run second (.execAll otherBody) otherBefore .unset otherAfter ∧
        alike 1 after otherAfter :=
  (run.simulated simulation (by simp) (.execAll renamed) related).unset

/--
Where declarations keep the machines alike in the scope of the comparison as well, any
sequence that ends in this scope ends likewise on a machine like the first one.
-/
theorem execAll_simulated_outermost
    {first second : Context}
    {names : Renaming}
    {alike : Nat → Machine → Machine → Prop}
    {body otherBody : List Stmt}
    {before after otherBefore : Machine}
    (simulation : Machine.Simulation first second names alike)
    (declared : ∀ {machine other name otherName value otherValue},
      alike 0 machine other →
      names name otherName →
      Value.Renamed names value otherValue →
      alike 0 (machine.declare first.names name value)
        (other.declare second.names otherName otherValue))
    (run : Run first (.execAll body) before .unset after)
    (renamed : Stmt.AllRenamed names body otherBody)
    (related : alike 0 before otherBefore) :
    ∃ otherAfter,
      Run second (.execAll otherBody) otherBefore .unset otherAfter ∧
        alike 0 after otherAfter := by
  induction body generalizing otherBody before otherBefore with
  | nil =>
      cases run
      cases renamed
      exact ⟨otherBefore, .nil, related⟩
  | cons statement rest inductionHypothesis =>
      cases run with
      | @cons _ middle _ _ _ firstRun restRun =>
          cases renamed with
          | @cons _ _ other _ firstRenamed restRenamed =>
              have firstMatched : ∃ otherMiddle,
                  Run second (.exec other) otherBefore .unset otherMiddle ∧
                    alike 0 middle otherMiddle := by
                cases statement with
                | declare name expr =>
                    cases firstRenamed with
                    | declare pair valueRenamed =>
                        cases firstRun with
                        | skipped _ up =>
                            have otherUp := (simulation.failed related).trans up
                            exact ⟨otherBefore, .skipped trivial otherUp, related⟩
                        | declare down valueRun =>
                            obtain ⟨_, _, otherRun, valueAlike, middleRelated⟩ :=
                              valueRun.simulated simulation (fun _ => rfl) (.eval valueRenamed)
                                related
                            have otherDown := (simulation.failed related).trans down
                            exact ⟨_, .declare otherDown otherRun,
                              declared middleRelated pair valueAlike⟩
                | skip | block | ifThen | ifElse | loop | assign | write | eval =>
                    exact (firstRun.simulated simulation (fun _ => rfl) (.exec firstRenamed)
                      related).unset
              obtain ⟨otherMiddle, otherFirstRun, middleRelated⟩ := firstMatched
              obtain ⟨otherAfter, otherRestRun, afterRelated⟩ :=
                inductionHypothesis restRun restRenamed middleRelated
              exact ⟨otherAfter, .cons otherFirstRun otherRestRun, afterRelated⟩

end Run

end ScopeLang
