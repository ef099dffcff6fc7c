import Mathlib.Logic.Relation
import ScopeLang.Proofs.Machine.Run
import ScopeLang.Proofs.Scope.Reachable

namespace ScopeLang

/-!
# Elementary steps

Between its first and its last moment a run changes the machine in a few ways
only. What every one of these steps keeps, every run keeps, whatever its task.
-/

namespace Machine

/-- The ways in which evaluation changes the machine at one moment. -/
inductive Step (context : Context) : Machine → Machine → Prop where
  | report {machine} (error : EvalError) :
      Step context machine (machine.report error)
  | readNumber {machine : Machine} :
      Step context machine (machine.readNumber context.config.readPrompt).2
  | pushReturn {machine} (value : Value) :
      Step context machine (machine.pushReturn value)
  | openScope {machine : Machine} :
      Step context machine machine.openScope
  | closeScope {machine : Machine} :
      Step context machine machine.closeScope
  | enterCall {machine : Machine} (param : Name) (arg : Value) :
      machine.brokenLimit? context.config = none →
      Step context machine (machine.enterCall context.names param arg)
  | leaveCall {machine : Machine} :
      Step context machine machine.leaveCall.2
  | declare {machine} (name : Name) (value : Value) :
      Step context machine (machine.declare context.names name value)
  | assign {machine} (name : Name) (value : Value) :
      Step context machine (machine.assign context.names name value)
  | write {machine} (text : String) :
      Step context machine (machine.write text)

/-- Any number of elementary steps, one after the other. -/
abbrev Steps (context : Context) : Machine → Machine → Prop :=
  Relation.ReflTransGen (Step context)

/-- Settling a result changes nothing or reports an error. -/
theorem Steps.settle
    {context : Context}
    (machine : Machine)
    (result : Except EvalError Value) :
    Steps context machine (machine.settle result).2 := by
  unfold Machine.settle
  split
  · exact .refl
  · split
    · exact .refl
    · exact .single (.report _)

/-- Deciding a condition changes nothing or reports an error. -/
theorem Steps.decideCondition
    {context : Context}
    {machine after : Machine}
    {value : Value}
    {decision : Option Bool}
    (decided : machine.decideCondition value = (decision, after)) :
    Steps context machine after := by
  obtain rfl : (machine.decideCondition value).2 = after := by
    rw [decided]
  unfold Machine.decideCondition
  split
  · exact .refl
  · split
    · exact .refl
    · exact .single (.report _)

/-- A report changes no scope. -/
@[simp] theorem report_env
    (machine : Machine)
    (error : EvalError) :
    (machine.report error).env = machine.env := by
  unfold report
  split <;> rfl

/-- A declaration stays within reach, refused or not. -/
theorem declare_reachable
    {machine : Machine}
    (reachable : machine.env.Reachable)
    (names : NameTable)
    (name : Name)
    (value : Value) :
    (machine.declare names name value).env.Reachable := by
  unfold declare
  split
  · rename_i bound
    exact reachable.of_bind bound
  · rw [report_env]
    exact reachable

/-- Evaluation works on environments by their operations only. -/
theorem Step.reachable
    {context : Context}
    {before after : Machine}
    (step : Step context before after)
    (reachable : before.env.Reachable) :
    after.env.Reachable := by
  cases step with
  | report error =>
      rw [report_env]
      exact reachable
  | readNumber =>
      unfold Machine.readNumber
      split <;> exact reachable
  | pushReturn =>
      exact reachable
  | openScope =>
      exact reachable.openScope
  | closeScope | leaveCall =>
      exact reachable.closeScope
  | enterCall param arg =>
      exact declare_reachable reachable.openScope context.names param arg
  | declare name value =>
      exact declare_reachable reachable context.names name value
  | assign name value =>
      unfold Machine.assign
      split
      · rename_i rebound
        exact reachable.of_rebind rebound
      · rw [report_env]
        exact reachable
  | write text =>
      unfold Machine.write
      split <;> exact reachable

/-- No step leaves the environments that scope operations reach. -/
theorem Steps.reachable
    {context : Context}
    {before after : Machine}
    (steps : Steps context before after)
    (reachable : before.env.Reachable) :
    after.env.Reachable := by
  induction steps with
  | refl =>
      exact reachable
  | tail _ step inductionHypothesis =>
      exact step.reachable inductionHypothesis

end Machine

/-- Every run that ends is made of elementary steps. -/
theorem Run.steps
    {context : Context}
    {task : Task}
    {before after : Machine}
    {value : Value}
    (run : Run context task before value after) :
    Machine.Steps context before after := by
  induction run with
  | number | bool | retSkipped | callSkipped | skip | skipped | loopSkipped | nil =>
      exact .refl
  | ident settled | lambda settled =>
      rw [← settled]
      exact Machine.Steps.settle _ _
  | read answered =>
      rw [← answered]
      exact .single .readNumber
  | binary _ _ settled left right =>
      rw [← settled]
      exact (left.trans right).trans (Machine.Steps.settle _ _)
  | unary _ settled operand =>
      rw [← settled]
      exact operand.trans (Machine.Steps.settle _ _)
  | ret _ _ returned =>
      exact returned.tail (.pushReturn _)
  | call _ _ _ _ callee arg applied =>
      exact (callee.trans arg).trans applied
  | callRefused _ _ _ callee =>
      exact callee.tail (.report _)
  | applyRefused =>
      exact .single (.report _)
  | apply allowed _ left body =>
      rw [← left]
      exact .head (.enterCall _ _ allowed) (body.tail .leaveCall)
  | execBlock _ body | execLoop _ body =>
      exact body
  | ifThenTaken _ _ decided _ condition body
  | ifElseTaken _ _ decided _ condition body
  | ifElseOther _ _ decided _ condition body =>
      exact (condition.trans (Machine.Steps.decideCondition decided)).trans body
  | ifThenLeft _ _ decided _ condition
  | ifElseLeft _ _ decided condition
  | loopLeft _ _ decided _ condition =>
      exact condition.trans (Machine.Steps.decideCondition decided)
  | declare _ _ evaluated =>
      exact evaluated.tail (.declare _ _)
  | assign _ _ evaluated =>
      exact evaluated.tail (.assign _ _)
  | write _ _ evaluated =>
      exact evaluated.tail (.write _)
  | evalOnly _ _ evaluated =>
      exact evaluated
  | loopAgain _ _ decided _ _ condition body again =>
      exact ((condition.trans (Machine.Steps.decideCondition decided)).trans body).trans again
  | block _ body =>
      exact .head .openScope (body.tail .closeScope)
  | cons _ _ first remaining =>
      exact first.trans remaining

/-- A run leaves a reachable environment reachable. -/
theorem Run.reachable
    {context : Context}
    {task : Task}
    {before after : Machine}
    {value : Value}
    (run : Run context task before value after)
    (reachable : before.env.Reachable) :
    after.env.Reachable :=
  run.steps.reachable reachable

end ScopeLang
