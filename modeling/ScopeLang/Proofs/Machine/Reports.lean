import ScopeLang.Proofs.Machine.CallLimit
import ScopeLang.Proofs.Machine.FailedValue

namespace ScopeLang

/-!
# Where errors are reported

A run that raises the flag has reported an error, and it has done so at one of a few
places: a lookup, an operator, a callee, the limit on calls, a parameter, a condition,
a declaration or an assignment. At none of them, in no run that works on a reachable
environment, does anything go wrong that cannot: no name is declared without being
bound, no parameter is declared twice, and no call ends that has not begun.
-/

/-- The condition that a task begins with. -/
def Task.condition? : Task → Option Expr
  | .exec (.ifThen condition _) => some condition
  | .exec (.ifElse condition _ _) => some condition
  | .loop condition _ => some condition
  | _ => none

/--
A run reports an error of its own, which is to say not in a run that it starts. There is
one rule for every place where the evaluator reports.
-/
inductive Reports (context : Context) : Moment → EvalError → Prop where
  | lookup {before name error} :
      before.failed = false →
      before.env.lookup name = .error error →
      Reports context ⟨.eval (.ident name), before⟩ (.ofScope context.names error)
  | binary {before middle last op left right first second error} :
      Run context (.eval left) before first middle →
      Run context (.eval right) middle second last →
      last.failed = false →
      op.apply first second = .error error →
      Reports context ⟨.eval (.binary op left right), before⟩ error
  | unary {before middle op operand value error} :
      Run context (.eval operand) before value middle →
      middle.failed = false →
      op.apply value = .error error →
      Reports context ⟨.eval (.unary op operand), before⟩ error
  | callee {before called callee arg function} :
      Run context (.eval callee) before function called →
      called.failed = false →
      (∀ param body, function ≠ .closure param body) →
      Reports context ⟨.eval (.call callee arg), before⟩ .callNonFunction
  | limit {before param body arg limit} :
      before.failed = false →
      before.brokenLimit? context.config = some limit →
      Reports context ⟨.apply param body arg, before⟩ (.recursionLimit limit)
  | param {before param body arg error} :
      before.failed = false →
      before.brokenLimit? context.config = none →
      before.env.openScope.bind param arg = .error error →
      Reports context ⟨.apply param body arg, before⟩ (.ofScope context.names error)
  | condition {before middle task condition value} :
      task.condition? = some condition →
      Run context (.eval condition) before value middle →
      middle.failed = false →
      (∀ truth, value ≠ .bool truth) →
      Reports context ⟨task, before⟩ (.notBoolean value)
  | declare {before middle name expr value error} :
      Run context (.eval expr) before value middle →
      middle.failed = false →
      middle.env.bind name value = .error error →
      Reports context ⟨.exec (.declare name expr), before⟩ (.ofScope context.names error)
  | assign {before middle name expr value error} :
      Run context (.eval expr) before value middle →
      middle.failed = false →
      middle.env.rebind name value = .error error →
      Reports context ⟨.exec (.assign name expr), before⟩ (.ofRebind context.names error)

/-! ## Every failure is reported -/

namespace Machine

section

variable {machine : Machine}

/-- A report with the flag down is the last thing that the console sees. -/
theorem report_log
    (running : machine.failed = false)
    (error : EvalError) :
    (machine.report error).console.log.head? =
      some (.diagnose ("ERROR: " ++ error.message)) := by
  simp [report, running, Console.diagnose]

/-- A result that raises the flag is an error, and it is reported. -/
theorem settle_of_failing
    {result : Except EvalError Value}
    (running : machine.failed = false)
    (failed : (machine.settle result).2.failed = true) :
    ∃ error,
      result = .error error ∧ (machine.settle result).2 = machine.report error := by
  cases result with
  | ok value =>
      simp [settle, running] at failed
  | error error =>
      exact ⟨error, rfl, by simp [settle, running]⟩

/-- A condition that raises the flag is no truth value, and this is reported. -/
theorem decideCondition_of_failing
    {value : Value}
    {decision : Option Bool}
    {after : Machine}
    (decided : machine.decideCondition value = (decision, after))
    (running : machine.failed = false)
    (failed : after.failed = true) :
    (∀ truth, value ≠ .bool truth) ∧ after = machine.report (.notBoolean value) := by
  obtain rfl : (machine.decideCondition value).2 = after := by
    rw [decided]
  cases value with
  | bool truth =>
      simp [decideCondition, running] at failed
  | number | unset | closure =>
      exact ⟨nofun, by simp [decideCondition, running]⟩

/-- A declaration that raises the flag is refused, and this is reported. -/
theorem declare_of_failing
    {names : NameTable}
    {name : Name}
    {value : Value}
    (running : machine.failed = false)
    (failed : (machine.declare names name value).failed = true) :
    ∃ error,
      machine.env.bind name value = .error error ∧
        machine.declare names name value = machine.report (.ofScope names error) := by
  cases bound : machine.env.bind name value with
  | ok env =>
      simp [declare, bound, running] at failed
  | error error =>
      exact ⟨error, rfl, by simp [declare, bound]⟩

/-- An assignment that raises the flag is refused, and this is reported. -/
theorem assign_of_failing
    {names : NameTable}
    {name : Name}
    {value : Value}
    (running : machine.failed = false)
    (failed : (machine.assign names name value).failed = true) :
    ∃ error,
      machine.env.rebind name value = .error error ∧
        machine.assign names name value = machine.report (.ofRebind names error) := by
  cases rebound : machine.env.rebind name value with
  | ok env =>
      simp [assign, rebound, running] at failed
  | error error =>
      exact ⟨error, rfl, by simp [assign, rebound]⟩

/-- Once the flag is up the console sees nothing more. -/
theorem Steps.console_eq
    {context : Context}
    {middle after : Machine}
    (steps : Steps context middle after)
    (failed : middle.failed = true) :
    after.console = middle.console := by
  cases Speaks.of_steps steps with
  | silent _ _ same =>
      exact same
  | well running | failing _ running =>
      exact nomatch running.symm.trans failed

end

end Machine

/-- Some run that is reached reports an error, which is the last thing that the console sees. -/
def Reported (context : Context) (outer : Moment) (after : Machine) : Prop :=
  ∃ inner error,
    Reaches context outer inner ∧
      Reports context inner error ∧
        after.console.log.head? = some (.diagnose ("ERROR: " ++ error.message))

namespace Reported

variable {context : Context} {outer inner : Moment} {middle after : Machine}

/-- An error that the run reports itself. -/
theorem here
    {error : EvalError}
    (reports : Reports context outer error)
    (running : middle.failed = false) :
    Reported context outer (middle.report error) :=
  ⟨outer, error, .refl, reports, Machine.report_log running error⟩

/-- An error of a run that is reached, behind which the console sees nothing. -/
theorem of_reached
    (reaches : Reaches context outer inner)
    (reported : Reported context inner middle)
    (failed : middle.failed = true)
    (steps : Machine.Steps context middle after) :
    Reported context outer after := by
  obtain ⟨place, error, further, reports, last⟩ := reported
  refine ⟨place, error, reaches.trans further, reports, ?_⟩
  rw [steps.console_eq failed]
  exact last

end Reported

namespace Run

variable {context : Context} {before middle after : Machine} {value : Value}

/--
A part of a run raises the flag, and then its error is the error of the whole run, or it
leaves the flag down, and then the error comes later.
-/
private theorem reported_of_part
    {outer inner : Moment}
    (starts : Starts context outer inner)
    (part : middle.failed = true → Reported context inner middle)
    (steps : Machine.Steps context middle after)
    (later : middle.failed = false → Reported context outer after) :
    Reported context outer after := by
  cases flag : middle.failed with
  | true =>
      exact .of_reached (.starts .refl starts) (part flag) flag steps
  | false =>
      exact later flag

/-- A condition raises the flag, or deciding it does, or the error comes later. -/
private theorem reported_of_condition
    {task : Task}
    {condition : Expr}
    {decision : Option Bool}
    {chosen : Machine}
    (tested : task.condition? = some condition)
    (starts : Starts context ⟨task, before⟩ ⟨.eval condition, before⟩)
    (conditionRun : Run context (.eval condition) before value middle)
    (part : middle.failed = true → Reported context ⟨.eval condition, before⟩ middle)
    (decided : middle.decideCondition value = (decision, chosen))
    (steps : Machine.Steps context chosen after)
    (later : chosen.failed = false → Reported context ⟨task, before⟩ after) :
    Reported context ⟨task, before⟩ after := by
  refine reported_of_part starts part ((Machine.Steps.decideCondition decided).trans steps) ?_
  intro running
  cases flag : chosen.failed with
  | true =>
      obtain ⟨notBoolean, rfl⟩ := Machine.decideCondition_of_failing decided running flag
      exact .of_reached .refl (.here (.condition tested conditionRun running notBoolean) running)
        flag steps
  | false =>
      exact later flag

/-- A result that raises the flag is an error that the run reports itself. -/
private theorem reported_of_settle
    {outer : Moment}
    {result : Except EvalError Value}
    (running : middle.failed = false)
    (failed : (middle.settle result).2.failed = true)
    (reports : ∀ {error}, result = .error error → Reports context outer error) :
    Reported context outer (middle.settle result).2 := by
  obtain ⟨error, refused, reported⟩ := Machine.settle_of_failing running failed
  rw [reported]
  exact .here (reports refused) running

/--
A run that raises the flag has reported an error: the first part that raises the flag has
done so, and until then the flag is down.
-/
theorem reported
    {task : Task}
    (run : Run context task before value after)
    (running : before.failed = false)
    (failed : after.failed = true) :
    Reported context ⟨task, before⟩ after := by
  induction run with
  | number | bool | skip | nil =>
      exact nomatch running.symm.trans failed
  | retSkipped up | callSkipped up | skipped _ up | loopSkipped up =>
      exact nomatch running.symm.trans up
  | @ident before name _ settled =>
      rw [← settled] at failed ⊢
      refine reported_of_settle running failed ?_
      intro error refused
      cases found : before.env.lookup name with
      | ok =>
          simp [found, Except.mapError] at refused
      | error cause =>
          obtain rfl : EvalError.ofScope context.names cause = error := by
            simpa [found, Except.mapError] using refused
          exact .lookup running found
  | lambda settled =>
      rw [← settled] at failed ⊢
      exact reported_of_settle running failed nofun
  | read answered =>
      rw [← answered, Machine.readNumber_failed] at failed
      exact nomatch running.symm.trans failed
  | binary leftRun rightRun settled left right =>
      rw [← settled] at failed ⊢
      refine reported_of_part .left (left running)
        (rightRun.steps.trans (Machine.Steps.settle _ _)) ?_
      intro leftRunning
      refine reported_of_part (.right leftRun) (right leftRunning) (.settle _ _) ?_
      intro rightRunning
      exact reported_of_settle rightRunning failed (.binary leftRun rightRun rightRunning)
  | unary operandRun settled operand =>
      rw [← settled] at failed ⊢
      refine reported_of_part .operand (operand running) (.settle _ _) ?_
      intro operandRunning
      exact reported_of_settle operandRunning failed (.unary operandRun operandRunning)
  | ret _ _ returned =>
      exact .of_reached (.starts .refl (.returned running)) (returned running failed) failed
        (.single (.pushReturn _))
  | call _ calleeRun argRun applyRun callee arg applied =>
      refine reported_of_part (.callee running) (callee running)
        (argRun.steps.trans applyRun.steps) ?_
      intro calleeRunning
      refine reported_of_part (.arg running calleeRun) (arg calleeRunning) applyRun.steps ?_
      intro argRunning
      exact .of_reached (.starts .refl (.call running calleeRun argRun))
        (applied argRunning failed) failed .refl
  | callRefused _ calleeRun notClosure callee =>
      refine reported_of_part (.callee running) (callee running) (.single (.report _)) ?_
      intro calleeRunning
      exact .here (.callee calleeRun calleeRunning notClosure) calleeRunning
  | applyRefused broken =>
      exact .here (.limit running broken) running
  | @apply before last param body arg _ allowed bodyRun left inside =>
      rw [← left] at failed ⊢
      cases flag : (before.enterCall context.names param arg).failed with
      | true =>
          let opened : Machine :=
            { before.openScope with activeCalls := before.activeCalls + 1 }
          have openedRunning : opened.failed = false :=
            running
          obtain ⟨error, refused, reported⟩ := Machine.declare_of_failing openedRunning flag
          have entered : before.enterCall context.names param arg = opened.report _ :=
            reported
          refine .of_reached .refl ?_ flag (bodyRun.steps.tail .leaveCall)
          rw [entered]
          exact .here (.param running allowed refused) openedRunning
      | false =>
          exact .of_reached (.enters .refl allowed) (inside flag failed) failed
            (.single .leaveCall)
  | execBlock _ inside =>
      exact .of_reached (.starts .refl .execBlock) (inside running failed) failed .refl
  | execLoop _ inside =>
      exact .of_reached (.starts .refl .execLoop) (inside running failed) failed .refl
  | ifThenTaken _ conditionRun decided bodyRun condition inside =>
      refine reported_of_condition rfl (.ifThen running) conditionRun (condition running) decided
        bodyRun.steps ?_
      intro chosenRunning
      exact .of_reached (.starts .refl (.ifThenTaken running conditionRun decided))
        (inside chosenRunning failed) failed .refl
  | ifThenLeft _ conditionRun decided _ condition =>
      refine reported_of_condition rfl (.ifThen running) conditionRun (condition running) decided
        .refl ?_
      exact fun stillRunning => nomatch stillRunning.symm.trans failed
  | ifElseTaken _ conditionRun decided bodyRun condition inside =>
      refine reported_of_condition rfl (.ifElse running) conditionRun (condition running) decided
        bodyRun.steps ?_
      intro chosenRunning
      exact .of_reached (.starts .refl (.ifElseTaken running conditionRun decided))
        (inside chosenRunning failed) failed .refl
  | ifElseOther _ conditionRun decided bodyRun condition inside =>
      refine reported_of_condition rfl (.ifElse running) conditionRun (condition running) decided
        bodyRun.steps ?_
      intro chosenRunning
      exact .of_reached (.starts .refl (.ifElseOther running conditionRun decided))
        (inside chosenRunning failed) failed .refl
  | ifElseLeft _ conditionRun decided condition =>
      refine reported_of_condition rfl (.ifElse running) conditionRun (condition running) decided
        .refl ?_
      exact fun stillRunning => nomatch stillRunning.symm.trans failed
  | declare _ valueRun evaluated =>
      refine reported_of_part (.declare running) (evaluated running) (.single (.declare _ _)) ?_
      intro valueRunning
      obtain ⟨error, refused, reported⟩ := Machine.declare_of_failing valueRunning failed
      rw [reported]
      exact .here (.declare valueRun valueRunning refused) valueRunning
  | assign _ valueRun evaluated =>
      refine reported_of_part (.assign running) (evaluated running) (.single (.assign _ _)) ?_
      intro valueRunning
      obtain ⟨error, refused, reported⟩ := Machine.assign_of_failing valueRunning failed
      rw [reported]
      exact .here (.assign valueRun valueRunning refused) valueRunning
  | @write _ middle _ value _ _ evaluated =>
      have same : (middle.write value.text).failed = middle.failed := by
        unfold Machine.write
        split <;> rfl
      rw [same] at failed
      exact .of_reached (.starts .refl (.write running)) (evaluated running failed) failed
        (.single (.write _))
  | evalOnly _ _ evaluated =>
      exact .of_reached (.starts .refl (.evalOnly running)) (evaluated running failed) failed .refl
  | loopAgain _ conditionRun decided bodyRun againRun condition inside again =>
      refine reported_of_condition rfl (.loop running) conditionRun (condition running) decided
        (bodyRun.steps.trans againRun.steps) ?_
      intro chosenRunning
      refine reported_of_part (.loopBody running conditionRun decided) (inside chosenRunning)
        againRun.steps ?_
      intro againRunning
      exact .of_reached (.starts .refl (.loopAgain running conditionRun decided bodyRun))
        (again againRunning failed) failed .refl
  | loopLeft _ conditionRun decided _ condition =>
      refine reported_of_condition rfl (.loop running) conditionRun (condition running) decided
        .refl ?_
      exact fun stillRunning => nomatch stillRunning.symm.trans failed
  | block _ inside =>
      exact .of_reached (.starts .refl .block) (inside running failed) failed (.single .closeScope)
  | cons firstRun restRun first remaining =>
      refine reported_of_part .first (first running) restRun.steps ?_
      intro firstRunning
      exact .of_reached (.starts .refl (.rest firstRun)) (remaining firstRunning failed) failed
        .refl

end Run

/-! ## What no run sees -/

section

variable {context : Context} {outer inner : Moment}

/-- What a moment starts is a step further on than the moment. -/
theorem Starts.steps
    (starts : Starts context outer inner) :
    Machine.Steps context outer.machine inner.machine := by
  cases starts with
  | left | operand | returned | callee | execBlock | ifThen | ifElse | execLoop | declare
  | assign | write | evalOnly | loop | first =>
      exact .refl
  | right earlier | arg _ earlier | rest earlier =>
      exact earlier.steps
  | call _ earlier supplied =>
      exact earlier.steps.trans supplied.steps
  | ifThenTaken _ earlier decided | ifElseTaken _ earlier decided
  | ifElseOther _ earlier decided | loopBody _ earlier decided =>
      exact earlier.steps.trans (Machine.Steps.decideCondition decided)
  | loopAgain _ earlier decided body =>
      exact (earlier.steps.trans (Machine.Steps.decideCondition decided)).trans body.steps
  | block =>
      exact .single .openScope

/-- Elementary steps lead to every run that is reached, whether or not the whole run ends. -/
theorem Reaches.steps
    (reaches : Reaches context outer inner) :
    Machine.Steps context outer.machine inner.machine := by
  induction reaches with
  | refl =>
      exact .refl
  | starts _ starts inductionHypothesis =>
      exact inductionHypothesis.trans starts.steps
  | enters _ allowed inductionHypothesis =>
      exact inductionHypothesis.tail (.enterCall _ _ allowed)

end

namespace Environment

variable {env : Environment} {name : Name} {value : Value} {error : ScopeError}

/-- No lookup in a reachable environment finds a name declared without a binding. -/
theorem Reachable.lookup_ne_corrupted
    (reachable : env.Reachable)
    (name other : Name) :
    env.lookup name ≠ .error (.corrupted other) := by
  unfold Environment.lookup
  cases stack : env.bindings.stackOf name with
  | nil =>
      have undeclared : name ∉ env.current := by
        intro declared
        exact reachable.stackOf_ne_nil declared stack
      simp [undeclared]
  | cons =>
      simp

/-- A declaration is refused for one reason: the scope has the name. -/
theorem of_bind_eq_error
    (refused : env.bind name value = .error error) :
    error = .alreadyDeclared name := by
  unfold Environment.bind at refused
  split at refused
  · cases refused
    rfl
  · cases refused

/-- An assignment is refused for one reason: no scope has the name. -/
theorem of_rebind_eq_error
    (refused : env.rebind name value = .error error) :
    error = .unbound name := by
  unfold Environment.rebind at refused
  split at refused
  · cases refused
    rfl
  · cases refused

end Environment

/-- An operator refuses a divisor of zero and operands of the wrong kind, and `!=` refuses all. -/
theorem BinaryOp.of_apply_eq_error
    {op : BinaryOp}
    {left right : Value}
    {error : EvalError}
    (refused : op.apply left right = .error error) :
    error = .divisionByZero ∨
      (op = .ne ∧ error = .unsupportedOperator .ne) ∨
        ∃ expected found, error = .typeMismatch expected found := by
  have numbers (bad : EvalError) (unfit : left.numbers right = .error bad) :
      ∃ expected found, bad = .typeMismatch expected found := by
    unfold Value.numbers at unfit
    split at unfit <;> cases unfit <;> exact ⟨_, _, rfl⟩
  have booleans (bad : EvalError) (unfit : left.booleans right = .error bad) :
      ∃ expected found, bad = .typeMismatch expected found := by
    unfold Value.booleans at unfit
    split at unfit <;> cases unfit <;> exact ⟨_, _, rfl⟩
  cases op with
  | ne =>
      cases refused
      exact .inr (.inl ⟨rfl, rfl⟩)
  | div =>
      cases fit : left.numbers right with
      | error bad =>
          obtain rfl : bad = error := by
            simpa [apply, fit, bind, Except.bind] using refused
          exact .inr (.inr (numbers bad fit))
      | ok both =>
          obtain ⟨first, second⟩ := both
          by_cases zero : second = 0
          · rw [apply, fit] at refused
            simp only [bind, Except.bind, zero, if_true] at refused
            cases refused
            exact .inl rfl
          · simp [apply, fit, bind, Except.bind, zero, pure, Except.pure] at refused
  | and | or =>
      cases fit : left.booleans right with
      | error bad =>
          obtain rfl : bad = error := by
            simpa [apply, fit, bind, Except.bind] using refused
          exact .inr (.inr (booleans bad fit))
      | ok both =>
          simp [apply, fit, bind, Except.bind, pure, Except.pure] at refused
  | add | sub | mul | eq | lt | le | gt | ge =>
      cases fit : left.numbers right with
      | error bad =>
          obtain rfl : bad = error := by
            simpa [apply, fit, bind, Except.bind] using refused
          exact .inr (.inr (numbers bad fit))
      | ok both =>
          simp [apply, fit, bind, Except.bind, pure, Except.pure] at refused

/-- A prefix operator refuses only values of another type. -/
theorem UnaryOp.of_apply_eq_error
    {op : UnaryOp}
    {value : Value}
    {error : EvalError}
    (refused : op.apply value = .error error) :
    ∃ expected found, error = .typeMismatch expected found := by
  cases op <;> cases value <;> cases refused <;> exact ⟨_, _, rfl⟩

namespace Reports

variable {context : Context} {moment : Moment} {error : EvalError}

/-- On a reachable environment no run reports a name that is declared without a binding. -/
theorem ne_scopeCorrupted
    (reports : Reports context moment error)
    (reachable : moment.machine.env.Reachable)
    (text : String) :
    error ≠ .scopeCorrupted text := by
  cases reports with
  | @lookup before name cause _ refused =>
      cases cause with
      | corrupted other =>
          exact (reachable.lookup_ne_corrupted name other refused).elim
      | unbound | alreadyDeclared =>
          exact nofun
  | binary _ _ _ refused =>
      obtain rfl | ⟨-, rfl⟩ | ⟨expected, found, rfl⟩ := BinaryOp.of_apply_eq_error refused <;>
        exact nofun
  | unary _ _ refused =>
      obtain ⟨expected, found, rfl⟩ := UnaryOp.of_apply_eq_error refused
      exact nofun
  | callee | limit | condition =>
      exact nofun
  | param _ _ refused | declare _ _ refused =>
      obtain rfl := Environment.of_bind_eq_error refused
      exact nofun
  | assign _ _ refused =>
      obtain rfl := Environment.of_rebind_eq_error refused
      exact nofun

/-- An operator that is reported as unsupported is `!=`. -/
theorem of_unsupportedOperator
    {op : BinaryOp}
    (reports : Reports context moment error)
    (unsupported : error = .unsupportedOperator op) :
    op = .ne ∧ ∃ left right, moment.task = .eval (.binary .ne left right) := by
  cases reports with
  | @lookup _ _ cause =>
      cases cause <;> cases unsupported
  | binary _ _ _ refused =>
      obtain rfl | ⟨rfl, rfl⟩ | ⟨expected, found, rfl⟩ := BinaryOp.of_apply_eq_error refused
      · cases unsupported
      · cases unsupported
        exact ⟨rfl, _, _, rfl⟩
      · cases unsupported
  | unary _ _ refused =>
      obtain ⟨expected, found, rfl⟩ := UnaryOp.of_apply_eq_error refused
      cases unsupported
  | callee | limit | condition =>
      cases unsupported
  | param _ _ refused | declare _ _ refused =>
      obtain rfl := Environment.of_bind_eq_error refused
      cases unsupported
  | assign _ _ refused =>
      obtain rfl := Environment.of_rebind_eq_error refused
      cases unsupported

end Reports

/--
What is out of the question when a run begins: a lookup of a name that is declared and
not bound, a parameter that is declared already, an assignment that is refused for any
other reason than that its name is not bound, a call that ends while no call is active,
and errors that say so. An error that raises the flag is one that the run reports, or a
run that it reaches.
-/
structure Moment.Orderly (context : Context) (moment : Moment) : Prop where
  found : ∀ name other, moment.machine.env.lookup name ≠ .error (.corrupted other)
  bound : ∀ param body arg,
    moment.task = .apply param body arg →
      ∃ env,
        moment.machine.env.openScope.bind param arg = .ok env ∧
          (moment.machine.enterCall context.names param arg).env = env
  assigned : ∀ name expr value middle error,
    moment.task = .exec (.assign name expr) →
      Run context (.eval expr) moment.machine value middle →
        middle.env.rebind name value = .error error →
          error = .unbound name
  active : ∀ param body arg last,
    moment.task = .apply param body arg →
      Run context (.execAll body) (moment.machine.enterCall context.names param arg) .unset
          last →
        1 ≤ last.activeCalls
  intact : ∀ error text, Reports context moment error → error ≠ .scopeCorrupted text
  supported : ∀ op,
    Reports context moment (.unsupportedOperator op) →
      op = .ne ∧ ∃ left right, moment.task = .eval (.binary .ne left right)
  reported : ∀ value after,
    Run context moment.task moment.machine value after →
      moment.machine.failed = false →
        after.failed = true →
          Reported context moment after

/--
Every run that is reached from a run on a reachable environment begins orderly, whether
or not the whole run ends.
-/
theorem Reaches.orderly
    {context : Context}
    {outer inner : Moment}
    (reaches : Reaches context outer inner)
    (reachable : outer.machine.env.Reachable) :
    inner.Orderly context := by
  have innerReachable := reaches.steps.reachable reachable
  refine ⟨innerReachable.lookup_ne_corrupted, ?_, ?_, ?_, ?_, ?_, ?_⟩
  · intro param body arg _
    exact ⟨_, rfl, rfl⟩
  · intro name expr value middle error _ _ refused
    exact Environment.of_rebind_eq_error refused
  · intro param body arg last _ bodyRun
    rw [bodyRun.tidy.calls, Machine.activeCalls_enterCall]
    exact Nat.le_add_left 1 _
  · intro error text reports
    exact reports.ne_scopeCorrupted innerReachable text
  · intro op reports
    exact reports.of_unsupportedOperator rfl
  · intro value after run running failed
    exact run.reported running failed

/-- The body of a call assigns its parameter to a name that is not bound. -/
theorem Reaches.orderly_unbound_assignment :
    let context : Context := ⟨.initial, {}⟩
    let statement : Stmt := .assign ⟨2⟩ (.ident ⟨1⟩)
    let before := Machine.ofConsole (.ofInput .closed)
    let outer : Moment := ⟨.eval (.call (.lambda ⟨1⟩ [statement]) (.number 3)), before⟩
    let inner : Moment := ⟨.exec statement, before.enterCall .initial ⟨1⟩ (.number 3)⟩
    Reaches context outer inner ∧
      before.env.Reachable ∧
        Reports context inner (.rebindUnbound (NameTable.initial.textOf ⟨2⟩)) ∧
          inner.Orderly context := by
  intro context statement before outer inner
  have reaches : Reaches context outer inner :=
    .starts (.enters (.starts .refl (.call rfl (.lambda rfl) .number)) rfl) .first
  have reachable : before.env.Reachable :=
    ⟨[], rfl⟩
  have reports : Reports context inner (.ofRebind context.names (.unbound ⟨2⟩)) :=
    .assign (.ident rfl) rfl rfl
  exact ⟨reaches, reachable, reports, reaches.orderly reachable⟩

end ScopeLang
