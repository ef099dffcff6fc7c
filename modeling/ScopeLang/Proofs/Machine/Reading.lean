import ScopeLang.Proofs.Machine.Moments

namespace ScopeLang

/-!
# Runs that read nothing

Only the expression that reads takes a line from the input, and with the flag up it takes
none. A run that reaches no such expression with the flag down leaves the input as it
found it. So does every run that is given none, in its task or in the bodies of lambdas.
-/

/-- Whatever the run reads, it reads with the flag up. -/
def NeverReads (context : Context) (moment : Moment) : Prop :=
  ∀ place, Reaches context moment ⟨.eval .read, place⟩ → place.failed = true

namespace NeverReads

variable {context : Context} {outer inner : Moment}

/-- What is reached from a run that reads nothing reads nothing. -/
theorem of_reaches
    (never : NeverReads context outer)
    (reaches : Reaches context outer inner) :
    NeverReads context inner :=
  fun place further => never place (reaches.trans further)

/-- What a moment starts reads nothing if the moment itself never comes to read. -/
theorem starts
    (never : NeverReads context outer)
    (starts : Starts context outer inner) :
    NeverReads context inner :=
  never.of_reaches (.starts .refl starts)

end NeverReads

namespace Machine

section

variable (machine : Machine)

@[simp] theorem input_report
    (error : EvalError) :
    (machine.report error).console.input = machine.console.input := by
  unfold report
  split <;> rfl

@[simp] theorem input_settle
    (result : Except EvalError Value) :
    (machine.settle result).2.console.input = machine.console.input := by
  unfold settle
  split
  · rfl
  · split
    · rfl
    · exact input_report machine _

@[simp] theorem input_write
    (text : String) :
    (machine.write text).console.input = machine.console.input := by
  unfold write
  split <;> rfl

@[simp] theorem input_declare
    (names : NameTable)
    (name : Name)
    (value : Value) :
    (machine.declare names name value).console.input = machine.console.input := by
  unfold declare
  split
  · rfl
  · exact input_report machine _

@[simp] theorem input_assign
    (names : NameTable)
    (name : Name)
    (value : Value) :
    (machine.assign names name value).console.input = machine.console.input := by
  unfold assign
  split
  · rfl
  · exact input_report machine _

@[simp] theorem input_enterCall
    (names : NameTable)
    (param : Name)
    (arg : Value) :
    (machine.enterCall names param arg).console.input = machine.console.input :=
  input_declare _ names param arg

end

/-- Deciding a condition leaves the input where it was. -/
theorem input_of_decideCondition
    {machine after : Machine}
    {value : Value}
    {decision : Option Bool}
    (decided : machine.decideCondition value = (decision, after)) :
    after.console.input = machine.console.input := by
  unfold decideCondition at decided
  split at decided
  · cases decided
    rfl
  · split at decided
    · cases decided
      rfl
    · cases decided
      exact input_report machine _

end Machine

/--
The run lemma: a run that reads nothing leaves the input as it was. Its parts are runs that
it starts or enters, so they read nothing either.
-/
theorem Run.input_eq
    {context : Context}
    {task : Task}
    {before after : Machine}
    {value : Value}
    (run : Run context task before value after)
    (never : NeverReads context ⟨task, before⟩) :
    after.console.input = before.console.input := by
  induction run with
  | number | bool | retSkipped | callSkipped | skip | skipped | loopSkipped | nil =>
      rfl
  | ident settled | lambda settled =>
      rw [← settled, Machine.input_settle]
  | @read before result answered =>
      have up : before.failed = true := never before .refl
      rw [← answered, Machine.readNumber, if_pos up]
  | binary leftRun _ settled left right =>
      rw [← settled, Machine.input_settle, right (never.starts (.right leftRun)),
        left (never.starts .left)]
  | unary _ settled operand =>
      rw [← settled, Machine.input_settle, operand (never.starts .operand)]
  | ret running _ returned =>
      exact returned (never.starts (.returned running))
  | call running calleeRun argRun _ callee arg applied =>
      rw [applied (never.starts (.call running calleeRun argRun)),
        arg (never.starts (.arg running calleeRun)), callee (never.starts (.callee running))]
  | callRefused running _ _ callee =>
      rw [Machine.input_report, callee (never.starts (.callee running))]
  | applyRefused =>
      exact Machine.input_report _ _
  | apply allowed _ left body =>
      have entered := body (never.of_reaches (.enters .refl allowed))
      rw [Machine.input_enterCall] at entered
      rw [← left]
      exact entered
  | execBlock _ body =>
      exact body (never.starts .execBlock)
  | execLoop _ repeated =>
      exact repeated (never.starts .execLoop)
  | ifThenTaken running conditionRun decided _ condition body =>
      rw [body (never.starts (.ifThenTaken running conditionRun decided)),
        Machine.input_of_decideCondition decided, condition (never.starts (.ifThen running))]
  | ifThenLeft running _ decided _ condition =>
      rw [Machine.input_of_decideCondition decided, condition (never.starts (.ifThen running))]
  | ifElseTaken running conditionRun decided _ condition body =>
      rw [body (never.starts (.ifElseTaken running conditionRun decided)),
        Machine.input_of_decideCondition decided, condition (never.starts (.ifElse running))]
  | ifElseOther running conditionRun decided _ condition body =>
      rw [body (never.starts (.ifElseOther running conditionRun decided)),
        Machine.input_of_decideCondition decided, condition (never.starts (.ifElse running))]
  | ifElseLeft running _ decided condition =>
      rw [Machine.input_of_decideCondition decided, condition (never.starts (.ifElse running))]
  | declare running _ evaluated =>
      rw [Machine.input_declare, evaluated (never.starts (.declare running))]
  | assign running _ evaluated =>
      rw [Machine.input_assign, evaluated (never.starts (.assign running))]
  | write running _ evaluated =>
      rw [Machine.input_write, evaluated (never.starts (.write running))]
  | evalOnly running _ evaluated =>
      exact evaluated (never.starts (.evalOnly running))
  | loopAgain running conditionRun decided bodyRun _ condition body again =>
      rw [again (never.starts (.loopAgain running conditionRun decided bodyRun)),
        body (never.starts (.loopBody running conditionRun decided)),
        Machine.input_of_decideCondition decided, condition (never.starts (.loop running))]
  | loopLeft running _ decided _ condition =>
      rw [Machine.input_of_decideCondition decided, condition (never.starts (.loop running))]
  | block _ body =>
      exact body (never.starts .block)
  | cons firstRun _ first remaining =>
      rw [remaining (never.starts (.rest firstRun)), first (never.starts .first)]

/-! ## Programs without expressions that read -/

mutual

/-- No expression that reads is written in an expression, apart from the bodies of lambdas. -/
def Expr.ReadFree : Expr → Prop
  | .ident _ | .number _ | .bool _ | .lambda _ _ => True
  | .read => False
  | .binary _ left right => left.ReadFree ∧ right.ReadFree
  | .unary _ operand => operand.ReadFree
  | .ret value => value.ReadFree
  | .call callee arg => callee.ReadFree ∧ arg.ReadFree

/-- No expression that reads is written in a statement, apart from the bodies of lambdas. -/
def Stmt.ReadFree : Stmt → Prop
  | .skip => True
  | .block body => Stmt.AllReadFree body
  | .ifThen condition thenBody => condition.ReadFree ∧ Stmt.AllReadFree thenBody
  | .ifElse condition thenBody elseBody =>
      condition.ReadFree ∧ Stmt.AllReadFree thenBody ∧ Stmt.AllReadFree elseBody
  | .loop condition body => condition.ReadFree ∧ Stmt.AllReadFree body
  | .declare _ value | .assign _ value | .write value | .eval value => value.ReadFree

/-- No expression that reads is written in the statements of a sequence. -/
def Stmt.AllReadFree : List Stmt → Prop
  | [] => True
  | statement :: rest => statement.ReadFree ∧ Stmt.AllReadFree rest

end

/-- No expression that reads is written in the body of a lambda. -/
def Lambda.ReadFree (lambda : Lambda) : Prop :=
  Stmt.AllReadFree lambda.body

/-- No expression that reads is written in what there is to run, apart from what it calls. -/
def Task.ReadFree : Task → Prop
  | .eval expr => expr.ReadFree
  | .apply _ _ _ => True
  | .exec statement => statement.ReadFree
  | .loop condition body => condition.ReadFree ∧ Stmt.AllReadFree body
  | .block body | .execAll body => Stmt.AllReadFree body

section

variable {context : Context} {outer inner : Moment}

/-- What a run starts is written in its task, except for the calls. -/
theorem Task.ReadFree.starts
    (readFree : outer.task.ReadFree)
    (starts : Starts context outer inner) :
    inner.task.ReadFree := by
  cases starts with
  | left | callee | ifThen | ifElse | loop | first =>
      exact readFree.1
  | right | arg | ifThenTaken | loopBody | rest =>
      exact readFree.2
  | ifElseTaken =>
      exact readFree.2.1
  | ifElseOther =>
      exact readFree.2.2
  | operand | returned | execBlock | execLoop | declare | assign | write | evalOnly | loopAgain
  | block =>
      exact readFree
  | call =>
      exact True.intro

/-- Where no expression that reads is given to a run, it is given to no run that is reached. -/
theorem Task.ReadFree.reaches
    (readFree : outer.task.ReadFree)
    (every : outer.Every Lambda.ReadFree)
    (reaches : Reaches context outer inner) :
    inner.task.ReadFree := by
  induction reaches with
  | refl =>
      exact readFree
  | starts _ starts inductionHypothesis =>
      exact inductionHypothesis.starts starts
  | enters earlier =>
      exact (every.reaches earlier).written.called

/-- A run that is given no expression that reads reads nothing. -/
theorem NeverReads.of_readFree
    (readFree : outer.task.ReadFree)
    (every : outer.Every Lambda.ReadFree) :
    NeverReads context outer :=
  fun _ reaches => (readFree.reaches every reaches).elim

end

end ScopeLang
