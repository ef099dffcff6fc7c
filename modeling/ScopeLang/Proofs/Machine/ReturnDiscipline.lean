import ScopeLang.Proofs.Machine.Moments

namespace ScopeLang

/-!
# One return for every call

The return channel knows nothing of calls: a call takes the latest value on it,
whoever handed it in. But where the body of every lambda holds exactly one return,
on whichever way through it, and nothing else returns, the channel works like a
stack of calls: each call takes what its own body has handed in, and a run leaves
the channel as it was.
-/

mutual

/-- No return is written in an expression; the bodies of its lambdas are not looked into. -/
def Expr.ReturnFree : Expr → Prop
  | .ident _ | .number _ | .bool _ | .read | .lambda _ _ => True
  | .binary _ left right => left.ReturnFree ∧ right.ReturnFree
  | .unary _ operand => operand.ReturnFree
  | .ret _ => False
  | .call callee arg => callee.ReturnFree ∧ arg.ReturnFree

/-- No return is written in a statement; the bodies of its lambdas are not looked into. -/
def Stmt.ReturnFree : Stmt → Prop
  | .skip => True
  | .block body => Stmt.AllReturnFree body
  | .ifThen condition thenBody => condition.ReturnFree ∧ Stmt.AllReturnFree thenBody
  | .ifElse condition thenBody elseBody =>
      condition.ReturnFree ∧ Stmt.AllReturnFree thenBody ∧ Stmt.AllReturnFree elseBody
  | .loop condition body => condition.ReturnFree ∧ Stmt.AllReturnFree body
  | .declare _ value | .assign _ value | .write value | .eval value => value.ReturnFree

/-- No return is written in the statements of a sequence. -/
def Stmt.AllReturnFree : List Stmt → Prop
  | [] => True
  | statement :: rest => statement.ReturnFree ∧ Stmt.AllReturnFree rest

end

mutual

/--
A statement is a return, or a block with a single return, or a decision between two
bodies with a single return each.
-/
def Stmt.Returns : Stmt → Prop
  | .eval (.ret value) => value.ReturnFree
  | .block body => Stmt.SingleReturn body
  | .ifElse condition thenBody elseBody =>
      condition.ReturnFree ∧ Stmt.SingleReturn thenBody ∧ Stmt.SingleReturn elseBody
  | _ => False

/-- Exactly one statement of a body returns, and no return is written in the others. -/
def Stmt.SingleReturn : List Stmt → Prop
  | [] => False
  | statement :: rest =>
      (statement.Returns ∧ Stmt.AllReturnFree rest) ∨
        (statement.ReturnFree ∧ Stmt.SingleReturn rest)

end

/-- The body of a lambda has a single return. -/
def Lambda.SingleReturn (lambda : Lambda) : Prop :=
  Stmt.SingleReturn lambda.body

/-- No return is written in what there is to run, apart from what it calls. -/
def Task.ReturnFree : Task → Prop
  | .eval expr => expr.ReturnFree
  | .apply _ _ _ => True
  | .exec statement => statement.ReturnFree
  | .loop condition body => condition.ReturnFree ∧ Stmt.AllReturnFree body
  | .block body | .execAll body => Stmt.AllReturnFree body

/-- What there is to run has a single return. -/
def Task.SingleReturn : Task → Prop
  | .eval (.ret value) => value.ReturnFree
  | .exec statement => statement.Returns
  | .block body | .execAll body => Stmt.SingleReturn body
  | _ => False

namespace Machine

section

variable (machine : Machine)

/-- A report leaves the flag up. -/
theorem report_failed (error : EvalError) : (machine.report error).failed = true := by
  unfold report
  split
  · assumption
  · rfl

theorem report_returns (error : EvalError) : (machine.report error).returns = machine.returns := by
  unfold report
  split <;> rfl

/-- A result that is settled without a failure changes nothing. -/
theorem settle_of_running
    {machine : Machine}
    {result : Except EvalError Value}
    (running : (machine.settle result).2.failed = false) :
    (machine.settle result).2 = machine := by
  unfold settle at running ⊢
  split
  · rfl
  · rename_i down
    rw [if_neg down] at running
    split
    · rfl
    · exact nomatch running.symm.trans (report_failed machine _)

/-- A condition that is decided without a failure is a truth value, and nothing changes. -/
theorem decideCondition_of_running
    {machine after : Machine}
    {value : Value}
    {decision : Option Bool}
    (decided : machine.decideCondition value = (decision, after))
    (running : after.failed = false) :
    (∃ truth, decision = some truth) ∧ after = machine := by
  unfold decideCondition at decided
  split at decided
  · rename_i failed
    cases decided
    exact nomatch running.symm.trans failed
  · split at decided
    · cases decided
      exact ⟨⟨_, rfl⟩, rfl⟩
    · cases decided
      exact nomatch running.symm.trans (report_failed machine _)

theorem readNumber_returns
    (prompt : String) :
    (machine.readNumber prompt).2.returns = machine.returns := by
  unfold readNumber
  split <;> rfl

theorem write_returns (text : String) : (machine.write text).returns = machine.returns := by
  unfold write
  split <;> rfl

theorem declare_returns
    (names : NameTable)
    (name : Name)
    (value : Value) :
    (machine.declare names name value).returns = machine.returns := by
  unfold declare
  split
  · rfl
  · exact report_returns machine _

theorem assign_returns
    (names : NameTable)
    (name : Name)
    (value : Value) :
    (machine.assign names name value).returns = machine.returns := by
  unfold assign
  split
  · rfl
  · exact report_returns machine _

theorem enterCall_returns
    (names : NameTable)
    (param : Name)
    (arg : Value) :
    (machine.enterCall names param arg).returns = machine.returns :=
  declare_returns _ names param arg

end

/-- A call takes the latest value on the channel. -/
theorem leaveCall_of_returns
    {machine : Machine}
    {value : Value}
    {rest : ReturnChannel}
    (pending : machine.returns = value :: rest) :
    machine.leaveCall.1 = value ∧ machine.leaveCall.2.returns = rest := by
  simp [leaveCall, popReturn, closeScope, pending, ReturnChannel.pop]

end Machine

/--
A return that is evaluated within a run, with the flag down, hands in a value, and at
the end of the run this value comes on top of what was pending at its start.
-/
def HandsIn (context : Context) (start : Moment) (value : Value) (after : Machine) : Prop :=
  ∃ expr moment last,
    Within context start ⟨.eval (.ret expr), moment⟩ ∧
      moment.failed = false ∧
        Run context (.eval expr) moment value last ∧
          after.returns = value :: start.machine.returns

/-- What is handed in within a run is handed in within the run that started it. -/
theorem HandsIn.of_starts
    {context : Context}
    {outer inner : Moment}
    {value : Value}
    {innerAfter after : Machine}
    (starts : Starts context outer inner)
    (handsIn : HandsIn context inner value innerAfter)
    (sameBefore : inner.machine.returns = outer.machine.returns)
    (sameAfter : after.returns = innerAfter.returns) :
    HandsIn context outer value after := by
  obtain ⟨expr, moment, last, within, down, run, pending⟩ := handsIn
  refine ⟨expr, moment, last, .head starts within, down, run, ?_⟩
  rw [sameAfter, pending, sameBefore]

/-- What a run does to the return channel, by the returns that are written in its task. -/
structure Disciplined (context : Context) (start : Moment) (after : Machine) : Prop where
  kept : start.task.ReturnFree → after.returns = start.machine.returns
  handedIn : start.task.SingleReturn → ∃ value, HandsIn context start value after

/--
A run without a failure is disciplined, if all lambdas have a single return. The flag is
down at the end, so every run inside ended with the flag down, and the rules that skip or
report do not apply.
-/
theorem Run.disciplined
    {context : Context}
    {task : Task}
    {before after : Machine}
    {value : Value}
    (run : Run context task before value after)
    (every : Moment.Every Lambda.SingleReturn ⟨task, before⟩)
    (running : after.failed = false) :
    Disciplined context ⟨task, before⟩ after := by
  induction run with
  | number | bool | skip =>
      exact ⟨fun _ => rfl, nofun⟩
  | nil =>
      exact ⟨fun _ => rfl, nofun⟩
  | ident settled | lambda settled =>
      subst settled
      rw [Machine.settle_of_running running]
      exact ⟨fun _ => rfl, nofun⟩
  | read answered =>
      subst answered
      exact ⟨fun _ => Machine.readNumber_returns _ _, nofun⟩
  | retSkipped failed | callSkipped failed | skipped _ failed | loopSkipped failed =>
      exact nomatch running.symm.trans failed
  | callRefused | applyRefused =>
      exact nomatch running.symm.trans (Machine.report_failed _ _)
  | binary leftRun rightRun settled left right =>
      subst settled
      have unchanged := Machine.settle_of_running running
      rw [unchanged] at running ⊢
      have leftDisciplined :=
        left (every.starts (.left : Starts context _ _)) (rightRun.running running)
      have rightDisciplined := right (every.starts (.right leftRun)) running
      refine ⟨fun ⟨leftFree, rightFree⟩ => ?_, nofun⟩
      exact (rightDisciplined.kept rightFree).trans (leftDisciplined.kept leftFree)
  | unary _ settled operand =>
      subst settled
      have unchanged := Machine.settle_of_running running
      rw [unchanged] at running ⊢
      have operandDisciplined := operand (every.starts (.operand : Starts context _ _)) running
      exact ⟨operandDisciplined.kept, nofun⟩
  | @ret before middle expr value down valueRun returned =>
      have valueDisciplined := returned (every.starts (.returned down : Starts context _ _)) running
      refine ⟨nofun, fun free => ⟨value, expr, before, middle, .refl, down, valueRun, ?_⟩⟩
      exact congrArg (value :: ·) (valueDisciplined.kept free)
  | call down calleeRun argRun applyRun callee arg applied =>
      have suppliedRunning := applyRun.running running
      have calledRunning := argRun.running suppliedRunning
      have calleeDisciplined :=
        callee (every.starts (.callee down : Starts context _ _)) calledRunning
      have argDisciplined := arg (every.starts (.arg down calleeRun)) suppliedRunning
      have applyDisciplined := applied (every.starts (.call down calleeRun argRun)) running
      refine ⟨fun ⟨calleeFree, argFree⟩ => ?_, nofun⟩
      exact (applyDisciplined.kept trivial).trans
        ((argDisciplined.kept argFree).trans (calleeDisciplined.kept calleeFree))
  | apply _ _ left body =>
      subst left
      have bodyDisciplined := body every.enters running
      refine ⟨fun _ => ?_, nofun⟩
      obtain ⟨value, _, _, _, _, _, _, pending⟩ := bodyDisciplined.handedIn every.written.called
      rw [(Machine.leaveCall_of_returns pending).2]
      exact Machine.enterCall_returns _ context.names _ _
  | execBlock _ body =>
      have bodyDisciplined := body (every.starts (.execBlock : Starts context _ _)) running
      refine ⟨bodyDisciplined.kept, fun single => ?_⟩
      obtain ⟨value, handsIn⟩ := bodyDisciplined.handedIn single
      exact ⟨value, handsIn.of_starts .execBlock rfl rfl⟩
  | ifThenTaken down conditionRun decided bodyRun condition body =>
      have chosenRunning := bodyRun.running running
      obtain ⟨-, rfl⟩ := Machine.decideCondition_of_running decided chosenRunning
      have conditionDisciplined :=
        condition (every.starts (.ifThen down : Starts context _ _)) chosenRunning
      have bodyDisciplined := body (every.starts (.ifThenTaken down conditionRun decided)) running
      refine ⟨fun ⟨conditionFree, bodyFree⟩ => ?_, nofun⟩
      exact (bodyDisciplined.kept bodyFree).trans (conditionDisciplined.kept conditionFree)
  | ifThenLeft down conditionRun decided _ condition =>
      obtain ⟨-, rfl⟩ := Machine.decideCondition_of_running decided running
      have conditionDisciplined :=
        condition (every.starts (.ifThen down : Starts context _ _)) running
      exact ⟨fun ⟨conditionFree, _⟩ => conditionDisciplined.kept conditionFree, nofun⟩
  | ifElseTaken down conditionRun decided bodyRun condition body =>
      have chosenRunning := bodyRun.running running
      obtain ⟨-, rfl⟩ := Machine.decideCondition_of_running decided chosenRunning
      have conditionDisciplined :=
        condition (every.starts (.ifElse down : Starts context _ _)) chosenRunning
      have bodyDisciplined := body (every.starts (.ifElseTaken down conditionRun decided)) running
      constructor
      · intro ⟨conditionFree, thenFree, _⟩
        exact (bodyDisciplined.kept thenFree).trans (conditionDisciplined.kept conditionFree)
      · intro ⟨conditionFree, thenSingle, _⟩
        obtain ⟨value, handsIn⟩ := bodyDisciplined.handedIn thenSingle
        have sameBefore := conditionDisciplined.kept conditionFree
        exact ⟨value, handsIn.of_starts (.ifElseTaken down conditionRun decided) sameBefore rfl⟩
  | ifElseOther down conditionRun decided bodyRun condition body =>
      have chosenRunning := bodyRun.running running
      obtain ⟨-, rfl⟩ := Machine.decideCondition_of_running decided chosenRunning
      have conditionDisciplined :=
        condition (every.starts (.ifElse down : Starts context _ _)) chosenRunning
      have bodyDisciplined := body (every.starts (.ifElseOther down conditionRun decided)) running
      constructor
      · intro ⟨conditionFree, _, elseFree⟩
        exact (bodyDisciplined.kept elseFree).trans (conditionDisciplined.kept conditionFree)
      · intro ⟨conditionFree, _, elseSingle⟩
        obtain ⟨value, handsIn⟩ := bodyDisciplined.handedIn elseSingle
        have sameBefore := conditionDisciplined.kept conditionFree
        exact ⟨value, handsIn.of_starts (.ifElseOther down conditionRun decided) sameBefore rfl⟩
  | ifElseLeft _ _ decided =>
      obtain ⟨⟨_, someTruth⟩, -⟩ := Machine.decideCondition_of_running decided running
      cases someTruth
  | execLoop _ body =>
      have loopDisciplined := body (every.starts (.execLoop : Starts context _ _)) running
      exact ⟨loopDisciplined.kept, nofun⟩
  | declare down _ evaluated =>
      have middleRunning := (Machine.Speaks.declare _ _ _ _).running running
      have valueDisciplined :=
        evaluated (every.starts (.declare down : Starts context _ _)) middleRunning
      refine ⟨fun free => ?_, nofun⟩
      rw [Machine.declare_returns]
      exact valueDisciplined.kept free
  | assign down _ evaluated =>
      have middleRunning := (Machine.Speaks.assign _ _ _ _).running running
      have valueDisciplined :=
        evaluated (every.starts (.assign down : Starts context _ _)) middleRunning
      refine ⟨fun free => ?_, nofun⟩
      rw [Machine.assign_returns]
      exact valueDisciplined.kept free
  | write down _ evaluated =>
      have middleRunning := (Machine.Speaks.write _ _).running running
      have valueDisciplined :=
        evaluated (every.starts (.write down : Starts context _ _)) middleRunning
      refine ⟨fun free => ?_, nofun⟩
      rw [Machine.write_returns]
      exact valueDisciplined.kept free
  | @evalOnly _ _ expr _ down _ evaluated =>
      have valueDisciplined :=
        evaluated (every.starts (.evalOnly down : Starts context _ _)) running
      refine ⟨valueDisciplined.kept, fun single => ?_⟩
      have exprSingle : (Task.eval expr).SingleReturn := by
        cases expr with
        | ret =>
            exact single
        | _ =>
            exact single.elim
      obtain ⟨value, handsIn⟩ := valueDisciplined.handedIn exprSingle
      exact ⟨value, handsIn.of_starts (.evalOnly down) rfl rfl⟩
  | loopAgain down conditionRun decided bodyRun againRun condition body again =>
      have againRunning := againRun.running running
      have chosenRunning := bodyRun.running againRunning
      obtain ⟨-, rfl⟩ := Machine.decideCondition_of_running decided chosenRunning
      have conditionDisciplined :=
        condition (every.starts (.loop down : Starts context _ _)) chosenRunning
      have bodyDisciplined := body (every.starts (.loopBody down conditionRun decided)) againRunning
      have againDisciplined :=
        again (every.starts (.loopAgain down conditionRun decided bodyRun)) running
      refine ⟨fun free => ?_, nofun⟩
      exact (againDisciplined.kept free).trans
        ((bodyDisciplined.kept free.2).trans (conditionDisciplined.kept free.1))
  | loopLeft down conditionRun decided _ condition =>
      obtain ⟨-, rfl⟩ := Machine.decideCondition_of_running decided running
      have conditionDisciplined :=
        condition (every.starts (.loop down : Starts context _ _)) running
      exact ⟨fun ⟨conditionFree, _⟩ => conditionDisciplined.kept conditionFree, nofun⟩
  | block _ body =>
      have bodyDisciplined := body (every.starts (.block : Starts context _ _)) running
      refine ⟨bodyDisciplined.kept, fun single => ?_⟩
      obtain ⟨value, handsIn⟩ := bodyDisciplined.handedIn single
      exact ⟨value, handsIn.of_starts .block rfl rfl⟩
  | cons firstRun restRun first remaining =>
      have middleRunning := restRun.running running
      have firstDisciplined := first (every.starts (.first : Starts context _ _)) middleRunning
      have restDisciplined := remaining (every.starts (.rest firstRun)) running
      constructor
      · intro ⟨firstFree, restFree⟩
        exact (restDisciplined.kept restFree).trans (firstDisciplined.kept firstFree)
      · rintro (⟨firstReturns, restFree⟩ | ⟨firstFree, restSingle⟩)
        · obtain ⟨value, handsIn⟩ := firstDisciplined.handedIn firstReturns
          exact ⟨value, handsIn.of_starts .first rfl (restDisciplined.kept restFree)⟩
        · obtain ⟨value, handsIn⟩ := restDisciplined.handedIn restSingle
          have sameBefore := firstDisciplined.kept firstFree
          exact ⟨value, handsIn.of_starts (.rest firstRun) sameBefore rfl⟩

/--
A call runs its body to the end, a return of this body hands in a value, and this
value is the one that the call yields.
-/
def Answered
    (context : Context)
    (param : Name)
    (body : List Stmt)
    (arg : Value)
    (entry : Machine) :
    Prop :=
  ∃ value last,
    Run context (.execAll body) (entry.enterCall context.names param arg) .unset last ∧
      HandsIn context ⟨.execAll body, entry.enterCall context.names param arg⟩ value last ∧
        Run context (.apply param body arg) entry value last.leaveCall.2

/-- A call without a failure is answered, if all lambdas have a single return. -/
theorem Run.answered
    {context : Context}
    {param : Name}
    {body : List Stmt}
    {arg value : Value}
    {entry after : Machine}
    (run : Run context (.apply param body arg) entry value after)
    (every : Moment.Every Lambda.SingleReturn ⟨.apply param body arg, entry⟩)
    (running : after.failed = false) :
    Answered context param body arg entry := by
  cases run with
  | applyRefused =>
      exact nomatch running.symm.trans (Machine.report_failed _ _)
  | @apply _ last _ _ _ _ allowed bodyRun left =>
      subst left
      obtain ⟨handed, handsIn⟩ :=
        (bodyRun.disciplined every.enters running).handedIn every.written.called
      refine ⟨handed, last, bodyRun, handsIn, ?_⟩
      obtain ⟨_, _, _, _, _, _, pending⟩ := handsIn
      rw [← (Machine.leaveCall_of_returns pending).1]
      exact .apply allowed bodyRun rfl

namespace Machine

/--
Where every lambda has a single return, what is run without a return of its own, and
ends without a failure, leaves the return channel as it was, and every call on the way
yields the value that a return of its own body has handed in.
-/
theorem returns_kept_of_singleReturn
    (context : Context)
    (fuel : Nat)
    (task : Task)
    (before after : Machine)
    (value : Value)
    (free : task.ReturnFree)
    (written : task.Every Lambda.SingleReturn)
    (held : before.Holds (Value.Every Lambda.SingleReturn))
    (ended : task.run context fuel before = some (value, after))
    (running : after.failed = false) :
    after.returns = before.returns ∧
      ∀ param body arg entry,
        Reaches context ⟨task, before⟩ ⟨.apply param body arg, entry⟩ →
          Answered context param body arg entry := by
  have run := Run.of_run ended
  have every : Moment.Every Lambda.SingleReturn ⟨task, before⟩ := ⟨written, held⟩
  refine ⟨(run.disciplined every running).kept free, ?_⟩
  intro param body arg entry reaches
  obtain ⟨_, _, callRun, toEnd⟩ := run.reached reaches
  exact callRun.answered (every.reaches reaches) ((Speaks.of_steps toEnd).running running)

/-- A call in the argument of a call, with an older value pending on the channel. -/
theorem returns_kept_of_singleReturn_nested_calls :
    let context : Context := ⟨.initial, {}⟩
    let body : List Stmt :=
      [.ifElse (.bool true) [.eval (.ret (.number 5))] [.eval (.ret (.number 6))]]
    let expr : Expr :=
      .call
        (.lambda ⟨1⟩ [.skip, .eval (.ret (.binary .add (.ident ⟨1⟩) (.number 1))), .skip])
        (.call (.lambda ⟨2⟩ body) (.number 0))
    let before := (ofConsole (.ofInput .closed)).pushReturn (.number 9)
    ∃ after,
      (Task.eval expr).ReturnFree ∧
        (Task.eval expr).Every Lambda.SingleReturn ∧
          before.Holds (Value.Every Lambda.SingleReturn) ∧
            (Task.eval expr).run context 12 before = some (.number 6, after) ∧
              after.failed = false ∧
                after.returns = before.returns ∧
                  Answered context ⟨2⟩ body (.number 0) before := by
  intro context body expr before
  have free : (Task.eval expr).ReturnFree :=
    ⟨trivial, trivial, trivial⟩
  have written : (Task.eval expr).Every Lambda.SingleReturn := by
    simp [expr, body, Task.Every, Task.lambdas, Expr.lambdas, Stmt.allLambdas, Stmt.lambdas,
      Lambda.SingleReturn, Stmt.SingleReturn, Stmt.Returns, Stmt.ReturnFree, Stmt.AllReturnFree,
      Expr.ReturnFree]
  have held : before.Holds (Value.Every Lambda.SingleReturn) :=
    (Holds.ofConsole _).pushReturn (List.forall_mem_nil _)
  have ended : (Task.eval expr).run context 12 before = some (.number 6, _) :=
    rfl
  have known :=
    returns_kept_of_singleReturn context 12 (.eval expr) before _ _ free written held ended rfl
  have reaches :
      Reaches context ⟨.eval expr, before⟩ ⟨.apply ⟨2⟩ body (.number 0), before⟩ :=
    .starts (.starts .refl (.arg rfl (.lambda rfl))) (.call rfl (.lambda rfl) .number)
  exact ⟨_, free, written, held, ended, rfl, known.1, known.2 _ _ _ _ reaches⟩

end Machine

end ScopeLang
