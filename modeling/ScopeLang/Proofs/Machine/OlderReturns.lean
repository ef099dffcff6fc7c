import ScopeLang.Proofs.Machine.ReturnDiscipline
import ScopeLang.Proofs.Machine.Unnoticed

namespace ScopeLang

/-!
# Older values on the return channel

A return hands its value in on top of what is pending, and a call takes the top
value, so nothing looks below the values that a run has found. Only a call that
finds the channel empty would take notice of older values below: as long as there
is no such call, they stay where they are and the run goes the same way.
-/

namespace Machine

/-- The machine with older values below those that are pending. -/
def withOlder (machine : Machine) (older : ReturnChannel) : Machine :=
  { machine with returns := machine.returns ++ older }

/-- No step but leaving a call looks at pending values. -/
theorem unnoticed_withOlder (older : ReturnChannel) :
    Unnoticed (·.withOlder older) where
  env _ := rfl
  failed _ := rfl
  activeCalls _ := rfl
  withEnv _ _ := rfl
  withCalls _ _ := rfl
  report machine error := by
    unfold report withOlder
    split <;> rfl
  write machine text := by
    unfold write withOlder
    split <;> rfl
  pushReturn _ _ := rfl

/-- A number is read whatever is pending. -/
theorem readNumber_withOlder
    (machine : Machine)
    (older : ReturnChannel)
    (prompt : String) :
    (machine.withOlder older).readNumber prompt =
      ((machine.readNumber prompt).1, (machine.readNumber prompt).2.withOlder older) := by
  unfold readNumber withOlder
  split <;> rfl

/-- A call that finds a value takes this one, and none of the older ones. -/
theorem leaveCall_withOlder
    {machine : Machine}
    (found : machine.returns ≠ [])
    (older : ReturnChannel) :
    (machine.withOlder older).leaveCall =
      (machine.leaveCall.1, machine.leaveCall.2.withOlder older) := by
  obtain ⟨latest, rest, pending⟩ := List.exists_cons_of_ne_nil found
  simp [leaveCall, popReturn, withOlder, closeScope, pending, ReturnChannel.pop]

end Machine

/-! ## Runs in which every call finds a value -/

/-- Every call that a run reaches and enters finds a value once its body has run. -/
def Moment.FindsReturns (context : Context) (start : Moment) : Prop :=
  ∀ param body arg entry last,
    Reaches context start ⟨.apply param body arg, entry⟩ →
    entry.brokenLimit? context.config = none →
    Run context (.execAll body) (entry.enterCall context.names param arg) .unset last →
      last.returns ≠ []

namespace Moment.FindsReturns

variable {context : Context}

/-- Calls are left on machines with a value pending, and numbers may be read anywhere. -/
theorem meets
    {start : Moment}
    (finds : start.FindsReturns context) :
    start.Meets context (fun _ => True) (·.returns ≠ []) :=
  ⟨fun _ _ => trivial, finds⟩

/-- Where all lambdas have a single return, every call of a run without a failure finds a value. -/
theorem of_singleReturn
    {task : Task}
    {before after : Machine}
    {value : Value}
    (run : Run context task before value after)
    (every : Moment.Every Lambda.SingleReturn ⟨task, before⟩)
    (running : after.failed = false) :
    Moment.FindsReturns context ⟨task, before⟩ := by
  intro param body arg entry last reaches allowed bodyRun
  obtain ⟨_, _, callRun, toEnd⟩ := run.reached reaches
  have callRunning := (Machine.Speaks.of_steps toEnd).running running
  obtain ⟨_, _, otherRun, handsIn, -⟩ := callRun.answered (every.reaches reaches) callRunning
  obtain ⟨-, rfl⟩ := bodyRun.unique otherRun
  obtain ⟨_, _, _, _, _, _, pending⟩ := handsIn
  rw [pending]
  exact List.cons_ne_nil _ _

end Moment.FindsReturns

/--
The run lemma: older values below the pending ones stay below, as long as every call
finds a value above them.
-/
theorem Run.withOlder
    {context : Context}
    {task : Task}
    {before after : Machine}
    {value : Value}
    (run : Run context task before value after)
    (finds : Moment.FindsReturns context ⟨task, before⟩)
    (older : ReturnChannel) :
    Run context task (before.withOlder older) value (after.withOlder older) := by
  have simulation :=
    (Machine.unnoticed_withOlder older).simulation context
      (fun machine (_ : True) => machine.readNumber_withOlder older context.config.readPrompt)
      (fun machine found => Machine.leaveCall_withOlder found older)
  exact run.changed simulation finds.meets

namespace Machine

/--
A machine that has older values below the pending ones runs every task, and every
fragment, as the machine without them does, provided that this run ends and that each
of its calls finds a value. The older values are still there at the end, below all
others.
-/
theorem older_returns_stay_below
    (context : Context)
    (before : Machine)
    (older : ReturnChannel) :
    (∀ (task : Task) (fuel : Nat) (value : Value) (after : Machine),
        task.run context fuel before = some (value, after) →
        Moment.FindsReturns context ⟨task, before⟩ →
          ∃ otherFuel,
            task.run context otherFuel (before.withOlder older) =
              some (value, after.withOlder older)) ∧
      ∀ (fragment : List Stmt) (fuel : Nat) (succeeded : Bool) (after : Machine),
        before.runFragment context fuel fragment = some (succeeded, after) →
        Moment.FindsReturns context ⟨.execAll fragment, before.clearFailure⟩ →
          ∃ otherFuel,
            (before.withOlder older).runFragment context otherFuel fragment =
              some (succeeded, after.withOlder older) := by
  constructor
  · intro task fuel value after ended finds
    exact ((Run.of_run ended).withOlder finds older).exists_fuel
  · intro fragment fuel succeeded after ended finds
    obtain ⟨run, passed⟩ := exists_runFragment_iff.mp ⟨fuel, ended⟩
    exact exists_runFragment_iff.mpr ⟨run.withOlder finds older, passed⟩

/-- A call of a function that another call has returned, with an older value pending. -/
theorem older_returns_stay_below_returned_function :
    let context : Context := ⟨.initial, {}⟩
    let function : Expr :=
      .lambda ⟨2⟩ [.eval (.ret (.binary .add (.ident ⟨2⟩) (.number 1)))]
    let expr : Expr :=
      .call (.call (.lambda ⟨1⟩ [.eval (.ret function)]) (.number 0)) (.number 4)
    let before := ofConsole (.ofInput .closed)
    ∃ after,
      (Task.eval expr).run context 12 before = some (.number 5, after) ∧
        Moment.FindsReturns context ⟨.eval expr, before⟩ ∧
          ∃ fuel,
            (Task.eval expr).run context fuel (before.withOlder [.number 9]) =
              some (.number 5, after.withOlder [.number 9]) := by
  intro context function expr before
  have ended : (Task.eval expr).run context 12 before = some (.number 5, _) :=
    rfl
  have written : (Task.eval expr).Every Lambda.SingleReturn := by
    simp [expr, function, Task.Every, Task.lambdas, Expr.lambdas, Stmt.allLambdas, Stmt.lambdas,
      Lambda.SingleReturn, Stmt.SingleReturn, Stmt.Returns, Stmt.AllReturnFree, Expr.ReturnFree]
  have finds : Moment.FindsReturns context ⟨.eval expr, before⟩ :=
    .of_singleReturn (.of_run ended) ⟨written, .ofConsole _⟩ rfl
  obtain ⟨everyTask, -⟩ := older_returns_stay_below context before [.number 9]
  exact ⟨_, ended, finds, everyTask _ _ _ _ ended finds⟩

end Machine

end ScopeLang
