import ScopeLang.Proofs.Machine.Run
import ScopeLang.Proofs.Scope.OpenScopes

namespace ScopeLang

/-!
# The value of what failed

An expression whose evaluation raises the flag yields unset, and a declaration or
an assignment then binds unset. There is one way around this: a call takes its value
from the return channel once its body has run, also when its argument or its body
failed on the way, and something may be pending there by then.
-/

namespace Environment

variable {env after : Environment} {name : Name} {value : Value}

/-- A name that was declared is found with its value. -/
theorem lookup_of_bind (bound : env.bind name value = .ok after) :
    after.lookup name = .ok value := by
  obtain ⟨-, -, bindings⟩ := of_bind_eq_ok bound
  rw [lookup, bindings, BindingStacks.stackOf_push_self]

/-- A name that was assigned to is found with its new value. -/
theorem lookup_of_rebind (rebound : env.rebind name value = .ok after) :
    after.lookup name = .ok value := by
  obtain ⟨_, _, -, -, bindings⟩ := of_rebind_eq_ok rebound
  rw [lookup, bindings, BindingStacks.stackOf_setStack_self]

end Environment

namespace Machine

/-- A result that is settled with the flag up, or that raises it, is unset. -/
theorem settle_fst_of_failed
    {machine : Machine}
    {result : Except EvalError Value}
    (failed : (machine.settle result).2.failed = true) :
    (machine.settle result).1 = .unset := by
  cases flag : machine.failed with
  | true =>
      simp [settle, flag]
  | false =>
      cases result with
      | ok value =>
          simp [settle, flag] at failed
      | error =>
          simp [settle, flag]

/-- Reading does not fail. -/
theorem readNumber_failed
    (machine : Machine)
    (prompt : String) :
    (machine.readNumber prompt).2.failed = machine.failed := by
  unfold readNumber
  split <;> rfl

/-- A call yields what was pending when its body had run, or unset when nothing was. -/
theorem leaveCall_fst_cases (machine : Machine) :
    machine.leaveCall.1 = .unset ∨
      ∃ rest, machine.returns = machine.leaveCall.1 :: rest := by
  cases pending : machine.returns with
  | nil =>
      left
      simp [leaveCall, popReturn, pending, ReturnChannel.pop]
  | cons value rest =>
      right
      refine ⟨rest, ?_⟩
      simp [leaveCall, popReturn, pending, ReturnChannel.pop]

/--
An expression is a call that gets as far as to run the body of a closure, and a
value is the latest one on the return channel when the body has run.
-/
inductive TakesPending (context : Context) : Expr → Machine → Value → Prop where
  | call {before called supplied last callee arg param body argument value rest} :
      Run context (.eval callee) before (.closure param body) called →
      Run context (.eval arg) called argument supplied →
      supplied.brokenLimit? context.config = none →
      Run context (.execAll body) (supplied.enterCall context.names param argument) .unset last →
      last.returns = value :: rest →
      TakesPending context (.call callee arg) before value

end Machine

/-- An evaluation that fails yields unset, or it is a call that takes a pending value. -/
theorem Run.eval_failed
    {context : Context}
    {expr : Expr}
    {before after : Machine}
    {value : Value}
    (run : Run context (.eval expr) before value after)
    (running : before.failed = false)
    (failed : after.failed = true) :
    value = .unset ∨ Machine.TakesPending context expr before value := by
  cases run with
  | number | bool =>
      rw [running] at failed
      cases failed
  | ident settled | binary _ _ settled | unary _ settled | lambda settled =>
      subst settled
      exact .inl (Machine.settle_fst_of_failed failed)
  | read answered =>
      subst answered
      rw [Machine.readNumber_failed, running] at failed
      cases failed
  | retSkipped | ret | callSkipped | callRefused =>
      exact .inl rfl
  | call _ calleeRun argRun applyRun =>
      cases applyRun with
      | applyRefused =>
          exact .inl rfl
      | @apply _ last _ _ _ _ allowed bodyRun left =>
          subst left
          rcases last.leaveCall_fst_cases with unset | ⟨rest, pending⟩
          · exact .inl unset
          · exact .inr (.call calleeRun argRun allowed bodyRun pending)

namespace Machine

/--
From a machine with the flag down: an expression whose evaluation fails yields
unset, and a declaration or an assignment of it that is not refused binds unset,
unless the expression is a call that takes a pending value.
-/
theorem unset_of_failed
    (context : Context)
    (fuel : Nat)
    (before : Machine)
    (running : before.failed = false)
    (expr : Expr)
    (value : Value)
    (middle : Machine)
    (ended : eval context fuel expr before = some (value, middle))
    (failed : middle.failed = true) :
    (value = .unset ∨ TakesPending context expr before value) ∧
      (∀ name env, middle.env.bind name value = .ok env →
        ∃ after, exec context (fuel + 1) (.declare name expr) before = some after ∧
          (after.env.lookup name = .ok .unset ∨ TakesPending context expr before value)) ∧
      (∀ name env, middle.env.rebind name value = .ok env →
        ∃ after, exec context (fuel + 1) (.assign name expr) before = some after ∧
          (after.env.lookup name = .ok .unset ∨ TakesPending context expr before value)) := by
  have run : Run context (.eval expr) before value middle :=
    .of_run ended
  have unsetOrTaken := run.eval_failed running failed
  refine ⟨unsetOrTaken, ?_, ?_⟩
  · intro name env bound
    refine ⟨{ middle with env := env }, ?_, ?_⟩
    · simp [exec, running, ended, declare, bound]
    · refine unsetOrTaken.imp_left fun unset => ?_
      subst unset
      exact Environment.lookup_of_bind bound
  · intro name env rebound
    refine ⟨{ middle with env := env }, ?_, ?_⟩
    · simp [exec, running, ended, assign, rebound]
    · refine unsetOrTaken.imp_left fun unset => ?_
      subst unset
      exact Environment.lookup_of_rebind rebound

/-- A sum whose left operand is a call that hands in a value and then fails in its body. -/
theorem unset_of_failed_sum :
    let context : Context := ⟨.initial, {}⟩
    let expr : Expr :=
      .binary .add
        (.call
          (.lambda ⟨1⟩
            [.eval (.ret (.number 5)), .write (.binary .div (.ident ⟨1⟩) (.number 0))])
          (.number 3))
        (.number 1)
    let before : Machine := .ofConsole (.ofInput .closed)
    ∃ middle,
      eval context 8 expr before = some (.unset, middle) ∧
        middle.failed = true ∧
          (Value.unset = .unset ∨ TakesPending context expr before .unset) ∧
            ∃ after, exec context 9 (.declare ⟨2⟩ expr) before = some after ∧
              (after.env.lookup ⟨2⟩ = .ok .unset ∨ TakesPending context expr before .unset) := by
  intro context expr before
  have ended : eval context 8 expr before = some (.unset, _) :=
    rfl
  have known := unset_of_failed context 8 before rfl expr .unset _ ended rfl
  exact ⟨_, ended, rfl, known.1, known.2.1 ⟨2⟩ _ rfl⟩

/--
With a value pending, a call whose argument fails yields that value, and a
declaration and an assignment bind it: the failure leaves no unset behind.
-/
theorem failed_call_yields_pending_value :
    let context : Context := ⟨.initial, {}⟩
    let expr : Expr :=
      .call (.lambda ⟨1⟩ []) (.binary .div (.number 1) (.number 0))
    let before : Machine :=
      { Machine.ofConsole (.ofInput .closed) with
        env := ⟨[(⟨3⟩, [.number 1])], [⟨3⟩], []⟩
        returns := [.number 7] }
    before.failed = false ∧
      (∃ after, eval context 4 expr before = some (.number 7, after) ∧ after.failed = true) ∧
        (∃ after, exec context 5 (.declare ⟨2⟩ expr) before = some after ∧
          after.failed = true ∧ after.env.lookup ⟨2⟩ = .ok (.number 7)) ∧
          ∃ after, exec context 5 (.assign ⟨3⟩ expr) before = some after ∧
            after.failed = true ∧ after.env.lookup ⟨3⟩ = .ok (.number 7) :=
  ⟨rfl, ⟨_, rfl, rfl⟩, ⟨_, rfl, rfl, rfl⟩, ⟨_, rfl, rfl, rfl⟩⟩

end Machine

end ScopeLang
