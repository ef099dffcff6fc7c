import ScopeLang.Proofs.Machine.Simulation

namespace ScopeLang

/-!
# Changes that go unnoticed

The elementary steps look at the scopes, the flag and the number of calls, and they hand on
the rest of the machine. So a change to the rest goes unnoticed and is still there in the
end, provided that it goes unnoticed where the run reads and where it leaves a call.
-/

/-- A change of machines that the steps other than reading and leaving a call hand on. -/
structure Machine.Unnoticed (change : Machine → Machine) : Prop where
  env : ∀ machine,
    (change machine).env = machine.env
  failed : ∀ machine,
    (change machine).failed = machine.failed
  activeCalls : ∀ machine,
    (change machine).activeCalls = machine.activeCalls
  withEnv : ∀ machine env,
    { change machine with env := env } = change { machine with env := env }
  withCalls : ∀ machine calls,
    { change machine with activeCalls := calls } = change { machine with activeCalls := calls }
  report : ∀ machine error,
    (change machine).report error = change (machine.report error)
  write : ∀ machine text,
    (change machine).write text = change (machine.write text)
  pushReturn : ∀ machine value,
    (change machine).pushReturn value = change (machine.pushReturn value)

namespace Machine.Unnoticed

variable {change : Machine → Machine}

/-- Scopes are opened unnoticed. -/
theorem openScope
    (unnoticed : Unnoticed change)
    (machine : Machine) :
    (change machine).openScope = change machine.openScope := by
  rw [Machine.openScope, unnoticed.env, unnoticed.withEnv, Machine.openScope]

/-- Scopes are closed unnoticed. -/
theorem closeScope
    (unnoticed : Unnoticed change)
    (machine : Machine) :
    (change machine).closeScope = change machine.closeScope := by
  rw [Machine.closeScope, unnoticed.env, unnoticed.withEnv, Machine.closeScope]

/-- Names are declared, or refused, unnoticed. -/
theorem declare
    (unnoticed : Unnoticed change)
    (machine : Machine)
    (names : NameTable)
    (name : Name)
    (value : Value) :
    (change machine).declare names name value = change (machine.declare names name value) := by
  unfold Machine.declare
  rw [unnoticed.env]
  split
  · exact unnoticed.withEnv machine _
  · exact unnoticed.report machine _

/-- Names are assigned to, or refused, unnoticed. -/
theorem assign
    (unnoticed : Unnoticed change)
    (machine : Machine)
    (names : NameTable)
    (name : Name)
    (value : Value) :
    (change machine).assign names name value = change (machine.assign names name value) := by
  unfold Machine.assign
  rw [unnoticed.env]
  split
  · exact unnoticed.withEnv machine _
  · exact unnoticed.report machine _

/-- Calls begin unnoticed. -/
theorem enterCall
    (unnoticed : Unnoticed change)
    (machine : Machine)
    (names : NameTable)
    (param : Name)
    (arg : Value) :
    (change machine).enterCall names param arg =
      change (machine.enterCall names param arg) := by
  rw [Machine.enterCall, unnoticed.openScope, unnoticed.activeCalls, unnoticed.withCalls,
    unnoticed.declare, Machine.enterCall]

/-- Names are looked up, or reported, unnoticed. -/
theorem settle
    (unnoticed : Unnoticed change)
    (machine : Machine)
    (result : Except EvalError Value) :
    (change machine).settle result =
      ((machine.settle result).1, change (machine.settle result).2) := by
  unfold Machine.settle
  rw [unnoticed.failed]
  split
  · rfl
  · cases result with
    | ok value =>
        rfl
    | error error =>
        exact congrArg (Prod.mk Value.unset) (unnoticed.report machine error)

variable {reads leaves : Machine → Prop}

/-- A machine and the changed one run alike, as long as they read and leave calls alike. -/
theorem simulation
    (unnoticed : Unnoticed change)
    (context : Context)
    (read : ∀ machine,
      reads machine →
      (change machine).readNumber context.config.readPrompt =
        ((machine.readNumber context.config.readPrompt).1,
          change (machine.readNumber context.config.readPrompt).2))
    (leaveCall : ∀ machine,
      leaves machine →
      (change machine).leaveCall = (machine.leaveCall.1, change machine.leaveCall.2)) :
    SimulationWhere reads leaves context context Eq fun _ machine other =>
      other = change machine where
  failed := by
    rintro depth machine _ rfl
    exact unnoticed.failed machine
  report := by
    rintro depth machine _ error rfl
    exact unnoticed.report machine error
  ident := by
    rintro depth machine _ name _ rfl rfl
    rw [unnoticed.env, unnoticed.settle]
    exact ⟨.refl (fun _ => rfl) _, rfl⟩
  read := by
    rintro depth machine _ rfl reading
    rw [read machine reading]
    exact ⟨.refl (fun _ => rfl) _, rfl⟩
  write := by
    rintro depth machine _ text rfl
    exact unnoticed.write machine text
  pushReturn := by
    rintro depth machine _ value _ rfl renamed
    obtain rfl := renamed.eq (fun _ _ same => same)
    exact unnoticed.pushReturn machine value
  limit := by
    rintro depth machine _ rfl
    unfold Machine.brokenLimit?
    rw [unnoticed.activeCalls]
  enterCall := by
    rintro depth machine _ param _ arg _ rfl rfl renamed
    obtain rfl := renamed.eq (fun _ _ same => same)
    exact unnoticed.enterCall machine context.names param arg
  leaveCall := by
    rintro depth machine _ rfl leaving
    rw [leaveCall machine leaving]
    exact ⟨.refl (fun _ => rfl) _, rfl⟩
  openScope := by
    rintro depth machine _ rfl
    exact unnoticed.openScope machine
  closeScope := by
    rintro depth machine _ rfl
    exact unnoticed.closeScope machine
  declare := by
    rintro depth machine _ name _ value _ rfl rfl renamed
    obtain rfl := renamed.eq (fun _ _ same => same)
    exact unnoticed.declare machine context.names name value
  assign := by
    rintro depth machine _ name _ value _ rfl rfl renamed
    obtain rfl := renamed.eq (fun _ _ same => same)
    exact unnoticed.assign machine context.names name value

end Machine.Unnoticed

/--
A run ends on the changed machine as it does without the change, and the change is still
there in the end.
-/
theorem Run.changed
    {reads leaves : Machine → Prop}
    {context : Context}
    {change : Machine → Machine}
    {task : Task}
    {before after : Machine}
    {value : Value}
    (simulation :
      Machine.SimulationWhere reads leaves context context Eq fun _ machine other =>
        other = change machine)
    (run : Run context task before value after)
    (meets : Moment.Meets context reads leaves ⟨task, before⟩) :
    Run context task (change before) value (change after) := by
  have inside (outermost : 1 = 0) : task.declaredNames = [] :=
    (Nat.one_ne_zero outermost).elim
  obtain ⟨_, _, otherRun, renamed, rfl⟩ :=
    run.simulated_where simulation meets inside (.refl task) rfl
  obtain rfl := renamed.eq (fun _ _ same => same)
  exact otherRun

end ScopeLang
