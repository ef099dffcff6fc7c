import ScopeLang.Proofs.Machine.Simulation

namespace ScopeLang

/-!
# Runs without a report

Evaluation consults the name table for one purpose, to name a variable in a
report. Two name tables therefore lead to the same run up to the first report,
and from there on to runs that differ in their logs only. A run that ends with
the flag down made no report, so it is the same run with every name table.
-/

namespace Machine

/-- The machine with another log. -/
def withLog (machine : Machine) (log : List Action) : Machine :=
  { machine with console := { machine.console with log := log } }

/-- Machines that are the same, or differ in their logs while the flag is up. -/
inductive SameUntilReport : Machine → Machine → Prop where
  | same {machine} :
      SameUntilReport machine machine
  | reported {machine log} :
      machine.failed = true →
      SameUntilReport machine (machine.withLog log)

namespace SameUntilReport

variable {machine other : Machine}

/-- Machines that are the same until a report have the same flag. -/
theorem failed
    (related : SameUntilReport machine other) :
    other.failed = machine.failed := by
  cases related <;> rfl

/-- Without a report the machines are the same. -/
theorem eq_of_not_failed
    (related : SameUntilReport machine other)
    (passed : machine.failed = false) :
    other = machine := by
  cases related with
  | same =>
      rfl
  | reported up =>
      rw [passed] at up
      cases up

/-- A step that neither reads the log nor moves the flag. -/
theorem map
    (related : SameUntilReport machine other)
    (step : Machine → Machine)
    (sameFlag : ∀ machine, (step machine).failed = machine.failed)
    (ignoresLog : ∀ machine log, step (machine.withLog log) = (step machine).withLog log) :
    SameUntilReport (step machine) (step other) := by
  cases related with
  | same =>
      exact .same
  | reported up =>
      rw [ignoresLog]
      exact .reported ((sameFlag _).trans up)

/-- What is reported may differ. -/
theorem report
    (related : SameUntilReport machine other)
    (error otherError : EvalError) :
    SameUntilReport (machine.report error) (other.report otherError) := by
  unfold Machine.report
  rw [related.failed]
  split
  · exact related
  · rename_i down
    obtain rfl := related.eq_of_not_failed (by simpa using down)
    exact .reported rfl

/-- An unbound variable is reported on both sides, under whatever text its table has. -/
theorem ident
    (related : SameUntilReport machine other)
    (names otherNames : NameTable)
    (name : Name) :
    Results Eq SameUntilReport
      (machine.settle ((machine.env.lookup name).mapError (.ofScope names)))
      (other.settle ((other.env.lookup name).mapError (.ofScope otherNames))) := by
  unfold Machine.settle
  rw [related.failed]
  split
  · exact ⟨.unset, related⟩
  · rename_i down
    obtain rfl := related.eq_of_not_failed (by simpa using down)
    cases other.env.lookup name with
    | ok value =>
        exact ⟨.refl (fun _ => rfl) value, .same⟩
    | error error =>
        exact ⟨.unset, related.report _ _⟩

theorem read
    (related : SameUntilReport machine other)
    (prompt : String) :
    Results Eq SameUntilReport (machine.readNumber prompt) (other.readNumber prompt) := by
  unfold Machine.readNumber
  rw [related.failed]
  split
  · exact ⟨.unset, related⟩
  · rename_i down
    obtain rfl := related.eq_of_not_failed (by simpa using down)
    exact ⟨.refl (fun _ => rfl) _, .same⟩

theorem write
    (related : SameUntilReport machine other)
    (text : String) :
    SameUntilReport (machine.write text) (other.write text) := by
  unfold Machine.write
  rw [related.failed]
  split
  · exact related
  · rename_i down
    obtain rfl := related.eq_of_not_failed (by simpa using down)
    exact .same

theorem declare
    (related : SameUntilReport machine other)
    (names otherNames : NameTable)
    (name : Name)
    (value : Value) :
    SameUntilReport (machine.declare names name value)
      (other.declare otherNames name value) := by
  have sameEnv : other.env = machine.env := by
    cases related <;> rfl
  unfold Machine.declare
  rw [sameEnv]
  cases machine.env.bind name value with
  | ok env =>
      exact related.map ({ · with env := env }) (fun _ => rfl) (fun _ _ => rfl)
  | error error =>
      exact related.report _ _

theorem assign
    (related : SameUntilReport machine other)
    (names otherNames : NameTable)
    (name : Name)
    (value : Value) :
    SameUntilReport (machine.assign names name value)
      (other.assign otherNames name value) := by
  have sameEnv : other.env = machine.env := by
    cases related <;> rfl
  unfold Machine.assign
  rw [sameEnv]
  cases machine.env.rebind name value with
  | ok env =>
      exact related.map ({ · with env := env }) (fun _ => rfl) (fun _ _ => rfl)
  | error error =>
      exact related.report _ _

theorem enterCall
    (related : SameUntilReport machine other)
    (names otherNames : NameTable)
    (param : Name)
    (arg : Value) :
    SameUntilReport (machine.enterCall names param arg)
      (other.enterCall otherNames param arg) := by
  have entered :
      SameUntilReport
        { machine.openScope with activeCalls := machine.activeCalls + 1 }
        { other.openScope with activeCalls := other.activeCalls + 1 } :=
    related.map (fun machine => { machine.openScope with activeCalls := machine.activeCalls + 1 })
      (fun _ => rfl) (fun _ _ => rfl)
  exact entered.declare names otherNames param arg

/-- A call is left with the same value on both sides. -/
theorem leaveCall
    (related : SameUntilReport machine other) :
    Results Eq SameUntilReport machine.leaveCall other.leaveCall := by
  have sameValue : other.leaveCall.1 = machine.leaveCall.1 := by
    cases related <;> rfl
  refine ⟨?_, related.map (·.leaveCall.2) (fun _ => rfl) (fun _ _ => rfl)⟩
  rw [sameValue]
  exact .refl (fun _ => rfl) _

/-- Whatever the name tables are, machines differ in nothing but their reports. -/
theorem simulation
    (names otherNames : NameTable)
    (config : EvalConfig) :
    Simulation ⟨names, config⟩ ⟨otherNames, config⟩ Eq fun _ => SameUntilReport where
  failed related :=
    related.failed
  report error related :=
    related.report error error
  ident := by
    rintro depth machine other name _ related rfl
    exact related.ident names otherNames name
  read related _ :=
    related.read config.readPrompt
  write text related :=
    related.write text
  pushReturn := by
    intro depth machine other value otherValue related renamed
    obtain rfl := renamed.eq (fun _ _ same => same)
    exact related.map (·.pushReturn value) (fun _ => rfl) (fun _ _ => rfl)
  limit related := by
    cases related <;> rfl
  enterCall := by
    rintro depth machine other param _ arg otherArg related rfl renamed
    obtain rfl := renamed.eq (fun _ _ same => same)
    exact related.enterCall names otherNames param arg
  leaveCall related _ :=
    related.leaveCall
  openScope related :=
    related.map Machine.openScope (fun _ => rfl) (fun _ _ => rfl)
  closeScope related :=
    related.map Machine.closeScope (fun _ => rfl) (fun _ _ => rfl)
  declare := by
    rintro depth machine other name _ value otherValue related rfl renamed
    obtain rfl := renamed.eq (fun _ _ same => same)
    exact related.declare names otherNames name value
  assign := by
    rintro depth machine other name _ value otherValue related rfl renamed
    obtain rfl := renamed.eq (fun _ _ same => same)
    exact related.assign names otherNames name value

end SameUntilReport

end Machine

/-- A sequence that ends with the flag down ends alike with every name table. -/
theorem Run.execAll_with_names
    {names : NameTable}
    {config : EvalConfig}
    {body : List Stmt}
    {before after : Machine}
    (run : Run ⟨names, config⟩ (.execAll body) before .unset after)
    (passed : after.failed = false)
    (otherNames : NameTable) :
    Run ⟨otherNames, config⟩ (.execAll body) before .unset after := by
  obtain ⟨otherAfter, otherRun, related⟩ :=
    run.execAll_simulated (Machine.SameUntilReport.simulation names otherNames config)
      (.refl (fun _ => rfl) body) .same
  obtain rfl := related.eq_of_not_failed passed
  exact otherRun

end ScopeLang
