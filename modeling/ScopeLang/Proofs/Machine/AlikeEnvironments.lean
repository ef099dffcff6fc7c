import ScopeLang.Proofs.Machine.Simulation
import ScopeLang.Proofs.Scope.Renaming

namespace ScopeLang

/-!
# Machines with environments that are alike

A machine hands names to its environment and to nothing else. So when two machines
agree in all but their environments, and these answer alike and stay alike under
every operation, then the machines stay alike while they run. What a comparison has
to supply is what "alike" means for environments, with one rule for each operation.
-/

/--
Environments that are alike after every operation, and refuse an operation on both
sides or on none. `alike depth` compares environments that have opened `depth` scopes
since the comparison began.
-/
structure Environment.Simulation
    (names : Renaming)
    (alike : Nat → Environment → Environment → Prop) :
    Prop where
  lookup : ∀ {depth env other name otherName},
    alike depth env other →
    names name otherName →
    ScopeError.ResultRenamed names (Value.Renamed names) (env.lookup name)
      (other.lookup otherName)
  bind : ∀ {depth env other name otherName value otherValue},
    alike depth env other →
    names name otherName →
    Value.Renamed names value otherValue →
    ScopeError.ResultRenamed names (alike depth) (env.bind name value)
      (other.bind otherName otherValue)
  rebind : ∀ {depth env other name otherName value otherValue},
    alike depth env other →
    names name otherName →
    Value.Renamed names value otherValue →
    ScopeError.ResultRenamed names (alike depth) (env.rebind name value)
      (other.rebind otherName otherValue)
  openScope : ∀ {depth env other},
    alike depth env other →
    alike (depth + 1) env.openScope other.openScope
  closeScope : ∀ {depth env other},
    alike (depth + 1) env other →
    alike depth env.closeScope other.closeScope

/-- Machines that agree in all but their environments and the names in pending values. -/
structure Machine.Alike
    (names : Renaming)
    (envs : Environment → Environment → Prop)
    (machine other : Machine) :
    Prop where
  env : envs machine.env other.env
  returns : Value.AllRenamed names machine.returns other.returns
  failed : other.failed = machine.failed
  activeCalls : other.activeCalls = machine.activeCalls
  console : other.console = machine.console

/-- What is read from a line is no closure, so it holds no names. -/
theorem Value.Renamed.numberIn
    {names : Renaming}
    (line : Option Line) :
    Value.Renamed names (Machine.numberIn line) (Machine.numberIn line) := by
  unfold Machine.numberIn
  split
  · split
    · exact .number
    · exact .unset
  · exact .unset

namespace Machine.Alike

section

variable
  {names : Renaming}
  {envs : Environment → Environment → Prop}
  {machine other : Machine}

/-- A report leaves environments alone and raises the flag on both sides. -/
theorem report
    (alike : Machine.Alike names envs machine other)
    (error : EvalError) :
    Machine.Alike names envs (machine.report error) (other.report error) := by
  unfold Machine.report
  rw [alike.failed, alike.console]
  split
  · exact alike
  · exact { alike with failed := rfl, console := rfl }

/-- Both sides ask the same console for a number and get the same answer. -/
theorem read
    (alike : Machine.Alike names envs machine other)
    (prompt : String) :
    Results names (Machine.Alike names envs) (machine.readNumber prompt)
      (other.readNumber prompt) := by
  unfold Machine.readNumber
  rw [alike.failed, alike.console]
  split
  · exact ⟨.unset, alike⟩
  · exact ⟨.numberIn _, { alike with failed := rfl, console := rfl }⟩

theorem write
    (alike : Machine.Alike names envs machine other)
    (text : String) :
    Machine.Alike names envs (machine.write text) (other.write text) := by
  unfold Machine.write
  rw [alike.failed, alike.console]
  split
  · exact alike
  · exact { alike with failed := rfl, console := rfl }

theorem pushReturn
    {value otherValue : Value}
    (alike : Machine.Alike names envs machine other)
    (valueRenamed : Value.Renamed names value otherValue) :
    Machine.Alike names envs (machine.pushReturn value) (other.pushReturn otherValue) :=
  { alike with returns := .cons valueRenamed alike.returns }

/-- The values that two calls take correspond, and so do those they leave. -/
theorem popReturn
    (alike : Machine.Alike names envs machine other) :
    Value.Renamed names machine.returns.pop.1 other.returns.pop.1 ∧
      Value.AllRenamed names machine.returns.pop.2 other.returns.pop.2 := by
  have returns := alike.returns
  generalize machine.returns = pending, other.returns = otherPending at returns ⊢
  cases returns with
  | nil =>
      exact ⟨.unset, .nil⟩
  | cons latest earlier =>
      exact ⟨latest, earlier⟩

end

section

variable
  {names : Renaming}
  {envs : Nat → Environment → Environment → Prop}
  {depth : Nat}
  {machine other : Machine}
  {table otherTable : NameTable}
  {name otherName : Name}
  {value otherValue : Value}

theorem openScope
    (simulation : Environment.Simulation names envs)
    (alike : Machine.Alike names (envs depth) machine other) :
    Machine.Alike names (envs (depth + 1)) machine.openScope other.openScope :=
  { alike with env := simulation.openScope alike.env }

theorem closeScope
    (simulation : Environment.Simulation names envs)
    (alike : Machine.Alike names (envs (depth + 1)) machine other) :
    Machine.Alike names (envs depth) machine.closeScope other.closeScope :=
  { alike with env := simulation.closeScope alike.env }

/-- A call is left with paired return values, or both channels are empty. -/
theorem leaveCall
    (simulation : Environment.Simulation names envs)
    (alike : Machine.Alike names (envs (depth + 1)) machine other) :
    Results names (Machine.Alike names (envs depth)) machine.leaveCall other.leaveCall := by
  obtain ⟨latest, earlier⟩ := alike.popReturn
  exact ⟨latest, { alike.closeScope simulation with
    returns := earlier
    activeCalls := congrArg (· - 1) alike.activeCalls }⟩

/--
A variable has paired values on both sides, or is unbound on both and reported in the same
words.
-/
theorem ident
    (simulation : Environment.Simulation names envs)
    (sameText : ∀ name other, names name other → table.textOf name = otherTable.textOf other)
    (alike : Machine.Alike names (envs depth) machine other)
    (pair : names name otherName) :
    Results names (Machine.Alike names (envs depth))
      (machine.settle ((machine.env.lookup name).mapError (.ofScope table)))
      (other.settle ((other.env.lookup otherName).mapError (.ofScope otherTable))) := by
  have found := simulation.lookup alike.env pair
  unfold Machine.settle
  rw [alike.failed]
  split
  · exact ⟨.unset, alike⟩
  · generalize machine.env.lookup name = result,
      other.env.lookup otherName = otherResult at found ⊢
    cases found with
    | ok live =>
        exact ⟨live, alike⟩
    | error refused =>
        simp only [Except.mapError, refused.ofScope_eq sameText]
        exact ⟨.unset, alike.report _⟩

/-- A declaration of paired names goes through on both sides or is reported on both. -/
theorem declare
    (simulation : Environment.Simulation names envs)
    (sameText : ∀ name other, names name other → table.textOf name = otherTable.textOf other)
    (alike : Machine.Alike names (envs depth) machine other)
    (pair : names name otherName)
    (valueRenamed : Value.Renamed names value otherValue) :
    Machine.Alike names (envs depth) (machine.declare table name value)
      (other.declare otherTable otherName otherValue) := by
  have bound := simulation.bind alike.env pair valueRenamed
  unfold Machine.declare
  generalize machine.env.bind name value = result,
    other.env.bind otherName otherValue = otherResult at bound ⊢
  cases bound with
  | ok env =>
      exact { alike with env := env }
  | error refused =>
      dsimp only
      rw [refused.ofScope_eq sameText]
      exact alike.report _

/-- An assignment to paired names goes through on both sides or is reported on both. -/
theorem assign
    (simulation : Environment.Simulation names envs)
    (sameText : ∀ name other, names name other → table.textOf name = otherTable.textOf other)
    (alike : Machine.Alike names (envs depth) machine other)
    (pair : names name otherName)
    (valueRenamed : Value.Renamed names value otherValue) :
    Machine.Alike names (envs depth) (machine.assign table name value)
      (other.assign otherTable otherName otherValue) := by
  have rebound := simulation.rebind alike.env pair valueRenamed
  unfold Machine.assign
  generalize machine.env.rebind name value = result,
    other.env.rebind otherName otherValue = otherResult at rebound ⊢
  cases rebound with
  | ok env =>
      exact { alike with env := env }
  | error refused =>
      dsimp only
      rw [refused.ofRebind_eq sameText]
      exact alike.report _

/-- A call is entered alike with paired parameters and arguments, one scope further in. -/
theorem enterCall
    (simulation : Environment.Simulation names envs)
    (sameText : ∀ name other, names name other → table.textOf name = otherTable.textOf other)
    (alike : Machine.Alike names (envs depth) machine other)
    (pair : names name otherName)
    (valueRenamed : Value.Renamed names value otherValue) :
    Machine.Alike names (envs (depth + 1)) (machine.enterCall table name value)
      (other.enterCall otherTable otherName otherValue) := by
  have entered :
      Machine.Alike names (envs (depth + 1))
        { machine.openScope with activeCalls := machine.activeCalls + 1 }
        { other.openScope with activeCalls := other.activeCalls + 1 } :=
    { alike.openScope simulation with activeCalls := congrArg (· + 1) alike.activeCalls }
  exact entered.declare simulation sameText pair valueRenamed

end

end Machine.Alike

namespace Environment.Simulation

variable
  {names : Renaming}
  {envs : Nat → Environment → Environment → Prop}
  {table otherTable : NameTable}

/-- Environments that stay alike make machines that stay alike. -/
theorem machine
    (simulation : Environment.Simulation names envs)
    (config : EvalConfig)
    (sameText : ∀ name other, names name other → table.textOf name = otherTable.textOf other) :
    Machine.Simulation ⟨table, config⟩ ⟨otherTable, config⟩ names
      fun depth => Machine.Alike names (envs depth) where
  failed alike :=
    alike.failed
  report error alike :=
    alike.report error
  ident alike pair :=
    alike.ident simulation sameText pair
  read alike _ :=
    alike.read config.readPrompt
  write text alike :=
    alike.write text
  pushReturn alike valueRenamed :=
    alike.pushReturn valueRenamed
  limit alike := by
    unfold Machine.brokenLimit?
    rw [alike.activeCalls]
  enterCall alike pair valueRenamed :=
    alike.enterCall simulation sameText pair valueRenamed
  leaveCall alike _ :=
    alike.leaveCall simulation
  openScope alike :=
    alike.openScope simulation
  closeScope alike :=
    alike.closeScope simulation
  declare alike pair valueRenamed :=
    alike.declare simulation sameText pair valueRenamed
  assign alike pair valueRenamed :=
    alike.assign simulation sameText pair valueRenamed

/-- A sequence that ends ends likewise on a machine whose environment is like the first one. -/
theorem execAll
    {config : EvalConfig}
    {body otherBody : List Stmt}
    {before after otherBefore : Machine}
    (simulation : Environment.Simulation names envs)
    (sameText : ∀ name other, names name other → table.textOf name = otherTable.textOf other)
    (run : Run ⟨table, config⟩ (.execAll body) before .unset after)
    (renamed : Stmt.AllRenamed names body otherBody)
    (alike : Machine.Alike names (envs 0) before otherBefore) :
    ∃ otherAfter,
      Run ⟨otherTable, config⟩ (.execAll otherBody) otherBefore .unset otherAfter ∧
        Machine.Alike names (envs 0) after otherAfter :=
  run.execAll_simulated_outermost (simulation.machine config sameText)
    (fun related => related.declare simulation sameText) renamed alike

end Environment.Simulation

end ScopeLang
