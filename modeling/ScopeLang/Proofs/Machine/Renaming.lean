import ScopeLang.Proofs.Machine.AlikeEnvironments

namespace ScopeLang

/-!
# Machines that differ in their names

Machines whose environments and pending return values are renamings of each
other, and that agree in all else, stay so while they run renamings of one
program. Since names occur in messages by their texts, they also read, write and
report the same.
-/

/-- Machines that are the same up to the names in bindings, scopes and values. -/
structure Machine.Renamed (names : Renaming) (machine other : Machine) : Prop where
  env : Environment.Renamed names machine.env other.env
  returns : Value.AllRenamed names machine.returns other.returns
  failed : other.failed = machine.failed
  activeCalls : other.activeCalls = machine.activeCalls
  console : other.console = machine.console

namespace Machine.Renamed

variable
  {names : Renaming}
  {machine other : Machine}

/-- Machines that start on one console have nothing to rename. -/
theorem ofConsole (console : Console) :
    Machine.Renamed names (.ofConsole console) (.ofConsole console) :=
  ⟨.initial, .nil, rfl, rfl, rfl⟩

/-- More pairs of names leave machines that are already renamed as they are. -/
theorem mono
    {wider : Renaming}
    (included : ∀ name other, names name other → wider name other)
    (renamed : Machine.Renamed names machine other) :
    Machine.Renamed wider machine other :=
  { renamed with
    env := renamed.env.mono included
    returns := renamed.returns.imp fun _ _ => .mono included }

/-- Lowering both flags keeps machines paired. -/
theorem clearFailure
    (renamed : Machine.Renamed names machine other) :
    Machine.Renamed names machine.clearFailure other.clearFailure :=
  { renamed with failed := rfl }

/-- Renamed machines are those that are alike with renamed environments, at any depth. -/
theorem iff_alike :
    Machine.Renamed names machine other ↔
      Machine.Alike names (Environment.Renamed names) machine other := by
  constructor
  · rintro ⟨env, returns, failed, activeCalls, console⟩
    exact ⟨env, returns, failed, activeCalls, console⟩
  · rintro ⟨env, returns, failed, activeCalls, console⟩
    exact ⟨env, returns, failed, activeCalls, console⟩

/-- Names that correspond one to one and share their texts make no difference to a run. -/
theorem simulation
    {table otherTable : NameTable}
    (config : EvalConfig)
    (unique : Relator.BiUnique names)
    (sameText : ∀ name other, names name other → table.textOf name = otherTable.textOf other) :
    Simulation ⟨table, config⟩ ⟨otherTable, config⟩ names fun _ => Machine.Renamed names := by
  have environments :
      Environment.Simulation names fun _ => Environment.Renamed names := {
    lookup := fun renamed => renamed.lookup unique
    bind := fun renamed => renamed.bind unique
    rebind := fun renamed => renamed.rebind unique
    openScope := fun renamed => renamed.openScope
    closeScope := fun renamed => renamed.closeScope unique }
  have same :
      Machine.Renamed names = Machine.Alike names (Environment.Renamed names) := by
    funext machine other
    exact propext iff_alike
  rw [same]
  exact environments.machine config sameText

end Machine.Renamed

end ScopeLang
