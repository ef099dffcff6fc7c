import Mathlib.Data.List.Forall2
import ScopeLang.EvalError
import ScopeLang.Proofs.Ast.Renaming

namespace ScopeLang

/-!
# Environments that differ in their names

Two environments are renamings of each other when their bindings and scopes
correspond place by place. Provided that names correspond one to one, every
operation keeps them so, and is refused on both sides or on none.
-/

/-- Refusals of one kind whose names correspond. -/
inductive ScopeError.Renamed (names : Renaming) : ScopeError → ScopeError → Prop where
  | unbound {name other} :
      names name other →
      ScopeError.Renamed names (.unbound name) (.unbound other)
  | alreadyDeclared {name other} :
      names name other →
      ScopeError.Renamed names (.alreadyDeclared name) (.alreadyDeclared other)
  | corrupted {name other} :
      names name other →
      ScopeError.Renamed names (.corrupted name) (.corrupted other)

/-- Results of which both are refusals, or neither is and they are alike. -/
inductive ScopeError.ResultRenamed (names : Renaming) {α : Type} (alike : α → α → Prop) :
    Except ScopeError α → Except ScopeError α → Prop where
  | ok {result other} :
      alike result other →
      ScopeError.ResultRenamed names alike (.ok result) (.ok other)
  | error {error other} :
      ScopeError.Renamed names error other →
      ScopeError.ResultRenamed names alike (.error error) (.error other)

namespace ScopeError.Renamed

variable
  {names : Renaming}
  {table otherTable : NameTable}
  {error other : ScopeError}

/-- A message shows the texts of names only. -/
theorem ofScope_eq
    (sameText : ∀ name other, names name other → table.textOf name = otherTable.textOf other)
    (renamed : ScopeError.Renamed names error other) :
    EvalError.ofScope table error = EvalError.ofScope otherTable other := by
  cases renamed with
  | unbound pair | alreadyDeclared pair | corrupted pair =>
      simp only [EvalError.ofScope, sameText _ _ pair]

/--
Renamed refusals of an assignment are reported in the same words, since paired names have
one text.
-/
theorem ofRebind_eq
    (sameText : ∀ name other, names name other → table.textOf name = otherTable.textOf other)
    (renamed : ScopeError.Renamed names error other) :
    EvalError.ofRebind table error = EvalError.ofRebind otherTable other := by
  cases renamed with
  | unbound pair | alreadyDeclared pair | corrupted pair =>
      simp only [EvalError.ofRebind, EvalError.ofScope, sameText _ _ pair]

end ScopeError.Renamed

/-! ## Bindings -/

/-- Stacks of values that correspond. -/
abbrev Value.AllRenamed (names : Renaming) : List Value → List Value → Prop :=
  List.Forall₂ (Value.Renamed names)

/-- Bindings of corresponding names to corresponding values, in the same order. -/
abbrev BindingStacks.Renamed (names : Renaming) : BindingStacks → BindingStacks → Prop :=
  List.Forall₂ fun entry other =>
    names entry.1 other.1 ∧ Value.AllRenamed names entry.2 other.2

namespace BindingStacks.Renamed

variable
  {names : Renaming}
  {bindings other : BindingStacks}
  {name otherName : Name}

/-- Paired names have paired values, from the visible one down. -/
theorem stackOf
    (unique : Relator.BiUnique names)
    (renamed : BindingStacks.Renamed names bindings other)
    (pair : names name otherName) :
    Value.AllRenamed names (bindings.stackOf name) (other.stackOf otherName) := by
  induction renamed with
  | nil =>
      exact .nil
  | @cons entry otherEntry _ _ first _ inductionHypothesis =>
      obtain ⟨bound, stack⟩ := entry
      obtain ⟨otherBound, otherStack⟩ := otherEntry
      obtain ⟨boundPair, values⟩ := first
      have same : name = bound ↔ otherName = otherBound :=
        Relator.rel_eq unique pair boundPair
      unfold BindingStacks.stackOf at inductionHypothesis ⊢
      by_cases here : name = bound
      · simpa [List.lookup_cons, here, same.mp here] using values
      · have elsewhere : (name == bound) = false := by
          simpa using here
        have otherElsewhere : (otherName == otherBound) = false := by
          simpa using mt same.mpr here
        simpa [List.lookup_cons, elsewhere, otherElsewhere] using inductionHypothesis

/-- Giving paired names paired values leaves every other pair as it was: no name is paired twice. -/
theorem setStack
    {values otherValues : List Value}
    (unique : Relator.BiUnique names)
    (renamed : BindingStacks.Renamed names bindings other)
    (pair : names name otherName)
    (valuesRenamed : Value.AllRenamed names values otherValues) :
    BindingStacks.Renamed names (bindings.setStack name values)
      (other.setStack otherName otherValues) := by
  have sameEmpty : values.isEmpty = otherValues.isEmpty := by
    cases valuesRenamed <;> rfl
  induction renamed with
  | nil =>
      simp only [BindingStacks.setStack, sameEmpty]
      split
      · exact .nil
      · exact .cons ⟨pair, valuesRenamed⟩ .nil
  | @cons entry otherEntry _ _ first rest inductionHypothesis =>
      have same : entry.1 = name ↔ otherEntry.1 = otherName :=
        Relator.rel_eq unique first.1 pair
      simp only [BindingStacks.setStack, same, sameEmpty]
      split
      · split
        · exact inductionHypothesis
        · exact .cons ⟨pair, valuesRenamed⟩ rest
      · exact .cons first inductionHypothesis

/-- A declaration of paired names with paired values keeps the bindings paired. -/
theorem push
    {value otherValue : Value}
    (unique : Relator.BiUnique names)
    (renamed : BindingStacks.Renamed names bindings other)
    (pair : names name otherName)
    (valueRenamed : Value.Renamed names value otherValue) :
    BindingStacks.Renamed names (bindings.push name value) (other.push otherName otherValue) :=
  renamed.setStack unique pair (.cons valueRenamed (renamed.stackOf unique pair))

/-- Taking the visible values of paired names off keeps the bindings paired. -/
theorem drop
    (unique : Relator.BiUnique names)
    (renamed : BindingStacks.Renamed names bindings other)
    (pair : names name otherName) :
    BindingStacks.Renamed names (bindings.drop name) (other.drop otherName) := by
  refine renamed.setStack unique pair ?_
  have sameStacks := renamed.stackOf unique pair
  generalize bindings.stackOf name = stack, other.stackOf otherName = otherStack at sameStacks ⊢
  cases sameStacks with
  | nil =>
      exact .nil
  | cons _ covered =>
      exact covered

end BindingStacks.Renamed

/-! ## Environments -/

/-- Environments whose bindings and scopes correspond. -/
structure Environment.Renamed (names : Renaming) (env other : Environment) : Prop where
  bindings : BindingStacks.Renamed names env.bindings other.bindings
  outermost : List.Forall₂ names env.outermost other.outermost
  nested : List.Forall₂ (List.Forall₂ names) env.nested other.nested

namespace Environment.Renamed

variable
  {names : Renaming}
  {env other : Environment}
  {name otherName : Name}

/-- The environments at the start have no names to pair. -/
theorem initial : Environment.Renamed names .initial .initial :=
  ⟨.nil, .nil, .nil⟩

/-- More pairs of names leave environments that are already renamed as they are. -/
theorem mono
    {wider : Renaming}
    (included : ∀ name other, names name other → wider name other)
    (renamed : Environment.Renamed names env other) :
    Environment.Renamed wider env other where
  bindings := renamed.bindings.imp fun _ _ ⟨pair, values⟩ =>
    ⟨included _ _ pair, values.imp fun _ _ => .mono included⟩
  outermost := renamed.outermost.imp included
  nested := renamed.nested.imp fun _ _ scope => scope.imp included

/-- The innermost scopes declare paired names in the same order. -/
theorem current
    (renamed : Environment.Renamed names env other) :
    List.Forall₂ names env.current other.current := by
  obtain ⟨bindings, outermost, nested⟩ := env
  obtain ⟨otherBindings, otherOutermost, otherNested⟩ := other
  obtain ⟨-, outermostRenamed, nestedRenamed⟩ := renamed
  cases nestedRenamed with
  | nil =>
      exact outermostRenamed
  | cons scope _ =>
      exact scope

/-- A name is declared in the innermost scope when its partner is. -/
theorem mem_current_iff
    (unique : Relator.BiUnique names)
    (renamed : Environment.Renamed names env other)
    (pair : names name otherName) :
    name ∈ env.current ↔ otherName ∈ other.current :=
  List.rel_mem unique pair renamed.current

/-- Scopes are opened alike under every renaming. -/
theorem openScope
    (renamed : Environment.Renamed names env other) :
    Environment.Renamed names env.openScope other.openScope :=
  { renamed with nested := .cons .nil renamed.nested }

/-- Closing the innermost scopes takes paired names off, so the values below are paired. -/
theorem closeScope
    (unique : Relator.BiUnique names)
    (renamed : Environment.Renamed names env other) :
    Environment.Renamed names env.closeScope other.closeScope := by
  obtain ⟨bindings, outermost, nested⟩ := env
  obtain ⟨otherBindings, otherOutermost, otherNested⟩ := other
  obtain ⟨bindingsRenamed, outermostRenamed, nestedRenamed⟩ := renamed
  cases nestedRenamed with
  | nil =>
      exact ⟨bindingsRenamed, outermostRenamed, .nil⟩
  | cons scope rest =>
      refine ⟨?_, outermostRenamed, rest⟩
      exact List.rel_foldl (fun _ _ sameStacks _ _ pair => sameStacks.drop unique pair)
        bindingsRenamed scope

/-- Declaring paired names enters them in innermost scopes that stay paired. -/
theorem declareName
    (renamed : Environment.Renamed names env other)
    (pair : names name otherName) :
    Environment.Renamed names (env.declareName name) (other.declareName otherName) := by
  obtain ⟨bindings, outermost, nested⟩ := env
  obtain ⟨otherBindings, otherOutermost, otherNested⟩ := other
  obtain ⟨bindingsRenamed, outermostRenamed, nestedRenamed⟩ := renamed
  cases nestedRenamed with
  | nil =>
      exact ⟨bindingsRenamed, .cons pair outermostRenamed, .nil⟩
  | cons scope rest =>
      exact ⟨bindingsRenamed, outermostRenamed, .cons (.cons pair scope) rest⟩

/-- A declaration succeeds under both names or is refused under both, with paired refusals. -/
theorem bind
    {value otherValue : Value}
    (unique : Relator.BiUnique names)
    (renamed : Environment.Renamed names env other)
    (pair : names name otherName)
    (valueRenamed : Value.Renamed names value otherValue) :
    ScopeError.ResultRenamed names (Environment.Renamed names) (env.bind name value)
      (other.bind otherName otherValue) := by
  simp only [Environment.bind, renamed.mem_current_iff unique pair]
  split
  · exact .error (.alreadyDeclared pair)
  · exact .ok { renamed.declareName pair with
      bindings := renamed.bindings.push unique pair valueRenamed }

/-- An assignment succeeds under both names or is refused under both, with paired refusals. -/
theorem rebind
    {value otherValue : Value}
    (unique : Relator.BiUnique names)
    (renamed : Environment.Renamed names env other)
    (pair : names name otherName)
    (valueRenamed : Value.Renamed names value otherValue) :
    ScopeError.ResultRenamed names (Environment.Renamed names) (env.rebind name value)
      (other.rebind otherName otherValue) := by
  have sameStacks := renamed.bindings.stackOf unique pair
  unfold Environment.rebind
  generalize env.bindings.stackOf name = stack,
    other.bindings.stackOf otherName = otherStack at sameStacks ⊢
  cases sameStacks with
  | nil =>
      exact .error (.unbound pair)
  | cons _ covered =>
      exact .ok { renamed with
        bindings := renamed.bindings.setStack unique pair (.cons valueRenamed covered) }

/-- A lookup finds paired values under paired names, or neither name is bound. -/
theorem lookup
    (unique : Relator.BiUnique names)
    (renamed : Environment.Renamed names env other)
    (pair : names name otherName) :
    ScopeError.ResultRenamed names (Value.Renamed names) (env.lookup name)
      (other.lookup otherName) := by
  have sameStacks := renamed.bindings.stackOf unique pair
  simp only [Environment.lookup, renamed.mem_current_iff unique pair]
  generalize env.bindings.stackOf name = stack,
    other.bindings.stackOf otherName = otherStack at sameStacks ⊢
  cases sameStacks with
  | nil =>
      dsimp only
      split
      · exact .error (.corrupted pair)
      · exact .error (.unbound pair)
  | cons live _ =>
      exact .ok live

end Environment.Renamed

end ScopeLang
