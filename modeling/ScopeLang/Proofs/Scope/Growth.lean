import Mathlib.Data.List.Nodup
import ScopeLang.Proofs.Scope.OpenScopes

namespace ScopeLang

/-!
# Growth of environments

Between two moments at which the same scopes are open, an environment can only
grow: the innermost scope declares further names, each of which gets one value
more, and the live value of a name may be replaced. What lay below a live value
stays as it was. Growth composes, and what a scope of its own adds to it is
gone when that scope is closed.
-/

/--
A stack that kept everything below its former top and holds so many values more
than before.
-/
def KeepsCovered (more : Nat) (before after : List Value) : Prop :=
  ∃ above,
    after = above ++ before.tail ∧
      above.length = more + min 1 before.length

namespace KeepsCovered

/-- A stack that does not move keeps what is covered. -/
theorem refl
    (stack : List Value) :
    KeepsCovered 0 stack stack := by
  cases stack with
  | nil =>
      exact ⟨[], rfl, rfl⟩
  | cons value covered =>
      exact ⟨[value], rfl, by simp⟩

/-- A value laid on top leaves every earlier value covered. -/
theorem push
    (value : Value)
    (stack : List Value) :
    KeepsCovered 1 stack (value :: stack) := by
  cases stack with
  | nil =>
      exact ⟨[value], rfl, rfl⟩
  | cons covering covered =>
      exact ⟨[value, covering], rfl, by simp⟩

/-- Changing the visible value of a name leaves the values it covers. -/
theorem replace
    (value replaced : Value)
    (covered : List Value) :
    KeepsCovered 0 (replaced :: covered) (value :: covered) :=
  ⟨[value], rfl, by simp⟩

/-- What is laid on a stack in two parts is the sum of both, and the covered values outlast both. -/
theorem trans
    {first second : Nat}
    {before middle after : List Value}
    (earlier : KeepsCovered first before middle)
    (later : KeepsCovered second middle after) :
    KeepsCovered (second + first) before after := by
  obtain ⟨above, middleShape, aboveLength⟩ := earlier
  obtain ⟨top, afterShape, topLength⟩ := later
  cases above with
  | nil =>
      have nothingBefore : before = [] := by
        cases before with
        | nil =>
            rfl
        | cons =>
            simp at aboveLength
      subst nothingBefore
      subst middleShape
      simp only [List.length_nil] at aboveLength
      exact ⟨top, afterShape, by simp_all⟩
  | cons value rest =>
      refine ⟨top ++ rest, ?_, ?_⟩
      · rw [afterShape, middleShape]
        simp
      · simp only [middleShape, List.cons_append, List.length_cons,
          List.length_append] at topLength aboveLength ⊢
        omega

/-- Without its top, a stack that kept the covered values has one value fewer above them. -/
theorem tail
    {more : Nat}
    {before after : List Value}
    (keeps : KeepsCovered (more + 1) before after) :
    KeepsCovered more before after.tail := by
  obtain ⟨above, shape, aboveLength⟩ := keeps
  cases above with
  | nil =>
      simp only [List.length_nil] at aboveLength
      omega
  | cons value rest =>
      refine ⟨rest, by rw [shape]; rfl, ?_⟩
      rw [List.length_cons] at aboveLength
      omega

/-- A stack that keeps its covered values is longer by exactly what was laid on it. -/
theorem length_eq
    {more : Nat}
    {before after : List Value}
    (keeps : KeepsCovered more before after) :
    after.length = before.length + more := by
  obtain ⟨above, rfl, aboveLength⟩ := keeps
  rw [List.length_append, aboveLength, List.length_tail]
  omega

/-- The covered values stand at the bottom of the later stack. -/
theorem tail_suffix
    {more : Nat}
    {before after : List Value}
    (keeps : KeepsCovered more before after) :
    before.tail <:+ after := by
  obtain ⟨above, shape, -⟩ := keeps
  exact ⟨above, shape.symm⟩

end KeepsCovered

namespace Environment

/-- An environment that grew by declarations of `fresh` names in its innermost scope. -/
structure Grows (fresh : List Name) (before after : Environment) : Prop where
  enclosing : after.enclosing = before.enclosing
  current : after.current = fresh ++ before.current
  nodup : fresh.Nodup
  new : ∀ name ∈ fresh, name ∉ before.current
  stack : ∀ name,
    KeepsCovered (fresh.count name)
      (before.bindings.stackOf name) (after.bindings.stackOf name)

namespace Grows

/-- An environment grows from itself by no declarations. -/
theorem refl
    (env : Environment) :
    Grows [] env env where
  enclosing :=
    rfl
  current :=
    rfl
  nodup :=
    List.nodup_nil
  new := by
    simp
  stack name :=
    .refl _

/-- Declarations of two growths add up, the later ones first. -/
theorem trans
    {first second : List Name}
    {before middle after : Environment}
    (earlier : Grows first before middle)
    (later : Grows second middle after) :
    Grows (second ++ first) before after where
  enclosing :=
    later.enclosing.trans earlier.enclosing
  current := by
    rw [later.current, earlier.current, List.append_assoc]
  nodup := by
    have apart : ∀ name ∈ second, name ∉ first := by
      intro name inSecond inFirst
      apply later.new name inSecond
      rw [earlier.current]
      exact List.mem_append_left _ inFirst
    exact List.nodup_append'.mpr ⟨later.nodup, earlier.nodup, apart⟩
  new name member := by
    rcases List.mem_append.mp member with inSecond | inFirst
    · intro declared
      apply later.new name inSecond
      rw [earlier.current]
      exact List.mem_append_right _ declared
    · exact earlier.new name inFirst
  stack name := by
    rw [List.count_append]
    exact (earlier.stack name).trans (later.stack name)

/-- A declaration that succeeds grows the innermost scope by its one name. -/
theorem of_bind
    {before after : Environment}
    {name : Name}
    {value : Value}
    (bound : before.bind name value = .ok after) :
    Grows [name] before after := by
  obtain ⟨undeclared, scopesAfter, bindingsAfter⟩ := of_bind_eq_ok bound
  rw [after.scopes_eq] at scopesAfter
  obtain ⟨currentAfter, enclosingAfter⟩ := List.cons.inj scopesAfter
  refine ⟨enclosingAfter, currentAfter, List.nodup_singleton name, ?_, ?_⟩
  · simpa using undeclared
  · intro other
    rw [bindingsAfter]
    by_cases here : other = name
    · subst here
      rw [BindingStacks.stackOf_push_self, List.count_singleton_self]
      exact .push value _
    · rw [BindingStacks.stackOf_push_of_ne here,
        List.count_eq_zero_of_not_mem (by simpa using here)]
      exact .refl _

/-- An assignment that succeeds declares nothing and moves no scope. -/
theorem of_rebind
    {before after : Environment}
    {name : Name}
    {value : Value}
    (rebound : before.rebind name value = .ok after) :
    Grows [] before after := by
  obtain ⟨replaced, covered, stackBefore, scopesAfter, bindingsAfter⟩ :=
    of_rebind_eq_ok rebound
  rw [after.scopes_eq, before.scopes_eq] at scopesAfter
  obtain ⟨currentAfter, enclosingAfter⟩ := List.cons.inj scopesAfter
  refine ⟨enclosingAfter, currentAfter, List.nodup_nil, by simp, ?_⟩
  intro other
  rw [bindingsAfter]
  by_cases here : other = name
  · subst here
    rw [BindingStacks.stackOf_setStack_self, stackBefore]
    exact .replace value replaced covered
  · rw [BindingStacks.stackOf_setStack_of_ne here]
    exact .refl _

/--
Whatever is declared in a scope of its own is dropped when that scope is closed.
Each name declared there gave its stack one value, and closing takes one back.
-/
theorem closeScope
    {fresh : List Name}
    {before last : Environment}
    (inside : Grows fresh before.openScope last) :
    Grows [] before last.closeScope := by
  have enclosingLast : last.enclosing = before.scopes :=
    inside.enclosing.trans before.enclosing_openScope
  have currentLast : last.current = fresh := by
    rw [inside.current, before.current_openScope, List.append_nil]
  have nested : last.enclosing ≠ [] := by
    rw [enclosingLast, before.scopes_eq]
    exact List.cons_ne_nil _ _
  have scopesAfter : last.closeScope.scopes = before.scopes := by
    rw [scopes_closeScope nested, enclosingLast]
  rw [last.closeScope.scopes_eq, before.scopes_eq] at scopesAfter
  obtain ⟨currentAfter, enclosingAfter⟩ := List.cons.inj scopesAfter
  refine ⟨enclosingAfter, currentAfter, List.nodup_nil, by simp, ?_⟩
  intro name
  have noDuplicates : last.current.Nodup := by
    rw [currentLast]
    exact inside.nodup
  have grown := inside.stack name
  rw [stackOf_closeScope nested noDuplicates, currentLast]
  by_cases declared : name ∈ fresh
  · rw [List.count_eq_one_of_mem inside.nodup declared] at grown
    rw [if_pos declared]
    exact grown.tail
  · rw [List.count_eq_zero_of_not_mem declared] at grown
    rw [if_neg declared]
    exact grown

end Grows

end Environment

end ScopeLang
