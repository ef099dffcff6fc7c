import ScopeLang.Scope.Environment

namespace ScopeLang

/-!
# Open scopes and binding stacks

An environment is looked at in two ways: which names each open scope has
declared, and which values each name has. This module says what every operation
does to both views, so that later modules never open the operations themselves.
-/

namespace BindingStacks

/-- Dropping one value of each of several names takes the top off exactly their stacks. -/
theorem stackOf_foldl_drop
    {names : List Name}
    (noDuplicates : names.Nodup)
    (bindings : BindingStacks)
    (name : Name) :
    (names.foldl (fun kept dropped => kept.drop dropped) bindings).stackOf name =
      if name ∈ names then
        (bindings.stackOf name).tail
      else
        bindings.stackOf name := by
  induction names generalizing bindings with
  | nil =>
      simp
  | cons first rest inductionHypothesis =>
      obtain ⟨firstNotInRest, restNodup⟩ :=
        List.nodup_cons.mp noDuplicates
      rw [List.foldl_cons, inductionHypothesis restNodup]
      by_cases here : name = first
      · subst here
        simp [firstNotInRest]
      · simp [here, stackOf_drop_of_ne here]

end BindingStacks

namespace Environment

/-- The names that every open scope has declared, innermost scope first. -/
def scopes (env : Environment) : List (List Name) :=
  env.nested ++ [env.outermost]

/-- The names that every open scope but the innermost one has declared. -/
def enclosing (env : Environment) : List (List Name) :=
  env.scopes.tail

/-- All open scopes are the innermost and the ones around it. -/
theorem scopes_eq
    (env : Environment) :
    env.scopes = env.current :: env.enclosing := by
  cases shape : env.nested <;>
    simp [scopes, enclosing, current, shape]

/-- The depth counts the innermost scope and the ones around it. -/
theorem depth_eq
    (env : Environment) :
    env.depth = env.enclosing.length + 1 := by
  simp [depth, enclosing, scopes]

/-- A scope that was just opened declares nothing. -/
theorem current_openScope
    (env : Environment) :
    env.openScope.current = [] :=
  rfl

/-- Around a scope that was just opened lie all scopes open before. -/
theorem enclosing_openScope
    (env : Environment) :
    env.openScope.enclosing = env.scopes :=
  rfl

/-- A nested scope that is closed leaves the scopes around it. -/
theorem scopes_closeScope
    {env : Environment}
    (nested : env.enclosing ≠ []) :
    env.closeScope.scopes = env.enclosing := by
  cases shape : env.nested with
  | nil =>
      simp [enclosing, scopes, shape] at nested
  | cons scope rest =>
      simp [closeScope, enclosing, scopes, shape]

/-- Closing a nested scope uncovers what its names had before. -/
theorem stackOf_closeScope
    {env : Environment}
    (nested : env.enclosing ≠ [])
    (noDuplicates : env.current.Nodup)
    (name : Name) :
    env.closeScope.bindings.stackOf name =
      if name ∈ env.current then
        (env.bindings.stackOf name).tail
      else
        env.bindings.stackOf name := by
  cases shape : env.nested with
  | nil =>
      simp [enclosing, scopes, shape] at nested
  | cons scope rest =>
      have innermost : env.current = scope := by
        simp [current, shape]
      rw [innermost] at noDuplicates ⊢
      simpa [closeScope, shape] using
        BindingStacks.stackOf_foldl_drop noDuplicates env.bindings name

/-- The outermost scope stays open. -/
theorem closeScope_of_outermost
    {env : Environment}
    (outermost : env.enclosing = []) :
    env.closeScope = env := by
  have shape : env.nested = [] := by
    simpa [enclosing, scopes] using congrArg List.length outermost
  simp [closeScope, shape]

/-- What a declaration that is not refused does. -/
theorem of_bind_eq_ok
    {env after : Environment}
    {name : Name}
    {value : Value}
    (bound : env.bind name value = .ok after) :
    name ∉ env.current ∧
      after.scopes = (name :: env.current) :: env.enclosing ∧
        after.bindings = env.bindings.push name value := by
  by_cases declared : name ∈ env.current
  · simp [bind, declared] at bound
  · simp only [bind, declared, ↓reduceIte, Except.ok.injEq] at bound
    subst after
    refine ⟨declared, ?_, rfl⟩
    cases shape : env.nested <;>
      simp [declareName, scopes, enclosing, current, shape]

/-- What an assignment that is not refused does. -/
theorem of_rebind_eq_ok
    {env after : Environment}
    {name : Name}
    {value : Value}
    (rebound : env.rebind name value = .ok after) :
    ∃ replaced covered,
      env.bindings.stackOf name = replaced :: covered ∧
        after.scopes = env.scopes ∧
          after.bindings =
            env.bindings.setStack name (value :: covered) := by
  unfold rebind at rebound
  cases stack : env.bindings.stackOf name with
  | nil =>
      simp [stack] at rebound
  | cons replaced covered =>
      simp only [stack, Except.ok.injEq] at rebound
      subst after
      exact ⟨replaced, covered, rfl, rfl, rfl⟩

end Environment

end ScopeLang
