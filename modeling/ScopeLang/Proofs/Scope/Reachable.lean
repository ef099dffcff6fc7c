import ScopeLang.Proofs.Scope.Chain

namespace ScopeLang

/-!
# Reachable environments

Environments are built by their operations alone, so every environment is one
that some calls reach from a fresh one. In such an environment a name that the
current scope has declared is bound, and lookups depend on bindings only.

Two environments with the same bindings that agree on their innermost scopes
answer alike as long as nothing is declared outside of these scopes.
-/

namespace Environment

/-- Environments that calls of the operations build from a fresh one. -/
def Reachable (env : Environment) : Prop :=
  ∃ ops, initial.after ops = env

namespace Reachable

/-- One more call leads to a reachable environment. -/
theorem step
    {env : Environment}
    (reachable : Reachable env)
    (op : ScopeOp) :
    Reachable (env.step op).2 := by
  obtain ⟨ops, rfl⟩ := reachable
  refine ⟨ops ++ [op], ?_⟩
  rw [Environment.after, List.foldl_append]
  rfl

/-- Opening a scope stays within reach. -/
theorem openScope
    {env : Environment}
    (reachable : Reachable env) :
    Reachable env.openScope :=
  reachable.step .openScope

/-- Closing a scope stays within reach. -/
theorem closeScope
    {env : Environment}
    (reachable : Reachable env) :
    Reachable env.closeScope :=
  reachable.step .closeScope

/-- A declaration that succeeds stays within reach. -/
theorem of_bind
    {env after : Environment}
    {name : Name}
    {value : Value}
    (reachable : Reachable env)
    (bound : env.bind name value = .ok after) :
    Reachable after := by
  have next := reachable.step (.bind name value)
  rw [Environment.step, bound] at next
  exact next

/-- An assignment that succeeds stays within reach. -/
theorem of_rebind
    {env after : Environment}
    {name : Name}
    {value : Value}
    (reachable : Reachable env)
    (rebound : env.rebind name value = .ok after) :
    Reachable after := by
  have next := reachable.step (.rebind name value)
  rw [Environment.step, rebound] at next
  exact next

/-- A name that the current scope has declared is bound. -/
theorem stackOf_ne_nil
    {env : Environment}
    {name : Name}
    (reachable : Reachable env)
    (declared : name ∈ env.current) :
    env.bindings.stackOf name ≠ [] := by
  obtain ⟨ops, rfl⟩ := reachable
  obtain ⟨chain, represents⟩ := Represents.initial.after ops
  exact represents.stackOf_ne_nil declared

/-- A scope declares a name once. -/
theorem nodup_current
    {env : Environment}
    (reachable : Reachable env) :
    env.current.Nodup := by
  obtain ⟨ops, rfl⟩ := reachable
  obtain ⟨chain, represents⟩ := Represents.initial.after ops
  exact represents.innermost.nodup

/--
A lookup depends on the bindings only: a name without values is declared in neither of the
current scopes.
-/
theorem lookup_congr
    {env other : Environment}
    (reachable : Reachable env)
    (otherReachable : Reachable other)
    (same : other.bindings = env.bindings)
    (name : Name) :
    other.lookup name = env.lookup name := by
  unfold Environment.lookup
  rw [same]
  cases stack : env.bindings.stackOf name with
  | nil =>
      have undeclared : name ∉ env.current := by
        intro declared
        exact reachable.stackOf_ne_nil declared stack
      have otherUndeclared : name ∉ other.current := by
        intro declared
        apply otherReachable.stackOf_ne_nil declared
        rw [same]
        exact stack
      simp [undeclared, otherUndeclared]
  | cons =>
      rfl

end Reachable

/-- Environments are equal when their bindings and all their open scopes are. -/
theorem eq_of_scopes
    {env other : Environment}
    (sameBindings : other.bindings = env.bindings)
    (sameScopes : other.scopes = env.scopes) :
    other = env := by
  obtain ⟨bindings, outermost, nested⟩ := env
  obtain ⟨otherBindings, otherOutermost, otherNested⟩ := other
  obtain ⟨rfl, sameOutermost⟩ := List.append_inj' sameScopes rfl
  obtain rfl : otherOutermost = outermost := by
    simpa using sameOutermost
  obtain rfl : otherBindings = bindings :=
    sameBindings
  rfl

/--
Reachable environments with the same bindings whose innermost scopes, as many as
`depth`, declare the same names. Nothing is said about the scopes around them.
-/
structure AgreeWithin (depth : Nat) (env other : Environment) : Prop where
  reachable : Reachable env
  otherReachable : Reachable other
  bindings : other.bindings = env.bindings
  scopes : ∃ inner around otherAround,
    inner.length = depth ∧
      env.nested = inner ++ around ∧
        other.nested = inner ++ otherAround

namespace AgreeWithin

variable {depth : Nat} {env other : Environment}

/-- A reachable environment agrees with itself down to any scope it has open. -/
theorem refl
    (reachable : Reachable env)
    (nested : depth ≤ env.nested.length) :
    AgreeWithin depth env env where
  reachable :=
    reachable
  otherReachable :=
    reachable
  bindings :=
    rfl
  scopes :=
    ⟨env.nested.take depth, env.nested.drop depth, env.nested.drop depth,
      List.length_take_of_le nested, (List.take_append_drop _ _).symm,
      (List.take_append_drop _ _).symm⟩

/-- Agreement does not depend on which environment comes first. -/
theorem symm
    (agree : AgreeWithin depth env other) :
    AgreeWithin depth other env := by
  obtain ⟨inner, around, otherAround, size, shape, otherShape⟩ := agree.scopes
  exact ⟨agree.otherReachable, agree.reachable, agree.bindings.symm,
    inner, otherAround, around, size, otherShape, shape⟩

/-- An environment agrees with itself with one more scope open, up to the scope it is in. -/
theorem of_openScope
    (reachable : Reachable env) :
    AgreeWithin 0 env env.openScope where
  reachable :=
    reachable
  otherReachable :=
    reachable.openScope
  bindings :=
    rfl
  scopes :=
    ⟨[], env.nested, [] :: env.nested, rfl, rfl, rfl⟩

/-- Environments that agree find the same value of every name. -/
theorem lookup
    (agree : AgreeWithin depth env other)
    (name : Name) :
    other.lookup name = env.lookup name :=
  agree.reachable.lookup_congr agree.otherReachable agree.bindings name

/-- Environments that agree still do inside one more scope. -/
theorem openScope
    (agree : AgreeWithin depth env other) :
    AgreeWithin (depth + 1) env.openScope other.openScope := by
  obtain ⟨inner, around, otherAround, size, shape, otherShape⟩ := agree.scopes
  refine ⟨agree.reachable.openScope, agree.otherReachable.openScope, agree.bindings,
    [] :: inner, around, otherAround, by simp [size], ?_, ?_⟩
  · simp [Environment.openScope, shape]
  · simp [Environment.openScope, otherShape]

/-- Environments that agree beyond their innermost scope still agree when it is closed. -/
theorem closeScope
    (agree : AgreeWithin (depth + 1) env other) :
    AgreeWithin depth env.closeScope other.closeScope := by
  obtain ⟨inner, around, otherAround, size, shape, otherShape⟩ := agree.scopes
  cases inner with
  | nil =>
      cases size
  | cons scope inner =>
      refine ⟨agree.reachable.closeScope, agree.otherReachable.closeScope, ?_,
        inner, around, otherAround, by simpa using size, ?_, ?_⟩
      · simp [Environment.closeScope, shape, otherShape, agree.bindings]
      · simp [Environment.closeScope, shape]
      · simp [Environment.closeScope, otherShape]

/-- Environments that agree inside a scope declare the same names in it. -/
theorem current_eq
    (agree : AgreeWithin (depth + 1) env other) :
    other.current = env.current := by
  obtain ⟨inner, around, otherAround, size, shape, otherShape⟩ := agree.scopes
  cases inner with
  | nil =>
      cases size
  | cons scope inner =>
      simp [current, shape, otherShape]

/-- Inside the scopes on which they agree, both declare a name or both refuse it. -/
theorem bind
    (agree : AgreeWithin (depth + 1) env other)
    (name : Name)
    (value : Value) :
    (∃ after otherAfter,
        env.bind name value = .ok after ∧
          other.bind name value = .ok otherAfter ∧
            AgreeWithin (depth + 1) after otherAfter) ∨
      ∃ error, env.bind name value = .error error ∧ other.bind name value = .error error := by
  have sameCurrent := agree.current_eq
  by_cases declared : name ∈ env.current
  · right
    simp [Environment.bind, sameCurrent, declared]
  · left
    obtain ⟨inner, around, otherAround, size, shape, otherShape⟩ := agree.scopes
    cases inner with
    | nil =>
        cases size
    | cons scope inner =>
        have bound : env.bind name value = .ok
            { env.declareName name with bindings := env.bindings.push name value } := by
          simp [Environment.bind, declared]
        have otherBound : other.bind name value = .ok
            { other.declareName name with bindings := other.bindings.push name value } := by
          simp [Environment.bind, sameCurrent, declared]
        refine ⟨_, _, bound, otherBound, agree.reachable.of_bind bound,
          agree.otherReachable.of_bind otherBound, ?_,
          (name :: scope) :: inner, around, otherAround, by simpa using size, ?_, ?_⟩
        · simp [agree.bindings]
        · simp [declareName, shape]
        · simp [declareName, otherShape]

/-- Both assign to a name or both refuse, wherever the name was declared. -/
theorem rebind
    (agree : AgreeWithin depth env other)
    (name : Name)
    (value : Value) :
    (∃ after otherAfter,
        env.rebind name value = .ok after ∧
          other.rebind name value = .ok otherAfter ∧
            AgreeWithin depth after otherAfter) ∨
      ∃ error, env.rebind name value = .error error ∧ other.rebind name value = .error error := by
  cases stack : env.bindings.stackOf name with
  | nil =>
      right
      simp [Environment.rebind, agree.bindings, stack]
  | cons replaced covered =>
      left
      have rebound : env.rebind name value = .ok
          { env with bindings := env.bindings.setStack name (value :: covered) } := by
        simp [Environment.rebind, stack]
      have otherRebound : other.rebind name value = .ok
          { other with bindings := other.bindings.setStack name (value :: covered) } := by
        simp [Environment.rebind, agree.bindings, stack]
      refine ⟨_, _, rebound, otherRebound, agree.reachable.of_rebind rebound,
        agree.otherReachable.of_rebind otherRebound, ?_, agree.scopes⟩
      simp [agree.bindings]

end AgreeWithin

end Environment

end ScopeLang
