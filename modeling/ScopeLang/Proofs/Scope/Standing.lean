import ScopeLang.Proofs.Scope.Reachable
import ScopeLang.Proofs.Scope.Renaming

namespace ScopeLang

/-!
# The standing of a name

An environment can be looked at name by name: the values of a name, and which of the
open scopes have declared it. This is the standing of the name. An operation on one
name leaves the standing of every other name alone, and what it does, and whether it
is refused, depends on the standing of its own name only. So environments that differ
in one name answer alike as long as nobody asks for this name.
-/

/-- The values of a name, the live one first, and which scopes declare it, innermost first. -/
structure Standing where
  values : List Value
  declared : List Bool

namespace Standing

/-- The standing of a name after a scope was opened. -/
def openScope (standing : Standing) : Standing :=
  { standing with declared := false :: standing.declared }

/-- The standing of a name after the innermost scope was closed; the outermost one stays. -/
def closeScope : Standing → Standing
  | ⟨values, here :: around :: rest⟩ =>
      ⟨if here then values.tail else values, around :: rest⟩
  | standing => standing

/-- The standing of a name inside of a number of scopes that do not declare it. -/
def inside (standing : Standing) : Nat → Standing
  | 0 => standing
  | depth + 1 => (standing.inside depth).openScope

/-- Opening scopes leaves a name with some scope to stand in. -/
theorem declared_inside_ne_nil
    {standing : Standing}
    (someScope : standing.declared ≠ [])
    (depth : Nat) :
    (standing.inside depth).declared ≠ [] := by
  cases depth with
  | zero =>
      exact someScope
  | succ =>
      exact List.cons_ne_nil _ _

/-- A scope that is opened and closed makes no difference. -/
theorem closeScope_openScope
    {standing : Standing}
    (someScope : standing.declared ≠ []) :
    standing.openScope.closeScope = standing := by
  obtain ⟨values, declared⟩ := standing
  cases declared with
  | nil =>
      exact (someScope rfl).elim
  | cons =>
      rfl

/-- Closing a scope gives a name no value it did not have. -/
theorem mem_of_mem_closeScope
    {standing : Standing}
    {value : Value}
    (member : value ∈ standing.closeScope.values) :
    value ∈ standing.values := by
  unfold closeScope at member
  split at member
  · rename_i values here _ _
    cases here with
    | false =>
        exact member
    | true =>
        exact List.mem_of_mem_tail member
  · exact member

end Standing

namespace Environment

/-- The standing of a name in an environment. -/
def standing (env : Environment) (name : Name) : Standing where
  values := env.bindings.stackOf name
  declared := env.scopes.map fun scope => decide (name ∈ scope)

section

variable {env after : Environment} {name other : Name} {value : Value}

/-- How a name stands, in terms of the innermost scope and the ones around it. -/
theorem standing_eq (env : Environment) (name : Name) :
    env.standing name =
      ⟨env.bindings.stackOf name,
        decide (name ∈ env.current) ::
          env.enclosing.map fun scope => decide (name ∈ scope)⟩ := by
  rw [standing, scopes_eq, List.map_cons]

/-- Some scope is open, so that a name always has a standing in it. -/
theorem declared_standing_ne_nil (env : Environment) (name : Name) :
    (env.standing name).declared ≠ [] := by
  rw [standing_eq]
  exact List.cons_ne_nil _ _

/-- An opened scope is one more in which the name is not declared. -/
theorem standing_openScope (env : Environment) (name : Name) :
    env.openScope.standing name = (env.standing name).openScope :=
  rfl

/-- A closed scope takes the value of a name with it where the name was declared there. -/
theorem standing_closeScope
    (reachable : env.Reachable)
    (name : Name) :
    env.closeScope.standing name = (env.standing name).closeScope := by
  by_cases outermost : env.enclosing = []
  · rw [closeScope_of_outermost outermost, standing_eq, outermost]
    rfl
  · obtain ⟨around, rest, shape⟩ := List.exists_cons_of_ne_nil outermost
    rw [standing_eq env, standing, scopes_closeScope outermost,
      stackOf_closeScope outermost reachable.nodup_current, shape]
    simp [Standing.closeScope]

/-- A declaration leaves the other names alone. -/
theorem standing_of_bind_of_ne
    (bound : env.bind name value = .ok after)
    (different : other ≠ name) :
    after.standing other = env.standing other := by
  obtain ⟨-, scopes, bindings⟩ := of_bind_eq_ok bound
  rw [standing_eq env, standing, scopes, bindings, BindingStacks.stackOf_push_of_ne different]
  simp [different]

/-- What a declaration does to its name follows from what the name had. -/
theorem standing_of_bind
    (bound : env.bind name value = .ok after) :
    after.standing name =
      ⟨value :: (env.standing name).values, true :: (env.standing name).declared.tail⟩ := by
  obtain ⟨-, scopes, bindings⟩ := of_bind_eq_ok bound
  rw [standing_eq env, standing, scopes, bindings, BindingStacks.stackOf_push_self]
  simp

/-- An assignment leaves the other names alone. -/
theorem standing_of_rebind_of_ne
    (rebound : env.rebind name value = .ok after)
    (different : other ≠ name) :
    after.standing other = env.standing other := by
  obtain ⟨_, _, -, scopes, bindings⟩ := of_rebind_eq_ok rebound
  rw [standing, scopes, bindings, BindingStacks.stackOf_setStack_of_ne different, standing]

/-- What an assignment does to its name follows from what the name had. -/
theorem standing_of_rebind
    (rebound : env.rebind name value = .ok after) :
    after.standing name =
      { env.standing name with values := value :: (env.standing name).values.tail } := by
  obtain ⟨_, _, stack, scopes, bindings⟩ := of_rebind_eq_ok rebound
  rw [standing, standing, scopes, bindings, BindingStacks.stackOf_setStack_self, stack]
  rfl

end

section

variable {env second : Environment} {name : Name}

/-- A name that stands the same is declared in both innermost scopes or in neither. -/
theorem mem_current_congr
    (same : second.standing name = env.standing name) :
    name ∈ second.current ↔ name ∈ env.current := by
  have declared := congrArg Standing.declared same
  rw [standing_eq, standing_eq, List.cons.injEq] at declared
  exact decide_eq_decide.mp declared.1

/-- A lookup depends on the standing of its name only. -/
theorem lookup_congr
    (same : second.standing name = env.standing name) :
    second.lookup name = env.lookup name := by
  have values : second.bindings.stackOf name = env.bindings.stackOf name :=
    congrArg Standing.values same
  simp only [lookup, values, mem_current_congr same]

end

end Environment

/-! ## Environments that differ in one name -/

/-- Every name but one corresponds to itself, and this one to none. -/
def Renaming.except (hidden : Name) : Renaming :=
  fun name other => name = other ∧ name ≠ hidden

section

variable {hidden : Name}

/-- Statements in which a name does not occur do not change when it is left out. -/
theorem Stmt.AllRenamed.except
    {body : List Stmt}
    (absent : hidden ∉ Stmt.allNames body) :
    Stmt.AllRenamed (.except hidden) body body :=
  .of_names fun _ member => ⟨rfl, fun same => absent (same ▸ member)⟩

/-- A value that does not mention the hidden name is its own partner. -/
theorem Value.Renamed.except
    {value : Value}
    (absent : hidden ∉ value.names) :
    Value.Renamed (.except hidden) value value :=
  .of_names fun _ member => ⟨rfl, fun same => absent (same ▸ member)⟩

/-- Values paired by all names but one are equal. -/
theorem Value.Renamed.eq_of_except
    {value other : Value}
    (renamed : Value.Renamed (.except hidden) value other) :
    value = other :=
  renamed.eq fun _ _ pair => pair.1

end

namespace Environment

/--
Reachable environments that agree on the standing of every name but one, whose values
do not mention this name, and in which it has the standing that it had at the start of
a comparison, `depth` scopes ago.
-/
structure AlikeExcept
    (hidden : Name)
    (start otherStart : Environment)
    (depth : Nat)
    (env other : Environment) :
    Prop where
  reachable : env.Reachable
  otherReachable : other.Reachable
  agree : ∀ name, name ≠ hidden → other.standing name = env.standing name
  avoids : ∀ name, name ≠ hidden →
    ∀ value ∈ (env.standing name).values, Value.Renamed (.except hidden) value value
  kept : env.standing hidden = (start.standing hidden).inside depth
  otherKept : other.standing hidden = (otherStart.standing hidden).inside depth

namespace AlikeExcept

variable
  {hidden name : Name}
  {start otherStart env other : Environment}
  {depth : Nat}
  {value : Value}

/-- Every name but the hidden one is found with the same value on both sides. -/
theorem lookup
    (alike : AlikeExcept hidden start otherStart depth env other)
    (shown : name ≠ hidden) :
    ScopeError.ResultRenamed (.except hidden) (Value.Renamed (.except hidden)) (env.lookup name)
      (other.lookup name) := by
  rw [lookup_congr (alike.agree name shown)]
  unfold Environment.lookup
  cases stack : env.bindings.stackOf name with
  | nil =>
      dsimp only
      split
      · exact .error (.corrupted ⟨rfl, shown⟩)
      · exact .error (.unbound ⟨rfl, shown⟩)
  | cons live covered =>
      refine .ok (alike.avoids name shown live ?_)
      rw [standing, stack]
      exact List.mem_cons_self

/-- Environments alike but for the hidden name still are inside one more scope. -/
theorem openScope
    (alike : AlikeExcept hidden start otherStart depth env other) :
    AlikeExcept hidden start otherStart (depth + 1) env.openScope other.openScope where
  reachable := alike.reachable.openScope
  otherReachable := alike.otherReachable.openScope
  agree name shown := by
    rw [standing_openScope, standing_openScope, alike.agree name shown]
  avoids := alike.avoids
  kept := by
    rw [standing_openScope, alike.kept]
    rfl
  otherKept := by
    rw [standing_openScope, alike.otherKept]
    rfl

/-- The scopes that were opened since the start do not declare the name. -/
private theorem kept_of_closeScope
    (reachable : env.Reachable)
    (kept : env.standing hidden = (start.standing hidden).inside (depth + 1)) :
    env.closeScope.standing hidden = (start.standing hidden).inside depth := by
  have someScope := declared_standing_ne_nil start hidden
  rw [standing_closeScope reachable, kept]
  exact Standing.closeScope_openScope (Standing.declared_inside_ne_nil someScope depth)

/--
Environments alike but for the hidden name still are when a scope opened on both sides is
closed.
-/
theorem closeScope
    (alike : AlikeExcept hidden start otherStart (depth + 1) env other) :
    AlikeExcept hidden start otherStart depth env.closeScope other.closeScope where
  reachable := alike.reachable.closeScope
  otherReachable := alike.otherReachable.closeScope
  agree name shown := by
    rw [standing_closeScope alike.reachable, standing_closeScope alike.otherReachable,
      alike.agree name shown]
  avoids name shown value member := by
    rw [standing_closeScope alike.reachable] at member
    exact alike.avoids name shown value (Standing.mem_of_mem_closeScope member)
  kept := kept_of_closeScope alike.reachable alike.kept
  otherKept := kept_of_closeScope alike.otherReachable alike.otherKept

/-- A change of another name, to the same standing on both sides. -/
theorem update
    {after otherAfter : Environment}
    (alike : AlikeExcept hidden start otherStart depth env other)
    (shown : name ≠ hidden)
    (reachable : after.Reachable)
    (otherReachable : otherAfter.Reachable)
    (elsewhere : ∀ second, second ≠ name → after.standing second = env.standing second)
    (otherElsewhere :
      ∀ second, second ≠ name → otherAfter.standing second = other.standing second)
    (here : otherAfter.standing name = after.standing name)
    (avoidsHere :
      ∀ value ∈ (after.standing name).values, Value.Renamed (.except hidden) value value) :
    AlikeExcept hidden start otherStart depth after otherAfter where
  reachable := reachable
  otherReachable := otherReachable
  agree second secondShown := by
    by_cases same : second = name
    · rw [same, here]
    · rw [elsewhere second same, otherElsewhere second same, alike.agree second secondShown]
  avoids second secondShown := by
    by_cases same : second = name
    · rw [same]
      exact avoidsHere
    · rw [elsewhere second same]
      exact alike.avoids second secondShown
  kept := by
    rw [elsewhere hidden shown.symm, alike.kept]
  otherKept := by
    rw [otherElsewhere hidden shown.symm, alike.otherKept]

/-- Declaring another name goes the same way on both sides, and the hidden one stands as before. -/
theorem bind
    (alike : AlikeExcept hidden start otherStart depth env other)
    (shown : name ≠ hidden)
    (avoids : Value.Renamed (.except hidden) value value) :
    ScopeError.ResultRenamed (.except hidden) (AlikeExcept hidden start otherStart depth)
      (env.bind name value) (other.bind name value) := by
  have sameCurrent := mem_current_congr (alike.agree name shown)
  by_cases declared : name ∈ env.current
  · have refused : env.bind name value = .error (.alreadyDeclared name) :=
      if_pos declared
    have otherRefused : other.bind name value = .error (.alreadyDeclared name) :=
      if_pos (sameCurrent.mpr declared)
    rw [refused, otherRefused]
    exact .error (.alreadyDeclared ⟨rfl, shown⟩)
  · obtain ⟨after, bound⟩ : ∃ after, env.bind name value = .ok after :=
      ⟨_, if_neg declared⟩
    obtain ⟨otherAfter, otherBound⟩ : ∃ after, other.bind name value = .ok after :=
      ⟨_, if_neg (mt sameCurrent.mp declared)⟩
    rw [bound, otherBound]
    refine .ok (alike.update shown (alike.reachable.of_bind bound)
      (alike.otherReachable.of_bind otherBound)
      (fun _ => standing_of_bind_of_ne bound) (fun _ => standing_of_bind_of_ne otherBound)
      ?_ ?_)
    · rw [standing_of_bind bound, standing_of_bind otherBound, alike.agree name shown]
    · rw [standing_of_bind bound]
      exact List.forall_mem_cons.mpr ⟨avoids, alike.avoids name shown⟩

/--
Assigning to another name goes the same way on both sides, and the hidden one stands as
before.
-/
theorem rebind
    (alike : AlikeExcept hidden start otherStart depth env other)
    (shown : name ≠ hidden)
    (avoids : Value.Renamed (.except hidden) value value) :
    ScopeError.ResultRenamed (.except hidden) (AlikeExcept hidden start otherStart depth)
      (env.rebind name value) (other.rebind name value) := by
  have sameValues : other.bindings.stackOf name = env.bindings.stackOf name :=
    congrArg Standing.values (alike.agree name shown)
  cases stack : env.bindings.stackOf name with
  | nil =>
      have refused : env.rebind name value = .error (.unbound name) := by
        rw [Environment.rebind, stack]
      have otherRefused : other.rebind name value = .error (.unbound name) := by
        rw [Environment.rebind, sameValues, stack]
      rw [refused, otherRefused]
      exact .error (.unbound ⟨rfl, shown⟩)
  | cons replaced covered =>
      obtain ⟨after, rebound⟩ : ∃ after, env.rebind name value = .ok after := by
        rw [Environment.rebind, stack]
        exact ⟨_, rfl⟩
      obtain ⟨otherAfter, otherRebound⟩ : ∃ after, other.rebind name value = .ok after := by
        rw [Environment.rebind, sameValues, stack]
        exact ⟨_, rfl⟩
      rw [rebound, otherRebound]
      refine .ok (alike.update shown (alike.reachable.of_rebind rebound)
        (alike.otherReachable.of_rebind otherRebound)
        (fun _ => standing_of_rebind_of_ne rebound)
        (fun _ => standing_of_rebind_of_ne otherRebound) ?_ ?_)
      · rw [standing_of_rebind rebound, standing_of_rebind otherRebound,
          alike.agree name shown]
      · rw [standing_of_rebind rebound]
        refine List.forall_mem_cons.mpr ⟨avoids, fun value member => ?_⟩
        exact alike.avoids name shown value (List.mem_of_mem_tail member)

end AlikeExcept

end Environment

end ScopeLang
