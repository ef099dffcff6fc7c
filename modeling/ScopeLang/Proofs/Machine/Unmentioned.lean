import ScopeLang.Proofs.Machine.AlikeEnvironments
import ScopeLang.Proofs.Machine.Moments
import ScopeLang.Proofs.Scope.Standing

namespace ScopeLang

/-!
# Names that a fragment does not mention

Closures have no bindings of their own, so every call sees all bindings that are live
when it is made. Still, a name that occurs neither in a fragment nor in any closure
that the fragment could call makes no difference to it: the fragment runs in the same
way whatever the name is bound to, and in whichever scopes, and leaves it as it was.
-/

namespace Machine

/-- Machines that agree on everything but the standing of one name. -/
structure AgreeExcept (hidden : Name) (machine other : Machine) : Prop where
  env : ∀ name, name ≠ hidden → other.env.standing name = machine.env.standing name
  returns : other.returns = machine.returns
  failed : other.failed = machine.failed
  activeCalls : other.activeCalls = machine.activeCalls
  console : other.console = machine.console

/-- No closure mentions a name, but perhaps those that are bound to this very name. -/
structure Avoids (hidden : Name) (machine : Machine) : Prop where
  bound : ∀ name, name ≠ hidden →
    ∀ value ∈ machine.env.bindings.stackOf name, hidden ∉ value.names
  pending : ∀ value ∈ machine.returns, hidden ∉ value.names

section

variable {hidden : Name} {machine other : Machine}

/-- Agreement but for a name does not depend on which machine comes first. -/
theorem AgreeExcept.symm
    (agree : AgreeExcept hidden machine other) :
    AgreeExcept hidden other machine where
  env name shown := (agree.env name shown).symm
  returns := agree.returns.symm
  failed := agree.failed.symm
  activeCalls := agree.activeCalls.symm
  console := agree.console.symm

/-- Lowering both flags keeps machines in agreement but for the name. -/
theorem AgreeExcept.clearFailure
    (agree : AgreeExcept hidden machine other) :
    AgreeExcept hidden machine.clearFailure other.clearFailure :=
  { agree with failed := rfl }

/-- Machines that agree on all other names mention the name in the same closures. -/
theorem Avoids.of_agree
    (avoids : machine.Avoids hidden)
    (agree : AgreeExcept hidden machine other) :
    other.Avoids hidden where
  bound name shown := by
    have values : other.env.bindings.stackOf name = machine.env.bindings.stackOf name :=
      congrArg Standing.values (agree.env name shown)
    rw [values]
    exact avoids.bound name shown
  pending := by
    rw [agree.returns]
    exact avoids.pending

/-- The comparison begins with machines that agree, each with its own standing of the name. -/
theorem AgreeExcept.alike
    (agree : AgreeExcept hidden machine other)
    (reachable : machine.env.Reachable)
    (otherReachable : other.env.Reachable)
    (avoids : machine.Avoids hidden) :
    Machine.Alike (.except hidden)
      (Environment.AlikeExcept hidden machine.env other.env 0) machine other where
  env := {
    reachable := reachable
    otherReachable := otherReachable
    agree := agree.env
    avoids := fun name shown value member => .except (avoids.bound name shown value member)
    kept := rfl
    otherKept := rfl }
  returns := by
    rw [agree.returns]
    exact List.forall₂_same.mpr fun value member => .except (avoids.pending value member)
  failed := agree.failed
  activeCalls := agree.activeCalls
  console := agree.console

/-- Machines alike but for a name agree in everything else that can be seen. -/
theorem AgreeExcept.of_alike
    {start otherStart : Environment}
    {depth : Nat}
    (alike : Machine.Alike (.except hidden)
      (Environment.AlikeExcept hidden start otherStart depth) machine other) :
    AgreeExcept hidden machine other where
  env := alike.env.agree
  returns := by
    have same := alike.returns.imp fun _ _ renamed => Value.Renamed.eq_of_except renamed
    exact (List.forall₂_eq_eq_eq ▸ same).symm
  failed := alike.failed
  activeCalls := alike.activeCalls
  console := alike.console

end

end Machine

/-- Operations on other names do not tell environments apart that differ in one name. -/
theorem Environment.AlikeExcept.simulation
    (hidden : Name)
    (start otherStart : Environment) :
    Environment.Simulation (.except hidden)
      (Environment.AlikeExcept hidden start otherStart) where
  lookup := by
    rintro depth env other name _ alike ⟨rfl, shown⟩
    exact alike.lookup shown
  bind := by
    rintro depth env other name _ value otherValue alike ⟨rfl, shown⟩ renamed
    obtain rfl := renamed.eq_of_except
    exact alike.bind shown renamed
  rebind := by
    rintro depth env other name _ value otherValue alike ⟨rfl, shown⟩ renamed
    obtain rfl := renamed.eq_of_except
    exact alike.rebind shown renamed
  openScope alike :=
    alike.openScope
  closeScope alike :=
    alike.closeScope

/-- A sequence that does not mention a name ends likewise where only this name differs. -/
theorem Run.execAll_except
    {context : Context}
    {hidden : Name}
    {body : List Stmt}
    {before after other : Machine}
    (run : Run context (.execAll body) before .unset after)
    (absent : hidden ∉ Stmt.allNames body)
    (agree : before.AgreeExcept hidden other)
    (reachable : before.env.Reachable)
    (otherReachable : other.env.Reachable)
    (avoids : before.Avoids hidden) :
    ∃ otherAfter,
      Run context (.execAll body) other .unset otherAfter ∧
        after.AgreeExcept hidden otherAfter ∧
          after.env.standing hidden = before.env.standing hidden ∧
            otherAfter.env.standing hidden = other.env.standing hidden := by
  have sameText : ∀ name other, Renaming.except hidden name other →
      context.names.textOf name = context.names.textOf other := by
    rintro name _ ⟨rfl, -⟩
    rfl
  obtain ⟨otherAfter, otherRun, alike⟩ :=
    (Environment.AlikeExcept.simulation hidden before.env other.env).execAll sameText run
      (.except absent) (agree.alike reachable otherReachable avoids)
  exact ⟨otherAfter, otherRun, .of_alike alike, alike.env.kept, alike.env.otherKept⟩

namespace Machine

/--
A fragment does not notice a name that neither it nor a closure alive mentions: it ends
on both of two machines that differ in the standing of this name, or on neither. What
they come to agrees in all else, and both leave the name with its values and in the
scopes where it was.
-/
theorem unmentioned_name_unnoticed
    (context : Context)
    (hidden : Name)
    (fragment : List Stmt)
    (machine other : Machine)
    (absent : hidden ∉ Stmt.allNames fragment)
    (reachable : machine.env.Reachable)
    (otherReachable : other.env.Reachable)
    (agree : machine.AgreeExcept hidden other)
    (avoids : machine.Avoids hidden) :
    ((∃ fuel result, machine.runFragment context fuel fragment = some result) ↔
        ∃ fuel result, other.runFragment context fuel fragment = some result) ∧
      ∀ fuel otherFuel succeeded otherSucceeded after otherAfter,
        machine.runFragment context fuel fragment = some (succeeded, after) →
        other.runFragment context otherFuel fragment = some (otherSucceeded, otherAfter) →
          otherSucceeded = succeeded ∧
            after.AgreeExcept hidden otherAfter ∧
              after.env.standing hidden = machine.env.standing hidden ∧
                otherAfter.env.standing hidden = other.env.standing hidden := by
  have lowered := agree.clearFailure
  have loweredAvoids : machine.clearFailure.Avoids hidden :=
    ⟨avoids.bound, avoids.pending⟩
  refine ⟨⟨?_, ?_⟩, ?_⟩
  · rintro ⟨fuel, ⟨succeeded, after⟩, ended⟩
    obtain ⟨run, -⟩ := exists_runFragment_iff.mp ⟨fuel, ended⟩
    obtain ⟨otherAfter, otherRun, -⟩ :=
      run.execAll_except absent lowered reachable otherReachable loweredAvoids
    obtain ⟨otherFuel, otherEnded⟩ := exists_runFragment_iff.mpr ⟨otherRun, rfl⟩
    exact ⟨otherFuel, _, otherEnded⟩
  · rintro ⟨otherFuel, ⟨otherSucceeded, otherAfter⟩, otherEnded⟩
    obtain ⟨otherRun, -⟩ := exists_runFragment_iff.mp ⟨otherFuel, otherEnded⟩
    obtain ⟨after, run, -⟩ :=
      otherRun.execAll_except absent lowered.symm otherReachable reachable
        (loweredAvoids.of_agree lowered)
    obtain ⟨fuel, ended⟩ := exists_runFragment_iff.mpr ⟨run, rfl⟩
    exact ⟨fuel, _, ended⟩
  · intro fuel otherFuel succeeded otherSucceeded after otherAfter ended otherEnded
    obtain ⟨run, rfl⟩ := exists_runFragment_iff.mp ⟨fuel, ended⟩
    obtain ⟨otherRun, rfl⟩ := exists_runFragment_iff.mp ⟨otherFuel, otherEnded⟩
    obtain ⟨_, matchedRun, agreeAfter, kept, otherKept⟩ :=
      run.execAll_except absent lowered reachable otherReachable loweredAvoids
    obtain ⟨-, rfl⟩ := matchedRun.unique otherRun
    exact ⟨congrArg (! ·) agreeAfter.failed, agreeAfter, kept, otherKept⟩

/-- A function, and a block that shadows what it reads; the name is free or bound to a function. -/
theorem unmentioned_name_unnoticed_shadowing :
    let context : Context := ⟨.initial, {}⟩
    let hidden : Name := ⟨1⟩
    let function : Expr :=
      .lambda ⟨3⟩ [.eval (.ret (.binary .add (.ident ⟨3⟩) (.ident ⟨4⟩)))]
    let fragment : List Stmt :=
      [.declare ⟨2⟩ function, .declare ⟨4⟩ (.number 1),
        .block [.declare ⟨4⟩ (.number 2), .write (.call (.ident ⟨2⟩) (.number 3))]]
    let machine := ofConsole (.ofInput .closed)
    let own : Value := .closure hidden [.eval (.ident hidden)]
    let other : Machine := { machine with env := ⟨[(hidden, [own])], [hidden], []⟩ }
    ∃ after otherAfter,
      hidden ∉ Stmt.allNames fragment ∧
        machine.env.Reachable ∧
          other.env.Reachable ∧
            machine.AgreeExcept hidden other ∧
              machine.Avoids hidden ∧
                machine.runFragment context 20 fragment = some (true, after) ∧
                  other.runFragment context 20 fragment = some (true, otherAfter) ∧
                    after.AgreeExcept hidden otherAfter ∧
                      otherAfter.env.standing hidden = ⟨[own], [true]⟩ := by
  intro context hidden function fragment machine own other
  have absent : hidden ∉ Stmt.allNames fragment := by
    decide
  have reachable : machine.env.Reachable :=
    ⟨[], rfl⟩
  have bound : machine.env.bind hidden own = .ok other.env :=
    rfl
  have otherReachable : other.env.Reachable :=
    reachable.of_bind bound
  have agree : machine.AgreeExcept hidden other :=
    ⟨fun _ => Environment.standing_of_bind_of_ne bound, rfl, rfl, rfl, rfl⟩
  have avoids : machine.Avoids hidden :=
    ⟨fun _ _ _ => nofun, fun _ => nofun⟩
  have ended : machine.runFragment context 20 fragment = some (true, _) :=
    rfl
  have otherEnded : other.runFragment context 20 fragment = some (true, _) :=
    rfl
  obtain ⟨-, outcome⟩ :=
    unmentioned_name_unnoticed context hidden fragment machine other absent reachable
      otherReachable agree avoids
  obtain ⟨-, agreeAfter, -, otherKept⟩ := outcome _ _ _ _ _ _ ended otherEnded
  exact ⟨_, _, absent, reachable, otherReachable, agree, avoids, ended, otherEnded, agreeAfter,
    otherKept⟩

end Machine

end ScopeLang
