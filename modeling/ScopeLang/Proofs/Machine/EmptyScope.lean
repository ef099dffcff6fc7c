import ScopeLang.Proofs.Machine.Quiescence
import ScopeLang.Proofs.Machine.Simulation
import ScopeLang.Proofs.Scope.Reachable

namespace ScopeLang

/-!
# Empty scopes go unnoticed

What declares nothing directly in the scope in which it runs does not notice that
one more scope is open: bindings are found by name, and the scopes that it opens
itself lie inside. It leaves the additional scope as empty as it found it. So a
block that declares nothing directly does exactly what its statements do.
-/

namespace Machine

/--
Machines that agree on their innermost scopes and on all else but the scopes
around these. Where no limit is set they need not agree on the active calls.
-/
structure AgreeWithin
    (config : EvalConfig)
    (depth : Nat)
    (machine other : Machine) :
    Prop where
  env : machine.env.AgreeWithin depth other.env
  returns : other.returns = machine.returns
  failed : other.failed = machine.failed
  console : other.console = machine.console
  calls : config.maxDepth ≠ none → other.activeCalls = machine.activeCalls

namespace AgreeWithin

variable {config : EvalConfig} {depth : Nat} {machine other : Machine}

/-- Agreement does not depend on which machine comes first. -/
theorem symm
    (agree : AgreeWithin config depth machine other) :
    AgreeWithin config depth other machine where
  env :=
    agree.env.symm
  returns :=
    agree.returns.symm
  failed :=
    agree.failed.symm
  console :=
    agree.console.symm
  calls limited :=
    (agree.calls limited).symm

theorem report
    (agree : AgreeWithin config depth machine other)
    (error : EvalError) :
    AgreeWithin config depth (machine.report error) (other.report error) := by
  unfold Machine.report
  rw [agree.failed, agree.console]
  split
  · exact agree
  · exact { agree with failed := rfl, console := rfl }

/-- A variable has the same value on both sides, or is unbound on both. -/
theorem ident
    (agree : AgreeWithin config depth machine other)
    (names : NameTable)
    (name : Name) :
    Results Eq (AgreeWithin config depth)
      (machine.settle ((machine.env.lookup name).mapError (.ofScope names)))
      (other.settle ((other.env.lookup name).mapError (.ofScope names))) := by
  rw [agree.env.lookup name]
  unfold Machine.settle
  rw [agree.failed]
  split
  · exact ⟨.unset, agree⟩
  · cases machine.env.lookup name with
    | ok value =>
        exact ⟨.refl (fun _ => rfl) value, agree⟩
    | error error =>
        exact ⟨.unset, agree.report _⟩

theorem read
    (agree : AgreeWithin config depth machine other)
    (prompt : String) :
    Results Eq (AgreeWithin config depth)
      (machine.readNumber prompt) (other.readNumber prompt) := by
  unfold Machine.readNumber
  rw [agree.failed, agree.console]
  split
  · exact ⟨.unset, agree⟩
  · exact ⟨.refl (fun _ => rfl) _, { agree with failed := rfl, console := rfl }⟩

theorem write
    (agree : AgreeWithin config depth machine other)
    (text : String) :
    AgreeWithin config depth (machine.write text) (other.write text) := by
  unfold Machine.write
  rw [agree.failed, agree.console]
  split
  · exact agree
  · exact { agree with failed := rfl, console := rfl }

theorem pushReturn
    (agree : AgreeWithin config depth machine other)
    (value : Value) :
    AgreeWithin config depth (machine.pushReturn value) (other.pushReturn value) :=
  { agree with returns := congrArg (ReturnChannel.push · value) agree.returns }

/-- The limit is broken on both sides or on neither: the calls agree where one is set. -/
theorem limit
    (agree : AgreeWithin config depth machine other) :
    other.brokenLimit? config = machine.brokenLimit? config := by
  unfold Machine.brokenLimit?
  cases limited : config.maxDepth with
  | none =>
      rfl
  | some =>
      rw [agree.calls (by simp [limited])]

theorem openScope
    (agree : AgreeWithin config depth machine other) :
    AgreeWithin config (depth + 1) machine.openScope other.openScope :=
  { agree with env := agree.env.openScope }

/-- Closing the scope opened on both sides gives back machines that agree outside of it. -/
theorem closeScope
    (agree : AgreeWithin config (depth + 1) machine other) :
    AgreeWithin config depth machine.closeScope other.closeScope :=
  { agree with env := agree.env.closeScope }

/-- A declaration in a scope opened on both sides goes the same way in both. -/
theorem declare
    (agree : AgreeWithin config (depth + 1) machine other)
    (names : NameTable)
    (name : Name)
    (value : Value) :
    AgreeWithin config (depth + 1) (machine.declare names name value)
      (other.declare names name value) := by
  unfold Machine.declare
  rcases agree.env.bind name value with
      ⟨after, otherAfter, bound, otherBound, still⟩ | ⟨error, refused, otherRefused⟩
  · rw [bound, otherBound]
    exact { agree with env := still }
  · rw [refused, otherRefused]
    exact agree.report _

/-- An assignment goes the same way on both sides. -/
theorem assign
    (agree : AgreeWithin config depth machine other)
    (names : NameTable)
    (name : Name)
    (value : Value) :
    AgreeWithin config depth (machine.assign names name value)
      (other.assign names name value) := by
  unfold Machine.assign
  rcases agree.env.rebind name value with
      ⟨after, otherAfter, rebound, otherRebound, still⟩ | ⟨error, refused, otherRefused⟩
  · rw [rebound, otherRebound]
    exact { agree with env := still }
  · rw [refused, otherRefused]
    exact agree.report _

theorem enterCall
    (agree : AgreeWithin config depth machine other)
    (names : NameTable)
    (param : Name)
    (arg : Value) :
    AgreeWithin config (depth + 1) (machine.enterCall names param arg)
      (other.enterCall names param arg) := by
  have entered :
      AgreeWithin config (depth + 1)
        { machine.openScope with activeCalls := machine.activeCalls + 1 }
        { other.openScope with activeCalls := other.activeCalls + 1 } :=
    { agree.openScope with calls := fun limited => congrArg (· + 1) (agree.calls limited) }
  exact entered.declare names param arg

/-- A call is left with the same value on both sides. -/
theorem leaveCall
    (agree : AgreeWithin config (depth + 1) machine other) :
    Results Eq (AgreeWithin config depth) machine.leaveCall other.leaveCall := by
  have popped : other.returns.pop = machine.returns.pop :=
    congrArg ReturnChannel.pop agree.returns
  refine ⟨?_, { agree.closeScope with
    returns := congrArg Prod.snd popped
    calls := fun limited => congrArg (· - 1) (agree.calls limited) }⟩
  show Value.Renamed Eq machine.returns.pop.1 other.returns.pop.1
  rw [popped]
  exact .refl (fun _ => rfl) _

/-- Machines that agree within a scope stay so while they run. -/
theorem simulation
    (context : Context) :
    Simulation context context Eq (AgreeWithin context.config) where
  failed agree :=
    agree.failed
  report error agree :=
    agree.report error
  ident := by
    rintro depth machine other name _ agree rfl
    exact agree.ident context.names name
  read agree _ :=
    agree.read context.config.readPrompt
  write text agree :=
    agree.write text
  pushReturn := by
    intro depth machine other value otherValue agree renamed
    obtain rfl := renamed.eq (fun _ _ same => same)
    exact agree.pushReturn value
  limit agree :=
    agree.limit
  enterCall := by
    rintro depth machine other param _ arg otherArg agree rfl renamed
    obtain rfl := renamed.eq (fun _ _ same => same)
    exact agree.enterCall context.names param arg
  leaveCall agree _ :=
    agree.leaveCall
  openScope agree :=
    agree.openScope
  closeScope agree :=
    agree.closeScope
  declare := by
    rintro depth machine other name _ value otherValue agree rfl renamed
    obtain rfl := renamed.eq (fun _ _ same => same)
    exact agree.declare context.names name value
  assign := by
    rintro depth machine other name _ value otherValue agree rfl renamed
    obtain rfl := renamed.eq (fun _ _ same => same)
    exact agree.assign context.names name value

end AgreeWithin

end Machine

namespace Run

variable {context : Context} {task : Task} {before after other : Machine} {value : Value}

/-- What declares nothing leaves the open scopes as they are, names included. -/
theorem scopes_eq
    (run : Run context task before value after)
    (undeclared : task.declaredNames = []) :
    after.env.scopes = before.env.scopes := by
  obtain ⟨fresh, declared, grows⟩ := run.tidy.env
  rw [undeclared] at declared
  obtain rfl := List.eq_nil_of_subset_nil declared
  rw [after.env.scopes_eq, before.env.scopes_eq, grows.current, grows.enclosing]
  rfl

/--
What ends ends likewise on a machine that agrees with the first one, provided that it
declares names in the scopes on which they agree only.
-/
theorem of_agree
    {depth : Nat}
    (run : Run context task before value after)
    (agree : before.AgreeWithin context.config depth other)
    (inside : depth = 0 → task.declaredNames = []) :
    ∃ otherAfter,
      Run context task other value otherAfter ∧
        after.AgreeWithin context.config depth otherAfter := by
  obtain ⟨otherValue, otherAfter, otherRun, renamed, agreeAfter⟩ :=
    run.simulated (Machine.AgreeWithin.simulation context) inside (.refl task) agree
  obtain rfl := renamed.eq (fun _ _ same => same)
  exact ⟨otherAfter, otherRun, agreeAfter⟩

/--
What declares nothing runs with an empty scope around it exactly as without. Both runs leave
their scopes as they were, so what they differ in is the scope that is open.
-/
theorem openScope_iff
    (reachable : before.env.Reachable)
    (undeclared : task.declaredNames = []) :
    Run context task before.openScope value other ↔
      ∃ after, Run context task before value after ∧ other = after.openScope := by
  have agree : before.AgreeWithin context.config 0 before.openScope :=
    ⟨.of_openScope reachable, rfl, rfl, rfl, fun _ => rfl⟩
  have reopened
      {after inside : Machine}
      (run : Run context task before value after)
      (insideRun : Run context task before.openScope value inside)
      (agreeAfter : after.AgreeWithin context.config 0 inside) :
      inside = after.openScope := by
    have sameEnv : inside.env = after.env.openScope := by
      refine Environment.eq_of_scopes agreeAfter.env.bindings ?_
      have scopesAfter := run.scopes_eq undeclared
      rw [insideRun.scopes_eq undeclared]
      show [] :: before.env.scopes = [] :: after.env.scopes
      rw [scopesAfter]
    have sameCalls : inside.activeCalls = after.activeCalls :=
      insideRun.tidy.calls.trans run.tidy.calls.symm
    obtain ⟨env, returns, failed, activeCalls, console⟩ := inside
    obtain rfl : env = after.env.openScope :=
      sameEnv
    obtain rfl : activeCalls = after.activeCalls :=
      sameCalls
    obtain rfl : returns = after.returns :=
      agreeAfter.returns
    obtain rfl : failed = after.failed :=
      agreeAfter.failed
    obtain rfl : console = after.console :=
      agreeAfter.console
    rfl
  constructor
  · intro insideRun
    obtain ⟨after, run, agreeAfter⟩ := insideRun.of_agree agree.symm (fun _ => undeclared)
    exact ⟨after, run, reopened run insideRun agreeAfter.symm⟩
  · rintro ⟨after, run, rfl⟩
    obtain ⟨inside, insideRun, agreeAfter⟩ := run.of_agree agree (fun _ => undeclared)
    rw [reopened run insideRun agreeAfter] at insideRun
    exact insideRun

/-- A block runs its statements in a scope that it opens and closes. -/
theorem exec_block_iff
    {body : List Stmt} :
    Run context (.exec (.block body)) before .unset after ↔
      ∃ last,
        Run context (.execAll body) before.openScope .unset last ∧ last.closeScope = after := by
  constructor
  · intro run
    cases run with
    | skipped guarded =>
        exact guarded.elim
    | execBlock blockRun =>
        cases blockRun with
        | block bodyRun =>
            exact ⟨_, bodyRun, rfl⟩
  · rintro ⟨last, bodyRun, rfl⟩
    exact .execBlock (.block bodyRun)

/-- A block that declares nothing directly runs exactly as its statements do. -/
theorem exec_block_iff_execAll
    {body : List Stmt}
    (reachable : before.env.Reachable)
    (undeclared : (Task.execAll body).declaredNames = []) :
    Run context (.exec (.block body)) before .unset after ↔
      Run context (.execAll body) before .unset after := by
  rw [exec_block_iff]
  constructor
  · rintro ⟨last, insideRun, rfl⟩
    obtain ⟨reached, run, rfl⟩ := (openScope_iff reachable undeclared).mp insideRun
    rw [reached.closeScope_openScope]
    exact run
  · intro run
    exact ⟨after.openScope, (openScope_iff reachable undeclared).mpr ⟨after, run, rfl⟩,
      after.closeScope_openScope⟩

end Run

namespace Machine

/--
A block none of whose direct statements is a declaration ends exactly when its
statements end without it, and in the same machine. Nested blocks, branches, loops and
bodies of lambdas may declare names. The flag may be up, and calls may be limited.
-/
theorem block_transparent
    (context : Context)
    (before : Machine)
    (reachable : before.env.Reachable)
    (body : List Stmt)
    (undeclared : ∀ statement ∈ body, ∀ name expr, statement ≠ .declare name expr)
    (after : Machine) :
    (∃ fuel, exec context fuel (.block body) before = some after) ↔
      ∃ fuel, execAll context fuel body before = some after := by
  have noNames : Stmt.declaredNames body = [] := by
    refine List.filterMap_eq_nil_iff.mpr ?_
    intro statement member
    cases statement with
    | declare name expr =>
        exact (undeclared _ member name expr rfl).elim
    | skip | block | ifThen | ifElse | loop | assign | write | eval =>
        rfl
  have transparent :
      Run context (.exec (.block body)) before .unset after ↔
        Run context (.execAll body) before .unset after :=
    Run.exec_block_iff_execAll reachable noNames
  rw [Run.iff_exists_fuel, Run.iff_exists_fuel] at transparent
  simpa only [Task.run, Option.map_eq_some_iff, Prod.mk.injEq, true_and, exists_eq_right]
    using transparent

/--
Statements that shadow a name in a block, call a lambda that declares, assign outward,
and fail at a name that is nowhere bound, with calls limited to one at a time.
-/
theorem block_transparent_assignments :
    let context : Context :=
      ⟨.initial, { maxDepth := some 1 }⟩
    let body : List Stmt :=
      [.block [.declare ⟨1⟩ (.number 2), .assign ⟨1⟩ (.number 3)],
        .assign ⟨1⟩
          (.call (.lambda ⟨2⟩ [.declare ⟨3⟩ (.ident ⟨2⟩), .eval (.ret (.ident ⟨3⟩))])
            (.binary .add (.ident ⟨1⟩) (.number 1))),
        .write (.ident ⟨1⟩),
        .assign ⟨2⟩ (.number 0)]
    let before : Machine :=
      { Machine.ofConsole (.ofInput .closed) with
        env := Environment.initial.after [.openScope, .bind ⟨1⟩ (.number 5)] }
    ∃ after,
      execAll context 12 body before = some after ∧
        after.failed = true ∧
          after.env.bindings = [(⟨1⟩, [.number 6])] ∧
            ∃ fuel, exec context fuel (.block body) before = some after := by
  refine ⟨_, rfl, rfl, rfl, ?_⟩
  exact (block_transparent _ _ ⟨_, rfl⟩ _ (by simp) _).mpr ⟨12, rfl⟩

end Machine

end ScopeLang
