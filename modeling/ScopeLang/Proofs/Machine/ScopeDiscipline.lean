import ScopeLang.Proofs.Machine.Run
import ScopeLang.Proofs.Scope.Growth

namespace ScopeLang

/-!
# Scope discipline

Whatever a run does, and whether or not it fails on the way, it closes the
scopes that it opened and ends the calls that it began. Only declarations that
stand directly in a sequence add names to the scope in which it runs; all else
that happens to bindings is that live values are replaced.
-/

/-- The names that declarations standing directly in a sequence declare. -/
def Stmt.declaredNames (body : List Stmt) : List Name :=
  body.filterMap fun
    | .declare name _ => some name
    | _ => none

/-- A sequence declares what its first statement declares and what the others do. -/
theorem Stmt.declaredNames_cons
    (statement : Stmt)
    (rest : List Stmt) :
    declaredNames (statement :: rest) = declaredNames [statement] ++ declaredNames rest :=
  List.filterMap_append (l := [statement])

/-- The names that a task may add to the scope in which it runs. -/
def Task.declaredNames : Task → List Name
  | .exec statement => Stmt.declaredNames [statement]
  | .execAll body => Stmt.declaredNames body
  | _ => []

namespace Machine

/--
A machine in which the same calls are active and the same scopes are open as
before, and whose environment grew by declarations of some of the given names.
-/
structure Tidy (declared : List Name) (before after : Machine) : Prop where
  calls : after.activeCalls = before.activeCalls
  env : ∃ fresh, fresh ⊆ declared ∧ before.env.Grows fresh after.env

namespace Tidy

/-- A step that concerns neither scopes nor calls is tidy. -/
theorem of_same
    {before after : Machine}
    (sameCalls : after.activeCalls = before.activeCalls)
    (sameEnv : after.env = before.env) :
    Tidy [] before after := by
  refine ⟨sameCalls, [], List.Subset.refl _, ?_⟩
  rw [sameEnv]
  exact .refl _

/-- A machine that does nothing is tidy and declares nothing. -/
theorem refl
    (machine : Machine) :
    Tidy [] machine machine :=
  of_same rfl rfl

/-- Two tidy stretches are one, with the names of both. -/
theorem trans
    {first second : List Name}
    {before middle after : Machine}
    (earlier : Tidy first before middle)
    (later : Tidy second middle after) :
    Tidy (first ++ second) before after := by
  obtain ⟨firstFresh, firstAllowed, firstGrows⟩ := earlier.env
  obtain ⟨secondFresh, secondAllowed, secondGrows⟩ := later.env
  refine ⟨later.calls.trans earlier.calls, _, ?_, firstGrows.trans secondGrows⟩
  exact List.append_subset.mpr
    ⟨List.subset_append_of_subset_right _ secondAllowed,
      List.subset_append_of_subset_left _ firstAllowed⟩

/-- A stretch that may declare some names may declare more. -/
theorem mono
    {fewer more : List Name}
    {before after : Machine}
    (tidy : Tidy fewer before after)
    (allowed : fewer ⊆ more) :
    Tidy more before after := by
  obtain ⟨fresh, among, grows⟩ := tidy.env
  exact ⟨tidy.calls, fresh, List.Subset.trans among allowed, grows⟩

theorem report
    (machine : Machine)
    (error : EvalError) :
    Tidy [] machine (machine.report error) := by
  unfold Machine.report
  split
  · exact refl machine
  · exact of_same rfl rfl

theorem settle
    (machine : Machine)
    (result : Except EvalError Value) :
    Tidy [] machine (machine.settle result).2 := by
  unfold Machine.settle
  split
  · exact refl machine
  · split
    · exact refl machine
    · exact report machine _

theorem decideCondition
    {machine after : Machine}
    {value : Value}
    {decision : Option Bool}
    (decided : machine.decideCondition value = (decision, after)) :
    Tidy [] machine after := by
  obtain rfl : (machine.decideCondition value).2 = after := by
    rw [decided]
  unfold Machine.decideCondition
  split
  · exact refl machine
  · split
    · exact refl machine
    · exact report machine _

theorem readNumber
    (machine : Machine)
    (prompt : String) :
    Tidy [] machine (machine.readNumber prompt).2 := by
  unfold Machine.readNumber
  split
  · exact refl machine
  · exact of_same rfl rfl

theorem write
    (machine : Machine)
    (text : String) :
    Tidy [] machine (machine.write text) := by
  unfold Machine.write
  split
  · exact refl machine
  · exact of_same rfl rfl

/-- A declaration adds at most its own name to the innermost scope. -/
theorem declare
    (machine : Machine)
    (names : NameTable)
    (name : Name)
    (value : Value) :
    Tidy [name] machine (machine.declare names name value) := by
  unfold Machine.declare
  split
  · rename_i bound
    exact ⟨rfl, [name], List.Subset.refl _, .of_bind bound⟩
  · exact (report machine _).mono (List.nil_subset _)

/-- An assignment adds no name to any scope. -/
theorem assign
    (machine : Machine)
    (names : NameTable)
    (name : Name)
    (value : Value) :
    Tidy [] machine (machine.assign names name value) := by
  unfold Machine.assign
  split
  · rename_i rebound
    exact ⟨rfl, [], List.Subset.refl _, .of_rebind rebound⟩
  · exact report machine _

/-- What runs in a scope of its own is tidy, whatever it declares there. -/
theorem block
    {declared : List Name}
    {before last : Machine}
    (inside : Tidy declared before.openScope last) :
    Tidy [] before last.closeScope := by
  obtain ⟨fresh, -, grows⟩ := inside.env
  exact ⟨inside.calls, [], List.Subset.refl _, grows.closeScope⟩

/-- A call is tidy, whatever its body declares next to the parameter. -/
theorem call
    {declared : List Name}
    {before last : Machine}
    {names : NameTable}
    {param : Name}
    {arg : Value}
    (inside : Tidy declared (before.enterCall names param arg) last) :
    Tidy [] before last.leaveCall.2 := by
  have entered :=
    declare
      { before.openScope with activeCalls := before.activeCalls + 1 }
      names param arg
  have whole := entered.trans inside
  obtain ⟨fresh, -, grows⟩ := whole.env
  refine ⟨?_, [], List.Subset.refl _, grows.closeScope⟩
  show last.activeCalls - 1 = before.activeCalls
  rw [whole.calls]
  exact Nat.add_sub_cancel _ _

end Tidy

end Machine

/-- Every run that ends is tidy, and it declares nothing but what stands directly in its task. -/
theorem Run.tidy
    {context : Context}
    {task : Task}
    {before after : Machine}
    {value : Value}
    (run : Run context task before value after) :
    before.Tidy task.declaredNames after := by
  induction run with
  | number | bool | retSkipped | callSkipped | skip | loopSkipped | nil =>
      exact .refl _
  | ident settled | lambda settled =>
      rw [← settled]
      exact .settle _ _
  | read answered =>
      rw [← answered]
      exact .readNumber _ _
  | binary _ _ settled left right =>
      rw [← settled]
      exact left.trans (right.trans (.settle _ _))
  | unary _ settled operand =>
      rw [← settled]
      exact operand.trans (.settle _ _)
  | ret _ _ returned =>
      exact returned.trans (.of_same rfl rfl)
  | call _ _ _ _ callee arg applied =>
      exact callee.trans (arg.trans applied)
  | callRefused _ _ _ callee =>
      exact callee.trans (.report _ _)
  | applyRefused =>
      exact .report _ _
  | apply _ _ left body =>
      rw [← left]
      exact .call body
  | skipped =>
      exact (Machine.Tidy.refl _).mono (List.nil_subset _)
  | execBlock _ body | execLoop _ body =>
      exact body
  | ifThenTaken _ _ decided _ condition body
  | ifElseTaken _ _ decided _ condition body
  | ifElseOther _ _ decided _ condition body =>
      exact condition.trans ((Machine.Tidy.decideCondition decided).trans body)
  | ifThenLeft _ _ decided _ condition
  | ifElseLeft _ _ decided condition
  | loopLeft _ _ decided _ condition =>
      exact condition.trans (.decideCondition decided)
  | declare _ _ evaluated =>
      exact evaluated.trans (.declare _ _ _ _)
  | assign _ _ evaluated =>
      exact evaluated.trans (.assign _ _ _ _)
  | write _ _ evaluated =>
      exact evaluated.trans (.write _ _)
  | evalOnly _ _ evaluated =>
      exact evaluated
  | loopAgain _ _ decided _ _ condition body again =>
      have chosen := Machine.Tidy.decideCondition decided
      exact condition.trans (chosen.trans (body.trans again))
  | block _ body =>
      exact .block body
  | @cons _ _ _ statement rest _ _ first remaining =>
      show Machine.Tidy (Stmt.declaredNames (statement :: rest)) _ _
      rw [Stmt.declaredNames_cons]
      exact first.trans remaining

namespace Machine

/-- What a run leaves of scopes, calls and bindings. -/
structure KeepsScopes (declared : List Name) (before after : Machine) : Prop where
  depth : after.env.depth = before.env.depth
  calls : after.activeCalls = before.activeCalls
  /-- Scope by scope, the names declared around the current scope. -/
  enclosing : after.env.enclosing = before.env.enclosing
  kept : ∀ name ∈ before.env.current, name ∈ after.env.current
  added : ∀ name ∈ after.env.current, name ∈ before.env.current ∨ name ∈ declared
  length : ∀ name,
    (after.env.bindings.stackOf name).length =
      (before.env.bindings.stackOf name).length +
        if name ∈ after.env.current ∧ name ∉ before.env.current then 1 else 0
  /-- What lay below the live value of a name. -/
  covered : ∀ name,
    (before.env.bindings.stackOf name).tail <:+ after.env.bindings.stackOf name

/-- A tidy stretch is back in the scopes it began in. -/
theorem Tidy.keepsScopes
    {declared : List Name}
    {before after : Machine}
    (tidy : Tidy declared before after) :
    KeepsScopes declared before after := by
  obtain ⟨fresh, allowed, grows⟩ := tidy.env
  have member_iff (name : Name) :
      name ∈ after.env.current ↔ name ∈ fresh ∨ name ∈ before.env.current := by
    rw [grows.current, List.mem_append]
  refine
    { depth := by rw [after.env.depth_eq, before.env.depth_eq, grows.enclosing]
      calls := tidy.calls
      enclosing := grows.enclosing
      kept := fun name known => (member_iff name).mpr (Or.inr known)
      added := ?_
      length := ?_
      covered := fun name => (grows.stack name).tail_suffix }
  · intro name member
    rcases (member_iff name).mp member with added | known
    · exact Or.inr (allowed added)
    · exact Or.inl known
  · intro name
    rw [(grows.stack name).length_eq]
    by_cases added : name ∈ fresh
    · have unknown := grows.new name added
      simp [member_iff, List.count_eq_one_of_mem grows.nodup added, added, unknown]
    · simp [member_iff, List.count_eq_zero_of_not_mem added, added]

/--
Scope discipline of everything that is run, from any machine and with the flag
up or down: expressions and calls declare nothing in the current scope, and
statements only what is declared directly in their sequence.
-/
theorem scopes_kept
    (context : Context)
    (fuel : Nat)
    (before : Machine) :
    (∀ expr value after,
        eval context fuel expr before = some (value, after) →
        KeepsScopes [] before after) ∧
      (∀ param body arg value after,
        apply context fuel param body arg before = some (value, after) →
        KeepsScopes [] before after) ∧
      (∀ statement after,
        exec context fuel statement before = some after →
        KeepsScopes (Stmt.declaredNames [statement]) before after) ∧
      (∀ body after,
        execAll context fuel body before = some after →
        KeepsScopes (Stmt.declaredNames body) before after) := by
  refine ⟨?_, ?_, ?_, ?_⟩
  · intro expr value after ended
    have run : Run context (.eval expr) before value after :=
      .of_run ended
    exact run.tidy.keepsScopes
  · intro param body arg value after ended
    have run : Run context (.apply param body arg) before value after :=
      .of_run ended
    exact run.tidy.keepsScopes
  · intro statement after ended
    have run : Run context (.exec statement) before .unset after :=
      .of_run (Option.map_eq_some_iff.mpr ⟨after, ended, rfl⟩)
    exact run.tidy.keepsScopes
  · intro body after ended
    have run : Run context (.execAll body) before .unset after :=
      .of_run (Option.map_eq_some_iff.mpr ⟨after, ended, rfl⟩)
    exact run.tidy.keepsScopes

/--
A sequence that shadows, assigns, calls, and fails at a second declaration of
the same name, on a machine that has a name already.
-/
theorem scopes_kept_of_failing_sequence :
    let body : List Stmt :=
      [.declare ⟨2⟩ (.number 1),
        .block [.declare ⟨1⟩ (.number 2), .assign ⟨1⟩ (.number 3)],
        .eval (.call (.lambda ⟨1⟩ [.assign ⟨2⟩ (.ident ⟨1⟩)]) (.ident ⟨1⟩)),
        .declare ⟨2⟩ (.number 9),
        .block [.declare ⟨1⟩ (.number 4)]]
    let before : Machine :=
      { Machine.ofConsole (.ofInput .closed) with
        env := ⟨[(⟨1⟩, [.number 5])], [⟨1⟩], []⟩ }
    ∃ after,
      execAll ⟨.initial, {}⟩ 12 body before = some after ∧
        after.failed = true ∧
        after.env.bindings = [(⟨1⟩, [.number 5]), (⟨2⟩, [.number 5])] ∧
        KeepsScopes (Stmt.declaredNames body) before after := by
  refine ⟨_, rfl, rfl, rfl, ?_⟩
  exact (scopes_kept ⟨.initial, {}⟩ 12 _).2.2.2 _ _ rfl

end Machine

end ScopeLang
