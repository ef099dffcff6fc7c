import ScopeLang.Proofs.Machine.Run

namespace ScopeLang

/-!
# Quiescence

Once the flag is up, evaluation goes on but nothing happens any more. Every
construct looks at the flag for itself: operands are still visited and blocks
still open and close their scopes, yet the machine is left exactly as it was,
and everything ends, loops included.
-/

/-- What an expression yields while the flag is up: a literal itself, anything else unset. -/
def Expr.quietValue : Expr → Value
  | .number value => .number value
  | .bool value => .bool value
  | _ => .unset

namespace Machine

/-- With the flag up, no result is settled but the missing value. -/
theorem settle_of_failed
    {machine : Machine}
    (failed : machine.failed = true)
    (result : Except EvalError Value) :
    machine.settle result = (.unset, machine) := by
  simp [settle, failed]

/-- With the flag up, nothing is read. -/
theorem readNumber_of_failed
    {machine : Machine}
    (failed : machine.failed = true)
    (prompt : String) :
    machine.readNumber prompt = (.unset, machine) := by
  simp [readNumber, failed]

/-- A scope that is opened and closed with nothing between leaves no trace. -/
theorem closeScope_openScope
    (machine : Machine) :
    machine.openScope.closeScope = machine :=
  rfl

end Machine

namespace Run

/-- Both operands of an operator are visited, and its value is settled as unset. -/
theorem eval_quiet
    {context : Context}
    {machine : Machine}
    (failed : machine.failed = true) :
    (expr : Expr) →
      Run context (.eval expr) machine expr.quietValue machine
  | .number _ =>
      .number
  | .bool _ =>
      .bool
  | .ident _ =>
      .ident (machine.settle_of_failed failed _)
  | .binary _ left right =>
      .binary (eval_quiet failed left) (eval_quiet failed right)
        (machine.settle_of_failed failed _)
  | .unary _ operand =>
      .unary (eval_quiet failed operand) (machine.settle_of_failed failed _)
  | .read =>
      .read (machine.readNumber_of_failed failed _)
  | .ret _ =>
      .retSkipped failed
  | .lambda _ _ =>
      .lambda (machine.settle_of_failed failed _)
  | .call _ _ =>
      .callSkipped failed

mutual

/-- Only blocks are entered; every other statement is passed over. -/
theorem exec_quiet
    {context : Context}
    {machine : Machine}
    (failed : machine.failed = true) :
    (statement : Stmt) →
      Run context (.exec statement) machine .unset machine
  | .skip =>
      .skip
  | .block body => by
      have failedInside : machine.openScope.failed = true :=
        failed
      have inside :
          Run context (.execAll body)
            machine.openScope .unset machine.openScope :=
        execAll_quiet failedInside body
      have closed := Run.block inside
      rw [machine.closeScope_openScope] at closed
      exact .execBlock closed
  | .ifThen _ _ | .ifElse _ _ _ | .declare _ _ | .assign _ _ | .write _ | .eval _ =>
      .skipped trivial failed
  | .loop _ _ =>
      .execLoop (.loopSkipped failed)

/-- With the flag up, statements in a row are passed over one by one. -/
theorem execAll_quiet
    {context : Context}
    {machine : Machine}
    (failed : machine.failed = true) :
    (body : List Stmt) →
      Run context (.execAll body) machine .unset machine
  | [] =>
      .nil
  | statement :: rest =>
      .cons (exec_quiet failed statement) (execAll_quiet failed rest)

end

end Run

namespace Machine

/--
With the flag up, everything ends and nothing changes: an expression yields its
quiet value, and the machine stays the same in all its parts.
-/
theorem quiescent_of_failed
    (context : Context)
    (machine : Machine)
    (failed : machine.failed = true) :
    (∀ expr, ∃ least, ∀ fuel, least ≤ fuel →
        eval context fuel expr machine = some (expr.quietValue, machine)) ∧
      (∀ statement, ∃ least, ∀ fuel, least ≤ fuel →
        exec context fuel statement machine = some machine) ∧
      (∀ body, ∃ least, ∀ fuel, least ≤ fuel →
        execAll context fuel body machine = some machine) := by
  refine ⟨?_, ?_, ?_⟩
  · intro expr
    exact (Run.eval_quiet failed expr).exists_least_fuel
  · intro statement
    have run : Run context (.exec statement) machine .unset machine :=
      .exec_quiet failed statement
    obtain ⟨least, ends⟩ := run.exists_least_fuel
    refine ⟨least, fun fuel enough => ?_⟩
    simpa [Task.run] using ends fuel enough
  · intro body
    have run : Run context (.execAll body) machine .unset machine :=
      .execAll_quiet failed body
    obtain ⟨least, ends⟩ := run.exists_least_fuel
    refine ⟨least, fun fuel enough => ?_⟩
    simpa [Task.run] using ends fuel enough

/-- A loop that would never end, in a block with a declaration, on a failed machine. -/
theorem quiescent_of_failed_endless_loop :
    let machine : Machine :=
      { Machine.ofConsole (.ofInput .closed) with failed := true }
    machine.failed = true ∧
      ∃ least, ∀ fuel, least ≤ fuel →
        exec ⟨.initial, {}⟩ fuel
            (.block [.declare ⟨1⟩ .read, .loop (.bool true) []]) machine =
          some machine :=
  ⟨rfl, (quiescent_of_failed ⟨.initial, {}⟩ _ rfl).2.1 _⟩

end Machine

end ScopeLang
