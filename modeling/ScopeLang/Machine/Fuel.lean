import ScopeLang.Machine.Eval

namespace ScopeLang.Machine

/-!
# More fuel does not change a result

A run that ends with some fuel ends in the same way with any larger amount. So
the result of a run does not depend on the fuel it was given.
-/

/-- One more unit of fuel leaves every result as it is. -/
structure Stable (context : Context) (fuel : Nat) : Prop where
  eval : ∀ {expr machine result},
    eval context fuel expr machine = some result →
      eval context (fuel + 1) expr machine = some result
  apply : ∀ {param body arg machine result},
    apply context fuel param body arg machine = some result →
      apply context (fuel + 1) param body arg machine = some result
  exec : ∀ {statement machine result},
    exec context fuel statement machine = some result →
      exec context (fuel + 1) statement machine = some result
  loop : ∀ {condition body machine result},
    loop context fuel condition body machine = some result →
      loop context (fuel + 1) condition body machine = some result
  block : ∀ {body machine result},
    block context fuel body machine = some result →
      block context (fuel + 1) body machine = some result
  execAll : ∀ {body machine result},
    execAll context fuel body machine = some result →
      execAll context (fuel + 1) body machine = some result

/-- A step whose first part and whose rest keep their results keeps its result. -/
private theorem bind_stable
    {first second : Option α}
    {next after : α → Option β}
    {result : β}
    (head : ∀ value, first = some value → second = some value)
    (tail : ∀ value, next value = some result → after value = some result)
    (ended : first.bind next = some result) :
    second.bind after = some result := by
  obtain ⟨value, found, rest⟩ := Option.bind_eq_some_iff.mp ended
  rw [head value found]
  exact tail value rest

/-- What is skipped under some condition keeps its result if it does where it is not skipped. -/
private theorem guarded_stable
    {failed : Prop}
    [Decidable failed]
    {skipped : Option β}
    {first second : Option α}
    {next after : α → Option β}
    {result : β}
    (head : ∀ value, first = some value → second = some value)
    (tail : ∀ value, next value = some result → after value = some result)
    (ended : (if failed then skipped else first.bind next) = some result) :
    (if failed then skipped else second.bind after) = some result := by
  by_cases stopped : failed
  · rwa [if_pos stopped] at ended ⊢
  · rw [if_neg stopped] at ended ⊢
    exact bind_stable head tail ended

/-- An expression has the same value with one more unit of fuel, if its parts do. -/
private theorem stable_eval
    {context : Context}
    {fuel : Nat}
    (stable : Stable context fuel)
    {expr : Expr}
    {machine : Machine}
    {result : Value × Machine}
    (ended : eval context (fuel + 1) expr machine = some result) :
    eval context (fuel + 2) expr machine = some result := by
  unfold eval at ended ⊢
  cases expr with
  | number | bool | ident | read | lambda => exact ended
  | binary op left right =>
      refine bind_stable (fun _ => stable.eval) (fun _ => ?_) ended
      exact bind_stable (fun _ => stable.eval) (fun _ found => found)
  | unary op operand => exact bind_stable (fun _ => stable.eval) (fun _ found => found) ended
  | ret value =>
      exact guarded_stable (fun _ => stable.eval) (fun _ found => found) ended
  | call callee arg =>
      refine guarded_stable (fun _ => stable.eval) (fun called => ?_) ended
      obtain ⟨function, middle⟩ := called
      cases function with
      | closure param body =>
          exact bind_stable (fun _ => stable.eval) (fun _ => stable.apply)
      | _ => exact fun found => found

/-- A call ends the same way with one more unit of fuel, if its body does. -/
private theorem stable_apply
    {context : Context}
    {fuel : Nat}
    (stable : Stable context fuel)
    {param : Name}
    {body : List Stmt}
    {arg : Value}
    {machine : Machine}
    {result : Value × Machine}
    (ended : apply context (fuel + 1) param body arg machine = some result) :
    apply context (fuel + 2) param body arg machine = some result := by
  unfold apply at ended ⊢
  split at ended
  · simp_all
  · exact bind_stable (fun _ => stable.execAll) (fun _ found => found) ended

/-- A statement ends the same way with one more unit of fuel, if its parts do. -/
private theorem stable_exec
    {context : Context}
    {fuel : Nat}
    (stable : Stable context fuel)
    {statement : Stmt}
    {machine result : Machine}
    (ended : exec context (fuel + 1) statement machine = some result) :
    exec context (fuel + 2) statement machine = some result := by
  unfold exec at ended ⊢
  cases statement with
  | skip => exact ended
  | block body => exact stable.block ended
  | loop condition body => exact stable.loop ended
  | ifThen condition thenBody =>
      refine guarded_stable (fun _ => stable.eval) (fun decided chosen => ?_) ended
      obtain ⟨value, middle⟩ := decided
      dsimp only at chosen ⊢
      split at chosen
      · exact stable.block chosen
      · exact chosen
  | ifElse condition thenBody elseBody =>
      refine guarded_stable (fun _ => stable.eval) (fun decided chosen => ?_) ended
      obtain ⟨value, middle⟩ := decided
      dsimp only at chosen ⊢
      split at chosen
      · exact stable.block chosen
      · exact stable.block chosen
      · exact chosen
  | declare name value =>
      exact guarded_stable (fun _ => stable.eval) (fun _ found => found) ended
  | assign name value =>
      exact guarded_stable (fun _ => stable.eval) (fun _ found => found) ended
  | write value =>
      exact guarded_stable (fun _ => stable.eval) (fun _ found => found) ended
  | eval value =>
      exact guarded_stable (fun _ => stable.eval) (fun _ found => found) ended

/-- A loop ends the same way with one more unit of fuel, if its rounds do. -/
private theorem stable_loop
    {context : Context}
    {fuel : Nat}
    (stable : Stable context fuel)
    {condition : Expr}
    {body : List Stmt}
    {machine result : Machine}
    (ended : loop context (fuel + 1) condition body machine = some result) :
    loop context (fuel + 2) condition body machine = some result := by
  unfold loop at ended ⊢
  refine guarded_stable (fun _ => stable.eval) (fun decided chosen => ?_) ended
  obtain ⟨value, middle⟩ := decided
  dsimp only at chosen ⊢
  split at chosen
  · exact bind_stable (fun _ => stable.block) (fun _ => stable.loop) chosen
  · exact chosen

private theorem stable_block
    {context : Context}
    {fuel : Nat}
    (stable : Stable context fuel)
    {body : List Stmt}
    {machine result : Machine}
    (ended : block context (fuel + 1) body machine = some result) :
    block context (fuel + 2) body machine = some result := by
  unfold block at ended ⊢
  exact bind_stable (fun _ => stable.execAll) (fun _ found => found) ended

private theorem stable_execAll
    {context : Context}
    {fuel : Nat}
    (stable : Stable context fuel)
    {body : List Stmt}
    {machine result : Machine}
    (ended : execAll context (fuel + 1) body machine = some result) :
    execAll context (fuel + 2) body machine = some result := by
  cases body with
  | nil => simpa [execAll] using ended
  | cons statement rest =>
      rw [execAll] at ended ⊢
      exact bind_stable (fun _ => stable.exec) (fun _ => stable.execAll) ended

/-- One more unit of fuel never changes a result. -/
theorem stable (context : Context) (fuel : Nat) : Stable context fuel := by
  induction fuel with
  | zero =>
      constructor <;> intros <;>
        simp_all [Machine.eval, Machine.apply, Machine.exec, Machine.loop, Machine.block,
          Machine.execAll]
  | succ fuel inductionHypothesis =>
      exact {
        eval := stable_eval inductionHypothesis
        apply := stable_apply inductionHypothesis
        exec := stable_exec inductionHypothesis
        loop := stable_loop inductionHypothesis
        block := stable_block inductionHypothesis
        execAll := stable_execAll inductionHypothesis }

/-- The effect of a sequence does not depend on how much fuel was left over. -/
theorem execAll_mono
    {context : Context}
    {less more : Nat}
    {body : List Stmt}
    {machine result : Machine}
    (order : less ≤ more)
    (ended : execAll context less body machine = some result) :
    execAll context more body machine = some result := by
  induction order with
  | refl => exact ended
  | step _ inductionHypothesis => exact (stable context _).execAll inductionHypothesis

end ScopeLang.Machine
