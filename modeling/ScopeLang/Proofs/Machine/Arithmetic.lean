import Mathlib.Data.Int.ModEq
import ScopeLang.Proofs.Machine.Run

namespace ScopeLang

/-!
# Arithmetic

Sums, differences, products and negations wrap around at every step. Since numbers are
the integers modulo 2^32, an expression of any depth has the value that comes of
computing with exact integers and wrapping around once, at the end. Quotients are
truncated instead, and of these only the least number divided by -1 wraps around.
-/

/--
The exact integer that an expression stands for when it is made of numbers and of
variables bound to numbers by sums, differences, products and negations.
-/
inductive Environment.Denotes (env : Environment) : Expr → Int → Prop where
  | number {value} :
      Denotes env (.number value) value.toInt
  | ident {name value} :
      env.lookup name = .ok (.number value) →
      Denotes env (.ident name) value.toInt
  | add {left right first second} :
      Denotes env left first →
      Denotes env right second →
      Denotes env (.binary .add left right) (first + second)
  | sub {left right first second} :
      Denotes env left first →
      Denotes env right second →
      Denotes env (.binary .sub left right) (first - second)
  | mul {left right first second} :
      Denotes env left first →
      Denotes env right second →
      Denotes env (.binary .mul left right) (first * second)
  | neg {operand exact} :
      Denotes env operand exact →
      Denotes env (.unary .neg operand) (-exact)

/-- A quotient whose remainder is smaller than the divisor, and zero or of the dividend's sign. -/
def IsQuotient (dividend divisor quotient : Int) : Prop :=
  ∃ remainder,
    dividend = quotient * divisor + remainder ∧
      |remainder| < |divisor| ∧
        (remainder = 0 ∨ remainder.sign = dividend.sign)

/-! ## Wrapping around -/

/-- Of the numbers, just one is congruent to an integer: the integer wrapped around. -/
theorem modEq_iff_eq_ofInt
    {exact : Int}
    {value : Int32} :
    value.toInt ≡ exact [ZMOD 2 ^ 32] ↔ value = .ofInt exact := by
  constructor
  · intro congruent
    have sameRest : value.toInt.bmod (2 ^ 32) = exact.bmod (2 ^ 32) := by
      rw [← Int.emod_bmod value.toInt, ← Int.emod_bmod exact]
      exact congrArg (Int.bmod · (2 ^ 32)) congruent
    rw [← Int32.toInt_inj, Int32.toInt_ofInt]
    exact (Int32.toInt_bmod value).symm.trans sameRest
  · rintro rfl
    rw [Int32.toInt_ofInt]
    exact Int.bmod_emod

/-- Unless the least number is negated, the negation is exact. -/
theorem toInt_neg_of_ne
    {number : Int32}
    (fits : number ≠ .minValue) :
    (-number).toInt = -number.toInt := by
  have notLeast : number.toInt ≠ -2147483648 := fun least =>
    fits (Int32.toInt_inj.mp least)
  have lower := number.le_toInt
  have upper := number.toInt_lt
  rw [Int32.toInt_neg, Int.bmod_eq_of_le] <;> omega

/-- A computation that succeeds while the flag is down has its value and changes nothing. -/
theorem Machine.settle_eq_of_ok
    {machine : Machine}
    {result : Except EvalError Value}
    {value : Value}
    (running : machine.failed = false)
    (computed : result = .ok value) :
    machine.settle result = (value, machine) := by
  simp [settle, running, computed]

namespace Run

variable {context : Context} {machine : Machine}

/-- Operands that change nothing, and an operator that takes their values. -/
theorem binary_of_ok
    (running : machine.failed = false)
    {op : BinaryOp}
    {left right : Expr}
    {first second value : Value}
    (leftRun : Run context (.eval left) machine first machine)
    (rightRun : Run context (.eval right) machine second machine)
    (computed : op.apply first second = .ok value) :
    Run context (.eval (.binary op left right)) machine value machine :=
  .binary leftRun rightRun (machine.settle_eq_of_ok running computed)

/-- Wrapping around at every step comes to the same as wrapping around once. -/
theorem eval_of_denotes
    (running : machine.failed = false)
    {expr : Expr}
    {exact : Int}
    (denotes : machine.env.Denotes expr exact) :
    Run context (.eval expr) machine (.number (.ofInt exact)) machine := by
  induction denotes with
  | number =>
      rw [Int32.ofInt_toInt]
      exact .number
  | @ident name value found =>
      have looked :
          (machine.env.lookup name).mapError (EvalError.ofScope context.names) =
            .ok (.number value) := by
        rw [found]
        rfl
      rw [Int32.ofInt_toInt]
      exact .ident (machine.settle_eq_of_ok running looked)
  | add _ _ left right =>
      rw [Int32.ofInt_add]
      exact .binary_of_ok running left right rfl
  | sub _ _ left right =>
      rw [Int32.ofInt_sub]
      exact .binary_of_ok running left right rfl
  | mul _ _ left right =>
      rw [Int32.ofInt_mul]
      exact .binary_of_ok running left right rfl
  | neg _ operand =>
      rw [Int32.ofInt_neg]
      exact .unary operand (machine.settle_eq_of_ok running rfl)

end Run

/-! ## Quotients -/

/-- Truncation leaves a remainder of this kind, and no other quotient does. -/
theorem isQuotient_iff
    {dividend divisor quotient : Int}
    (nonzero : divisor ≠ 0) :
    IsQuotient dividend divisor quotient ↔ quotient = dividend.tdiv divisor := by
  constructor
  · rintro ⟨remainder, split, smaller, sign⟩
    have whole : remainder + divisor * quotient = dividend := by
      rw [split, mul_comm quotient, add_comm]
    rw [Int.abs_eq_natAbs divisor, abs_lt] at smaller
    rcases le_total 0 dividend with natural | negative
    · have remainderNatural : 0 ≤ remainder := by
        rcases sign with rfl | same
        · exact le_refl 0
        · exact Int.sign_nonneg_iff.mp (same ▸ Int.sign_nonneg_iff.mpr natural)
      exact ((Int.tdiv_tmod_unique natural nonzero).mpr
        ⟨whole, remainderNatural, smaller.2⟩).1.symm
    · have remainderNegative : remainder ≤ 0 := by
        rcases sign with rfl | same
        · exact le_refl 0
        · exact Int.sign_nonpos_iff.mp (same ▸ Int.sign_nonpos_iff.mpr negative)
      exact ((Int.tdiv_tmod_unique' negative nonzero).mpr
        ⟨whole, smaller.1, remainderNegative⟩).1.symm
  · rintro rfl
    refine ⟨dividend.tmod divisor, ?_, ?_, ?_⟩
    · rw [mul_comm, Int.mul_tdiv_add_tmod]
    · rw [Int.abs_eq_natAbs, Int.abs_eq_natAbs, Int.natAbs_tmod]
      exact Int.ofNat_lt.mpr (Nat.mod_lt _ (Int.natAbs_pos.mpr nonzero))
    · have sign := Int.sign_tmod dividend divisor
      split at sign
      · exact .inl (Int.sign_eq_zero_iff_zero.mp sign)
      · exact .inr sign

/-- Whatever the divisor but zero, there is a quotient. -/
theorem BinaryOp.apply_div
    (dividend : Int32)
    {divisor : Int32}
    (nonzero : divisor ≠ 0) :
    BinaryOp.div.apply (.number dividend) (.number divisor) =
      .ok (.number (dividend / divisor)) := by
  change (if divisor = 0 then _ else _) = _
  rw [if_neg nonzero]
  rfl

/-- Unless the least number is divided by -1, the quotient is exact. -/
theorem toInt_div_of_ne
    {dividend divisor : Int32}
    (fits : ¬ (dividend = .minValue ∧ divisor = -1)) :
    (dividend / divisor).toInt = dividend.toInt.tdiv divisor.toInt := by
  rcases not_and_or.mp fits with notLeast | notMinusOne
  · exact Int32.toInt_div_of_ne_left _ _ notLeast
  · exact Int32.toInt_div_of_ne_right _ _ notMinusOne

namespace Machine

/--
While the flag is down, an expression that stands for an exact integer has as its value
the one number that is congruent to the integer modulo 2^32, and nothing changes. A quotient
is refused for the divisor zero only; the least number divided by -1 is the least number
again, and every other quotient is the one with a remainder of the right size and sign.
-/
theorem arithmetic_wraps_once :
    (∀ (context : Context) (machine : Machine) (expr : Expr) (exact : Int),
      machine.failed = false →
        machine.env.Denotes expr exact →
          ∃ value : Int32,
            (∀ other : Int32, other.toInt ≡ exact [ZMOD 2 ^ 32] ↔ other = value) ∧
              ∃ least, ∀ fuel, least ≤ fuel →
                eval context fuel expr machine = some (.number value, machine)) ∧
    (∀ dividend divisor : Int32,
      let outcome := BinaryOp.div.apply (.number dividend) (.number divisor)
      (outcome = .error .divisionByZero ↔ divisor = 0) ∧
        (dividend = .minValue → divisor = -1 → outcome = .ok (.number .minValue)) ∧
          (divisor ≠ 0 →
            ¬ (dividend = .minValue ∧ divisor = -1) →
              ∃ quotient : Int32,
                outcome = .ok (.number quotient) ∧
                  ∀ other : Int32,
                    IsQuotient dividend.toInt divisor.toInt other.toInt ↔
                      other = quotient)) := by
  refine ⟨?_, ?_⟩
  · intro context machine expr exact running denotes
    refine ⟨.ofInt exact, fun other => modEq_iff_eq_ofInt, ?_⟩
    exact (Run.eval_of_denotes running denotes).exists_least_fuel
  · intro dividend divisor outcome
    refine ⟨⟨?_, ?_⟩, ?_, ?_⟩
    · intro refused
      by_contra nonzero
      exact nomatch refused.symm.trans (BinaryOp.apply_div dividend nonzero)
    · rintro rfl
      rfl
    · rintro rfl rfl
      rfl
    · intro nonzero fits
      have nonzeroExact : divisor.toInt ≠ 0 := fun zero =>
        nonzero (Int32.toInt_inj.mp zero)
      refine ⟨dividend / divisor, BinaryOp.apply_div dividend nonzero, fun other => ?_⟩
      rw [isQuotient_iff nonzeroExact, ← toInt_div_of_ne fits, Int32.toInt_inj]

/-- Two operands that wrap around on their own, and a quotient with a remainder below zero. -/
theorem arithmetic_wraps_once_least_number :
    let x : Name := ⟨1⟩
    let machine : Machine :=
      { Machine.ofConsole (.ofInput .closed) with env := ⟨[(x, [.number 65536])], [x], []⟩ }
    let expr : Expr :=
      .binary .add (.unary .neg (.number .minValue)) (.binary .mul (.ident x) (.ident x))
    let dividend : Int32 := -7
    let divisor : Int32 := 2
    machine.failed = false ∧
      machine.env.Denotes expr 6442450944 ∧
        (∃ least, ∀ fuel, least ≤ fuel →
          eval ⟨.initial, {}⟩ fuel expr machine = some (.number .minValue, machine)) ∧
          (divisor ≠ 0 ∧ ¬ (dividend = .minValue ∧ divisor = -1)) ∧
            IsQuotient (-7) 2 (-3) ∧
              BinaryOp.div.apply (.number dividend) (.number divisor) = .ok (.number (-3)) := by
  intro x machine expr dividend divisor
  have bound : machine.env.Denotes (.ident x) (65536 : Int32).toInt :=
    .ident rfl
  have denotes : machine.env.Denotes expr 6442450944 :=
    .add (.neg .number) (.mul bound bound)
  have nonzero : divisor ≠ 0 := by
    decide
  have fits : ¬ (dividend = .minValue ∧ divisor = -1) := by
    decide
  have isQuotient : IsQuotient (-7) 2 (-3) :=
    ⟨-1, by decide⟩
  obtain ⟨value, unique, ends⟩ :=
    arithmetic_wraps_once.1 ⟨.initial, {}⟩ machine expr _ rfl denotes
  obtain rfl : .minValue = value :=
    (unique .minValue).mp (by decide)
  obtain ⟨quotient, divided, uniqueQuotient⟩ :=
    (arithmetic_wraps_once.2 dividend divisor).2.2 nonzero fits
  obtain rfl : -3 = quotient :=
    (uniqueQuotient (-3)).mp isQuotient
  exact ⟨rfl, denotes, ends, ⟨nonzero, fits⟩, isQuotient, divided⟩

end Machine

end ScopeLang
