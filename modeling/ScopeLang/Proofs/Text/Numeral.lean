import Mathlib.Logic.Function.Basic
import ScopeLang.Proofs.Text.Trimming
import ScopeLang.Proofs.Token.Spelling

namespace ScopeLang

/-!
# Numerals

Every integer is read back from its numeral, and a number that fits 32 bits also with
blanks around the numeral. So an integer has one numeral only.
-/

/-- No digit is trimmed away. -/
theorem Text.isBlank_of_isDigit
    {c : Char}
    (digit : isDigit c = true) :
    isBlank c = false := by
  have range : 48 ≤ c.toNat ∧ c.toNat ≤ 57 := by
    simpa [isDigit, Char.le_def, UInt32.le_iff_toNat_le] using digit
  by_contra blank
  simp only [isBlank, Bool.not_eq_false, Bool.or_eq_true, Bool.and_eq_true, decide_eq_true_eq,
    beq_iff_eq] at blank
  omega

namespace Text.Decimal

/-- A number is written in digits only, and in at least one. -/
theorem isNumeral_ofNat (n : Nat) :
    IsNumeral (ofNat n).toList := by
  rw [ofNat, String.toList_ofList]
  exact .of_natural? (natural?_toDigits n)

/--
Every integer is read back from its numeral. A numeral starts with a digit, so that of a
natural number is not taken for one with a sign.
-/
theorem integer?_ofInt (n : Int) :
    integer? (ofInt n).toList = some n := by
  have digits : natural? (ofNat n.natAbs).toList = some n.natAbs := by
    rw [ofNat, String.toList_ofList, natural?_toDigits]
  unfold ofInt
  split
  · rename_i negative
    have sign : -Int.ofNat n.natAbs = n := by
      rw [Int.ofNat_eq_natCast]
      omega
    have written : ("-" ++ ofNat n.natAbs).toList = '-' :: (ofNat n.natAbs).toList := by
      simp
    rw [written, integer?, digits, Option.map_some, sign]
  · rename_i natural
    have unsigned : ∀ c ∈ (ofNat n.natAbs).toList, isDigit c = true :=
      (isNumeral_ofNat n.natAbs).2
    have sign : Int.ofNat n.natAbs = n :=
      Int.natAbs_of_nonneg (Int.not_lt.mp natural)
    unfold integer?
    split
    · rename_i rest written
      exact absurd (unsigned '+' (written ▸ List.mem_cons_self)) (by decide)
    · rename_i rest written
      exact absurd (unsigned '-' (written ▸ List.mem_cons_self)) (by decide)
    · rw [digits, Option.map_some, sign]

/-- Different numbers are written differently. -/
theorem ofInt_injective : Function.Injective ofInt := by
  intro n other same
  have read := congrArg (fun numeral => integer? numeral.toList) same
  simpa only [integer?_ofInt, Option.some.injEq] using read

theorem newline_notMem_ofNat (n : Nat) :
    '\n' ∉ (ofNat n).toList := by
  intro member
  exact absurd ((isNumeral_ofNat n).2 _ member) (by decide)

theorem newline_notMem_ofInt (n : Int) :
    '\n' ∉ (ofInt n).toList := by
  unfold ofInt
  split <;> simp [newline_notMem_ofNat]

/-- Nothing of a numeral is trimmed away. -/
theorem isBlank_of_mem_ofInt
    {n : Int}
    {c : Char}
    (member : c ∈ (ofInt n).toList) :
    isBlank c = false := by
  have ofDigit (digit : c ∈ (ofNat n.natAbs).toList) : isBlank c = false :=
    isBlank_of_isDigit ((isNumeral_ofNat n.natAbs).2 c digit)
  unfold ofInt at member
  split at member
  · rw [String.toList_append, List.mem_append] at member
    rcases member with sign | digit
    · obtain rfl : c = '-' := by
        simpa using sign
      rfl
    · exact ofDigit digit
  · exact ofDigit member

/-- The value of a number is within its own range. -/
theorem toInt32?_toInt (number : Int32) :
    toInt32? number.toInt = some number := by
  have lower := number.le_toInt
  have upper := number.toInt_lt
  rw [toInt32?, if_pos (by omega), Int32.ofInt_toInt]

/-- A number is read back from its numeral, whatever is trimmed away around it. -/
theorem int32?_of_trimBlanks_eq
    (number : Int32)
    {text : String}
    (trimmed : trimBlanks text.toList = (ofInt number.toInt).toList) :
    int32? text = some number := by
  rw [int32?, trimmed, integer?_ofInt, Option.bind_some, toInt32?_toInt]

end Text.Decimal

end ScopeLang
