namespace ScopeLang.Text

/-!
# Blanks and numerals

How text that is typed by a user is read. Blanks around it are dropped; the class of
blanks is Unicode's `White_Space` property, and the lexer has a narrower class of its own.
Numerals are read strictly: a numeral is a nonempty run of ASCII digits with at most one
sign in front, and a numeral outside the range of the type that is read is not a numeral
of it.
-/

/-! ## Blanks -/

/-- Membership in Unicode's `White_Space` property. -/
def isBlank (c : Char) : Bool :=
  let code := c.toNat
  (0x09 ≤ code && code ≤ 0x0D) || code == 0x20 || code == 0x85 || code == 0xA0 ||
    code == 0x1680 || (0x2000 ≤ code && code ≤ 0x200A) || code == 0x2028 ||
    code == 0x2029 || code == 0x202F || code == 0x205F || code == 0x3000

/-- The characters left after dropping those at the end that satisfy `drop`. -/
def dropEndWhile (drop : Char → Bool) (characters : List Char) : List Char :=
  (characters.reverse.dropWhile drop).reverse

/-- The characters left after dropping blanks at both ends. -/
def trimBlanks (characters : List Char) : List Char :=
  dropEndWhile isBlank (characters.dropWhile isBlank)

/-- Text without its leading and trailing blanks. -/
def trim (text : String) : String :=
  String.ofList (trimBlanks text.toList)

/-! ## Numerals -/

/-- The ASCII digits. -/
def isDigit (c : Char) : Bool :=
  '0' ≤ c && c ≤ '9'

namespace Decimal

/-- A natural number in decimal, without leading zeros. -/
def ofNat (n : Nat) : String :=
  String.ofList (Nat.toDigits 10 n)

/-- An integer in decimal, with a minus sign in front of a negative one. -/
def ofInt (n : Int) : String :=
  if n < 0 then "-" ++ ofNat n.natAbs else ofNat n.natAbs

/-- The number that a nonempty run of digits denotes. -/
def natural? (digits : List Char) : Option Nat :=
  if !digits.isEmpty && digits.all isDigit then
    some (Nat.ofDigitChars 10 digits 0)
  else
    none

/-- The number that digits with at most one sign in front denote. -/
def integer? : List Char → Option Int
  | '+' :: digits => (natural? digits).map Int.ofNat
  | '-' :: digits => (natural? digits).map fun n => -Int.ofNat n
  | digits => (natural? digits).map Int.ofNat

/-- An integer in 32 signed bits, if it fits. -/
def toInt32? (n : Int) : Option Int32 :=
  if -2147483648 ≤ n ∧ n ≤ 2147483647 then some (Int32.ofInt n) else none

/-- The integer that trimmed text denotes, if it fits 32 signed bits. -/
def int32? (text : String) : Option Int32 :=
  (integer? (trimBlanks text.toList)).bind toInt32?

/--
The count that trimmed text denotes, if it fits 64 unsigned bits. A plus sign
may stand in front, a minus sign may not.
-/
def count? (text : String) : Option Nat :=
  let digits :=
    match trimBlanks text.toList with
    | '+' :: digits => digits
    | digits => digits
  match natural? digits with
  | some n => if n < UInt64.size then some n else none
  | none => none

/-- Every natural number is read back from its digits. -/
theorem natural?_toDigits (n : Nat) :
    natural? (Nat.toDigits 10 n) = some n := by
  have digits : (Nat.toDigits 10 n).all isDigit = true := by
    rw [List.all_eq_true]
    intro c member
    have digit := Nat.isDigit_of_mem_toDigits (by decide) (by decide) member
    simpa [Char.isDigit, isDigit, Char.le_def] using digit
  simp [natural?, digits, Nat.toDigits_ne_nil]

end Decimal

end ScopeLang.Text
