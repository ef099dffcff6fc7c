import ScopeLang.EvalError

namespace ScopeLang

/-!
# Operators on values

Numbers have 32 bits: sums, differences, products and negations wrap around,
and quotients are truncated toward zero. Of two operands of the wrong kind the
left one is reported.
-/

/-- Both operands as numbers. -/
def Value.numbers (left right : Value) : Except EvalError (Int32 × Int32) :=
  match left, right with
  | .number first, .number second => .ok (first, second)
  | .number _, other => .error (.notNumber other)
  | other, _ => .error (.notNumber other)

/-- Both operands as truth values. -/
def Value.booleans (left right : Value) : Except EvalError (Bool × Bool) :=
  match left, right with
  | .bool first, .bool second => .ok (first, second)
  | .bool _, other => .error (.notBoolean other)
  | other, _ => .error (.notBoolean other)

namespace BinaryOp

/-- The value of an operator applied to two values. -/
def apply (op : BinaryOp) (left right : Value) : Except EvalError Value :=
  match op with
  | .add => do
      let (first, second) ← left.numbers right
      return .number (first + second)
  | .sub => do
      let (first, second) ← left.numbers right
      return .number (first - second)
  | .mul => do
      let (first, second) ← left.numbers right
      return .number (first * second)
  | .div => do
      let (first, second) ← left.numbers right
      if second = 0 then throw .divisionByZero else return .number (first / second)
  | .eq => do
      let (first, second) ← left.numbers right
      return .bool (first == second)
  | .ne => throw (.unsupportedOperator .ne)
  | .lt => do
      let (first, second) ← left.numbers right
      return .bool (decide (first < second))
  | .le => do
      let (first, second) ← left.numbers right
      return .bool (decide (first ≤ second))
  | .gt => do
      let (first, second) ← left.numbers right
      return .bool (decide (second < first))
  | .ge => do
      let (first, second) ← left.numbers right
      return .bool (decide (second ≤ first))
  | .and => do
      let (first, second) ← left.booleans right
      return .bool (first && second)
  | .or => do
      let (first, second) ← left.booleans right
      return .bool (first || second)

end BinaryOp

namespace UnaryOp

/-- The value of an operator applied to one value. -/
def apply : UnaryOp → Value → Except EvalError Value
  | .neg, .number value => .ok (.number (-value))
  | .neg, other => .error (.notNumber other)
  | .not, .bool value => .ok (.bool !value)
  | .not, other => .error (.notBoolean other)

end UnaryOp

end ScopeLang
