import ScopeLang.Ast

namespace ScopeLang

/-!
# Values

What expressions evaluate to. A closure holds no bindings of its own: free
variables of its body mean whatever they are bound to when it is called.
-/

/-- The value of an expression. -/
inductive Value where
  | number (value : Int32)
  | bool (value : Bool)
  | closure (param : Name) (body : List Stmt)
  /-- No meaningful result; also stands in for a result that failed. -/
  | unset

instance : Inhabited Value :=
  ⟨.unset⟩

namespace Value

/-- The value as it is written to the output. -/
def text : Value → String
  | .number value => Text.Decimal.ofInt value.toInt
  | .bool value => if value then "true" else "false"
  | .closure _ _ => "lambda expression"
  | .unset => "Unset value!"

/-- The kind of value, as messages name it. -/
def typeName : Value → String
  | .number _ => "number"
  | .bool _ => "bool"
  | .closure _ _ => "lambda"
  | .unset => "unset"

/-- Whether there is no meaningful result. -/
def isUnset : Value → Bool
  | .unset => true
  | _ => false

/-- The number that a value is. -/
def number? : Value → Option Int32
  | .number value => some value
  | _ => none

/-- The truth value that a value is. -/
def bool? : Value → Option Bool
  | .bool value => some value
  | _ => none

end Value

end ScopeLang
