import ScopeLang.Name

namespace ScopeLang

/-!
# Programs

Expressions and statements. A statement sequence is a list of statements; a
program is such a list. An `if` without an else branch and one with an empty
else branch are different statements.
-/

/-- The binary operators. -/
inductive BinaryOp where
  | add
  | sub
  | mul
  | div
  | eq
  | ne
  | lt
  | le
  | gt
  | ge
  | and
  | or
  deriving Repr, DecidableEq, Inhabited

/-- What operators take and give. -/
inductive OpFamily where
  /-- Numbers in, a number out. -/
  | arithmetic
  /-- Numbers in, a truth value out. -/
  | comparison
  /-- Truth values in, a truth value out. -/
  | boolean
  deriving Repr, DecidableEq, Inhabited

namespace BinaryOp

/-- The family an operator belongs to. -/
def family : BinaryOp → OpFamily
  | .add | .sub | .mul | .div => .arithmetic
  | .eq | .ne | .lt | .le | .gt | .ge => .comparison
  | .and | .or => .boolean

/-- The operator as it is written in a source. -/
def spelling : BinaryOp → String
  | .add => "+"
  | .sub => "-"
  | .mul => "*"
  | .div => "/"
  | .eq => "=="
  | .ne => "!="
  | .lt => "<"
  | .le => "<="
  | .gt => ">"
  | .ge => ">="
  | .and => "and"
  | .or => "or"

end BinaryOp

/-- The operators in front of one operand. -/
inductive UnaryOp where
  | neg
  | not
  deriving Repr, DecidableEq, Inhabited

mutual

/-- Expressions: each has exactly one value when it is evaluated. -/
inductive Expr where
  | ident (name : Name)
  | number (value : Int32)
  | bool (value : Bool)
  | binary (op : BinaryOp) (left right : Expr)
  | unary (op : UnaryOp) (operand : Expr)
  /-- A number taken from the input. -/
  | read
  /-- A value handed to the return channel. -/
  | ret (value : Expr)
  | lambda (param : Name) (body : List Stmt)
  | call (callee arg : Expr)

/-- Statements: each has an effect only. -/
inductive Stmt where
  | skip
  /-- A sequence in a scope of its own. -/
  | block (body : List Stmt)
  | ifThen (condition : Expr) (thenBody : List Stmt)
  | ifElse (condition : Expr) (thenBody elseBody : List Stmt)
  | loop (condition : Expr) (body : List Stmt)
  | declare (name : Name) (value : Expr)
  | assign (name : Name) (value : Expr)
  | write (value : Expr)
  /-- An expression whose value is dropped. -/
  | eval (value : Expr)

end

instance : Inhabited Expr :=
  ⟨.read⟩

instance : Inhabited Stmt :=
  ⟨.skip⟩

end ScopeLang
