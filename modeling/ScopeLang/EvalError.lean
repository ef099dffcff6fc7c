import ScopeLang.Scope.Environment

namespace ScopeLang

/-!
# Evaluation errors

The ways in which evaluation can fail, and what the user is told about each.
-/

/-- Why an evaluation failed. Variables are named by their texts. -/
inductive EvalError where
  | divisionByZero
  | unboundVariable (name : String)
  | duplicateDeclaration (name : String)
  | rebindUnbound (name : String)
  | callNonFunction
  | typeMismatch (expected found : String)
  | unsupportedOperator (op : BinaryOp)
  | recursionLimit (maxDepth : Nat)
  | scopeCorrupted (name : String)
  deriving Repr, DecidableEq, Inhabited

namespace EvalError

/-- What the user is told. -/
def message : EvalError → String
  | .divisionByZero => "Division by zero!"
  | .unboundVariable name => "No binding for variable `" ++ name ++ "` exists!"
  | .duplicateDeclaration name => "Variable `" ++ name ++ "` already bound!"
  | .rebindUnbound name => "Cannot rebind `" ++ name ++ "` because it is not bound!"
  | .callNonFunction => "Attempting to call a non-function."
  | .typeMismatch expected found => "Expected " ++ expected ++ ", found `" ++ found ++ "`"
  | .unsupportedOperator op => "Operator `" ++ op.spelling ++ "` is not supported"
  | .recursionLimit maxDepth =>
      "Maximum call depth of " ++ Text.Decimal.ofNat maxDepth ++ " exceeded"
  | .scopeCorrupted name =>
      "Scope corrupted: `" ++ name ++ "` is declared in the current scope but has no binding"

/-- A value that is not the number an operator needs. -/
def notNumber (found : Value) : EvalError :=
  .typeMismatch "a number" found.typeName

/-- A value that is not the truth value an operator or a condition needs. -/
def notBoolean (found : Value) : EvalError :=
  .typeMismatch "a boolean" found.typeName

/-- The failure of a lookup or a declaration. -/
def ofScope (names : NameTable) : ScopeError → EvalError
  | .unbound name => .unboundVariable (names.textOf name)
  | .alreadyDeclared name => .duplicateDeclaration (names.textOf name)
  | .corrupted name => .scopeCorrupted (names.textOf name)

/-- The failure of an assignment. -/
def ofRebind (names : NameTable) : ScopeError → EvalError
  | .unbound name => .rebindUnbound (names.textOf name)
  | other => ofScope names other

end EvalError

end ScopeLang
