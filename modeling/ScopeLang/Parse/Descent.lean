import ScopeLang.Ast
import ScopeLang.Parse.Cursor

namespace ScopeLang

/-!
# Recursive descent

The grammar, read from left to right. Loosest first, an expression is built
from `return`, disjunctions, conjunctions, comparisons, sums, products, prefix
operators and calls; binary operators and calls group to the left. Statements
have no separator: a statement ends where the next token cannot continue it.

Every parser takes fuel, which it hands on less one. Between two tokens that
are read, less than sixteen parsers are entered, so sixteen units for each token
are enough.
-/

/-- The levels of binary operators, loosest first. -/
inductive BinaryLevel where
  | disjunction
  | conjunction
  | comparison
  | sum
  | product
  deriving Repr, DecidableEq, Inhabited

namespace BinaryLevel

/-- The next tighter level; operands of a product are not binary. -/
def tighter? : BinaryLevel → Option BinaryLevel
  | .disjunction => some .conjunction
  | .conjunction => some .comparison
  | .comparison => some .sum
  | .sum => some .product
  | .product => none

/-- The operator that a token stands for at a level. -/
def operator? : BinaryLevel → TokenKind → Option BinaryOp
  | .disjunction, .keyword .orWord => some .or
  | .disjunction, .symbol .pipePipe => some .or
  | .conjunction, .keyword .andWord => some .and
  | .conjunction, .symbol .ampAmp => some .and
  | .comparison, .symbol .equalEqual => some .eq
  | .comparison, .symbol .bangEqual => some .ne
  | .comparison, .symbol .less => some .lt
  | .comparison, .symbol .lessEqual => some .le
  | .comparison, .symbol .greater => some .gt
  | .comparison, .symbol .greaterEqual => some .ge
  | .sum, .symbol .plus => some .add
  | .sum, .symbol .minus => some .sub
  | .product, .symbol .star => some .mul
  | .product, .symbol .slash => some .div
  | _, _ => none

end BinaryLevel

/-- The expression that a reserved word is on its own. -/
def Keyword.atom? : Keyword → Option Expr
  | .trueWord => some (.bool true)
  | .falseWord => some (.bool false)
  | .read => some .read
  | _ => none

namespace TokenKind

/-- The prefix operator that a token stands for. -/
def unaryOperator? : TokenKind → Option UnaryOp
  | .symbol .minus => some .neg
  | .keyword .notWord => some .not
  | .symbol .bang => some .not
  | _ => none

/-- The expression that a token is on its own. -/
def atom? : TokenKind → Option Expr
  | .int value => some (.number value)
  | .ident name => some (.ident name)
  | .keyword word => word.atom?
  | _ => none

/-- Whether an expression can begin with a token. -/
def startsExpr : TokenKind → Bool
  | .keyword .lambda => true
  | .keyword .returnWord => true
  | .symbol .leftParen => true
  | other => other.atom?.isSome || other.unaryOperator?.isSome

end TokenKind

namespace Parser

mutual

/-- An expression, with any number of `return` in front. -/
def expression : Nat → Parser Expr
  | 0 => giveUp
  | fuel + 1 => do
      if (← kind) == .keyword .returnWord then
        let _ ← advance
        let value ← expression fuel
        return .ret value
      else
        binary fuel .disjunction

/-- Operands of a level with operators of the level between them. -/
def binary : Nat → BinaryLevel → Parser Expr
  | 0, _ => giveUp
  | fuel + 1, level => do
      let left ← operand fuel level
      chain fuel level left

/-- An operand of a level. -/
def operand : Nat → BinaryLevel → Parser Expr
  | 0, _ => giveUp
  | fuel + 1, level =>
      match level.tighter? with
      | some tighter => binary fuel tighter
      | none => unary fuel

/-- What follows the first operand of a level. -/
def chain : Nat → BinaryLevel → Expr → Parser Expr
  | 0, _, _ => giveUp
  | fuel + 1, level, left => do
      match level.operator? (← kind) with
      | some op =>
          let _ ← advance
          let right ← operand fuel level
          chain fuel level (.binary op left right)
      | none => return left

/-- A call chain with any number of prefix operators. -/
def unary : Nat → Parser Expr
  | 0 => giveUp
  | fuel + 1 => do
      match (← kind).unaryOperator? with
      | some op =>
          let _ ← advance
          let inner ← unary fuel
          return .unary op inner
      | none =>
          let callee ← primary fuel
          calls fuel callee

/-- What follows a callee: arguments, each after its own `@`. -/
def calls : Nat → Expr → Parser Expr
  | 0, _ => giveUp
  | fuel + 1, callee => do
      if (← kind) == .symbol .at then
        let _ ← advance
        let arg ← argument fuel
        calls fuel (.call callee arg)
      else
        return callee

/-- A primary with any number of prefix operators. -/
def argument : Nat → Parser Expr
  | 0 => giveUp
  | fuel + 1 => do
      match (← kind).unaryOperator? with
      | some op =>
          let _ ← advance
          let inner ← argument fuel
          return .unary op inner
      | none => primary fuel

/-- A literal, an identifier, `read`, a lambda, or an expression in parentheses. -/
def primary : Nat → Parser Expr
  | 0 => giveUp
  | fuel + 1 => do
      let next ← kind
      match next.atom? with
      | some atom =>
          let _ ← advance
          return atom
      | none =>
          if next == .keyword .lambda then
            let _ ← advance
            let param ← name
            let inner ← body fuel
            return .lambda param inner
          else if next == .symbol .leftParen then
            let _ ← advance
            let inner ← expression fuel
            let _ ← expect (.symbol .rightParen)
            return inner
          else
            fail (.phrase "expression")

/-- Statements in braces. -/
def body : Nat → Parser (List Stmt)
  | 0 => giveUp
  | fuel + 1 => do
      let _ ← expect (.symbol .leftBrace)
      bodyRest fuel

/-- The statements up to a closing brace, and the brace. -/
def bodyRest : Nat → Parser (List Stmt)
  | 0 => giveUp
  | fuel + 1 => do
      match ← kind with
      | .symbol .rightBrace =>
          let _ ← advance
          return []
      | .endOfInput => fail (.kind (.symbol .rightBrace))
      | _ =>
          let first ← statement fuel
          let rest ← bodyRest fuel
          return first :: rest

/-- A conditional, the `if` included; an `else if` is an else branch of one statement. -/
def conditional : Nat → Parser Stmt
  | 0 => giveUp
  | fuel + 1 => do
      let _ ← expect (.keyword .ifWord)
      let condition ← expression fuel
      let thenBody ← body fuel
      if (← kind) == .keyword .elseWord then
        let _ ← advance
        if (← kind) == .keyword .ifWord then
          let nested ← conditional fuel
          return .ifElse condition thenBody [nested]
        else
          let elseBody ← body fuel
          return .ifElse condition thenBody elseBody
      else
        return .ifThen condition thenBody

/-- A statement. `ret := e` is the expression statement `return e`. -/
def statement : Nat → Parser Stmt
  | 0 => giveUp
  | fuel + 1 => do
      match ← kind with
      | .symbol .semicolon =>
          let _ ← advance
          return .skip
      | .symbol .leftBrace =>
          let inner ← body fuel
          return .block inner
      | .keyword .ifWord => conditional fuel
      | .keyword .whileWord =>
          let _ ← advance
          let condition ← expression fuel
          let inner ← body fuel
          return .loop condition inner
      | .keyword .declare =>
          let _ ← advance
          let declared ← name
          let _ ← expect (.symbol .colonEqual)
          let value ← expression fuel
          return .declare declared value
      | .keyword .retWord =>
          let _ ← advance
          let _ ← expect (.symbol .colonEqual)
          let value ← expression fuel
          return .eval (.ret value)
      | .keyword .write =>
          let _ ← advance
          let value ← expression fuel
          return .write value
      | .ident assigned =>
          if (← peek) == .symbol .colonEqual then
            let _ ← advance
            let _ ← advance
            let value ← expression fuel
            return .assign assigned value
          else
            let value ← expression fuel
            return .eval value
      | other =>
          if other.startsExpr then
            let value ← expression fuel
            return .eval value
          else
            fail (.phrase "statement")

end

/-- The statements up to the end of the input. -/
def program : Nat → Parser (List Stmt)
  | 0 => giveUp
  | fuel + 1 => do
      match ← kind with
      | .endOfInput => return []
      | _ =>
          let first ← statement fuel
          let rest ← program fuel
          return first :: rest

/-- An expression with nothing behind it. -/
def soleExpression (fuel : Nat) : Parser Expr := do
  let value ← expression fuel
  match ← kind with
  | .endOfInput => return value
  | _ => fail (.kind .endOfInput)

end Parser

end ScopeLang
