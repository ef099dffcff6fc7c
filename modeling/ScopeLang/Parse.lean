import ScopeLang.Parse.Progress

namespace ScopeLang

/-!
# Parsing token lists

The two entry points of the grammar, without fuel: a whole program, and one
expression with nothing behind it. They are total on every list of tokens, also
on lists without an end mark and on lists with several.
-/

namespace Parser

/-- The answer of a parser at a cursor where it is known to answer. -/
def answer
    (parser : Parser α)
    {least : Nat}
    {cursor : Cursor}
    (answers : Answers parser least cursor) :
    Except ParseError α :=
  match read : parser cursor with
  | .done value _ => .ok value
  | .failed error => .error error
  | .exhausted => False.elim (by simp [Answers, read] at answers)

/-- The answer is a value exactly when the parser ends with it. -/
theorem answer_eq_ok_iff
    {parser : Parser α}
    {least : Nat}
    {cursor : Cursor}
    {answers : Answers parser least cursor}
    {value : α} :
    parser.answer answers = .ok value ↔ ∃ next, parser cursor = .done value next := by
  unfold answer
  split
  · simp_all
  · simp_all
  · rename_i read
    simp [Answers, read] at answers

/-- The answer is an error exactly when the parser stops at it. -/
theorem answer_eq_error_iff
    {parser : Parser α}
    {least : Nat}
    {cursor : Cursor}
    {answers : Answers parser least cursor}
    {error : ParseError} :
    parser.answer answers = .error error ↔ parser cursor = .failed error := by
  unfold answer
  split
  · simp_all
  · simp_all
  · rename_i read
    simp [Answers, read] at answers

end Parser

/-- Fuel for reading a list of tokens. -/
def parseFuel (tokens : List Token) : Nat :=
  16 * (tokens.length + 1)

/-- The program that a list of tokens spells. -/
def parseProgram (tokens : List Token) : Except ParseError (List Stmt) :=
  Parser.answer (Parser.program (parseFuel tokens))
    (Parser.answers_program (parseFuel tokens) (Cursor.ofTokens tokens)
      (by simp only [parseFuel, Cursor.remaining, Cursor.ofTokens]; omega))

/-- The expression that a list of tokens spells. -/
def parseExpr (tokens : List Token) : Except ParseError Expr :=
  Parser.answer (Parser.soleExpression (parseFuel tokens))
    (Parser.answers_soleExpression (parseFuel tokens) (Cursor.ofTokens tokens)
      (by simp only [parseFuel, Cursor.remaining, Cursor.ofTokens]; omega))

end ScopeLang
