import ScopeLang.Parse.Error

namespace ScopeLang

/-!
# Reading tokens one by one

A cursor stands before the tokens that are still to be read. It never moves
past an end mark, and behind the last token of a list without one it shows an
end mark of its own. A parser is a step that moves a cursor and yields a value,
or stops at a parse error, or gives up for want of fuel.
-/

/-- The tokens still to be read, and where the end is when they run out. -/
structure Cursor where
  rest : List Token
  finish : Span
  deriving Repr, DecidableEq, Inhabited

namespace Cursor

/-- The cursor before a list of tokens; the end lies where the last token does. -/
def ofTokens (tokens : List Token) : Cursor where
  rest := tokens
  finish := (tokens.getLast?.map Token.span).getD ⟨0, 0⟩

/-- The token to be read next. -/
def current (cursor : Cursor) : Token :=
  cursor.rest.head?.getD ⟨.endOfInput, cursor.finish⟩

/-- The kind of the token after the next one. -/
def peek (cursor : Cursor) : TokenKind :=
  (cursor.rest.tail.head?.map Token.kind).getD .endOfInput

/-- Whether nothing is left but the end. -/
def atEnd (cursor : Cursor) : Bool :=
  cursor.current.kind == .endOfInput

/-- The cursor behind the next token, or the same cursor at the end. -/
def advance (cursor : Cursor) : Cursor :=
  if cursor.atEnd then cursor else { cursor with rest := cursor.rest.tail }

/-- Whether the next token is of a kind, whatever value or name it carries. -/
def check (cursor : Cursor) (kind : TokenKind) : Bool :=
  cursor.current.kind.sameAs kind

/-- The error that something else was expected here. -/
def errorExpected (cursor : Cursor) (expected : Expectation) : ParseError :=
  ⟨expected, cursor.current⟩

end Cursor

/-- How a parser ends. -/
inductive Parsed (α : Type) where
  | done (value : α) (cursor : Cursor)
  | failed (error : ParseError)
  /-- The fuel ran out before an answer was found. -/
  | exhausted
  deriving Repr, Inhabited

/-- A step that reads tokens. -/
def Parser (α : Type) : Type :=
  Cursor → Parsed α

namespace Parser

/-- Yield a value and read nothing. -/
def pure (value : α) : Parser α :=
  fun cursor => .done value cursor

/-- Read with one parser, then with the parser that its value selects. -/
def bind (first : Parser α) (next : α → Parser β) : Parser β :=
  fun cursor =>
    match first cursor with
    | .done value cursor => next value cursor
    | .failed error => .failed error
    | .exhausted => .exhausted

instance : Monad Parser where
  pure := Parser.pure
  bind := Parser.bind

/-- After a step that is done the next one reads on. -/
theorem bind_of_done
    {first : Parser α}
    {next : α → Parser β}
    {cursor middle : Cursor}
    {value : α}
    (read : first cursor = .done value middle) :
    (first >>= next) cursor = next value middle := by
  show Parser.bind first next cursor = _
  rw [Parser.bind, read]

/-- After a step that failed nothing is read. -/
theorem bind_of_failed
    {first : Parser α}
    {next : α → Parser β}
    {cursor : Cursor}
    {error : ParseError}
    (stopped : first cursor = .failed error) :
    (first >>= next) cursor = .failed error := by
  show Parser.bind first next cursor = _
  rw [Parser.bind, stopped]

/-- The kind of the next token. -/
def kind : Parser TokenKind :=
  fun cursor => .done cursor.current.kind cursor

/-- The kind of the token after the next one. -/
def peek : Parser TokenKind :=
  fun cursor => .done cursor.peek cursor

/-- Read the next token and yield where it stood. -/
def advance : Parser Span :=
  fun cursor => .done cursor.current.span cursor.advance

/-- Stop at the next token. -/
def fail (expected : Expectation) : Parser α :=
  fun cursor => .failed (cursor.errorExpected expected)

/-- Give up. -/
def giveUp : Parser α :=
  fun _ => .exhausted

/-- Read a token of one kind, and yield where it stood. -/
def expect (kind : TokenKind) : Parser Span :=
  fun cursor =>
    if cursor.check kind then advance cursor else fail (.kind kind) cursor

/-- Read an identifier. -/
def name : Parser Name :=
  fun cursor =>
    match cursor.current.kind with
    | .ident name => .done name cursor.advance
    | _ => fail (.phrase "identifier") cursor

end Parser

end ScopeLang
