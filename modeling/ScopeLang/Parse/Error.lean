import ScopeLang.Token

namespace ScopeLang

/-!
# Parse errors

A parse error names what could have stood at some place of the source and the
token that stands there instead. Reading stops at the first one.
-/

/-- What would have been accepted. -/
inductive Expectation where
  /-- A token of one kind. -/
  | kind (kind : TokenKind)
  /-- A construct, named by a phrase. -/
  | phrase (text : String)
  deriving Repr, DecidableEq, Inhabited

namespace Expectation

/-- The expectation as messages name it. -/
def describe : Expectation → String
  | .kind expected => expected.describe
  | .phrase text => text

end Expectation

/-- A token that stands where something else was expected. -/
structure ParseError where
  expected : Expectation
  found : Token
  deriving Repr, DecidableEq, Inhabited

namespace ParseError

/-- The part of the source to blame. -/
def span (error : ParseError) : Span :=
  error.found.span

/-- The offending token as messages name it; an identifier is shown with its text. -/
def describeFound (names : NameTable) : TokenKind → String
  | .ident name => "identifier `" ++ names.textOf name ++ "`"
  | kind => kind.describe

/-- The message to the user, without the place. -/
def message (error : ParseError) (names : NameTable) : String :=
  "expected " ++ error.expected.describe ++ ", found " ++ describeFound names error.found.kind

end ParseError

end ScopeLang
