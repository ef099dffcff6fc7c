import ScopeLang.Name
import ScopeLang.Span

namespace ScopeLang

/-!
# Tokens

The vocabulary of the language: keywords and symbols with their spellings,
integer literals, identifiers, characters that belong to no token, and the
mark at the end of the source.
-/

/-- The reserved words. -/
inductive Keyword where
  | declare
  | write
  | read
  | lambda
  | ifWord
  | elseWord
  | whileWord
  | trueWord
  | falseWord
  | andWord
  | orWord
  | notWord
  | returnWord
  | retWord
  deriving Repr, DecidableEq, Inhabited

namespace Keyword

/-- Every reserved word. -/
def all : List Keyword :=
  [.declare, .write, .read, .lambda, .ifWord, .elseWord, .whileWord, .trueWord, .falseWord,
    .andWord, .orWord, .notWord, .returnWord, .retWord]

/-- The word as it is written in a source. -/
def spelling : Keyword → String
  | .declare => "new"
  | .write => "write"
  | .read => "read"
  | .lambda => "lambda"
  | .ifWord => "if"
  | .elseWord => "else"
  | .whileWord => "while"
  | .trueWord => "true"
  | .falseWord => "false"
  | .andWord => "and"
  | .orWord => "or"
  | .notWord => "not"
  | .returnWord => "return"
  | .retWord => "ret"

/-- The word as token listings show it. -/
def label : Keyword → String
  | .declare => "New"
  | .write => "Write"
  | .read => "Read"
  | .lambda => "Lambda"
  | .ifWord => "If"
  | .elseWord => "Else"
  | .whileWord => "While"
  | .trueWord => "True"
  | .falseWord => "False"
  | .andWord => "And"
  | .orWord => "Or"
  | .notWord => "Not"
  | .returnWord => "Return"
  | .retWord => "Ret"

/-- The reserved word with a given spelling. -/
def ofSpelling? (text : String) : Option Keyword :=
  all.find? fun keyword => keyword.spelling == text

end Keyword

/-- Operators and punctuation. -/
inductive Symbol where
  | colonEqual
  | equalEqual
  | bangEqual
  | lessEqual
  | greaterEqual
  | ampAmp
  | pipePipe
  | plus
  | minus
  | star
  | slash
  | less
  | greater
  | bang
  | at
  | leftParen
  | rightParen
  | leftBrace
  | rightBrace
  | semicolon
  deriving Repr, DecidableEq, Inhabited

namespace Symbol

/-- Every symbol, longer spellings first. -/
def all : List Symbol :=
  [.colonEqual, .equalEqual, .bangEqual, .lessEqual, .greaterEqual, .ampAmp, .pipePipe, .plus,
    .minus, .star, .slash, .less, .greater, .bang, .at, .leftParen, .rightParen, .leftBrace,
    .rightBrace, .semicolon]

/-- The symbol as it is written in a source. -/
def spelling : Symbol → String
  | .colonEqual => ":="
  | .equalEqual => "=="
  | .bangEqual => "!="
  | .lessEqual => "<="
  | .greaterEqual => ">="
  | .ampAmp => "&&"
  | .pipePipe => "||"
  | .plus => "+"
  | .minus => "-"
  | .star => "*"
  | .slash => "/"
  | .less => "<"
  | .greater => ">"
  | .bang => "!"
  | .at => "@"
  | .leftParen => "("
  | .rightParen => ")"
  | .leftBrace => "\x7b"
  | .rightBrace => "\x7d"
  | .semicolon => ";"

/-- The symbol as token listings show it. -/
def label : Symbol → String
  | .colonEqual => "ColonEq"
  | .equalEqual => "EqEq"
  | .bangEqual => "NotEq"
  | .lessEqual => "LtEq"
  | .greaterEqual => "GtEq"
  | .ampAmp => "AmpAmp"
  | .pipePipe => "PipePipe"
  | .plus => "Plus"
  | .minus => "Minus"
  | .star => "Star"
  | .slash => "Slash"
  | .less => "Lt"
  | .greater => "Gt"
  | .bang => "Bang"
  | .at => "At"
  | .leftParen => "LParen"
  | .rightParen => "RParen"
  | .leftBrace => "LBrace"
  | .rightBrace => "RBrace"
  | .semicolon => "Semicolon"

/-- The longest symbol with which some characters begin. -/
def leading? (characters : List Char) : Option Symbol :=
  all.find? fun symbol => symbol.spelling.toList.isPrefixOf characters

/-- The list of symbols is complete. -/
theorem mem_all (symbol : Symbol) : symbol ∈ all := by
  cases symbol <;> decide

end Symbol

/-- What a token is, apart from where it stands. -/
inductive TokenKind where
  | int (value : Int32)
  | ident (name : Name)
  | keyword (keyword : Keyword)
  | symbol (symbol : Symbol)
  | invalid
  | endOfInput
  deriving Repr, DecidableEq, Inhabited

namespace TokenKind

/-- Whether two kinds agree apart from the value or name they carry. -/
def sameAs : TokenKind → TokenKind → Bool
  | .int _, .int _ => true
  | .ident _, .ident _ => true
  | first, second => first == second

/-- The kind as token listings show it. -/
def label : TokenKind → String
  | .int value => "Int(" ++ Text.Decimal.ofInt value.toInt ++ ")"
  | .ident name => "Ident(" ++ name.describe ++ ")"
  | .keyword word => word.label
  | .symbol mark => mark.label
  | .invalid => "Error"
  | .endOfInput => "Eof"

/-- The kind as messages to the user name it. -/
def describe : TokenKind → String
  | .int value => "integer `" ++ Text.Decimal.ofInt value.toInt ++ "`"
  | .ident _ => "identifier"
  | .keyword word => "`" ++ word.spelling ++ "`"
  | .symbol mark => "`" ++ mark.spelling ++ "`"
  | .invalid => "invalid token"
  | .endOfInput => "end of input"

end TokenKind

/-- A token and the part of the source it was read from. -/
structure Token where
  kind : TokenKind
  span : Span
  deriving Repr, DecidableEq, Inhabited

namespace Token

/-- The token as listings show it. -/
def describe (token : Token) : String :=
  token.kind.label ++ " @ " ++ token.span.describe

/-- One line for every token. -/
def listing (tokens : List Token) : String :=
  String.join (tokens.map fun token => token.describe ++ "\n")

end Token

end ScopeLang
