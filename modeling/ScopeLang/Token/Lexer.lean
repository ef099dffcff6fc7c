import ScopeLang.Token

namespace ScopeLang

/-!
# From source text to tokens

A source is first cut into pieces: runs of blanks, comments, and the texts of
tokens, always the longest possible. No character is lost on the way, so the
spans of tokens are the running byte lengths of the pieces. Then every piece
that is not skipped becomes one token, and identifiers enter the name table in
the order in which they stand in the source.
-/

/-- The characters that separate tokens. -/
def isSpacing (c : Char) : Bool :=
  c == ' ' || c == '\t' || c == '\r' || c == '\n' || c == '\x0c'

/-- The characters that begin a word: ASCII letters and the underscore. -/
def isWordStart (c : Char) : Bool :=
  ('a' ≤ c && c ≤ 'z') || ('A' ≤ c && c ≤ 'Z') || c == '_'

/-- The characters that continue a word: also the ASCII digits. -/
def isWordPart (c : Char) : Bool :=
  isWordStart c || Text.isDigit c

/-- The classes of pieces that make up a source. -/
inductive PieceKind where
  | spacing
  | comment
  | word
  | number
  | symbol (symbol : Symbol)
  | stray
  deriving Repr, DecidableEq, Inhabited

/-- A stretch of source text that is skipped or read as one token. -/
structure Piece where
  kind : PieceKind
  text : List Char
  deriving Repr, DecidableEq, Inhabited

namespace Piece

/-- Whether characters begin a comment, which reaches to the end of the line. -/
def opensComment : List Char → Bool
  | '#' :: _ => true
  | '/' :: '/' :: _ => true
  | _ => false

/-- The piece of a kind that goes on while characters satisfy `keep`. -/
def run
    (kind : PieceKind)
    (keep : Char → Bool)
    (first : Char)
    (rest : List Char) :
    Piece × List Char :=
  (⟨kind, first :: rest.takeWhile keep⟩, rest.dropWhile keep)

/-- The first piece of a nonempty source, and the source after it. -/
def next (first : Char) (rest : List Char) : Piece × List Char :=
  if isSpacing first then
    run .spacing isSpacing first rest
  else if opensComment (first :: rest) then
    run .comment (· != '\n') first rest
  else if isWordStart first then
    run .word isWordPart first rest
  else if Text.isDigit first then
    run .number Text.isDigit first rest
  else
    match Symbol.leading? (first :: rest) with
    | some symbol =>
        let extent := symbol.spelling.length - 1
        (⟨.symbol symbol, first :: rest.take extent⟩, rest.drop extent)
    | none => (⟨.stray, [first]⟩, rest)

/-- A piece and the source after it are the whole source. -/
theorem text_append_next (first : Char) (rest : List Char) :
    (next first rest).1.text ++ (next first rest).2 = first :: rest := by
  unfold next run
  split
  · simp
  split
  · simp
  split
  · simp
  split
  · simp
  split <;> simp

/-- Every piece holds at least its first character. -/
theorem next_text_ne_nil (first : Char) (rest : List Char) :
    (next first rest).1.text ≠ [] := by
  unfold next run
  split
  · simp
  split
  · simp
  split
  · simp
  split
  · simp
  split <;> simp

/-- What is left after a piece is shorter than the source. -/
theorem length_next_lt (first : Char) (rest : List Char) :
    (next first rest).2.length < (first :: rest).length := by
  have whole := congrArg List.length (text_append_next first rest)
  have some := List.length_pos_iff.mpr (next_text_ne_nil first rest)
  rw [List.length_append] at whole
  omega

/-- All pieces of a source, in order. -/
def all : List Char → List Piece
  | [] => []
  | first :: rest => (next first rest).1 :: all (next first rest).2
termination_by source => source.length
decreasing_by exact length_next_lt first rest

/-- The texts of the pieces, put together, are the source. -/
theorem flatMap_text_all (source : List Char) :
    (all source).flatMap Piece.text = source := by
  induction source using all.induct with
  | case1 => simp [all]
  | case2 first rest inductionHypothesis =>
      rw [all, List.flatMap_cons, inductionHypothesis, text_append_next]

/-- The kind of an integer literal, invalid when the literal exceeds 31 bits. -/
def numberKind (digits : List Char) : TokenKind :=
  match (Text.Decimal.natural? digits).bind fun n => Text.Decimal.toInt32? (Int.ofNat n) with
  | some value => .int value
  | none => .invalid

/-- The kind of a word: a keyword, or an identifier with its name. -/
def wordKind (text : String) (names : NameTable) : TokenKind × NameTable :=
  match Keyword.ofSpelling? text with
  | some keyword => (.keyword keyword, names)
  | none => ((TokenKind.ident (names.intern text).1), (names.intern text).2)

/-- The kind of token that a piece becomes; spacing and comments become none. -/
def tokenKind (piece : Piece) (names : NameTable) : Option TokenKind × NameTable :=
  match piece.kind with
  | .spacing => (none, names)
  | .comment => (none, names)
  | .word =>
      let (kind, names) := wordKind (String.ofList piece.text) names
      (some kind, names)
  | .number => (some (numberKind piece.text), names)
  | .symbol symbol => (some (.symbol symbol), names)
  | .stray => (some .invalid, names)

end Piece

namespace Token

/-- The tokens of pieces that begin at a byte offset, closed by the end mark. -/
def ofPieces (offset : Nat) (names : NameTable) : List Piece → List Token × NameTable
  | [] => ([⟨.endOfInput, Span.point offset⟩], names)
  | piece :: rest =>
      let stop := offset + Text.byteLength piece.text
      let (kind, names) := piece.tokenKind names
      let (tokens, names) := ofPieces stop names rest
      match kind with
      | some kind => (⟨kind, Span.ofRange offset stop⟩ :: tokens, names)
      | none => (tokens, names)

/-- The tokens of a source, and the name table with its identifiers. -/
def lex (source : String) (names : NameTable) : List Token × NameTable :=
  ofPieces 0 names (Piece.all source.toList)

end Token

end ScopeLang
