import ScopeLang.Token.Lexer

namespace ScopeLang

/-!
# The tokens of a part of a source

The tokens of a stretch of characters, apart from where the source ends: what
is said here about a stretch can be put together for a source that is made of
several. Where a stretch begins matters for the spans of its tokens only.
-/

namespace Text

theorem byteLength_append (before after : List Char) :
    byteLength (before ++ after) = byteLength before + byteLength after := by
  induction before with
  | nil =>
      simp [byteLength]
  | cons c before inductionHypothesis =>
      simp only [byteLength, List.cons_append, List.foldr_cons] at inductionHypothesis ⊢
      omega

theorem byteLength_cons (c : Char) (rest : List Char) :
    byteLength (c :: rest) = c.utf8Size + byteLength rest :=
  rfl

end Text

namespace Piece

/-- The token that a piece at a byte offset becomes, if it is not skipped. -/
def token? (piece : Piece) (offset : Nat) (names : NameTable) : Option Token :=
  (piece.tokenKind names).1.map
    (⟨·, Span.ofRange offset (offset + Text.byteLength piece.text)⟩)

/-- The token of a piece has the kind that its text is read as. -/
theorem map_kind_token? (piece : Piece) (offset : Nat) (names : NameTable) :
    (piece.token? offset names).toList.map Token.kind = (piece.tokenKind names).1.toList := by
  unfold token?
  cases (piece.tokenKind names).1 <;> rfl

end Piece

namespace Token

/-- The tokens of pieces that begin at a byte offset, without an end mark. -/
def inside (offset : Nat) (names : NameTable) : List Piece → List Token × NameTable
  | [] => ([], names)
  | piece :: rest =>
      let later := inside (offset + Text.byteLength piece.text) (piece.tokenKind names).2 rest
      ((piece.token? offset names).toList ++ later.1, later.2)

/-- The tokens of characters that begin at a byte offset, without an end mark. -/
def ofCharacters (offset : Nat) (names : NameTable) (characters : List Char) :
    List Token × NameTable :=
  inside offset names (Piece.all characters)

/-- The tokens of all pieces, and one end mark behind them where the text ends. -/
theorem ofPieces_eq (offset : Nat) (names : NameTable) (pieces : List Piece) :
    ofPieces offset names pieces =
      ((inside offset names pieces).1 ++
          [⟨.endOfInput, Span.point (offset + Text.byteLength (pieces.flatMap Piece.text))⟩],
        (inside offset names pieces).2) := by
  induction pieces generalizing offset names with
  | nil =>
      simp [ofPieces, inside, Text.byteLength]
  | cons piece rest inductionHypothesis =>
      simp only [ofPieces, inside, Piece.token?, inductionHypothesis, List.flatMap_cons,
        Text.byteLength_append, Nat.add_assoc]
      cases (piece.tokenKind names).1 <;> simp

/-- The tokens of a source are those of its characters and the end mark. -/
theorem lex_eq (source : String) (names : NameTable) :
    lex source names =
      ((ofCharacters 0 names source.toList).1 ++
          [⟨.endOfInput, Span.point (Text.byteLength source.toList)⟩],
        (ofCharacters 0 names source.toList).2) := by
  rw [lex, ofPieces_eq, Piece.flatMap_text_all, Nat.zero_add, ofCharacters]

theorem ofCharacters_nil (offset : Nat) (names : NameTable) :
    ofCharacters offset names [] = ([], names) := by
  simp [ofCharacters, Piece.all, inside]

/-- The first piece gives its token, and the rest is read behind it. -/
theorem ofCharacters_cons
    (offset : Nat)
    (names : NameTable)
    (first : Char)
    (rest : List Char) :
    ofCharacters offset names (first :: rest) =
      let piece := (Piece.next first rest).1
      let later :=
        ofCharacters (offset + Text.byteLength piece.text) (piece.tokenKind names).2
          (Piece.next first rest).2
      ((piece.token? offset names).toList ++ later.1, later.2) := by
  rw [ofCharacters, Piece.all, inside]
  rfl

/-- No piece is read as the end mark. -/
theorem kind_ne_endOfInput_of_token?
    {piece : Piece}
    {offset : Nat}
    {names : NameTable}
    {token : Token}
    (found : piece.token? offset names = some token) :
    token.kind ≠ .endOfInput := by
  obtain ⟨kind, spelled, rfl⟩ := Option.map_eq_some_iff.mp found
  cases shape : piece.kind with
  | spacing | comment =>
      simp [Piece.tokenKind, shape] at spelled
  | word =>
      obtain rfl : (Piece.wordKind (String.ofList piece.text) names).1 = kind := by
        simpa [Piece.tokenKind, shape] using spelled
      unfold Piece.wordKind
      split <;> simp
  | number =>
      obtain rfl : Piece.numberKind piece.text = kind := by
        simpa [Piece.tokenKind, shape] using spelled
      unfold Piece.numberKind
      split <;> simp
  | symbol mark =>
      obtain rfl : .symbol mark = kind := by
        simpa [Piece.tokenKind, shape] using spelled
      simp
  | stray =>
      obtain rfl : .invalid = kind := by
        simpa [Piece.tokenKind, shape] using spelled
      simp

/-- The end mark stands for no piece. -/
theorem kind_ne_endOfInput_of_mem_inside
    {offset : Nat}
    {names : NameTable}
    {pieces : List Piece}
    {token : Token}
    (member : token ∈ (inside offset names pieces).1) :
    token.kind ≠ .endOfInput := by
  induction pieces generalizing offset names with
  | nil =>
      simp [inside] at member
  | cons piece rest inductionHypothesis =>
      rw [inside, List.mem_append, Option.mem_toList] at member
      rcases member with here | later
      · exact kind_ne_endOfInput_of_token? here
      · exact inductionHypothesis later

/-- Where pieces begin changes the spans of their tokens only. -/
theorem inside_offset (offset other : Nat) (names : NameTable) (pieces : List Piece) :
    (inside offset names pieces).1.map Token.kind =
        (inside other names pieces).1.map Token.kind ∧
      (inside offset names pieces).2 = (inside other names pieces).2 := by
  induction pieces generalizing offset other names with
  | nil =>
      exact ⟨rfl, rfl⟩
  | cons piece rest inductionHypothesis =>
      obtain ⟨sameKinds, sameNames⟩ :=
        inductionHypothesis (offset + Text.byteLength piece.text)
          (other + Text.byteLength piece.text) (piece.tokenKind names).2
      refine ⟨?_, sameNames⟩
      simp only [inside, List.map_append, Piece.map_kind_token?, sameKinds]

/-- The kinds of the tokens of a source, without the end mark. -/
def kinds (source : String) (names : NameTable) : List TokenKind :=
  (ofCharacters 0 names source.toList).1.map Token.kind

/-- The name table with the identifiers of a source. -/
def tableAfter (source : String) (names : NameTable) : NameTable :=
  (lex source names).2

/-- A text is read as the kinds of its pieces and one end mark. -/
theorem kinds_lex (source : String) (names : NameTable) :
    (lex source names).1.map Token.kind = kinds source names ++ [.endOfInput] := by
  simp [lex_eq, kinds]

end Token

end ScopeLang
