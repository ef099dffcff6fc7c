import Mathlib.Data.List.Forall2
import ScopeLang.Proofs.Name.Sharing
import ScopeLang.Proofs.Token.Kinds

namespace ScopeLang

/-!
# One source, two name tables

Which texts a source adds to a name table does not depend on the table. Tokens
of one source that are read with two tables differ in the names of identifiers
only, and names that stand at the same place share their text.
-/

/-- Token kinds that are the same up to the names of identifiers. -/
inductive TokenKind.Renamed (names : Renaming) : TokenKind → TokenKind → Prop where
  | int {value} :
      TokenKind.Renamed names (.int value) (.int value)
  | ident {name other} :
      names name other →
      TokenKind.Renamed names (.ident name) (.ident other)
  | keyword {word} :
      TokenKind.Renamed names (.keyword word) (.keyword word)
  | symbol {mark} :
      TokenKind.Renamed names (.symbol mark) (.symbol mark)
  | invalid :
      TokenKind.Renamed names .invalid .invalid
  | endOfInput :
      TokenKind.Renamed names .endOfInput .endOfInput

/-- Lists of token kinds that are the same up to the names of identifiers. -/
abbrev TokenKind.AllRenamed (names : Renaming) : List TokenKind → List TokenKind → Prop :=
  List.Forall₂ (TokenKind.Renamed names)

theorem TokenKind.Renamed.mono
    {names wider : Renaming}
    {kind other : TokenKind}
    (included : ∀ name other, names name other → wider name other)
    (renamed : TokenKind.Renamed names kind other) :
    TokenKind.Renamed wider kind other := by
  cases renamed with
  | int =>
      exact .int
  | ident pair =>
      exact .ident (included _ _ pair)
  | keyword =>
      exact .keyword
  | symbol =>
      exact .symbol
  | invalid =>
      exact .invalid
  | endOfInput =>
      exact .endOfInput

/-- A kind that carries no name is its own partner. -/
theorem TokenKind.Renamed.refl
    {names : Renaming}
    {kind : TokenKind}
    (noName : ∀ name, kind ≠ .ident name) :
    TokenKind.Renamed names kind kind := by
  cases kind with
  | int =>
      exact .int
  | ident name =>
      exact (noName name rfl).elim
  | keyword =>
      exact .keyword
  | symbol =>
      exact .symbol
  | invalid =>
      exact .invalid
  | endOfInput =>
      exact .endOfInput

namespace Piece

/-- The text that a piece adds to a name table. -/
def identifier? (piece : Piece) : Option String :=
  let text := String.ofList piece.text
  if piece.kind = .word ∧ Keyword.ofSpelling? text = none then some text else none

/-- A piece becomes a name for the text it adds, or whatever it becomes with every table. -/
theorem tokenKind_cases (piece : Piece) :
    (∃ text,
      piece.identifier? = some text ∧
        ∀ names : NameTable,
          piece.tokenKind names =
            (some (.ident (names.intern text).1), (names.intern text).2)) ∨
      ∃ kind : Option TokenKind,
        piece.identifier? = none ∧
          (∀ name, kind ≠ some (.ident name)) ∧
            ∀ names, piece.tokenKind names = (kind, names) := by
  cases shape : piece.kind with
  | word =>
      cases found : Keyword.ofSpelling? (String.ofList piece.text) with
      | none =>
          refine .inl ⟨String.ofList piece.text, by simp [identifier?, shape, found], ?_⟩
          simp [tokenKind, shape, wordKind, found]
      | some word =>
          refine .inr ⟨some (.keyword word), by simp [identifier?, found], by simp, ?_⟩
          simp [tokenKind, shape, wordKind, found]
  | spacing | comment =>
      refine .inr ⟨none, by simp [identifier?, shape], by simp, ?_⟩
      simp [tokenKind, shape]
  | number =>
      refine .inr ⟨some (numberKind piece.text), by simp [identifier?, shape], ?_, ?_⟩
      · intro name
        unfold numberKind
        split <;> simp
      · simp [tokenKind, shape]
  | symbol mark =>
      refine .inr ⟨some (.symbol mark), by simp [identifier?, shape], by simp, ?_⟩
      simp [tokenKind, shape]
  | stray =>
      refine .inr ⟨some .invalid, by simp [identifier?, shape], by simp, ?_⟩
      simp [tokenKind, shape]

/-- A piece enters its word in the table, if it is an identifier. -/
theorem tokenKind_snd (piece : Piece) (names : NameTable) :
    (piece.tokenKind names).2 = names.internAll piece.identifier?.toList := by
  rcases piece.tokenKind_cases with ⟨text, found, read⟩ | ⟨kind, missing, -, read⟩
  · rw [read, found]
    rfl
  · rw [read, missing]
    rfl

/-- What a piece becomes with two tables is the same up to the name it is given. -/
theorem tokenKind_renamed
    {piece : Piece}
    {names other : NameTable}
    (room : (piece.tokenKind names).2.size ≤ UInt32.size)
    (otherRoom : (piece.tokenKind other).2.size ≤ UInt32.size) :
    TokenKind.AllRenamed ((piece.tokenKind names).2.Shares (piece.tokenKind other).2)
      (piece.tokenKind names).1.toList (piece.tokenKind other).1.toList := by
  rcases piece.tokenKind_cases with ⟨text, -, read⟩ | ⟨kind, -, noName, read⟩
  · rw [read] at room otherRoom ⊢
    rw [read]
    exact .cons (.ident (.intern room otherRoom)) .nil
  · rw [read, read]
    cases kind with
    | none =>
        exact .nil
    | some kind =>
        exact .cons (.refl fun name same => noName name (congrArg some same)) .nil

end Piece

namespace Token

/-- The texts that a source adds to a name table, in order. -/
def identifiers (source : String) : List String :=
  (Piece.all source.toList).filterMap Piece.identifier?

/-- Pieces in a row enter their identifiers in the order they stand. -/
theorem inside_snd (offset : Nat) (names : NameTable) (pieces : List Piece) :
    (inside offset names pieces).2 = names.internAll (pieces.filterMap Piece.identifier?) := by
  induction pieces generalizing offset names with
  | nil =>
      rfl
  | cons piece rest inductionHypothesis =>
      rw [inside, inductionHypothesis, Piece.tokenKind_snd, NameTable.internAll,
        NameTable.internAll, NameTable.internAll, ← List.foldl_append]
      cases found : piece.identifier? <;> simp [found]

/-- The texts of a source enter the name table in order. -/
theorem tableAfter_eq (source : String) (names : NameTable) :
    tableAfter source names = names.internAll (identifiers source) := by
  rw [tableAfter, lex_eq]
  exact inside_snd 0 names _

/--
Two tables read tokens that correspond. The tables go on growing behind a piece, and its
name keeps its text there.
-/
theorem inside_renamed
    {names fewer : NameTable}
    {pieces : List Piece}
    (offset : Nat)
    (within : fewer.Within names)
    (room : (inside offset names pieces).2.size ≤ UInt32.size) :
    TokenKind.AllRenamed
      ((inside offset names pieces).2.Shares (inside offset fewer pieces).2)
      ((inside offset names pieces).1.map Token.kind)
      ((inside offset fewer pieces).1.map Token.kind) := by
  induction pieces generalizing offset names fewer with
  | nil =>
      exact .nil
  | cons piece rest inductionHypothesis =>
      let stop := offset + Text.byteLength piece.text
      have later : (piece.tokenKind fewer).2.Within (piece.tokenKind names).2 := by
        rw [Piece.tokenKind_snd, Piece.tokenKind_snd]
        exact within.internAll _
      have longer (table : NameTable) :
          (piece.tokenKind table).2.texts <+:
            (inside stop (piece.tokenKind table).2 rest).2.texts := by
        rw [inside_snd]
        exact NameTable.prefix_internAll _ _
      have roomHere : (piece.tokenKind names).2.size ≤ UInt32.size :=
        Nat.le_trans (longer names).length_le room
      have here :=
        Piece.tokenKind_renamed roomHere (Nat.le_trans later.size_le roomHere)
      simp only [inside, List.map_append, Piece.map_kind_token?]
      exact List.rel_append
        (here.imp fun _ _ => .mono (NameTable.Shares.mono (longer names) (longer fewer)))
        (inductionHypothesis stop later room)

/-- Two tables read the same tokens, up to the names of identifiers. -/
theorem kinds_renamed
    {source : String}
    {names fewer : NameTable}
    (within : fewer.Within names)
    (room : (tableAfter source names).size ≤ UInt32.size) :
    TokenKind.AllRenamed ((tableAfter source names).Shares (tableAfter source fewer))
      (kinds source names) (kinds source fewer) := by
  unfold tableAfter at room ⊢
  rw [lex_eq] at room ⊢
  rw [lex_eq]
  exact inside_renamed 0 within room

end Token

end ScopeLang
