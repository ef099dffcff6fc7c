import ScopeLang.Proofs.Token.LineBreak
import ScopeLang.Proofs.Token.Tiling

namespace ScopeLang

/-!
# Tokens further on

A text that begins further on in a source is read as the same tokens, with spans moved by
as many bytes. So a source with a line break in it has the tokens of the text before the
break, followed by those of the text behind it, moved.
-/

namespace Span

/-- The span so many bytes further on; offsets beyond 32 bits become the largest one. -/
def shift (bytes : Nat) (span : Span) : Span :=
  ofRange (span.start.toNat + bytes) (span.stop.toNat + bytes)

/-- It does not matter whether an offset is clamped before it is moved. -/
theorem clamp_add (offset bytes : Nat) :
    clamp ((clamp offset).toNat + bytes) = clamp (offset + bytes) := by
  by_cases bound : offset < UInt32.size
  · rw [toNat_clamp bound]
  · have atLimit : min offset (UInt32.size - 1) = UInt32.size - 1 :=
      Nat.min_eq_right (by omega)
    have beyond : min (UInt32.size - 1 + bytes) (UInt32.size - 1) = UInt32.size - 1 :=
      Nat.min_eq_right (Nat.le_add_right _ _)
    have farBeyond : min (offset + bytes) (UInt32.size - 1) = UInt32.size - 1 :=
      Nat.min_eq_right (by omega)
    have largest : (clamp offset).toNat = UInt32.size - 1 := by
      rw [clamp, atLimit]
      rfl
    rw [largest, clamp, beyond, clamp, farBeyond]

theorem shift_ofRange (start stop bytes : Nat) :
    (ofRange start stop).shift bytes = ofRange (start + bytes) (stop + bytes) := by
  simp only [shift, ofRange, clamp_add]

/-- A span that stays below the limit is moved exactly. -/
theorem toNat_shift
    {span : Span}
    {bytes : Nat}
    (startBound : span.start.toNat + bytes < UInt32.size)
    (stopBound : span.stop.toNat + bytes < UInt32.size) :
    (span.shift bytes).start.toNat = span.start.toNat + bytes ∧
      (span.shift bytes).stop.toNat = span.stop.toNat + bytes :=
  ⟨toNat_clamp startBound, toNat_clamp stopBound⟩

end Span

namespace Token

/-- The token so many bytes further on. -/
def shift (bytes : Nat) (token : Token) : Token :=
  { token with span := token.span.shift bytes }

/-- Tokens of pieces that begin so many bytes further on, with the end mark. -/
theorem ofPieces_add (offset bytes : Nat) (names : NameTable) (pieces : List Piece) :
    ofPieces (offset + bytes) names pieces =
      ((ofPieces offset names pieces).1.map (shift bytes), (ofPieces offset names pieces).2) := by
  induction pieces generalizing offset names with
  | nil =>
      simp only [ofPieces, Span.point, List.map_cons, List.map_nil, shift, Span.shift_ofRange]
  | cons piece rest inductionHypothesis =>
      simp only [ofPieces, Nat.add_right_comm offset bytes, inductionHypothesis]
      cases (piece.tokenKind names).1 with
      | none =>
          rfl
      | some kind =>
          simp only [List.map_cons, shift, Span.shift_ofRange]

/-- The tokens before a line break, then those behind it with the end mark. -/
theorem ofPieces_append_lineBreak
    {names middle : NameTable}
    {before : List Char}
    {earlier : List Token}
    (read : ofCharacters 0 names before = (earlier, middle))
    (after : List Char) :
    ofPieces 0 names (Piece.all (before ++ '\n' :: after)) =
      let later := ofPieces (Text.byteLength before + 1) middle (Piece.all after)
      (earlier ++ later.1, later.2) := by
  have joined := ofCharacters_append_lineBreak 0 names before after
  have lineBreak : '\n'.utf8Size = 1 :=
    rfl
  rw [read] at joined
  unfold ofCharacters at joined
  simp only [ofPieces_eq, joined, Piece.flatMap_text_all, Text.byteLength_append,
    Text.byteLength_cons, lineBreak, Nat.zero_add, Nat.add_assoc, List.append_assoc]

/-- No token of a source shorter than 2^32 bytes ends behind the end of the source. -/
theorem span_le_of_mem_lex
    {source : String}
    {names : NameTable}
    {token : Token}
    (short : source.utf8ByteSize < UInt32.size)
    (member : token ∈ (lex source names).1) :
    token.span.start.toNat ≤ source.utf8ByteSize ∧
      token.span.stop.toNat ≤ source.utf8ByteSize := by
  rw [← Text.byteLength_toList] at short ⊢
  obtain ⟨inner, shape, tiles⟩ :=
    (scanned_ofCharacters 0 names source.toList).tiles short
      (List.nil_append source.toList).symm rfl
  rw [Nat.zero_add] at shape
  rw [lex_eq, shape, List.mem_append, List.mem_singleton] at member
  rcases member with inSource | rfl
  · have nonempty := tiles.nonempty _ (List.mem_map_of_mem inSource)
    have fits := (tiles.inside _ (List.mem_map_of_mem inSource)).2
    exact ⟨by omega, fits⟩
  · exact ⟨Nat.le_of_eq (Span.toNat_clamp short), Nat.le_of_eq (Span.toNat_clamp short)⟩

/--
A source with a line break in it has the tokens of the text before the break, without
their end mark, then those of the text behind it, read with the names of the first and
moved behind the break. Below 2^32 bytes they are moved exactly.
-/
theorem lex_across_lineBreak (before after : String) (names : NameTable) :
    let bytes := before.utf8ByteSize + 1
    let later := lex after (lex before names).2
    ∃ earlier,
      (lex before names).1 = earlier ++ [⟨.endOfInput, Span.point before.utf8ByteSize⟩] ∧
        lex (before ++ "\n" ++ after) names =
            (earlier ++ later.1.map (shift bytes), later.2) ∧
          ((before ++ "\n" ++ after).utf8ByteSize < UInt32.size →
            ∀ token ∈ later.1,
              (token.shift bytes).span.start.toNat = token.span.start.toNat + bytes ∧
                (token.shift bytes).span.stop.toNat = token.span.stop.toNat + bytes) := by
  intro bytes later
  have size : (before ++ "\n" ++ after).utf8ByteSize = bytes + after.utf8ByteSize := by
    rw [String.utf8ByteSize_append, String.utf8ByteSize_append]
    rfl
  have characters :
      (before ++ "\n" ++ after).toList = before.toList ++ '\n' :: after.toList := by
    simp
  have read :
      ofCharacters 0 names before.toList =
        ((ofCharacters 0 names before.toList).1, (lex before names).2) := by
    rw [lex_eq]
  refine ⟨(ofCharacters 0 names before.toList).1, ?_, ?_, ?_⟩
  · rw [lex_eq, Text.byteLength_toList]
  · have moved := ofPieces_add 0 bytes (lex before names).2 (Piece.all after.toList)
    rw [Nat.zero_add] at moved
    rw [lex, characters, ofPieces_append_lineBreak read, Text.byteLength_toList, moved]
    rfl
  · intro short token member
    rw [size] at short
    obtain ⟨start, stop⟩ := span_le_of_mem_lex (by omega) member
    exact Span.toNat_shift (by omega) (by omega)

/-- A comment that ends in a slash, and a slash behind the line break. -/
theorem lex_across_lineBreak_slashes :
    let later := (lex "/ x y" (lex "x # /" .initial).2).1
    ("x # /" ++ "\n" ++ "/ x y").utf8ByteSize < UInt32.size ∧
      (∀ token ∈ later, (token.shift 6).span.start.toNat = token.span.start.toNat + 6) ∧
        lex ("x # /" ++ "\n" ++ "/ x y") .initial =
          ([⟨.ident ⟨1⟩, ⟨0, 1⟩⟩, ⟨.symbol .slash, ⟨6, 7⟩⟩, ⟨.ident ⟨1⟩, ⟨8, 9⟩⟩,
              ⟨.ident ⟨2⟩, ⟨10, 11⟩⟩, ⟨.endOfInput, ⟨11, 11⟩⟩],
            NameTable.initial.internAll ["x", "y"]) := by
  intro later
  have short : ("x # /" ++ "\n" ++ "/ x y").utf8ByteSize < UInt32.size := by
    decide
  have readBefore :
      lex "x # /" .initial =
        ([⟨.ident ⟨1⟩, ⟨0, 1⟩⟩, ⟨.endOfInput, ⟨5, 5⟩⟩], NameTable.initial.internAll ["x"]) := by
    decide +kernel
  have readAfter :
      lex "/ x y" (NameTable.initial.internAll ["x"]) =
        ([⟨.symbol .slash, ⟨0, 1⟩⟩, ⟨.ident ⟨1⟩, ⟨2, 3⟩⟩, ⟨.ident ⟨2⟩, ⟨4, 5⟩⟩,
            ⟨.endOfInput, ⟨5, 5⟩⟩],
          NameTable.initial.internAll ["x", "y"]) := by
    decide +kernel
  obtain ⟨earlier, shape, joined, moved⟩ := lex_across_lineBreak "x # /" "/ x y" .initial
  refine ⟨short, fun token member => (moved short token member).1, ?_⟩
  rw [readBefore] at shape joined
  obtain rfl : [⟨.ident ⟨1⟩, ⟨0, 1⟩⟩] = earlier :=
    List.append_inj_left' shape rfl
  rw [joined, readAfter]
  decide

end Token

end ScopeLang
