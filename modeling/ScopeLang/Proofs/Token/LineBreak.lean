import ScopeLang.Proofs.Token.Kinds

namespace ScopeLang

/-!
# Tokens on both sides of a line break

No token reaches across a line break, and a comment ends in front of it. So the
tokens of a source with a line break in it are those of the text before the
break, followed by those of the text behind it.
-/

/-! ## Spaces in front -/

namespace Token

/-- Leading spaces are skipped. -/
theorem ofCharacters_dropWhile (offset : Nat) (names : NameTable) (characters : List Char) :
    ofCharacters offset names characters =
      ofCharacters (offset + Text.byteLength (characters.takeWhile isSpacing)) names
        (characters.dropWhile isSpacing) := by
  cases characters with
  | nil =>
      rfl
  | cons first rest =>
      cases spacing : isSpacing first with
      | false =>
          simp [List.takeWhile, List.dropWhile, spacing, Text.byteLength]
      | true =>
          rw [ofCharacters_cons]
          simp [Piece.next, Piece.run, spacing, Piece.token?, Piece.tokenKind]

theorem ofCharacters_cons_of_isSpacing
    (offset : Nat)
    (names : NameTable)
    {first : Char}
    (spacing : isSpacing first = true)
    (rest : List Char) :
    ofCharacters offset names (first :: rest) =
      ofCharacters (offset + first.utf8Size) names rest := by
  rw [ofCharacters_dropWhile, ofCharacters_dropWhile (offset + first.utf8Size)]
  simp [spacing, Text.byteLength_cons, Nat.add_assoc]

/-- Spaces in front of other characters move the tokens and do nothing else. -/
theorem ofCharacters_append_of_isSpacing
    (offset : Nat)
    (names : NameTable)
    {spaces : List Char}
    (spacing : ∀ c ∈ spaces, isSpacing c = true)
    (rest : List Char) :
    ofCharacters offset names (spaces ++ rest) =
      ofCharacters (offset + Text.byteLength spaces) names rest := by
  induction spaces generalizing offset with
  | nil =>
      rfl
  | cons first spaces inductionHypothesis =>
      obtain ⟨firstSpacing, restSpacing⟩ := List.forall_mem_cons.mp spacing
      rw [List.cons_append, ofCharacters_cons_of_isSpacing offset names firstSpacing,
        inductionHypothesis _ restSpacing, Text.byteLength_cons, Nat.add_assoc]

end Token

/-! ## Pieces end at a line break -/

/-- A line break behind characters does not change which ones are taken. -/
theorem takeWhile_append_lineBreak
    {keep : Char → Bool}
    (stops : keep '\n' = false)
    (before after : List Char) :
    (before ++ '\n' :: after).takeWhile keep = before.takeWhile keep := by
  induction before with
  | nil =>
      simp [stops]
  | cons c before inductionHypothesis =>
      simp only [List.cons_append, List.takeWhile_cons, inductionHypothesis]

theorem dropWhile_append_lineBreak
    {keep : Char → Bool}
    (stops : keep '\n' = false)
    (before after : List Char) :
    (before ++ '\n' :: after).dropWhile keep = before.dropWhile keep ++ '\n' :: after := by
  induction before with
  | nil =>
      simp [stops]
  | cons c before inductionHypothesis =>
      simp only [List.cons_append, List.dropWhile_cons, inductionHypothesis]
      split <;> rfl

theorem isPrefixOf_append_lineBreak
    {text : List Char}
    (oneLine : '\n' ∉ text)
    (before after : List Char) :
    text.isPrefixOf (before ++ '\n' :: after) = text.isPrefixOf before := by
  induction text generalizing before with
  | nil =>
      simp
  | cons c text inductionHypothesis =>
      obtain ⟨different, restOneLine⟩ := not_or.mp (mt List.mem_cons.mpr oneLine)
      cases before with
      | nil =>
          simp [List.isPrefixOf, Ne.symm different]
      | cons first before =>
          simp [List.isPrefixOf, inductionHypothesis restOneLine]

namespace Symbol

theorem lineBreak_notMem_spelling (symbol : Symbol) : '\n' ∉ symbol.spelling.toList := by
  cases symbol <;> decide

theorem leading?_append_lineBreak (before after : List Char) :
    leading? (before ++ '\n' :: after) = leading? before := by
  simp only [leading?, isPrefixOf_append_lineBreak (lineBreak_notMem_spelling _)]

/-- The characters begin with the spelling of their leading symbol. -/
theorem length_spelling_le_of_leading?
    {characters : List Char}
    {symbol : Symbol}
    (found : leading? characters = some symbol) :
    symbol.spelling.length ≤ characters.length := by
  have spelled := List.find?_some found
  rw [List.isPrefixOf_iff_prefix] at spelled
  rw [← String.length_toList]
  exact spelled.length_le

end Symbol

namespace Piece

theorem run_append_lineBreak
    (kind : PieceKind)
    {keep : Char → Bool}
    (stops : keep '\n' = false)
    (first : Char)
    (before after : List Char) :
    run kind keep first (before ++ '\n' :: after) =
      ((run kind keep first before).1, (run kind keep first before).2 ++ '\n' :: after) := by
  simp only [run, takeWhile_append_lineBreak stops, dropWhile_append_lineBreak stops]

theorem opensComment_append_lineBreak (first : Char) (before after : List Char) :
    opensComment (first :: (before ++ '\n' :: after)) = opensComment (first :: before) := by
  cases before with
  | nil =>
      unfold opensComment
      split <;> simp_all
  | cons second before =>
      unfold opensComment
      split <;> simp_all

/-- A piece that is no space ends at a line break at the latest. -/
theorem next_append_lineBreak
    {first : Char}
    (noSpacing : isSpacing first = false)
    (before after : List Char) :
    next first (before ++ '\n' :: after) =
      ((next first before).1, (next first before).2 ++ '\n' :: after) := by
  have leading :
      Symbol.leading? (first :: (before ++ '\n' :: after)) = Symbol.leading? (first :: before) :=
    Symbol.leading?_append_lineBreak (first :: before) after
  unfold next
  rw [noSpacing, opensComment_append_lineBreak, leading]
  simp only [Bool.false_eq_true, if_false]
  split
  · exact run_append_lineBreak .comment rfl first before after
  split
  · exact run_append_lineBreak .word rfl first before after
  split
  · exact run_append_lineBreak .number rfl first before after
  split
  · rename_i symbol found
    have extent : symbol.spelling.length - 1 ≤ before.length := by
      have bound := Symbol.length_spelling_le_of_leading? found
      rw [List.length_cons] at bound
      omega
    rw [List.take_append_of_le_length extent, List.drop_append_of_le_length extent]
  · rfl

end Piece

namespace Token

/--
The tokens before a line break, then those behind it. The line break may lie in spaces that
begin in front of it, so all of them are skipped at once.
-/
theorem ofCharacters_append_lineBreak
    (offset : Nat)
    (names : NameTable)
    (before after : List Char) :
    ofCharacters offset names (before ++ '\n' :: after) =
      let earlier := ofCharacters offset names before
      let later := ofCharacters (offset + Text.byteLength before + 1) earlier.2 after
      (earlier.1 ++ later.1, later.2) := by
  induction before using Piece.all.induct generalizing offset names with
  | case1 =>
      rw [List.nil_append, ofCharacters_cons_of_isSpacing offset names rfl, ofCharacters_nil]
      rfl
  | case2 first rest inductionHypothesis =>
      cases spacing : isSpacing first with
      | true =>
          have allSpacing : ∀ c ∈ (Piece.next first rest).1.text, isSpacing c = true := by
            simp only [Piece.next, spacing, if_true, Piece.run, List.forall_mem_cons, true_and]
            exact List.all_eq_true.mp List.all_takeWhile
          rw [← Piece.text_append_next first rest, List.append_assoc,
            ofCharacters_append_of_isSpacing offset names allSpacing,
            ofCharacters_append_of_isSpacing offset names allSpacing, inductionHypothesis,
            Text.byteLength_append, Nat.add_assoc offset]
      | false =>
          have bytes := congrArg Text.byteLength (Piece.text_append_next first rest)
          rw [Text.byteLength_append] at bytes
          rw [List.cons_append, ofCharacters_cons, ofCharacters_cons,
            Piece.next_append_lineBreak spacing]
          simp only [inductionHypothesis, ← bytes, List.append_assoc, Nat.add_assoc]

/-- The token kinds and the names on both sides of a line break, one side after the other. -/
theorem lex_lineBreak (source next : String) (names : NameTable) :
    kinds (source ++ "\n" ++ next) names =
        kinds source names ++ kinds next (tableAfter source names) ∧
      tableAfter (source ++ "\n" ++ next) names =
        tableAfter next (tableAfter source names) := by
  have characters :
      (source ++ "\n" ++ next).toList = source.toList ++ '\n' :: next.toList := by
    simp
  obtain ⟨sameKinds, sameNames⟩ :=
    inside_offset (0 + Text.byteLength source.toList + 1) 0
      (ofCharacters 0 names source.toList).2 (Piece.all next.toList)
  simp only [kinds, tableAfter, lex_eq, characters, ofCharacters_append_lineBreak,
    List.map_append]
  exact ⟨congrArg (kinds source names ++ ·) sameKinds, sameNames⟩

end Token

end ScopeLang
