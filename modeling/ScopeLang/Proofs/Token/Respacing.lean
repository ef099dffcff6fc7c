import ScopeLang.Proofs.Token.Spelling
import ScopeLang.Proofs.Token.Tiling

namespace ScopeLang

/-!
# What stands between tokens

The text of a token is read as the same token in front of any space. So the texts of the
tokens of a source may be written down again with other spaces and comments between them:
the kinds of the tokens, and the names they bring into the table, stay the same.
-/

/-! ## Separators -/

/-- Spaces and comments in any order, each comment with a line break behind it. -/
inductive Filler : List Char → Prop where
  | nothing :
      Filler []
  | space {c rest} :
      isSpacing c = true →
      Filler rest →
      Filler (c :: rest)
  | comment {text rest} :
      IsComment text →
      Filler rest →
      Filler (text ++ '\n' :: rest)

/-- What may be written between two tokens: a space, and any filler behind it. -/
def IsSeparator : List Char → Prop
  | [] => False
  | c :: rest => isSpacing c = true ∧ Filler rest

/-- Texts one after the other, with a separator between any two neighbours. -/
inductive Respaced : List (List Char) → List Char → Prop where
  | nothing :
      Respaced [] []
  | last {text} :
      Respaced [text] text
  | cons {text next others gap rest} :
      IsSeparator gap →
      Respaced (next :: others) rest →
      Respaced (text :: next :: others) (text ++ (gap ++ rest))

theorem IsSeparator.setOff
    {gap : List Char}
    (separates : IsSeparator gap)
    (rest : List Char) :
    SetOff (gap ++ rest) := by
  intro c atHead
  cases gap with
  | nil =>
      exact separates.elim
  | cons first others =>
      obtain rfl := Option.some.inj atHead
      simp [setsOff, separates.1]

namespace Token

theorem ofCharacters_of_isComment
    (offset : Nat)
    (names : NameTable)
    {text : List Char}
    (comment : IsComment text) :
    ofCharacters offset names text = ([], names) := by
  obtain ⟨⟨body, opening⟩, oneLine⟩ := comment
  cases text with
  | nil =>
      simp at opening
  | cons first rest =>
      have noSpacing : isSpacing first = false := by
        rcases opening with hash | slashes
        · rw [(List.cons.inj hash).1]
          rfl
        · rw [(List.cons.inj slashes).1]
          rfl
      have opens : Piece.opensComment (first :: rest) = true :=
        Piece.opensComment_iff.mpr ⟨body, opening⟩
      obtain ⟨⟨kind, -⟩, endsLine⟩ := Piece.next_of_opensComment noSpacing opens
      have behind : (Piece.next first rest).2 = [] := by
        have whole := Piece.text_append_next first rest
        cases shape : (Piece.next first rest).2 with
        | nil =>
            rfl
        | cons c others =>
            obtain rfl := endsLine c (by rw [shape]; rfl)
            rw [← whole, shape] at oneLine
            exact (oneLine (by simp)).elim
      rw [ofCharacters_cons_of_skipped offset names (.inr kind), behind, ofCharacters_nil]

/-- Filler is skipped. -/
theorem reading_filler
    (names : NameTable)
    {filler : List Char}
    (fills : Filler filler)
    (rest : List Char) :
    reading names (filler ++ rest) = reading names rest := by
  induction fills with
  | nothing =>
      rfl
  | space spacing _ inductionHypothesis =>
      rw [← inductionHypothesis, reading, List.cons_append,
        ofCharacters_cons_of_isSpacing 0 names spacing, ← reading_ofCharacters]
  | comment comment _ inductionHypothesis =>
      rw [← inductionHypothesis, reading, List.append_assoc, List.cons_append,
        ofCharacters_append_lineBreak, ofCharacters_of_isComment 0 names comment]
      exact (reading_ofCharacters _ _ _).symm

theorem reading_separator
    (names : NameTable)
    {gap : List Char}
    (separates : IsSeparator gap)
    (rest : List Char) :
    reading names (gap ++ rest) = reading names rest := by
  cases gap with
  | nil =>
      exact separates.elim
  | cons first others =>
      exact reading_filler names (.space separates.1 separates.2) rest

end Token

/-! ## Tokens that are set off -/

/-- A character that is no lexeme is the longest match where it is set off. -/
theorem LongestMatch.eq_of_stray
    {c : Char}
    {rest found : List Char}
    (longest : LongestMatch (c :: rest) found)
    (noLexeme : ¬ IsLexeme [c])
    (setOff : SetOff rest) :
    found = [c] := by
  cases longest with
  | @lexeme found begins lexeme longest =>
      cases found with
      | nil =>
          exact (lexeme.ne_nil rfl).elim
      | cons first more =>
          obtain ⟨rfl, moreBegins⟩ := List.cons_prefix_cons.mp begins
          cases more with
          | nil =>
              exact (noLexeme lexeme).elim
          | cons second others =>
              obtain ⟨behind, rfl⟩ := moreBegins
              have sets := setOff second rfl
              rw [lexeme.setsOff_of_mem_tail (by simp)] at sets
              cases sets
  | stray shape _ =>
      rw [(List.cons.inj shape).1]

namespace Piece

/-- Whether a piece becomes no token. -/
def isSkipped (piece : Piece) : Bool :=
  piece.kind == .spacing || piece.kind == .comment

theorem isSkipped_iff {piece : Piece} :
    piece.isSkipped = true ↔ piece.kind = .spacing ∨ piece.kind = .comment := by
  simp [isSkipped]

/-- The text of a token tells what kind of piece it is. -/
theorem IsTokenText.unique
    {kind other : PieceKind}
    {text : List Char}
    (spelled : IsTokenText kind text)
    (otherSpelled : IsTokenText other text) :
    kind = other := by
  cases other with
  | spacing | comment =>
      exact otherSpelled.elim
  | word =>
      exact spelled.eq_word otherSpelled
  | number =>
      exact spelled.eq_number otherSpelled
  | symbol mark =>
      subst otherSpelled
      exact spelled.eq_symbol
  | stray =>
      cases kind with
      | spacing | comment =>
          exact spelled.elim
      | word =>
          exact (otherSpelled (.word spelled)).elim
      | number =>
          exact (otherSpelled (.numeral spelled)).elim
      | symbol mark =>
          subst spelled
          exact (otherSpelled (.symbol mark)).elim
      | stray =>
          rfl

/-- A piece that comes about wherever its text is set off. -/
def Stands (piece : Piece) : Prop :=
  ∃ first more,
    piece.text = first :: more ∧
      ∀ rest, SetOff rest → next first (more ++ rest) = (piece, rest)

theorem opensComment_of_setOff
    {first : Char}
    {more rest other : List Char}
    (noComment : opensComment (first :: (more ++ rest)) = false)
    (setOff : SetOff other) :
    opensComment (first :: (more ++ other)) = false := by
  have noOpening := mt opensComment_iff.mpr (Bool.eq_false_iff.mp noComment)
  refine Bool.eq_false_iff.mpr fun comment => ?_
  obtain ⟨body, hash | slashes⟩ := opensComment_iff.mp comment
  · exact noOpening ⟨more ++ rest, .inl (by rw [(List.cons.inj hash).1])⟩
  · obtain ⟨rfl, behind⟩ := List.cons.inj slashes
    cases more with
    | nil =>
        rw [List.nil_append] at behind
        cases setOff '/' (by rw [behind]; rfl)
    | cons second others =>
        obtain ⟨rfl, -⟩ := List.cons.inj behind
        exact noOpening ⟨others ++ rest, .inr rfl⟩

/-- The next piece begins with the next character, and what is left follows it. -/
theorem exists_next_eq (first : Char) (rest : List Char) :
    ∃ kind more behind,
      next first rest = (⟨kind, first :: more⟩, behind) ∧ rest = more ++ behind := by
  have whole := text_append_next first rest
  have nonempty := next_text_ne_nil first rest
  generalize next first rest = found at whole nonempty ⊢
  obtain ⟨⟨kind, text⟩, behind⟩ := found
  cases text with
  | nil =>
      exact (nonempty rfl).elim
  | cons head more =>
      obtain ⟨rfl, rfl⟩ := List.cons.inj whole
      exact ⟨kind, more, behind, rfl, rfl⟩

/-- A piece that is not skipped begins with neither a space nor a comment. -/
theorem begins_of_not_skipped
    {first : Char}
    {rest : List Char}
    (notSkipped : (next first rest).1.isSkipped = false) :
    isSpacing first = false ∧ opensComment (first :: rest) = false := by
  have noSpacing : isSpacing first = false := by
    refine Bool.eq_false_iff.mpr fun spacing => ?_
    simp [isSkipped, next, run, spacing] at notSkipped
  refine ⟨noSpacing, Bool.eq_false_iff.mpr fun comment => ?_⟩
  simp [isSkipped, next, run, noSpacing, comment] at notSkipped

/-- The next piece, unless it is skipped, comes about wherever its text is set off. -/
theorem stands_next
    {first : Char}
    {rest : List Char}
    (notSkipped : (next first rest).1.isSkipped = false) :
    (next first rest).1.Stands := by
  obtain ⟨noSpacing, noComment⟩ := begins_of_not_skipped notSkipped
  obtain ⟨longest, spelled⟩ := next_of_nothingToSkip noSpacing noComment
  obtain ⟨kind, more, behind, found, rfl⟩ := exists_next_eq first rest
  rw [found] at longest spelled ⊢
  refine ⟨first, more, rfl, fun other setOff => ?_⟩
  obtain ⟨otherLongest, otherSpelled⟩ :=
    next_of_nothingToSkip noSpacing (opensComment_of_setOff noComment setOff)
  obtain ⟨otherKind, otherMore, otherBehind, otherFound, split⟩ :=
    exists_next_eq first (more ++ other)
  rw [otherFound] at otherLongest otherSpelled ⊢
  have sameText : first :: otherMore = first :: more := by
    cases longest with
    | lexeme _ lexeme =>
        exact LongestMatch.eq_of_setOff otherLongest lexeme setOff
    | stray _ noLexeme =>
        exact otherLongest.eq_of_stray (noLexeme _ ⟨behind, rfl⟩) setOff
  obtain ⟨-, rfl⟩ := List.cons.inj sameText
  obtain rfl : otherKind = kind := otherSpelled.unique spelled
  rw [List.append_cancel_left split]

theorem stands_of_mem_all
    {source : List Char}
    {piece : Piece}
    (member : piece ∈ all source)
    (notSkipped : piece.isSkipped = false) :
    piece.Stands := by
  induction source using all.induct with
  | case1 =>
      simp [all] at member
  | case2 first rest inductionHypothesis =>
      rw [all, List.mem_cons] at member
      rcases member with rfl | later
      · exact stands_next notSkipped
      · exact inductionHypothesis later

/-- The pieces of a source that become tokens. -/
def ofTokens (source : List Char) : List Piece :=
  (all source).filter (!·.isSkipped)

theorem exists_tokenKind_of_not_skipped
    {piece : Piece}
    (notSkipped : piece.isSkipped = false)
    (names : NameTable) :
    ∃ kind, (piece.tokenKind names).1 = some kind := by
  unfold tokenKind
  cases shape : piece.kind with
  | spacing | comment =>
      simp [isSkipped, shape] at notSkipped
  | word | number | symbol | stray =>
      exact ⟨_, rfl⟩

end Piece

namespace Token

/-- The kinds of the tokens of pieces, and the name table with their identifiers. -/
def readingOf (names : NameTable) : List Piece → List TokenKind × NameTable
  | [] => ([], names)
  | piece :: rest =>
      let later := readingOf (piece.tokenKind names).2 rest
      ((piece.tokenKind names).1.toList ++ later.1, later.2)

theorem reading_eq_readingOf (names : NameTable) (source : List Char) :
    reading names source = readingOf names (Piece.all source) := by
  induction source using Piece.all.induct generalizing names with
  | case1 =>
      rw [reading_nil, Piece.all]
      rfl
  | case2 first rest inductionHypothesis =>
      rw [reading_cons (Prod.eta (Piece.next first rest)).symm, Piece.all, inductionHypothesis]
      rfl

/-- Pieces that are skipped may as well be missing. -/
theorem readingOf_filter (names : NameTable) (pieces : List Piece) :
    readingOf names (pieces.filter (!·.isSkipped)) = readingOf names pieces := by
  induction pieces generalizing names with
  | nil =>
      rfl
  | cons piece rest inductionHypothesis =>
      cases skipped : piece.isSkipped with
      | true =>
          have noToken := Piece.tokenKind_of_skipped (Piece.isSkipped_iff.mp skipped) names
          simp [readingOf, skipped, inductionHypothesis, noToken]
      | false =>
          simp [readingOf, skipped, inductionHypothesis]

/-- A piece that stands is read as its token in front of what sets it off. -/
theorem reading_of_stands
    {piece : Piece}
    (stands : piece.Stands)
    (names : NameTable)
    {rest : List Char}
    (setOff : SetOff rest) :
    reading names (piece.text ++ rest) =
      let later := reading (piece.tokenKind names).2 rest
      ((piece.tokenKind names).1.toList ++ later.1, later.2) := by
  obtain ⟨first, more, shape, next⟩ := stands
  rw [shape, List.cons_append]
  exact reading_cons (next rest setOff)

/-- Pieces that stand are read as their tokens with any separators between them. -/
theorem reading_respaced
    {pieces : List Piece}
    (stand : ∀ piece ∈ pieces, piece.Stands)
    (names : NameTable)
    {written : List Char}
    (respaced : Respaced (pieces.map Piece.text) written) :
    reading names written = readingOf names pieces := by
  induction pieces generalizing names written with
  | nil =>
      cases respaced
      exact reading_nil names
  | cons piece rest inductionHypothesis =>
      obtain ⟨here, later⟩ := List.forall_mem_cons.mp stand
      cases rest with
      | nil =>
          cases respaced
          have atEnd : SetOff [] := by
            simp [SetOff]
          have ended := reading_of_stands here names atEnd
          rw [List.append_nil, reading_nil] at ended
          exact ended
      | cons next others =>
          cases respaced with
          | cons separates remaining =>
              rw [reading_of_stands here names (separates.setOff _),
                reading_separator _ separates, inductionHypothesis later _ remaining]
              rfl

/-! ## The texts of tokens -/

/-- The token spans this text of the source. -/
def Spans (source : List Char) (token : Token) (text : List Char) : Prop :=
  ∃ stretch : Stretch source,
    stretch.text = text ∧ token.span = Span.ofRange stretch.start stretch.stop

/-- The texts of the tokens of a source, in order, without the end mark. -/
def slices (source : String) : List (List Char) :=
  (Piece.ofTokens source.toList).map Piece.text

/-- Each token of a source spans its own text. -/
theorem spans_inside
    {source before : List Char}
    {pieces : List Piece}
    (whole : source = before ++ pieces.flatMap Piece.text)
    (names : NameTable) :
    List.Forall₂ (Spans source) (inside (Text.byteLength before) names pieces).1
      ((pieces.filter (!·.isSkipped)).map Piece.text) := by
  induction pieces generalizing before names with
  | nil =>
      exact .nil
  | cons piece rest inductionHypothesis =>
      have split : source = before ++ piece.text ++ rest.flatMap Piece.text := by
        rw [whole, List.flatMap_cons, List.append_assoc]
      have later := inductionHypothesis split (piece.tokenKind names).2
      rw [Text.byteLength_append] at later
      cases skipped : piece.isSkipped with
      | true =>
          have noToken := Piece.tokenKind_of_skipped (Piece.isSkipped_iff.mp skipped) names
          rw [noToken] at later
          simpa [inside, Piece.token?, skipped, noToken] using later
      | false =>
          obtain ⟨kind, becomes⟩ := Piece.exists_tokenKind_of_not_skipped skipped names
          let stretch : Stretch source :=
            ⟨before, piece.text, rest.flatMap Piece.text, by rw [split, List.append_assoc]⟩
          have here : Spans source ⟨kind, Span.ofRange stretch.start stretch.stop⟩ piece.text :=
            ⟨stretch, rfl, rfl⟩
          rw [List.filter_cons_of_pos (by simp [skipped]), List.map_cons]
          simp only [inside, Piece.token?, becomes, Option.map_some, Option.toList_some,
            List.singleton_append]
          exact .cons here later

theorem filter_lex (source : String) (names : NameTable) :
    (lex source names).1.filter (·.kind ≠ .endOfInput) =
      (ofCharacters 0 names source.toList).1 := by
  have inSource :
      ∀ token ∈ (ofCharacters 0 names source.toList).1, token.kind ≠ .endOfInput :=
    fun _ => kind_ne_endOfInput_of_mem_inside
  rw [lex_eq, List.filter_append, List.filter_eq_self.mpr (by simpa using inSource)]
  simp

/--
The texts that the tokens of a source span, the end mark apart, may be written one after
the other with any separators between them: the result is read as tokens of the same
kinds, and the same names enter the table.
-/
theorem lex_respaced
    (source respaced : String)
    (names : NameTable)
    (written : Respaced (slices source) respaced.toList) :
    List.Forall₂ (Spans source.toList)
        ((lex source names).1.filter (·.kind ≠ .endOfInput)) (slices source) ∧
      (lex respaced names).1.map Token.kind = (lex source names).1.map Token.kind ∧
        (lex respaced names).2 = (lex source names).2 := by
  have stand : ∀ piece ∈ Piece.ofTokens source.toList, piece.Stands := by
    intro piece member
    obtain ⟨inSource, notSkipped⟩ := List.mem_filter.mp member
    exact Piece.stands_of_mem_all inSource (by simpa using notSkipped)
  have same : reading names respaced.toList = reading names source.toList := by
    rw [reading_respaced stand names written, Piece.ofTokens, readingOf_filter,
      ← reading_eq_readingOf]
  obtain ⟨sameKinds, sameNames⟩ := Prod.mk.inj same
  refine ⟨?_, ?_, ?_⟩
  · rw [filter_lex]
    have whole : source.toList = [] ++ (Piece.all source.toList).flatMap Piece.text := by
      rw [Piece.flatMap_text_all, List.nil_append]
    exact spans_inside whole names
  · rw [lex_eq, lex_eq]
    simpa using sameKinds
  · rw [lex_eq, lex_eq]
    exact sameNames

/-- Comments between a number, a word, a slash and a stray character that stood together. -/
theorem lex_respaced_comments :
    Respaced (slices "7a/=") "7\n# x\na\t/ //\n=".toList ∧
      (lex "7\n# x\na\t/ //\n=" .initial).1.map Token.kind =
          [.int 7, .ident ⟨1⟩, .symbol .slash, .invalid, .endOfInput] ∧
        (lex "7\n# x\na\t/ //\n=" .initial).2 = NameTable.initial.internAll ["a"] := by
  have sliced : slices "7a/=" = [['7'], ['a'], ['/'], ['=']] := by
    decide +kernel
  have read :
      lex "7a/=" .initial =
        ([⟨.int 7, ⟨0, 1⟩⟩, ⟨.ident ⟨1⟩, ⟨1, 2⟩⟩, ⟨.symbol .slash, ⟨2, 3⟩⟩,
            ⟨.invalid, ⟨3, 4⟩⟩, ⟨.endOfInput, ⟨4, 4⟩⟩],
          NameTable.initial.internAll ["a"]) := by
    decide +kernel
  have lineWithComment : IsSeparator ['\n', '#', ' ', 'x', '\n'] :=
    ⟨rfl, @Filler.comment ['#', ' ', 'x'] [] ⟨⟨_, .inl rfl⟩, by decide⟩ .nothing⟩
  have tab : IsSeparator ['\t'] :=
    ⟨rfl, .nothing⟩
  have emptyComment : IsSeparator [' ', '/', '/', '\n'] :=
    ⟨rfl, @Filler.comment ['/', '/'] [] ⟨⟨_, .inr rfl⟩, by decide⟩ .nothing⟩
  have written : Respaced (slices "7a/=") "7\n# x\na\t/ //\n=".toList := by
    rw [sliced]
    exact .cons lineWithComment (.cons tab (.cons emptyComment .last))
  obtain ⟨-, sameKinds, sameNames⟩ := lex_respaced _ _ .initial written
  rw [read] at sameKinds sameNames
  exact ⟨written, sameKinds, sameNames⟩

end Token

end ScopeLang
