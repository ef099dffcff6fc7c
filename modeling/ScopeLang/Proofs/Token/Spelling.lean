import ScopeLang.Proofs.Token.LineBreak
import ScopeLang.Proofs.Token.LongestMatch

namespace ScopeLang

/-!
# Texts that spell tokens

Which texts are read as which tokens, and what may stand behind them. A token has
to be set off from what follows by a space or a closing bracket, except for an
opening bracket and a sign. Larger texts are put together from such texts by
rules, so that the tokens of a whole source follow from the way it is written.
-/

/-- What is written between two tokens to set them off. -/
structure Blank where
  text : String
  nonempty : text ≠ ""
  spacing : ∀ c ∈ text.toList, isSpacing c = true

/-- Texts one after the other, set off from each other. -/
def Blank.spread (blank : Blank) (texts : List String) : String :=
  blank.text.intercalate texts

/-- The characters that set off a token. -/
def setsOff (c : Char) : Bool :=
  isSpacing c || c == ')'

/-- The end, a space or a closing bracket comes next. -/
def SetOff (rest : List Char) : Prop :=
  ∀ c, rest.head? = some c → setsOff c = true

theorem Blank.setOff (blank : Blank) (rest : List Char) :
    SetOff (blank.text.toList ++ rest) := by
  intro c atHead
  cases shape : blank.text.toList with
  | nil =>
      exact (blank.nonempty (String.toList_eq_nil_iff.mp shape)).elim
  | cons first others =>
      rw [shape] at atHead
      obtain rfl := Option.some.inj atHead
      simp [setsOff, blank.spacing first (by simp [shape])]

/-! ## Lexemes that are set off -/

theorem setsOff_of_isWordPart
    {c : Char}
    (part : isWordPart c = true) :
    setsOff c = false := by
  by_contra sets
  simp only [Bool.not_eq_false, setsOff, isSpacing, Bool.or_eq_true, beq_iff_eq] at sets
  rcases sets with ((((rfl | rfl) | rfl) | rfl) | rfl) | rfl <;> cases part

theorem Symbol.setsOff_of_mem_tail
    {mark : Symbol}
    {c : Char}
    (member : c ∈ mark.spelling.toList.tail) :
    setsOff c = false := by
  have nowhere : mark.spelling.toList.tail.all (!setsOff ·) = true := by
    cases mark <;> rfl
  simpa using List.all_eq_true.mp nowhere c member

theorem IsWord.isWordPart_of_mem
    {text : List Char}
    (isWord : IsWord text)
    {c : Char}
    (member : c ∈ text) :
    isWordPart c = true := by
  cases text with
  | nil =>
      exact isWord.elim
  | cons first rest =>
      rcases List.mem_cons.mp member with rfl | inRest
      · simp [isWordPart, isWord.1]
      · exact isWord.2 c inRest

/-- A word has a first letter. -/
theorem IsWord.ne_empty
    {text : String}
    (isWord : IsWord text.toList) :
    text ≠ "" := by
  rintro rfl
  exact isWord

/-- A lexeme that is no symbol consists of letters, underscores and digits. -/
theorem IsLexeme.wordParts_or_symbol
    {text : List Char}
    (lexeme : IsLexeme text) :
    (∀ c ∈ text, isWordPart c = true) ∨ ∃ mark : Symbol, text = mark.spelling.toList := by
  cases lexeme with
  | keyword word =>
      exact .inl fun _ => word.isWord_spelling.isWordPart_of_mem
  | symbol mark =>
      exact .inr ⟨mark, rfl⟩
  | numeral numeral =>
      exact .inl fun c member => by simp [isWordPart, numeral.2 c member]
  | word isWord =>
      exact .inl fun _ => isWord.isWordPart_of_mem

/-- Nothing inside a lexeme sets it off. -/
theorem IsLexeme.setsOff_of_mem_tail
    {text : List Char}
    (lexeme : IsLexeme text)
    {c : Char}
    (member : c ∈ text.tail) :
    setsOff c = false := by
  rcases lexeme.wordParts_or_symbol with parts | ⟨mark, rfl⟩
  · exact setsOff_of_isWordPart (parts c (List.mem_of_mem_tail member))
  · exact Symbol.setsOff_of_mem_tail member

/-- No longer lexeme begins with a lexeme that is set off. -/
theorem IsLexeme.length_le_of_setOff
    {text rest other : List Char}
    (lexeme : IsLexeme text)
    (setOff : SetOff rest)
    (begins : other <+: text ++ rest)
    (otherLexeme : IsLexeme other) :
    other.length ≤ text.length := by
  by_contra longer
  obtain ⟨extra, rfl⟩ : text <+: other :=
    List.prefix_of_prefix_length_le (List.prefix_append text rest) begins (by omega)
  cases extra with
  | nil =>
      simp at longer
  | cons c extra =>
      have sets : setsOff c = true := by
        obtain ⟨behind, shape⟩ := (List.prefix_append_right_inj text).mp begins
        exact setOff c (by rw [← shape]; rfl)
      have inside : c ∈ (text ++ c :: extra).tail := by
        rw [List.tail_append_of_ne_nil lexeme.ne_nil]
        simp
      rw [otherLexeme.setsOff_of_mem_tail inside] at sets
      cases sets

/-- The longest match is the lexeme that is set off. -/
theorem LongestMatch.eq_of_setOff
    {text rest found : List Char}
    (longest : LongestMatch (text ++ rest) found)
    (lexeme : IsLexeme text)
    (setOff : SetOff rest) :
    found = text := by
  cases longest with
  | lexeme begins foundLexeme longest =>
      have atLeast := longest text (List.prefix_append text rest) lexeme
      have atMost := lexeme.length_le_of_setOff setOff begins foundLexeme
      rw [List.prefix_iff_eq_take.mp begins, Nat.le_antisymm atMost atLeast, List.take_left]
  | stray _ noLexeme =>
      exact (noLexeme text (List.prefix_append text rest) lexeme).elim

/-- No lexeme begins like a space or a comment, but for the slash. -/
theorem IsLexeme.first_ne
    {first : Char}
    {more : List Char}
    (lexeme : IsLexeme (first :: more)) :
    isSpacing first = false ∧ first ≠ '#' ∧ (first = '/' → more = []) := by
  rcases lexeme.wordParts_or_symbol with parts | ⟨mark, spelled⟩
  · have part := parts first (by simp)
    have sets := setsOff_of_isWordPart part
    rw [setsOff, Bool.or_eq_false_iff] at sets
    refine ⟨sets.1, ?_, ?_⟩
    · rintro rfl
      cases part
    · rintro rfl
      cases part
  · revert spelled
    cases mark <;> (rintro ⟨⟩; decide)

/-- Neither a space nor a comment begins with a lexeme that is set off. -/
theorem IsLexeme.nothingToSkip
    {first : Char}
    {more rest : List Char}
    (lexeme : IsLexeme (first :: more))
    (setOff : SetOff rest) :
    isSpacing first = false ∧ Piece.opensComment (first :: (more ++ rest)) = false := by
  obtain ⟨noSpacing, noHash, noMore⟩ := lexeme.first_ne
  refine ⟨noSpacing, Bool.eq_false_iff.mpr fun comment => ?_⟩
  obtain ⟨body, hash | slashes⟩ := Piece.opensComment_iff.mp comment
  · exact noHash (List.cons.inj hash).1
  · obtain ⟨rfl, behind⟩ := List.cons.inj slashes
    rw [noMore rfl, List.nil_append] at behind
    cases setOff '/' (by rw [behind]; rfl)

namespace Piece

/-- A lexeme that is set off is the next piece. -/
theorem next_of_setOff
    {first : Char}
    {more rest : List Char}
    (lexeme : IsLexeme (first :: more))
    (setOff : SetOff rest) :
    ∃ kind,
      IsTokenText kind (first :: more) ∧
        next first (more ++ rest) = (⟨kind, first :: more⟩, rest) := by
  obtain ⟨noSpacing, noComment⟩ := lexeme.nothingToSkip setOff
  obtain ⟨longest, spelled⟩ := next_of_nothingToSkip noSpacing noComment
  have whole := text_append_next first (more ++ rest)
  generalize next first (more ++ rest) = found at longest spelled whole ⊢
  obtain ⟨⟨kind, text⟩, behind⟩ := found
  obtain rfl : text = first :: more := longest.eq_of_setOff lexeme setOff
  obtain rfl : behind = rest := by simpa using whole
  exact ⟨kind, spelled, rfl⟩

theorem IsTokenText.eq_word
    {kind : PieceKind}
    {text : List Char}
    (spelled : IsTokenText kind text)
    (isWord : IsWord text) :
    kind = .word := by
  cases kind with
  | spacing | comment =>
      exact spelled.elim
  | word =>
      rfl
  | number =>
      exact (isWord.not_isNumeral spelled).elim
  | symbol mark =>
      exact (mark.not_isWord_spelling (spelled ▸ isWord)).elim
  | stray =>
      exact (spelled (.word isWord)).elim

theorem IsTokenText.eq_number
    {kind : PieceKind}
    {text : List Char}
    (spelled : IsTokenText kind text)
    (numeral : IsNumeral text) :
    kind = .number := by
  cases kind with
  | spacing | comment =>
      exact spelled.elim
  | word =>
      exact (IsWord.not_isNumeral spelled numeral).elim
  | number =>
      rfl
  | symbol mark =>
      exact (mark.not_isNumeral_spelling (spelled ▸ numeral)).elim
  | stray =>
      exact (spelled (.numeral numeral)).elim

theorem IsTokenText.eq_symbol
    {kind : PieceKind}
    {mark : Symbol}
    (spelled : IsTokenText kind mark.spelling.toList) :
    kind = .symbol mark := by
  cases kind with
  | spacing | comment =>
      exact spelled.elim
  | word =>
      exact (mark.not_isWord_spelling spelled).elim
  | number =>
      exact (mark.not_isNumeral_spelling spelled).elim
  | symbol other =>
      rw [Symbol.eq_of_spelling_eq spelled]
  | stray =>
      exact (spelled (.symbol mark)).elim

end Piece

/-! ## Texts with their tokens -/

theorem IsNumeral.of_natural?
    {text : List Char}
    {n : Nat}
    (read : Text.Decimal.natural? text = some n) :
    IsNumeral text := by
  unfold Text.Decimal.natural? at read
  split at read
  · rename_i digits
    simpa [IsNumeral] using digits
  · cases read

namespace NameTable

/-- The text of a name has that name. -/
theorem intern_textOf
    {names : NameTable}
    (distinct : names.texts.Nodup)
    {name : Name}
    (known : names.textOf name ≠ "") :
    names.intern (names.textOf name) = (name, names) := by
  have here : names.texts[name.index]? = some (names.textOf name) := by
    unfold textOf at known ⊢
    cases found : names.texts[name.index]? with
    | none =>
        simp [found] at known
    | some text =>
        rfl
  exact intern_of_known (nameOf?_of_getElem? distinct here)

/-- A name whose text is a word and no keyword. -/
def Identifies (names : NameTable) (name : Name) : Prop :=
  IsWord (names.textOf name).toList ∧
    ∀ word : Keyword, names.textOf name ≠ word.spelling

end NameTable

namespace Token

/-- The kinds of the tokens of characters, and the name table with their identifiers. -/
def reading (names : NameTable) (characters : List Char) : List TokenKind × NameTable :=
  ((ofCharacters 0 names characters).1.map Token.kind, (ofCharacters 0 names characters).2)

theorem reading_ofCharacters (offset : Nat) (names : NameTable) (characters : List Char) :
    reading names characters =
      ((ofCharacters offset names characters).1.map Token.kind,
        (ofCharacters offset names characters).2) := by
  obtain ⟨kinds, table⟩ := inside_offset 0 offset names (Piece.all characters)
  exact Prod.ext kinds table

theorem reading_nil (names : NameTable) :
    reading names [] = ([], names) := by
  rw [reading, ofCharacters_nil]
  rfl

/-- The token of the next piece, if it becomes one, then those of what is left. -/
theorem reading_cons
    {names : NameTable}
    {first : Char}
    {rest behind : List Char}
    {piece : Piece}
    (found : Piece.next first rest = (piece, behind)) :
    reading names (first :: rest) =
      let later := reading (piece.tokenKind names).2 behind
      ((piece.tokenKind names).1.toList ++ later.1, later.2) := by
  rw [reading, ofCharacters_cons, found]
  simp only [List.map_append, Piece.map_kind_token?,
    reading_ofCharacters (0 + Text.byteLength piece.text) _ behind]

/-- A piece that becomes a token and leaves the table as it is. -/
theorem reading_of_next
    {names : NameTable}
    {first : Char}
    {rest behind : List Char}
    {piece : Piece}
    {kind : TokenKind}
    (found : Piece.next first rest = (piece, behind))
    (becomes : piece.tokenKind names = (some kind, names)) :
    reading names (first :: rest) =
      (kind :: (reading names behind).1, (reading names behind).2) := by
  rw [reading_cons found, becomes]
  rfl

theorem reading_blank (names : NameTable) (blank : Blank) (rest : List Char) :
    reading names (blank.text.toList ++ rest) = reading names rest := by
  rw [reading, ofCharacters_append_of_isSpacing 0 names blank.spacing,
    ← reading_ofCharacters]

end Token

/--
A text is read as tokens of some kinds, with no name that is not in the table, in front
of any characters that may come next.
-/
def Spells
    (names : NameTable)
    (mayFollow : List Char → Prop)
    (text : String)
    (kinds : List TokenKind) :
    Prop :=
  ∀ rest,
    mayFollow rest →
      Token.reading names (text.toList ++ rest) =
        (kinds ++ (Token.reading names rest).1, (Token.reading names rest).2)

/-- Any characters may come next. -/
def Whatever (_ : List Char) : Prop :=
  True

namespace Spells

variable {names : NameTable} {text next : String} {kinds more : List TokenKind}
  {mayFollow : List Char → Prop}

theorem append
    {mayComeNext : List Char → Prop}
    (spelled : Spells names mayComeNext text kinds)
    (nextSpelled : Spells names mayFollow next more)
    (fits : ∀ rest, mayFollow rest → mayComeNext (next.toList ++ rest)) :
    Spells names mayFollow (text ++ next) (kinds ++ more) := by
  intro rest follows
  rw [String.toList_append, List.append_assoc, spelled _ (fits rest follows),
    nextSpelled rest follows, List.append_assoc]

/-- One text directly behind another that needs no setting off. -/
theorem andThen
    (spelled : Spells names Whatever text kinds)
    (nextSpelled : Spells names mayFollow next more) :
    Spells names mayFollow (text ++ next) (kinds ++ more) :=
  spelled.append nextSpelled fun _ _ => trivial

/-- A blank sets off whatever follows. -/
theorem spaced
    (spelled : Spells names SetOff text kinds)
    (blank : Blank) :
    Spells names Whatever (text ++ blank.text) kinds := by
  intro rest _
  rw [String.toList_append, List.append_assoc, spelled _ (blank.setOff rest),
    Token.reading_blank]

/-- Texts with blanks between them. -/
theorem spread
    (blank : Blank)
    {texts : List String}
    {kindLists : List (List TokenKind)}
    (spelled : Spells names SetOff text kinds)
    (othersSpelled : List.Forall₂ (Spells names SetOff) texts kindLists) :
    Spells names SetOff (blank.spread (text :: texts)) (kinds ++ kindLists.flatten) := by
  induction othersSpelled generalizing text kinds with
  | nil =>
      rw [List.flatten_nil, List.append_nil]
      exact spelled
  | @cons other otherKinds _ _ otherSpelled _ inductionHypothesis =>
      rw [List.flatten_cons, ← List.append_assoc]
      exact inductionHypothesis ((spelled.spaced blank).andThen otherSpelled)

/-- The text of a token that leaves the table as it is. -/
theorem of_isLexeme
    {kind : TokenKind}
    (lexeme : IsLexeme text.toList)
    (becomes :
      ∀ pieceKind,
        Piece.IsTokenText pieceKind text.toList →
          Piece.tokenKind ⟨pieceKind, text.toList⟩ names = (some kind, names)) :
    Spells names SetOff text [kind] := by
  intro rest setOff
  cases shape : text.toList with
  | nil =>
      exact (lexeme.ne_nil shape).elim
  | cons first others =>
      rw [shape] at lexeme becomes
      obtain ⟨pieceKind, spelled, found⟩ := Piece.next_of_setOff lexeme setOff
      exact Token.reading_of_next found (becomes pieceKind spelled)

theorem keyword (names : NameTable) (word : Keyword) :
    Spells names SetOff word.spelling [.keyword word] := by
  refine of_isLexeme (.keyword word) fun pieceKind spelled => ?_
  rw [spelled.eq_word word.isWord_spelling]
  have found : Keyword.ofSpelling? (String.ofList word.spelling.toList) = some word :=
    Keyword.ofSpelling?_eq_some_iff.mpr rfl
  simp only [Piece.tokenKind, Piece.wordKind, found]

theorem symbol (names : NameTable) (mark : Symbol) :
    Spells names SetOff mark.spelling [.symbol mark] := by
  refine of_isLexeme (.symbol mark) fun pieceKind spelled => ?_
  rw [spelled.eq_symbol]
  rfl

theorem ident
    (distinct : names.texts.Nodup)
    {name : Name}
    (identifies : names.Identifies name) :
    Spells names SetOff (names.textOf name) [.ident name] := by
  obtain ⟨isWord, noKeyword⟩ := identifies
  have noWord : Keyword.ofSpelling? (names.textOf name) = none := by
    refine List.find?_eq_none.mpr fun word _ => ?_
    simpa using (noKeyword word).symm
  refine of_isLexeme (.word isWord) fun pieceKind spelled => ?_
  rw [spelled.eq_word isWord]
  simp [Piece.tokenKind, Piece.wordKind, String.ofList_toList, noWord,
    names.intern_textOf distinct isWord.ne_empty]

/-- A number that is not negative is read back from its digits. -/
theorem number
    (names : NameTable)
    {value : Int32}
    (natural : 0 ≤ value) :
    Spells names SetOff (Text.Decimal.ofInt value.toInt) [.int value] := by
  have sign : 0 ≤ value.toInt := by
    simpa using Int32.le_iff_toInt_le.mp natural
  have bound := value.toInt_lt
  have digits :
      (Text.Decimal.ofInt value.toInt).toList = Nat.toDigits 10 value.toInt.natAbs := by
    rw [Text.Decimal.ofInt, if_neg (by omega), Text.Decimal.ofNat, String.toList_ofList]
  have read := Text.Decimal.natural?_toDigits value.toInt.natAbs
  rw [← digits] at read
  have numeral := IsNumeral.of_natural? read
  have kind :
      Piece.numberKind (Text.Decimal.ofInt value.toInt).toList = .int value := by
    have fits : Text.Decimal.toInt32? value.toInt = some value := by
      rw [Text.Decimal.toInt32?, if_pos (by omega), Int32.ofInt_toInt]
    have same : Int.ofNat value.toInt.natAbs = value.toInt :=
      Int.natAbs_of_nonneg sign
    rw [Piece.numberKind, read, Option.bind_some, same, fits]
  refine of_isLexeme (.numeral numeral) fun pieceKind spelled => ?_
  rw [spelled.eq_number numeral, ← kind]
  rfl

/-- A closing bracket sets off what stands in front of it. -/
theorem closed
    (spelled : Spells names SetOff text kinds) :
    Spells names SetOff (text ++ ")") (kinds ++ [.symbol .rightParen]) := by
  refine spelled.append (symbol names .rightParen) fun rest _ c atHead => ?_
  obtain rfl : ')' = c := by simpa [Symbol.spelling] using atHead
  rfl

/-- An opening bracket and a sign need no setting off. -/
theorem symbol_in_front
    (names : NameTable)
    {mark : Symbol}
    (inFront : mark = .leftParen ∨ mark = .minus) :
    Spells names Whatever mark.spelling [.symbol mark] := by
  intro rest _
  rcases inFront with rfl | rfl
  · exact @Token.reading_of_next _ '(' rest rest ⟨.symbol .leftParen, ['(']⟩ _ rfl rfl
  · exact @Token.reading_of_next _ '-' rest rest ⟨.symbol .minus, ['-']⟩ _ rfl rfl

end Spells

end ScopeLang
