import ScopeLang.Proofs.Token.Renaming

namespace ScopeLang

/-!
# The longest match

What the tokens of a source are, stated without a scanner. Spaces and comments
are skipped; then the text of the next token is the longest lexeme that the
source goes on with, or a single character where it goes on with none; and the
text alone decides which token it is. The tokens that are read from a source are
related to it in this way.
-/

/-! ## The token table -/

/-- Nonempty runs of digits; leading zeros are allowed. -/
def IsNumeral (text : List Char) : Prop :=
  text ≠ [] ∧ ∀ c ∈ text, Text.isDigit c = true

/-- A letter or an underscore, followed by letters, underscores and digits. -/
def IsWord : List Char → Prop
  | [] => False
  | first :: rest => isWordStart first = true ∧ ∀ c ∈ rest, isWordPart c = true

/-- The texts that are written for tokens. -/
inductive IsLexeme : List Char → Prop where
  | keyword (word : Keyword) :
      IsLexeme word.spelling.toList
  | symbol (mark : Symbol) :
      IsLexeme mark.spelling.toList
  | numeral {text} :
      IsNumeral text →
      IsLexeme text
  | word {text} :
      IsWord text →
      IsLexeme text

/--
The text of the token with which characters begin: the longest lexeme among their
beginnings, or their first character when no beginning is a lexeme.
-/
inductive LongestMatch (characters : List Char) : List Char → Prop where
  | lexeme {text} :
      text <+: characters →
      IsLexeme text →
      (∀ other, other <+: characters → IsLexeme other → other.length ≤ text.length) →
      LongestMatch characters text
  | stray {c rest} :
      characters = c :: rest →
      (∀ other, other <+: characters → ¬ IsLexeme other) →
      LongestMatch characters [c]

/--
What the text of a token says about its kind. The name of an identifier has the
text in a table whose names all fit 32 bits.
-/
structure TokenKind.IsReadFrom (names : NameTable) (text : List Char) (kind : TokenKind) :
    Prop where
  keyword : ∀ word, kind = .keyword word ↔ text = word.spelling.toList
  symbol : ∀ mark, kind = .symbol mark ↔ text = mark.spelling.toList
  int : ∀ value : Int32,
    kind = .int value ↔
      IsNumeral text ∧
        Nat.ofDigitChars 10 text 0 ≤ 2147483647 ∧
          value.toInt = Nat.ofDigitChars 10 text 0
  ident : (∃ name, kind = .ident name) ↔
    IsWord text ∧ ∀ word : Keyword, text ≠ word.spelling.toList
  named : ∀ name,
    kind = .ident name →
    names.size ≤ UInt32.size →
      names.textOf name = String.ofList text
  invalid : kind = .invalid ↔
    IsNumeral text ∧ 2147483647 < Nat.ofDigitChars 10 text 0 ∨ ¬ IsLexeme text

/-! ## What is skipped -/

/-- A comment: from `#` or `//` on, within one line. -/
def IsComment (text : List Char) : Prop :=
  (∃ body, text = '#' :: body ∨ text = '/' :: '/' :: body) ∧ '\n' ∉ text

/-- A line ends here, or the whole source. -/
def EndsLine (rest : List Char) : Prop :=
  ∀ c, rest.head? = some c → c = '\n'

/-- Neither a space nor a comment begins here. -/
def NothingToSkip (rest : List Char) : Prop :=
  (∀ c, rest.head? = some c → isSpacing c = false) ∧
    rest.head? ≠ some '#' ∧
      ¬ ['/', '/'] <+: rest

/-- The spaces and comments in front of the next token or of the end. -/
inductive Gap : List Char → List Char → Prop where
  | nothing {rest} :
      NothingToSkip rest →
      Gap [] rest
  | space {c gap rest} :
      isSpacing c = true →
      Gap gap rest →
      Gap (c :: gap) rest
  | comment {text gap rest} :
      IsComment text →
      EndsLine (gap ++ rest) →
      Gap gap rest →
      Gap (text ++ gap) rest

/-- The tokens that characters from a byte offset on stand for, with the end mark. -/
inductive Scanned (names : NameTable) : Nat → List Char → List Token → Prop where
  | finish {offset gap} :
      Gap gap [] →
      Scanned names offset gap
        [⟨.endOfInput, Span.point (offset + Text.byteLength gap)⟩]
  | token {offset start stop gap text rest kind tokens} :
      Gap gap (text ++ rest) →
      LongestMatch (text ++ rest) text →
      kind.IsReadFrom names text →
      start = offset + Text.byteLength gap →
      stop = start + Text.byteLength text →
      Scanned names stop rest tokens →
      Scanned names offset (gap ++ (text ++ rest)) (⟨kind, Span.ofRange start stop⟩ :: tokens)

/-! ## Classes of texts -/

/-- A digit begins no word. -/
theorem isDigit_of_isWordStart
    {c : Char}
    (starts : isWordStart c = true) :
    Text.isDigit c = false := by
  by_contra digit
  simp only [isWordStart, Text.isDigit, Bool.or_eq_true, Bool.and_eq_true, decide_eq_true_eq,
    beq_iff_eq, Char.le_def, UInt32.le_iff_toNat_le, ← Char.toNat_inj,
    Bool.not_eq_false] at starts digit
  simp at starts digit
  omega

theorem Keyword.isWord_spelling (word : Keyword) :
    IsWord word.spelling.toList := by
  cases word <;> exact ⟨rfl, List.all_eq_true.mp rfl⟩

/-- A symbol begins with neither a letter nor a digit. -/
theorem Symbol.spelling_eq_cons (mark : Symbol) :
    ∃ first rest,
      mark.spelling.toList = first :: rest ∧
        isWordStart first = false ∧ Text.isDigit first = false := by
  cases mark <;> exact ⟨_, _, rfl, by decide, by decide⟩

/-- The first character of a lexeme tells words, numerals and symbols apart. -/
theorem IsLexeme.cases_first
    {first : Char}
    {rest : List Char}
    (lexeme : IsLexeme (first :: rest)) :
    (isWordStart first = true ∧ IsWord (first :: rest)) ∨
      (Text.isDigit first = true ∧ IsNumeral (first :: rest)) ∨
        (isWordStart first = false ∧
          Text.isDigit first = false ∧
            ∃ mark : Symbol, first :: rest = mark.spelling.toList) := by
  generalize shape : first :: rest = text at lexeme
  cases lexeme with
  | keyword word =>
      have isWord := word.isWord_spelling
      rw [← shape] at isWord ⊢
      exact .inl ⟨isWord.1, isWord⟩
  | symbol mark =>
      obtain ⟨head, tail, spelled, noWord, noDigit⟩ := mark.spelling_eq_cons
      obtain ⟨rfl, -⟩ := List.cons.inj (shape.trans spelled)
      exact .inr (.inr ⟨noWord, noDigit, mark, rfl⟩)
  | numeral numeral =>
      subst shape
      exact .inr (.inl ⟨numeral.2 first (by simp), numeral⟩)
  | word isWord =>
      subst shape
      exact .inl ⟨isWord.1, isWord⟩

theorem IsLexeme.ne_nil
    {text : List Char}
    (lexeme : IsLexeme text) :
    text ≠ [] := by
  cases lexeme with
  | keyword word =>
      cases word <;> decide
  | symbol mark =>
      cases mark <;> decide
  | numeral numeral =>
      exact numeral.1
  | word isWord =>
      rintro rfl
      exact isWord

/-! ## Pieces are longest matches -/

/-- No run of kept characters at the beginning is longer than the one that is taken. -/
theorem length_le_takeWhile
    {keep : Char → Bool}
    {text characters : List Char}
    (isPrefix : text <+: characters)
    (kept : ∀ c ∈ text, keep c = true) :
    text.length ≤ (characters.takeWhile keep).length := by
  obtain ⟨rest, rfl⟩ := isPrefix
  rw [List.takeWhile_append_of_pos kept, List.length_append]
  exact Nat.le_add_right _ _

namespace Symbol

theorem eq_of_spelling_eq
    {mark other : Symbol}
    (same : mark.spelling.toList = other.spelling.toList) :
    mark = other := by
  revert same
  cases mark <;> cases other <;> decide

/-- Symbols are tried from the longest spelling to the shortest. -/
theorem longer_first :
    all.Pairwise fun earlier later =>
      later.spelling.toList.length ≤ earlier.spelling.toList.length := by
  decide

theorem prefix_of_leading?
    {characters : List Char}
    {mark : Symbol}
    (found : leading? characters = some mark) :
    mark.spelling.toList <+: characters := by
  have begins := List.find?_some found
  rwa [List.isPrefixOf_iff_prefix] at begins

/-- The characters that are taken for the leading symbol are its spelling. -/
theorem cons_take_of_leading?
    {first : Char}
    {rest : List Char}
    {mark : Symbol}
    (found : leading? (first :: rest) = some mark) :
    first :: rest.take (mark.spelling.length - 1) = mark.spelling.toList := by
  have taken := List.prefix_iff_eq_take.mp (prefix_of_leading? found)
  obtain ⟨head, tail, shape, -⟩ := mark.spelling_eq_cons
  rw [← String.length_toList]
  rw [shape] at taken ⊢
  rw [taken]
  simp

/-- No symbol at the beginning is longer than the leading one. -/
theorem longest_of_leading?
    {characters : List Char}
    {mark other : Symbol}
    (found : leading? characters = some mark)
    (begins : other.spelling.toList <+: characters) :
    other.spelling.toList.length ≤ mark.spelling.toList.length := by
  obtain ⟨-, earlier, later, split, passed⟩ := List.find?_eq_some_iff_append.mp found
  have ordered := longer_first
  rw [split, List.pairwise_append, List.pairwise_cons] at ordered
  have member := other.mem_all
  rw [split, List.mem_append, List.mem_cons] at member
  rcases member with skipped | rfl | behind
  · have differs := passed other skipped
    simp [List.isPrefixOf_iff_prefix.mpr begins] at differs
  · exact Nat.le_refl _
  · exact ordered.2.1.1 other behind

end Symbol

/-- A run is the longest match where every lexeme consists of characters that are kept. -/
theorem LongestMatch.of_run
    {keep : Char → Bool}
    {first : Char}
    {rest : List Char}
    (lexeme : IsLexeme (first :: rest.takeWhile keep))
    (kept : ∀ more, IsLexeme (first :: more) → ∀ c ∈ more, keep c = true) :
    LongestMatch (first :: rest) (first :: rest.takeWhile keep) := by
  refine .lexeme (List.cons_prefix_cons.mpr ⟨rfl, List.takeWhile_prefix _⟩) lexeme ?_
  intro other begins otherLexeme
  cases other with
  | nil =>
      exact Nat.zero_le _
  | cons head more =>
      obtain ⟨rfl, moreBegins⟩ := List.cons_prefix_cons.mp begins
      exact Nat.succ_le_succ (length_le_takeWhile moreBegins (kept more otherLexeme))

/-- A word goes on as far as its characters do. -/
theorem LongestMatch.of_isWordStart
    {first : Char}
    (starts : isWordStart first = true)
    (rest : List Char) :
    LongestMatch (first :: rest) (first :: rest.takeWhile isWordPart) := by
  refine .of_run (.word ⟨starts, List.all_eq_true.mp List.all_takeWhile⟩) fun more lexeme => ?_
  rcases lexeme.cases_first with ⟨-, isWord⟩ | ⟨digit, -⟩ | ⟨noWord, -⟩
  · exact isWord.2
  · rw [isDigit_of_isWordStart starts] at digit
    cases digit
  · rw [starts] at noWord
    cases noWord

/-- A numeral goes on as far as its digits do. -/
theorem LongestMatch.of_isDigit
    {first : Char}
    (digit : Text.isDigit first = true)
    (rest : List Char) :
    LongestMatch (first :: rest) (first :: rest.takeWhile Text.isDigit) := by
  have digits : ∀ c ∈ first :: rest.takeWhile Text.isDigit, Text.isDigit c = true :=
    List.forall_mem_cons.mpr ⟨digit, List.all_eq_true.mp List.all_takeWhile⟩
  refine .of_run (.numeral ⟨by simp, digits⟩) fun more lexeme => ?_
  rcases lexeme.cases_first with ⟨starts, -⟩ | ⟨-, numeral⟩ | ⟨-, noDigit, -⟩
  · rw [isDigit_of_isWordStart starts] at digit
    cases digit
  · exact (List.forall_mem_cons.mp numeral.2).2
  · rw [digit] at noDigit
    cases noDigit

/-- Where neither a word nor a numeral begins, every lexeme is a symbol. -/
theorem IsLexeme.eq_symbol
    {first : Char}
    {rest other : List Char}
    (lexeme : IsLexeme other)
    (noWord : isWordStart first = false)
    (noDigit : Text.isDigit first = false)
    (begins : other <+: first :: rest) :
    ∃ mark : Symbol, other = mark.spelling.toList := by
  cases other with
  | nil =>
      exact (lexeme.ne_nil rfl).elim
  | cons head tail =>
      obtain ⟨rfl, -⟩ := List.cons_prefix_cons.mp begins
      rcases lexeme.cases_first with ⟨starts, -⟩ | ⟨digit, -⟩ | ⟨-, -, isSymbol⟩
      · rw [noWord] at starts
        cases starts
      · rw [noDigit] at digit
        cases digit
      · exact isSymbol

/-- Where neither a word nor a numeral begins, the leading symbol is the longest match. -/
theorem LongestMatch.of_leading?
    {first : Char}
    {rest : List Char}
    (noWord : isWordStart first = false)
    (noDigit : Text.isDigit first = false)
    {mark : Symbol}
    (found : Symbol.leading? (first :: rest) = some mark) :
    LongestMatch (first :: rest) mark.spelling.toList := by
  refine .lexeme (Symbol.prefix_of_leading? found) (.symbol mark) ?_
  intro other begins lexeme
  obtain ⟨otherMark, rfl⟩ := lexeme.eq_symbol noWord noDigit begins
  exact Symbol.longest_of_leading? found begins

/-- Where no symbol begins either, no lexeme does. -/
theorem not_isLexeme_of_leading?_eq_none
    {first : Char}
    {rest other : List Char}
    (noWord : isWordStart first = false)
    (noDigit : Text.isDigit first = false)
    (missing : Symbol.leading? (first :: rest) = none)
    (begins : other <+: first :: rest) :
    ¬ IsLexeme other := by
  intro lexeme
  obtain ⟨mark, rfl⟩ := lexeme.eq_symbol noWord noDigit begins
  have differs := List.find?_eq_none.mp missing mark mark.mem_all
  exact differs (List.isPrefixOf_iff_prefix.mpr begins)

/-! ## Which piece comes next -/

namespace Piece

/-- The texts of the pieces that become tokens, by kind. -/
def IsTokenText : PieceKind → List Char → Prop
  | .word, text => IsWord text
  | .number, text => IsNumeral text
  | .symbol mark, text => text = mark.spelling.toList
  | .stray, text => ¬ IsLexeme text
  | .spacing, _ | .comment, _ => False

/-- A comment opens with `#` or with two slashes, and with nothing else. -/
theorem opensComment_iff {characters : List Char} :
    opensComment characters = true ↔
      ∃ body, characters = '#' :: body ∨ characters = '/' :: '/' :: body := by
  unfold opensComment
  split
  · simp
  · simp
  · rename_i noHash noSlashes
    simp only [Bool.false_eq_true, false_iff, not_exists, not_or]
    exact fun body => ⟨noHash body, noSlashes body⟩

theorem nothingToSkip
    {first : Char}
    {rest : List Char}
    (noSpacing : isSpacing first = false)
    (noComment : opensComment (first :: rest) = false) :
    NothingToSkip (first :: rest) := by
  have noOpening := mt opensComment_iff.mpr (Bool.eq_false_iff.mp noComment)
  refine ⟨by simp [noSpacing], ?_, ?_⟩
  · intro isHash
    obtain rfl : first = '#' := Option.some.inj isHash
    exact noOpening ⟨rest, .inl rfl⟩
  · rintro ⟨body, slashes⟩
    exact noOpening ⟨body, .inr slashes.symm⟩

/-- A comment reaches to the end of its line. -/
theorem next_of_opensComment
    {first : Char}
    {rest : List Char}
    (noSpacing : isSpacing first = false)
    (comment : opensComment (first :: rest) = true) :
    ((next first rest).1.kind = .comment ∧ IsComment (next first rest).1.text) ∧
      EndsLine (next first rest).2 := by
  have piece : next first rest = run .comment (· != '\n') first rest := by
    simp [next, noSpacing, comment]
  rw [piece]
  refine ⟨⟨rfl, ?_, ?_⟩, ?_⟩
  · obtain ⟨body, opening⟩ := opensComment_iff.mp comment
    rcases opening with hash | slashes
    · obtain ⟨rfl, rfl⟩ := List.cons.inj hash
      exact ⟨_, .inl rfl⟩
    · obtain ⟨rfl, rfl⟩ := List.cons.inj slashes
      exact ⟨body.takeWhile (· != '\n'), .inr (by simp [run])⟩
  · intro member
    rcases List.mem_cons.mp member with rfl | inRest
    · cases noSpacing
    · simpa using List.all_eq_true.mp List.all_takeWhile _ inRest
  · intro c atHead
    have stops := List.head?_dropWhile_not (· != '\n') rest
    rw [show (rest.dropWhile (· != '\n')).head? = some c from atHead] at stops
    simpa using stops

/-- Where nothing is to be skipped, the next piece is the longest match. -/
theorem next_of_nothingToSkip
    {first : Char}
    {rest : List Char}
    (noSpacing : isSpacing first = false)
    (noComment : opensComment (first :: rest) = false) :
    LongestMatch (first :: rest) (next first rest).1.text ∧
      IsTokenText (next first rest).1.kind (next first rest).1.text := by
  unfold next
  simp only [noSpacing, noComment, Bool.false_eq_true, if_false]
  split
  · rename_i starts
    exact ⟨.of_isWordStart starts rest, starts, List.all_eq_true.mp List.all_takeWhile⟩
  split
  · rename_i digit
    refine ⟨.of_isDigit digit rest, by simp [run], ?_⟩
    exact List.forall_mem_cons.mpr ⟨digit, List.all_eq_true.mp List.all_takeWhile⟩
  rename_i noWord noDigit
  rw [Bool.not_eq_true] at noWord noDigit
  split
  · rename_i mark found
    simp only [Symbol.cons_take_of_leading? found]
    exact ⟨.of_leading? noWord noDigit found, rfl⟩
  · rename_i missing
    have noLexeme (other : List Char) (begins : other <+: first :: rest) : ¬ IsLexeme other :=
      not_isLexeme_of_leading?_eq_none noWord noDigit missing begins
    exact ⟨.stray rfl noLexeme, noLexeme [first] ⟨rest, rfl⟩⟩

end Piece

/-! ## The text decides the kind -/

theorem Keyword.ofSpelling?_eq_some_iff
    {text : List Char}
    {word : Keyword} :
    ofSpelling? (String.ofList text) = some word ↔ text = word.spelling.toList := by
  constructor
  · intro found
    have spelled := List.find?_some found
    rw [beq_iff_eq] at spelled
    rw [spelled, String.toList_ofList]
  · rintro rfl
    rw [String.ofList_toList]
    cases word <;> rfl

theorem Keyword.eq_of_spelling_eq
    {word other : Keyword}
    (same : word.spelling.toList = other.spelling.toList) :
    word = other :=
  Option.some.inj
    ((ofSpelling?_eq_some_iff.mpr rfl).symm.trans (ofSpelling?_eq_some_iff.mpr same))

theorem IsWord.not_isNumeral
    {text : List Char}
    (isWord : IsWord text) :
    ¬ IsNumeral text := by
  rintro ⟨-, digits⟩
  cases text with
  | nil =>
      exact isWord
  | cons first rest =>
      have digit := digits first (by simp)
      rw [isDigit_of_isWordStart isWord.1] at digit
      cases digit

namespace Symbol

theorem not_isWord_spelling (mark : Symbol) :
    ¬ IsWord mark.spelling.toList := by
  obtain ⟨first, rest, spelled, noWord, -⟩ := mark.spelling_eq_cons
  rw [spelled]
  rintro ⟨starts, -⟩
  rw [noWord] at starts
  cases starts

theorem not_isNumeral_spelling (mark : Symbol) :
    ¬ IsNumeral mark.spelling.toList := by
  obtain ⟨first, rest, spelled, -, noDigit⟩ := mark.spelling_eq_cons
  rw [spelled]
  rintro ⟨-, digits⟩
  have digit := digits first (by simp)
  rw [noDigit] at digit
  cases digit

end Symbol

/-- A numeral is a number as long as it fits 31 bits, and invalid otherwise. -/
theorem Piece.numberKind_of_isNumeral
    {text : List Char}
    (numeral : IsNumeral text) :
    numberKind text =
      if Nat.ofDigitChars 10 text 0 ≤ 2147483647 then
        .int (Int32.ofInt (Nat.ofDigitChars 10 text 0))
      else
        .invalid := by
  have natural : Text.Decimal.natural? text = some (Nat.ofDigitChars 10 text 0) := by
    simp [Text.Decimal.natural?, numeral.1, List.all_eq_true.mpr numeral.2]
  simp only [numberKind, natural, Option.bind_some, Text.Decimal.toInt32?,
    Int.ofNat_eq_natCast]
  by_cases fits : Nat.ofDigitChars 10 text 0 ≤ 2147483647
  · rw [if_pos fits, if_pos (by omega)]
  · rw [if_neg fits, if_neg (by omega)]

namespace TokenKind.IsReadFrom

variable (names : NameTable)

theorem of_symbol (mark : Symbol) :
    IsReadFrom names mark.spelling.toList (.symbol mark) where
  keyword word := by
    refine ⟨nofun, fun same => ?_⟩
    exact (mark.not_isWord_spelling (same ▸ word.isWord_spelling)).elim
  symbol other := by
    refine ⟨fun same => ?_, fun same => ?_⟩
    · rw [TokenKind.symbol.inj same]
    · rw [Symbol.eq_of_spelling_eq same]
  int := by simp [mark.not_isNumeral_spelling]
  ident := by simp [mark.not_isWord_spelling]
  named := nofun
  invalid := by simp [mark.not_isNumeral_spelling, IsLexeme.symbol mark]

theorem of_stray
    {text : List Char}
    (noLexeme : ¬ IsLexeme text) :
    IsReadFrom names text .invalid where
  keyword word := by
    refine ⟨nofun, fun same => ?_⟩
    exact (noLexeme (same ▸ .keyword word)).elim
  symbol mark := by
    refine ⟨nofun, fun same => ?_⟩
    exact (noLexeme (same ▸ .symbol mark)).elim
  int := by simp [mt IsLexeme.numeral noLexeme]
  ident := by simp [mt IsLexeme.word noLexeme]
  named := nofun
  invalid := by simp [noLexeme]

theorem of_keyword (word : Keyword) :
    IsReadFrom names word.spelling.toList (.keyword word) where
  keyword other := by
    refine ⟨fun same => ?_, fun same => ?_⟩
    · rw [TokenKind.keyword.inj same]
    · rw [Keyword.eq_of_spelling_eq same]
  symbol mark := by
    refine ⟨nofun, fun same => ?_⟩
    exact (mark.not_isWord_spelling (same ▸ word.isWord_spelling)).elim
  int := by simp [word.isWord_spelling.not_isNumeral]
  ident := by
    refine ⟨nofun, fun ⟨_, different⟩ => ?_⟩
    exact (different word rfl).elim
  named := nofun
  invalid := by simp [word.isWord_spelling.not_isNumeral, IsLexeme.keyword word]

theorem of_numeral
    {text : List Char}
    (numeral : IsNumeral text) :
    IsReadFrom names text (Piece.numberKind text) := by
  have noSymbol (mark : Symbol) : text ≠ mark.spelling.toList :=
    fun same => mark.not_isNumeral_spelling (same ▸ numeral)
  have noWord : ¬ IsWord text :=
    fun isWord => isWord.not_isNumeral numeral
  have noKeyword (word : Keyword) : text ≠ word.spelling.toList :=
    fun same => noWord (same ▸ word.isWord_spelling)
  rw [Piece.numberKind_of_isNumeral numeral]
  split
  · rename_i fits
    constructor
    case int =>
      intro value
      rw [TokenKind.int.injEq, ← Int32.toInt_inj,
        Int32.toInt_ofInt_of_le (by omega) (by omega)]
      exact ⟨fun same => ⟨numeral, fits, same.symm⟩, fun same => same.2.2.symm⟩
    case invalid =>
      simp [IsLexeme.numeral numeral, fits]
    all_goals simp [noKeyword, noSymbol, noWord]
  · rename_i large
    constructor
    case invalid =>
      simp [numeral, Nat.not_le.mp large]
    all_goals simp [noKeyword, noSymbol, noWord, large]

/-- A word that is no keyword is an identifier, which keeps its text while the table grows. -/
theorem of_word
    {text : List Char}
    (isWord : IsWord text)
    (noKeyword : ∀ word : Keyword, text ≠ word.spelling.toList)
    {known : NameTable}
    (longer : (known.intern (String.ofList text)).2.texts <+: names.texts) :
    IsReadFrom names text (.ident (known.intern (String.ofList text)).1) where
  keyword := by simp [noKeyword]
  symbol mark := by
    refine ⟨nofun, fun same => ?_⟩
    exact (mark.not_isWord_spelling (same ▸ isWord)).elim
  int := by simp [isWord.not_isNumeral]
  ident := by simp [isWord, noKeyword]
  named := by
    rintro name same room
    obtain rfl := TokenKind.ident.inj same
    have here :=
      NameTable.getElem?_intern (Nat.le_trans longer.length_le room)
    rw [NameTable.textOf, NameTable.Shares.getElem?_of_prefix longer here, Option.getD_some]
  invalid := by simp [isWord.not_isNumeral, IsLexeme.word isWord]

end TokenKind.IsReadFrom

/-- A piece whose text is that of a token becomes the token that its text says. -/
theorem Piece.exists_kind_of_isTokenText
    {piece : Piece}
    (spelled : IsTokenText piece.kind piece.text)
    {known names : NameTable}
    (longer : (piece.tokenKind known).2.texts <+: names.texts) :
    ∃ kind : TokenKind,
      (piece.tokenKind known).1 = some kind ∧ kind.IsReadFrom names piece.text := by
  unfold tokenKind at longer ⊢
  cases shape : piece.kind with
  | spacing | comment =>
      rw [shape] at spelled
      exact spelled.elim
  | word =>
      rw [shape] at spelled longer
      unfold wordKind at longer ⊢
      cases found : Keyword.ofSpelling? (String.ofList piece.text) with
      | some word =>
          rw [Keyword.ofSpelling?_eq_some_iff.mp found]
          exact ⟨_, rfl, .of_keyword names word⟩
      | none =>
          rw [found] at longer
          refine ⟨_, rfl, .of_word names spelled ?_ longer⟩
          intro word same
          exact nomatch found.symm.trans (Keyword.ofSpelling?_eq_some_iff.mpr same)
  | number =>
      rw [shape] at spelled
      exact ⟨_, rfl, .of_numeral names spelled⟩
  | symbol mark =>
      rw [shape] at spelled
      rw [spelled]
      exact ⟨_, rfl, .of_symbol names mark⟩
  | stray =>
      rw [shape] at spelled
      exact ⟨_, rfl, .of_stray names spelled⟩

/-! ## The tokens of a source -/

/-- More characters to skip in front of what was scanned. -/
theorem Scanned.skip
    {names : NameTable}
    {offset : Nat}
    {skipped rest : List Char}
    {tokens : List Token}
    (skips : ∀ gap behind, rest = gap ++ behind → Gap gap behind → Gap (skipped ++ gap) behind)
    (scanned : Scanned names (offset + Text.byteLength skipped) rest tokens) :
    Scanned names offset (skipped ++ rest) tokens := by
  cases scanned with
  | finish gapped =>
      rw [Nat.add_assoc, ← Text.byteLength_append]
      exact .finish (skips rest [] (by simp) gapped)
  | token gapped matched read start stop scanned =>
      rw [Nat.add_assoc, ← Text.byteLength_append] at start
      rw [← List.append_assoc]
      exact .token (skips _ _ rfl gapped) matched read start stop scanned

theorem Gap.spaces
    {spaces gap rest : List Char}
    (spacing : ∀ c ∈ spaces, isSpacing c = true)
    (gapped : Gap gap rest) :
    Gap (spaces ++ gap) rest := by
  induction spaces with
  | nil =>
      exact gapped
  | cons c spaces inductionHypothesis =>
      obtain ⟨first, others⟩ := List.forall_mem_cons.mp spacing
      exact .space first (inductionHypothesis others)

namespace Scanned

variable {names : NameTable} {offset : Nat} {first : Char} {rest : List Char}
  {tokens : List Token}

/-- Spacing goes into the gap in front of the next token. -/
theorem of_spacing
    (spacing : isSpacing first = true)
    (scanned :
      Scanned names (offset + Text.byteLength (Piece.next first rest).1.text)
        (Piece.next first rest).2 tokens) :
    (Piece.next first rest).1.kind = .spacing ∧
      Scanned names offset (first :: rest) tokens := by
  have piece : Piece.next first rest = Piece.run .spacing isSpacing first rest := by
    simp [Piece.next, spacing]
  have allSpacing : ∀ c ∈ (Piece.next first rest).1.text, isSpacing c = true := by
    rw [piece]
    exact List.forall_mem_cons.mpr ⟨spacing, List.all_eq_true.mp List.all_takeWhile⟩
  refine ⟨by rw [piece]; rfl, ?_⟩
  rw [← Piece.text_append_next first rest]
  exact scanned.skip fun _ _ _ gapped => gapped.spaces allSpacing

/-- A comment goes into the gap in front of the next token. -/
theorem of_comment
    (noSpacing : isSpacing first = false)
    (comment : Piece.opensComment (first :: rest) = true)
    (scanned :
      Scanned names (offset + Text.byteLength (Piece.next first rest).1.text)
        (Piece.next first rest).2 tokens) :
    (Piece.next first rest).1.kind = .comment ∧
      Scanned names offset (first :: rest) tokens := by
  obtain ⟨⟨kind, isComment⟩, endsLine⟩ := Piece.next_of_opensComment noSpacing comment
  refine ⟨kind, ?_⟩
  rw [← Piece.text_append_next first rest]
  refine scanned.skip fun gap behind split gapped => ?_
  rw [split] at endsLine
  exact .comment isComment endsLine gapped

/-- A piece that is neither spacing nor comment is scanned as its token. -/
theorem of_token
    (noSpacing : isSpacing first = false)
    (noComment : Piece.opensComment (first :: rest) = false)
    {known : NameTable}
    (longer : ((Piece.next first rest).1.tokenKind known).2.texts <+: names.texts)
    (scanned :
      Scanned names (offset + Text.byteLength (Piece.next first rest).1.text)
        (Piece.next first rest).2 tokens) :
    Scanned names offset (first :: rest)
      (((Piece.next first rest).1.token? offset known).toList ++ tokens) := by
  obtain ⟨matched, spelled⟩ := Piece.next_of_nothingToSkip noSpacing noComment
  obtain ⟨kind, found, read⟩ := Piece.exists_kind_of_isTokenText spelled longer
  have nothing := Piece.nothingToSkip noSpacing noComment
  rw [← Piece.text_append_next first rest] at matched nothing ⊢
  simp only [Piece.token?, found]
  exact .token (.nothing nothing) matched read rfl rfl scanned

end Scanned

/-- Spacing and comments become no tokens. -/
theorem Piece.tokenKind_of_skipped
    {piece : Piece}
    (skipped : piece.kind = .spacing ∨ piece.kind = .comment)
    (names : NameTable) :
    piece.tokenKind names = (none, names) := by
  unfold tokenKind
  rcases skipped with spacing | comment
  · rw [spacing]
  · rw [comment]

namespace Token

theorem ofCharacters_cons_of_skipped
    (offset : Nat)
    (names : NameTable)
    {first : Char}
    {rest : List Char}
    (skipped :
      (Piece.next first rest).1.kind = .spacing ∨ (Piece.next first rest).1.kind = .comment) :
    ofCharacters offset names (first :: rest) =
      ofCharacters (offset + Text.byteLength (Piece.next first rest).1.text) names
        (Piece.next first rest).2 := by
  rw [ofCharacters_cons]
  simp [Piece.token?, Piece.tokenKind_of_skipped skipped]

theorem prefix_ofCharacters (offset : Nat) (names : NameTable) (characters : List Char) :
    names.texts <+: (ofCharacters offset names characters).2.texts := by
  rw [ofCharacters, inside_snd]
  exact names.prefix_internAll _

/-- The tokens that are read from characters are those that the characters stand for. -/
theorem scanned_ofCharacters (offset : Nat) (names : NameTable) (characters : List Char) :
    Scanned (ofCharacters offset names characters).2 offset characters
      ((ofCharacters offset names characters).1 ++
        [⟨.endOfInput, Span.point (offset + Text.byteLength characters)⟩]) := by
  induction characters using Piece.all.induct generalizing offset names with
  | case1 =>
      rw [ofCharacters_nil]
      exact .finish (.nothing ⟨by simp, by simp, by simp⟩)
  | case2 first rest inductionHypothesis =>
      have bytes := congrArg Text.byteLength (Piece.text_append_next first rest)
      rw [Text.byteLength_append] at bytes
      rw [← bytes, ← Nat.add_assoc]
      by_cases spacing : isSpacing first = true
      · obtain ⟨kind, scanned⟩ := Scanned.of_spacing spacing (inductionHypothesis _ names)
        rw [ofCharacters_cons_of_skipped offset names (.inl kind)]
        exact scanned
      rw [Bool.not_eq_true] at spacing
      by_cases comment : Piece.opensComment (first :: rest) = true
      · obtain ⟨kind, scanned⟩ :=
          Scanned.of_comment spacing comment (inductionHypothesis _ names)
        rw [ofCharacters_cons_of_skipped offset names (.inr kind)]
        exact scanned
      rw [Bool.not_eq_true] at comment
      rw [ofCharacters_cons]
      simp only [List.append_assoc]
      exact .of_token spacing comment (prefix_ofCharacters _ _ _) (inductionHypothesis _ _)

/--
The tokens of a source are its longest matches: between spaces and comments, each
token is the longest lexeme at its place or a single character, and its text decides
its kind.
-/
theorem lex_longest_match (source : String) (names : NameTable) :
    Scanned (lex source names).2 0 source.toList (lex source names).1 := by
  rw [lex_eq]
  have scanned := scanned_ofCharacters 0 names source.toList
  rw [Nat.zero_add] at scanned
  exact scanned

end Token

end ScopeLang
