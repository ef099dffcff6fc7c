import Mathlib
import ScopeLang.Proofs.Diagnostic.Place

namespace ScopeLang

/-!
# Carets under a token

A span is measured in bytes and a line in characters. Lexemes have one byte for each
character, so the two measures differ for one kind of token only: a character of several
bytes with which no lexeme begins. It has too many carets where other characters follow
on its line.
-/

/-! ## Bytes and characters of a token -/

/-- The characters of words are ASCII characters. -/
theorem utf8Size_of_isWordPart
    {c : Char}
    (part : isWordPart c = true) :
    c.utf8Size = 1 := by
  have ascii : c ≤ '\x7f' := by
    simp only [isWordPart, isWordStart, Text.isDigit, Bool.or_eq_true, Bool.and_eq_true,
      decide_eq_true_eq, beq_iff_eq] at part
    rcases part with ((⟨-, upper⟩ | ⟨-, upper⟩) | rfl) | ⟨-, upper⟩
    · exact upper.trans (by decide)
    · exact upper.trans (by decide)
    · decide
    · exact upper.trans (by decide)
  exact Char.utf8Size_eq_one_iff.mpr ascii

/-- The characters of symbols are ASCII characters. -/
theorem Symbol.utf8Size_of_mem
    {mark : Symbol}
    {c : Char}
    (member : c ∈ mark.spelling.toList) :
    c.utf8Size = 1 := by
  have oneByte : mark.spelling.toList.all (·.utf8Size == 1) = true := by
    cases mark <;> rfl
  simpa using List.all_eq_true.mp oneByte c member

/-- Every character of a lexeme is one byte. -/
theorem IsLexeme.utf8Size_of_mem
    {text : List Char}
    (lexeme : IsLexeme text)
    {c : Char}
    (member : c ∈ text) :
    c.utf8Size = 1 := by
  rcases lexeme.wordParts_or_symbol with parts | ⟨mark, rfl⟩
  · exact utf8Size_of_isWordPart (parts c member)
  · exact Symbol.utf8Size_of_mem member

/-- Characters of one byte each are as many as their bytes. -/
theorem Text.byteLength_eq_length
    {characters : List Char}
    (oneByte : ∀ c ∈ characters, c.utf8Size = 1) :
    byteLength characters = characters.length := by
  induction characters with
  | nil =>
      rfl
  | cons c rest inductionHypothesis =>
      obtain ⟨here, later⟩ := List.forall_mem_cons.mp oneByte
      rw [byteLength_cons, here, inductionHypothesis later, List.length_cons, Nat.add_comm]

/-- A token has as many bytes as characters, or it is a single character. -/
theorem LongestMatch.byteLength_cases
    {characters text : List Char}
    (matched : LongestMatch characters text) :
    Text.byteLength text = text.length ∨ ∃ c, text = [c] := by
  cases matched with
  | lexeme _ lexeme =>
      exact .inl (Text.byteLength_eq_length fun _ => lexeme.utf8Size_of_mem)
  | @stray c =>
      exact .inr ⟨c, rfl⟩

namespace Diagnostic

/-! ## Carets of a drawing -/

/-- The number of carets with which a drawing ends. -/
def drawnCarets (drawing : String) : Nat :=
  (drawing.toList.reverse.takeWhile (· == '^')).length

/-- The carets of the last row of a drawing; the space in front of them sets them off. -/
theorem drawnCarets_append (drawing : String) (indent carets : Nat) :
    drawnCarets (drawing ++ " | " ++ Text.repeated indent ' ' ++ Text.repeated carets '^') =
      carets := by
  have reversed :
      (drawing ++ " | " ++ Text.repeated indent ' ' ++
          Text.repeated carets '^').toList.reverse =
        List.replicate carets '^' ++
          (List.replicate indent ' ' ++ (' ' :: '|' :: ' ' :: drawing.toList.reverse)) := by
    simp [Text.repeated, String.toList_append]
  have kept : ∀ c ∈ List.replicate carets '^', (c == '^') = true := by
    simp +contextual
  have stopped :
      (List.replicate indent ' ' ++ (' ' :: '|' :: ' ' :: drawing.toList.reverse)).takeWhile
          (· == '^') = [] := by
    cases indent <;> rfl
  rw [drawnCarets, reversed, List.takeWhile_append_of_pos kept, stopped, List.append_nil,
    List.length_replicate]

/-- A diagnostic is drawn with the carets that were counted for its line. -/
theorem drawnCarets_render
    {source : String}
    {span : Span}
    {position : Position}
    {line : List Char}
    (origin : Option String)
    (message : String)
    (reached : span.position source.toList = position)
    (shown : Text.lineAt (position.line - 1) source.toList = line) :
    drawnCarets (render source origin message span) =
      caretCount span position.column line.length := by
  subst reached shown
  exact drawnCarets_append _ _ _

/-- The number of carets under some text with more behind it on its line. -/
def caretsUnder (text behind : List Char) : Nat :=
  min (max (Text.byteLength text) 1) (max (text.length + behind.length) 1)

/-- Under a single character there is a caret for each of its bytes, as far as the line goes on. -/
theorem caretsUnder_singleton (c : Char) (behind : List Char) :
    caretsUnder [c] behind = min c.utf8Size (1 + behind.length) := by
  have positive := c.utf8Size_pos
  rw [caretsUnder, Text.byteLength_cons, Text.byteLength, List.foldr_nil, List.length_singleton]
  omega

/-- The carets under a token are as many as its characters, with one exception. -/
theorem caretsUnder_eq_length_iff
    {text behind : List Char}
    (sizes : Text.byteLength text = text.length ∨ ∃ c, text = [c]) :
    caretsUnder text behind = max text.length 1 ↔
      ∀ c, text = [c] → c.utf8Size = 1 ∨ behind = [] := by
  rcases sizes with same | ⟨c, rfl⟩
  · have covered : caretsUnder text behind = max text.length 1 := by
      rw [caretsUnder, same]
      omega
    refine iff_of_true covered fun c shape => .inl ?_
    rw [shape] at same
    exact same
  · have one : min c.utf8Size (1 + behind.length) = 1 ↔ c.utf8Size = 1 ∨ behind = [] := by
      have positive := c.utf8Size_pos
      rw [← List.length_eq_zero_iff]
      omega
    rw [caretsUnder_singleton, List.length_singleton, Nat.max_self, one]
    simp

end Diagnostic

/-- The carets under a token are those under its text. -/
theorem Token.StandsAt.caretCount_span
    {source : List Char}
    {token : Token}
    {stretch : Stretch source}
    (stands : token.StandsAt stretch)
    (short : Text.byteLength source < UInt32.size)
    (front behind : List Char) :
    Diagnostic.caretCount token.span (front.length + 1)
        (front ++ (stretch.text ++ behind)).length =
      Diagnostic.caretsUnder stretch.text behind := by
  obtain ⟨start, stop⟩ := stands.toNat_span short
  have bytes : token.span.length = Text.byteLength stretch.text := by
    rw [Span.length, start, stop, Stretch.stop, Nat.add_sub_cancel_left]
  rw [Diagnostic.caretCount, bytes, List.length_append, List.length_append, Nat.add_sub_cancel,
    Nat.add_sub_cancel_left, Diagnostic.caretsUnder]

namespace Diagnostic

/--
A parse error of a source shorter than 2^32 bytes is drawn with one caret for every character
of its token, and with one for the end of the input, unless the token is a character of
several bytes with others behind it on its line. Such a character has one caret for every
byte, as far as the line goes on.
-/
theorem carets_cover_token_unless_wide
    (source : String)
    (names : NameTable)
    (origin : Option String)
    (message : String)
    (error : ParseError)
    (short : source.utf8ByteSize < UInt32.size)
    (stopped : parseProgram (Token.lex source names).1 = .error error) :
    ∃ (line token : Stretch source.toList) (front behind : List Char),
      line.IsLine ∧
      (token.start = error.span.start.toNat ∧ token.stop = error.span.stop.toNat) ∧
      (token.before = line.before ++ front ∧ line.text = front ++ (token.text ++ behind)) ∧
      (token.text = [] ↔ error.found.kind = .endOfInput) ∧
      let carets := drawnCarets (render source origin message error.span)
      (carets = max token.text.length 1 ↔
          ∀ c, token.text = [c] → c.utf8Size = 1 ∨ behind = []) ∧
        ∀ c, token.text = [c] → carets = min c.utf8Size (1 + behind.length) := by
  rw [← Text.byteLength_toList] at short
  have member := found_mem_of_parseProgram_lex_eq_error stopped
  obtain ⟨token, stands, matched⟩ := Token.exists_standsAt_longestMatch member
  obtain ⟨line, front, behind, isLine, before, text, position, shown⟩ :=
    stands.exists_isLine short
  obtain ⟨start, stop⟩ := stands.toNat_span short
  have sizes : Text.byteLength token.text = token.text.length ∨ ∃ c, token.text = [c] := by
    rcases matched with nothing | longest
    · exact .inl (by rw [nothing]; rfl)
    · exact longest.byteLength_cases
  have drawn := drawnCarets_render origin message position shown
  rw [text, stands.caretCount_span short front behind] at drawn
  refine
    ⟨line, token, front, behind, isLine, ⟨start.symm, stop.symm⟩, ⟨before, text⟩, ?_, ?_, ?_⟩
  · rcases stands.text with ⟨atEnd, nothing, -⟩ | ⟨inside, nonempty⟩
    · exact iff_of_true nothing atEnd
    · exact iff_of_false nonempty inside
  · exact drawn ▸ caretsUnder_eq_length_iff sizes
  · intro c shape
    rw [shape, caretsUnder_singleton] at drawn
    exact drawn

/-- Of three bytes of a character the line has room for two carets. -/
theorem carets_cover_token_unless_wide_euro_sign :
    let source := "€)"
    let error : ParseError := ⟨.phrase "statement", ⟨.invalid, ⟨0, 3⟩⟩⟩
    source.utf8ByteSize < UInt32.size ∧
      parseProgram (Token.lex source .initial).1 = .error error ∧
        drawnCarets (render source none (error.message .initial) error.span) = 2 ∧
          ∃ (line token : Stretch source.toList) (front behind : List Char),
            line.IsLine ∧
              line.text = front ++ (token.text ++ behind) ∧
                token.text = ['€'] ∧ behind.length = 1 := by
  intro source error
  have short : source.utf8ByteSize < UInt32.size := by
    decide
  have stopped : parseProgram (Token.lex source .initial).1 = .error error := by
    cbv
  have drawn : drawnCarets (render source none (error.message .initial) error.span) = 2 := by
    decide +kernel
  let sign : Stretch source.toList := ⟨[], ['€'], [')'], by decide⟩
  obtain ⟨line, token, front, behind, isLine, ⟨start, stop⟩, ⟨-, text⟩, -, -, single⟩ :=
    carets_cover_token_unless_wide source .initial none (error.message .initial) error short
      stopped
  have sameStart : token.start = sign.start := by
    rw [start]
    rfl
  have sameStop : token.stop = sign.stop := by
    rw [stop]
    rfl
  have shape : token.text = ['€'] :=
    Stretch.text_eq sameStart sameStop
  have room := (single '€' shape).symm.trans drawn
  have threeBytes : '€'.utf8Size = 3 := by
    decide
  exact ⟨short, stopped, drawn, line, token, front, behind, isLine, text, shape, by omega⟩

/-- A character of two bytes has two carets where another character follows. -/
theorem two_carets_under_one_character :
    ¬ ∀ (source : String) (names : NameTable) (origin : Option String) (message : String)
        (error : ParseError),
      source.utf8ByteSize < UInt32.size →
      parseProgram (Token.lex source names).1 = .error error →
        ∀ token : Stretch source.toList,
          token.start = error.span.start.toNat →
          token.stop = error.span.stop.toNat →
            drawnCarets (render source origin message error.span) = max token.text.length 1 := by
  intro claimed
  let error : ParseError := ⟨.phrase "statement", ⟨.invalid, ⟨0, 2⟩⟩⟩
  have stopped : parseProgram (Token.lex "é x" .initial).1 = .error error := by
    cbv
  have drawn : drawnCarets (render "é x" none (error.message .initial) error.span) = 2 := by
    decide +kernel
  have one := claimed "é x" .initial none (error.message .initial) error (by decide) stopped
    ⟨[], ['é'], [' ', 'x'], by decide⟩ rfl rfl
  rw [drawn] at one
  cases one

end Diagnostic

end ScopeLang
