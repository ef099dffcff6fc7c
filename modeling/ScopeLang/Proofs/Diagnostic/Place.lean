import Mathlib
import ScopeLang.Proofs.Diagnostic.Lines
import ScopeLang.Proofs.Grammar.EndMark
import ScopeLang.Proofs.Token.Spelling

namespace ScopeLang

/-!
# The place of a parse error

An error is found at a token, and the span of a token begins where its text does. No text of
a token has a space or a line break in it, so the whole token is on one line. This is the
line that is shown, and the carets begin where the token does.
-/

/-! ## Tokens in their source -/

/-- Behind a gap stands something that is not skipped. -/
theorem Gap.nothingToSkip
    {gap rest : List Char}
    (gapped : Gap gap rest) :
    NothingToSkip rest := by
  induction gapped with
  | nothing nothing =>
      exact nothing
  | space _ _ inductionHypothesis =>
      exact inductionHypothesis
  | comment _ _ _ inductionHypothesis =>
      exact inductionHypothesis

/-- There is no space in the text of a token. -/
theorem LongestMatch.isSpacing_of_mem
    {characters text : List Char}
    (matched : LongestMatch characters text)
    (nothing : NothingToSkip characters)
    {c : Char}
    (member : c ∈ text) :
    isSpacing c = false := by
  cases matched with
  | lexeme _ lexeme =>
      cases text with
      | nil =>
          cases member
      | cons first more =>
          rcases List.mem_cons.mp member with rfl | later
          · exact lexeme.first_ne.1
          · have inside := lexeme.setsOff_of_mem_tail later
            exact (Bool.or_eq_false_iff.mp inside).1
  | stray shape =>
      obtain rfl := List.mem_singleton.mp member
      exact nothing.1 c (by rw [shape]; rfl)

/-- The stretch of a source that a token was read from. -/
structure Token.StandsAt {source : List Char} (token : Token) (stretch : Stretch source) :
    Prop where
  span : token.span = .ofRange stretch.start stretch.stop
  noSpacing : ∀ c ∈ stretch.text, isSpacing c = false
  /-- The end mark stands behind everything, and every other token for some text. -/
  text :
    token.kind = .endOfInput ∧ stretch.text = [] ∧ stretch.after = [] ∨
      token.kind ≠ .endOfInput ∧ stretch.text ≠ []

/--
Whatever is scanned from some offset on was read from a longest match, in a source with so many
bytes in front.
-/
theorem Scanned.exists_longestMatch
    {names : NameTable}
    {source characters : List Char}
    {offset : Nat}
    {tokens : List Token}
    (scanned : Scanned names offset characters tokens) :
    ∀ {before : List Char},
      source = before ++ characters →
      offset = Text.byteLength before →
        ∀ token ∈ tokens, token.kind ≠ .endOfInput →
          ∃ stretch : Stretch source,
            token.span = .ofRange stretch.start stretch.stop ∧
              NothingToSkip (stretch.text ++ stretch.after) ∧
                LongestMatch (stretch.text ++ stretch.after) stretch.text := by
  induction scanned with
  | finish =>
      intro before _ _ token member inside
      obtain rfl := List.mem_singleton.mp member
      exact (inside rfl).elim
  | @token offset start stop gap text rest kind tokens gapped matched _ atStart atStop _
      inductionHypothesis =>
      rintro before whole rfl token member inside
      rw [← Text.byteLength_append] at atStart
      have split : source = before ++ gap ++ text ++ rest := by
        simp [whole]
      rcases List.mem_cons.mp member with rfl | later
      · let stretch : Stretch source :=
          ⟨before ++ gap, text, rest, by rw [split, List.append_assoc]⟩
        refine ⟨stretch, ?_, gapped.nothingToSkip, matched⟩
        rw [atStop, atStart]
        rfl
      · rw [atStart, ← Text.byteLength_append] at atStop
        exact inductionHypothesis split atStop token later inside

/--
Every token of a source was read from a stretch of it: the end mark from nothing, and all
others from the longest match there.
-/
theorem Token.exists_standsAt_longestMatch
    {source : String}
    {names : NameTable}
    {token : Token}
    (member : token ∈ (lex source names).1) :
    ∃ stretch : Stretch source.toList,
      token.StandsAt stretch ∧
        (stretch.text = [] ∨ LongestMatch (stretch.text ++ stretch.after) stretch.text) := by
  rw [lex_eq, List.mem_append, List.mem_singleton] at member
  rcases member with inSource | rfl
  · have inside := kind_ne_endOfInput_of_mem_inside inSource
    obtain ⟨stretch, span, nothing, matched⟩ :=
      (scanned_ofCharacters 0 names source.toList).exists_longestMatch
        (List.nil_append _).symm rfl token (List.mem_append_left _ inSource) inside
    refine ⟨stretch, ⟨span, ?_, .inr ⟨inside, matched.ne_nil⟩⟩, .inr matched⟩
    exact fun c => matched.isSpacing_of_mem nothing
  · let stretch : Stretch source.toList := ⟨source.toList, [], [], by simp⟩
    exact ⟨stretch, ⟨rfl, nofun, .inl ⟨rfl, rfl, rfl⟩⟩, .inl rfl⟩

namespace Token.StandsAt

variable {source : List Char} {token : Token} {stretch : Stretch source}

/-- Below 2^32 bytes the span of a token is that of its stretch. -/
theorem toNat_span
    (stands : token.StandsAt stretch)
    (short : Text.byteLength source < UInt32.size) :
    token.span.start.toNat = stretch.start ∧ token.span.stop.toNat = stretch.stop := by
  have bytes := congrArg Text.byteLength stretch.whole
  rw [Text.byteLength_append, Text.byteLength_append] at bytes
  have order : stretch.start ≤ stretch.stop :=
    Nat.le_add_right _ _
  have fits : stretch.stop ≤ Text.byteLength source := by
    rw [Stretch.stop, Stretch.start]
    omega
  rw [stands.span]
  exact ⟨Span.toNat_clamp (by omega), Span.toNat_clamp (by omega)⟩

/-- The position of a token is the one that is reached in front of it. -/
theorem position_span
    (stands : token.StandsAt stretch)
    (short : Text.byteLength source < UInt32.size) :
    token.span.position source = .after stretch.before := by
  have found := Span.position_append (stands.toNat_span short).1 (stretch.text ++ stretch.after)
  rwa [← stretch.whole] at found

/-- The line that is found by the position of a token has the whole token in it. -/
theorem exists_isLine
    (stands : token.StandsAt stretch)
    (short : Text.byteLength source < UInt32.size) :
    ∃ (line : Stretch source) (front behind : List Char),
      line.IsLine ∧
        stretch.before = line.before ++ front ∧
          line.text = front ++ (stretch.text ++ behind) ∧
            token.span.position source = ⟨line.before.count '\n' + 1, front.length + 1⟩ ∧
              Text.lineAt (line.before.count '\n') source = line.text := by
  rw [stands.position_span short]
  have unbroken : '\n' ∉ stretch.text := fun member =>
    nomatch stands.noSpacing '\n' member
  refine stretch.exists_isLine unbroken fun carriage => ?_
  rcases stands.text with ⟨-, -, ended⟩ | ⟨-, nonempty⟩
  · simp [ended]
  · rw [List.getLast?_append, List.getLast?_eq_some_getLast nonempty, Option.some_or] at carriage
    have member : '\r' ∈ stretch.text := Option.some.inj carriage ▸ List.getLast_mem nonempty
    exact nomatch stands.noSpacing '\r' member

end Token.StandsAt

/-! ## Errors at tokens -/

/-- A program with an end mark is refused at one of its tokens. -/
theorem found_mem_of_parseProgram_eq_error
    {tokens : List Token}
    (marked : .endOfInput ∈ tokens.map Token.kind)
    {error : ParseError}
    (stopped : parseProgram tokens = .error error) :
    error.found ∈ tokens := by
  unfold parseProgram at stopped
  rw [Parser.answer_eq_error_iff] at stopped
  obtain ⟨stop, ⟨-, passed, split, inside⟩, found⟩ :=
    (Parser.predicts_program _ _).staysInside.failed stopped
  have whole : tokens = passed ++ stop.rest :=
    split
  cases shape : stop.rest with
  | nil =>
      rw [whole, shape, List.append_nil] at marked
      obtain ⟨mark, member, isEnd⟩ := List.mem_map.mp marked
      exact (inside mark member isEnd).elim
  | cons token rest =>
      have here : stop.current = token := by
        simp [Cursor.current, shape]
      rw [found, here, whole, shape]
      simp

/-- The token that an error blames is one of the tokens of the source. -/
theorem found_mem_of_parseProgram_lex_eq_error
    {source : String}
    {names : NameTable}
    {error : ParseError}
    (stopped : parseProgram (Token.lex source names).1 = .error error) :
    error.found ∈ (Token.lex source names).1 := by
  refine found_mem_of_parseProgram_eq_error ?_ stopped
  rw [Token.kinds_lex]
  simp

/-! ## Drawn errors -/

namespace Diagnostic

/-- There is at least one caret. -/
theorem caretCount_pos (span : Span) (column lineLength : Nat) :
    0 < caretCount span column lineLength := by
  unfold caretCount
  omega

/-- The five rows of a drawing, from the position of the span and the line there. -/
theorem render_eq
    {source : String}
    {span : Span}
    {above front : Nat}
    {text : List Char}
    (origin : Option String)
    (message : String)
    (position : span.position source.toList = ⟨above + 1, front + 1⟩)
    (shown : Text.lineAt above source.toList = text) :
    render source origin message span =
      let number := Text.Decimal.ofNat (above + 1)
      let gutter := Text.repeated number.length ' '
      "error: " ++ message ++ "\n" ++
        gutter ++ "--> " ++ place origin ⟨above + 1, front + 1⟩ ++ "\n" ++
        gutter ++ " |\n" ++
        number ++ " | " ++ String.ofList text ++ "\n" ++
        gutter ++ " | " ++ Text.repeated front ' ' ++
          Text.repeated (caretCount span (front + 1) text.length) '^' := by
  unfold render
  dsimp only
  rw [position]
  dsimp only
  rw [Nat.add_sub_cancel, Nat.add_sub_cancel, shown]

/--
A parse error of a source shorter than 2^32 bytes is drawn with the line that its token is
on, under the number of this line, and the carets begin under the token: what is in front of
the token on the line is as long as the space in front of the carets. For the end of the
input this is the whole line.
-/
theorem render_shows_place
    (source : String)
    (names : NameTable)
    (origin : Option String)
    (message : String)
    (error : ParseError)
    (short : source.utf8ByteSize < UInt32.size)
    (stopped : parseProgram (Token.lex source names).1 = .error error) :
    ∃ (line token : Stretch source.toList) (front behind : List Char),
      line.IsLine ∧
      (token.start = error.span.start.toNat ∧ token.stop = error.span.stop.toNat) ∧
      (token.before = line.before ++ front ∧ line.text = front ++ (token.text ++ behind)) ∧
      (error.found.kind = .endOfInput ∧ token.text = [] ∧ behind = [] ∧ token.after = [] ∨
        error.found.kind ≠ .endOfInput ∧ token.text ≠ []) ∧
      let position : Position := ⟨line.before.count '\n' + 1, front.length + 1⟩
      let number := Text.Decimal.ofNat position.line
      let gutter := Text.repeated number.length ' '
      error.span.position source.toList = position ∧
        ∃ carets, 0 < carets ∧
          render source origin message error.span =
            "error: " ++ message ++ "\n" ++
              gutter ++ "--> " ++ place origin position ++ "\n" ++
              gutter ++ " |\n" ++
              number ++ " | " ++ String.ofList line.text ++ "\n" ++
              gutter ++ " | " ++ Text.repeated front.length ' ' ++
                Text.repeated carets '^' := by
  rw [← Text.byteLength_toList] at short
  obtain ⟨token, stands, -⟩ :=
    Token.exists_standsAt_longestMatch (found_mem_of_parseProgram_lex_eq_error stopped)
  obtain ⟨line, front, behind, isLine, before, text, position, shown⟩ :=
    stands.exists_isLine short
  obtain ⟨start, stop⟩ := stands.toNat_span short
  refine ⟨line, token, front, behind, isLine, ⟨start.symm, stop.symm⟩, ⟨before, text⟩, ?_,
    position, _, caretCount_pos error.span (front.length + 1) line.text.length, ?_⟩
  · rcases stands.text with ⟨atEnd, nothing, ended⟩ | inside
    · refine .inl ⟨atEnd, nothing, ?_, ended⟩
      have whole := line.whole.symm.trans token.whole
      rw [before, text, nothing, ended] at whole
      have nothingBehind : behind = [] ∧ line.after = [] := by
        simpa using whole
      exact nothingBehind.1
    · exact .inr inside
  · exact render_eq origin message position shown

/-- A line break of two characters, and a character of two bytes in front of the end. -/
theorem render_shows_place_end_of_input :
    let source := "write 1\r\nwrite ( # é"
    let error : ParseError := ⟨.phrase "expression", ⟨.endOfInput, ⟨21, 21⟩⟩⟩
    source.utf8ByteSize < UInt32.size ∧
      parseProgram (Token.lex source .initial).1 = .error error ∧
        ∃ line : Stretch source.toList,
          line.IsLine ∧ line.before.count '\n' + 1 = 2 ∧ line.text.length + 1 = 12 := by
  intro source error
  have short : source.utf8ByteSize < UInt32.size := by
    decide
  have stopped : parseProgram (Token.lex source .initial).1 = .error error := by
    cbv
  have position : error.span.position source.toList = ⟨2, 12⟩ := by
    decide +kernel
  obtain ⟨line, token, front, behind, isLine, -, ⟨-, text⟩, ends, reached, -⟩ :=
    render_shows_place source .initial none (error.message .initial) error short stopped
  rw [position] at reached
  obtain ⟨above, column⟩ := Position.mk.inj reached
  refine ⟨short, stopped, line, isLine, above.symm, ?_⟩
  rcases ends with ⟨-, nothing, nothingBehind, -⟩ | ⟨inside, -⟩
  · rw [text, nothing, nothingBehind, List.append_nil, List.append_nil]
    exact column.symm
  · exact (inside rfl).elim

end Diagnostic

end ScopeLang
