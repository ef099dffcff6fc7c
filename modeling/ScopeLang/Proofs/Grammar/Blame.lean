import Mathlib
import ScopeLang.Proofs.Grammar.Prediction
import ScopeLang.Proofs.Token.Kinds

namespace ScopeLang

/-!
# Parse errors blame the first impossible token

A source that does not parse is blamed on one of its tokens. The tokens in front of
it could have been the beginning of a program, and with the blamed token behind
them they no longer can. When it is the end that is blamed, the tokens in front of
it do not make a program on their own.
-/

/-- No word of the grammar holds an end mark. -/
theorem Derives.inside
    {phrase : Phrase}
    {kinds : List TokenKind}
    (derivation : Derives phrase kinds) :
    ∀ kind ∈ kinds, kind ≠ .endOfInput := by
  induction derivation with
  | number | trueWord | falseWord | ident | read | nil | skip =>
      simp
  | disjunction _ inside | single _ inside | tighter _ _ inside | tightest _ inside
  | called _ inside | callee _ inside | argumentPrimary _ inside | block _ inside
  | conditional _ inside | eval _ inside =>
      exact inside
  | operator spells _ inside | argumentOperator spells _ inside =>
      exact List.forall_mem_cons.mpr ⟨spells.ne_endOfInput, inside⟩
  | extended _ spells _ left right =>
      exact List.forall_mem_append.mpr
        ⟨left, List.forall_mem_cons.mpr ⟨spells.ne_endOfInput, right⟩⟩
  | ret | applied | lambda | parenthesized | body | cons | ifThen | ifElse | elseIf | loop
  | declare | retAssign | assign | write =>
      simp_all [or_imp]

namespace Cursor

/-- What lies between two cursors are tokens of the kinds that are read. -/
theorem Reads.tokens
    {cursor next : Cursor}
    {kinds : List TokenKind}
    (read : cursor.Reads kinds next) :
    ∃ before,
      cursor.rest = before ++ next.rest ∧
        before.map Token.kind = kinds ∧
          ∀ token ∈ before, token.kind ≠ .endOfInput := by
  induction kinds generalizing cursor with
  | nil =>
      obtain rfl : cursor = next :=
        read
      exact ⟨[], rfl, rfl, by simp⟩
  | cons kind kinds inductionHypothesis =>
      obtain ⟨here, inside, restRead⟩ := read
      cases shape : cursor.rest with
      | nil =>
          have atEnd : .endOfInput = kind := by
            simpa [current, shape] using here
          exact (inside atEnd.symm).elim
      | cons token rest =>
          obtain rfl : token.kind = kind := by
            simpa [current, shape] using here
          have step : cursor.advance.rest = rest := by
            simp [advance, atEnd, current, shape, inside]
          obtain ⟨before, split, sameKinds, restInside⟩ := inductionHypothesis restRead
          refine ⟨token :: before, ?_, ?_, ?_⟩
          · rw [← step, split, List.cons_append]
          · rw [List.map_cons, sameKinds]
          · exact List.forall_mem_cons.mpr ⟨inside, restInside⟩

end Cursor

/-- Some list of tokens that parses to a program begins with tokens of these kinds. -/
def Viable (kinds : List TokenKind) : Prop :=
  ∃ tokens statements,
    parseProgram tokens = .ok statements ∧ kinds <+: tokens.map Token.kind

/-- The beginning of a word of the grammar is viable. -/
theorem viable_of_derives
    {kinds more : List TokenKind}
    {statements : List Stmt}
    (derived : Derives (.sequence statements) (kinds ++ more)) :
    Viable kinds := by
  let place : TokenKind → Token := (⟨·, ⟨0, 0⟩⟩)
  let tokens := (kinds ++ more).map place ++ [place .endOfInput]
  have inside : ∀ token ∈ (kinds ++ more).map place, token.kind ≠ .endOfInput :=
    List.forall_mem_map.mpr derived.inside
  have sameKinds : ((kinds ++ more).map place).map Token.kind = kinds ++ more := by
    simp [place, Function.comp_def]
  have read := Cursor.reads_tokens (Cursor.ofTokens tokens).finish inside [place .endOfInput]
  rw [sameKinds] at read
  refine ⟨tokens, statements, ?_, ?_⟩
  · unfold parseProgram
    rw [Parser.answer_eq_ok_iff]
    exact (Parser.program_eq_done_iff (remaining_le_parseFuel tokens) read rfl).mpr derived
  · rw [List.map_append, sameKinds, List.append_assoc]
    exact List.prefix_append _ _

/-- Tokens that the parser fails at with some fuel do not parse. -/
theorem parseProgram_ne_ok_of_failed
    {tokens : List Token}
    {fuel : Nat}
    {error : ParseError}
    (stopped : Parser.program fuel (Cursor.ofTokens tokens) = .failed error)
    (statements : List Stmt) :
    parseProgram tokens ≠ .ok statements := by
  intro parsed
  unfold parseProgram at parsed
  rw [Parser.answer_eq_ok_iff] at parsed
  obtain ⟨last, done⟩ := parsed
  obtain ⟨⟨kinds, read, derived⟩, atEnd⟩ := Parser.sound_program done
  rcases (Parser.recognized derived fuel read).2 atEnd with spent | done
  · exact nomatch spent.symm.trans stopped
  · exact nomatch done.symm.trans stopped

/-- Kinds that a list of tokens begins with are read from its beginning. -/
theorem Cursor.reads_of_prefix
    {kinds : List TokenKind}
    {kind : TokenKind}
    {tokens : List Token}
    (inside : ∀ kind ∈ kinds, kind ≠ .endOfInput)
    (starts : kinds ++ [kind] <+: tokens.map Token.kind) :
    ∃ last, (Cursor.ofTokens tokens).Reads kinds last ∧ last.current.kind = kind := by
  obtain ⟨more, split⟩ := starts
  rw [List.append_assoc] at split
  obtain ⟨before, rest, rfl, rfl, restKinds⟩ := List.map_eq_append_iff.mp split.symm
  obtain ⟨token, after, rfl, rfl, -⟩ := List.map_eq_cons_iff.mp restKinds
  have tokensInside (other : Token) (member : other ∈ before) : other.kind ≠ .endOfInput :=
    inside other.kind (List.mem_map_of_mem member)
  exact ⟨_, Cursor.reads_tokens _ tokensInside (token :: after), rfl⟩

/--
The error of a source that does not parse blames one of its tokens. What is in front
of this token is viable and with this token it is not; when the end is blamed, what is
in front of it does not parse on its own.
-/
theorem parseProgram_blames_first_impossible
    (source : String)
    (names : NameTable)
    (error : ParseError)
    (stopped : parseProgram (Token.lex source names).1 = .error error) :
    ∃ before token after,
      (Token.lex source names).1 = before ++ token :: after ∧
        error.found = token ∧
          error.span = token.span ∧
            Viable (before.map Token.kind) ∧
              ¬ Viable ((before ++ [token]).map Token.kind) ∧
                (token.kind = .endOfInput →
                  ∀ statements, parseProgram before ≠ .ok statements) := by
  unfold parseProgram at stopped
  rw [Parser.answer_eq_error_iff] at stopped
  obtain ⟨kinds, stop, read, found, ⟨statements, more, derived⟩, alike⟩ :=
    (Parser.predicts_program _ _).failed stopped
  obtain ⟨before, split, rfl, inside⟩ := read.tokens
  obtain ⟨token, after, rest⟩ : ∃ token after, stop.rest = token :: after := by
    refine List.exists_cons_of_ne_nil ?_
    intro none
    rw [none, List.append_nil] at split
    have marked : .endOfInput ∈ (Token.lex source names).1.map Token.kind := by
      rw [Token.kinds_lex]
      exact List.mem_append_right _ List.mem_cons_self
    rw [show (Token.lex source names).1 = before from split] at marked
    obtain ⟨mark, member, isEnd⟩ := List.mem_map.mp marked
    exact inside mark member isEnd
  have here : stop.current = token := by
    simp [Cursor.current, rest]
  rw [here] at found alike
  rw [rest] at split
  refine ⟨before, token, after, split, found, congrArg Token.span found,
    viable_of_derives derived, ?_, ?_⟩
  · rintro ⟨tokens, accepted, parsed, starts⟩
    rw [List.map_append] at starts
    obtain ⟨last, otherRead, sameKind⟩ :=
      Cursor.reads_of_prefix (List.forall_mem_map.mpr inside) starts
    exact parseProgram_ne_ok_of_failed (alike otherRead sameKind) accepted parsed
  · intro atEnd
    have alone := Cursor.reads_tokens (Cursor.ofTokens before).finish inside []
    rw [List.append_nil] at alone
    exact parseProgram_ne_ok_of_failed (alike alone atEnd.symm)

/-- A branch must be in braces, so the statement behind `else` is blamed on its first token. -/
theorem parseProgram_blames_first_impossible_else :
    let source := "if a { } else write b"
    let error : ParseError := ⟨.kind (.symbol .leftBrace), ⟨.keyword .write, ⟨14, 19⟩⟩⟩
    parseProgram (Token.lex source .initial).1 = .error error ∧
      ∃ before token after,
        (Token.lex source .initial).1 = before ++ token :: after ∧
          error.found = token ∧
            error.span = token.span ∧
              Viable (before.map Token.kind) ∧
                ¬ Viable ((before ++ [token]).map Token.kind) ∧
                  (token.kind = .endOfInput →
                    ∀ statements, parseProgram before ≠ .ok statements) := by
  intro source error
  have stopped : parseProgram (Token.lex source .initial).1 = .error error := by
    cbv
  exact ⟨stopped, parseProgram_blames_first_impossible source .initial error stopped⟩

end ScopeLang
