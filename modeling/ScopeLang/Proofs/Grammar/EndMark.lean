import ScopeLang.Proofs.Grammar.Blame

namespace ScopeLang

/-!
# Nothing behind the end mark is read

A cursor shows the tokens up to the first end mark, and behind a list without one it
shows an end mark of its own. A parser sees no more than that: at two cursors that show
the same tokens it does the same, and more fuel makes no difference to a parser that
answers. So tokens behind an end mark may as well be missing, and an end mark that is
missing may as well be there.
-/

/-- The tokens up to the first end mark, which is put behind them when there is none. -/
def Token.upToEnd (finish : Span) : List Token → List Token
  | [] => [⟨.endOfInput, finish⟩]
  | token :: rest =>
      if token.kind = .endOfInput then [token] else token :: upToEnd finish rest

/-- Tokens before any end mark are all kept. -/
theorem Token.upToEnd_append
    {before : List Token}
    (inside : ∀ token ∈ before, token.kind ≠ .endOfInput)
    (finish : Span)
    (rest : List Token) :
    upToEnd finish (before ++ rest) = before ++ upToEnd finish rest := by
  induction before with
  | nil =>
      rfl
  | cons token before inductionHypothesis =>
      obtain ⟨tokenInside, restInside⟩ := List.forall_mem_cons.mp inside
      rw [List.cons_append, upToEnd, if_neg tokenInside, inductionHypothesis restInside,
        List.cons_append]

namespace Cursor

/-- The tokens that a cursor shows, the end mark included. -/
def shown (cursor : Cursor) : List Token :=
  Token.upToEnd cursor.finish cursor.rest

/-- At the end a cursor shows the end mark. -/
theorem shown_of_atEnd
    {cursor : Cursor}
    (ended : cursor.current.kind = .endOfInput) :
    cursor.shown = [cursor.current] := by
  cases shape : cursor.rest with
  | nil =>
      simp [shown, current, shape, Token.upToEnd]
  | cons token rest =>
      have mark : token.kind = .endOfInput := by
        simpa [current, shape] using ended
      simp [shown, current, shape, Token.upToEnd, mark]

/-- In front of the end a cursor shows the next token, and then what it shows behind it. -/
theorem shown_of_inside
    {cursor : Cursor}
    (inside : cursor.current.kind ≠ .endOfInput) :
    cursor.shown = cursor.current :: cursor.advance.shown := by
  cases shape : cursor.rest with
  | nil =>
      simp [current, shape] at inside
  | cons token rest =>
      have noMark : token.kind ≠ .endOfInput := by
        simpa [current, shape] using inside
      simp [shown, current, advance, atEnd, shape, Token.upToEnd, noMark]

section

variable {cursor other : Cursor}

/-- Cursors that show the same tokens stand at the same token. -/
theorem current_eq_of_shown_eq
    (same : cursor.shown = other.shown) :
    cursor.current = other.current := by
  have first (place : Cursor) : place.shown.head? = some place.current := by
    by_cases ended : place.current.kind = .endOfInput
    · rw [shown_of_atEnd ended]
      rfl
    · rw [shown_of_inside ended]
      rfl
  have heads : some cursor.current = some other.current := by
    rw [← first, ← first, same]
  exact Option.some.inj heads

/-- Cursors that show the same tokens show the same after a step. -/
theorem shown_advance_eq
    (same : cursor.shown = other.shown) :
    cursor.advance.shown = other.advance.shown := by
  have sameCurrent := current_eq_of_shown_eq same
  by_cases ended : cursor.current.kind = .endOfInput
  · have otherEnded : other.current.kind = .endOfInput :=
      sameCurrent ▸ ended
    simpa [advance, atEnd, ended, otherEnded] using same
  · have otherInside : other.current.kind ≠ .endOfInput :=
      sameCurrent ▸ ended
    rw [shown_of_inside ended, shown_of_inside otherInside] at same
    exact (List.cons.inj same).2

/-- In front of the end, a look at the second token does not pass the end mark. -/
theorem peek_eq_of_shown_eq
    (same : cursor.shown = other.shown)
    (inside : cursor.current.kind ≠ .endOfInput) :
    cursor.peek = other.peek := by
  have otherInside : other.current.kind ≠ .endOfInput :=
    current_eq_of_shown_eq same ▸ inside
  rw [peek_eq inside, peek_eq otherInside, current_eq_of_shown_eq (shown_advance_eq same)]

end

end Cursor

/--
What one parser answers is what the other one answers, and then both stand in front of
the same tokens. Nothing is said when the first one gives up.
-/
inductive Parsed.Kept : Parsed α → Parsed α → Prop where
  | done {value : α} {next last : Cursor} :
      next.shown = last.shown →
      Kept (.done value next) (.done value last)
  | failed {error : ParseError} :
      Kept (.failed error) (.failed error)
  | exhausted {result : Parsed α} :
      Kept .exhausted result

namespace Parser

open Parsed (Kept)

section

variable {cursor other : Cursor}

theorem kept_pure
    (same : cursor.shown = other.shown)
    (value : α) :
    Kept ((pure value : Parser α) cursor) ((pure value : Parser α) other) :=
  .done same

/-- A failure names the token at hand, which both cursors show. -/
theorem kept_fail
    (same : cursor.shown = other.shown)
    (expected : Expectation) :
    Kept ((fail expected : Parser α) cursor) ((fail expected : Parser α) other) := by
  unfold fail Cursor.errorExpected
  rw [Cursor.current_eq_of_shown_eq same]
  exact .failed

/-- Parsers in a row keep their answer when each of them does. -/
theorem kept_bind
    {first firstTwin : Parser α}
    {next nextTwin : α → Parser β}
    (head : Kept (first cursor) (firstTwin other))
    (tail : ∀ value {middle otherMiddle : Cursor},
      middle.shown = otherMiddle.shown →
        Kept (next value middle) (nextTwin value otherMiddle)) :
    Kept ((first >>= next) cursor) ((firstTwin >>= nextTwin) other) := by
  change Kept (Parser.bind first next cursor) (Parser.bind firstTwin nextTwin other)
  unfold Parser.bind
  generalize first cursor = read at head
  generalize firstTwin other = otherRead at head
  cases head with
  | done same =>
      exact tail _ same
  | failed =>
      exact .failed
  | exhausted =>
      exact .exhausted

/-- A parser that looks at the token at hand sees the same one from both cursors. -/
theorem kept_kind_bind
    {next nextTwin : TokenKind → Parser β}
    (same : cursor.shown = other.shown)
    (tail : Kept (next cursor.current.kind cursor) (nextTwin cursor.current.kind other)) :
    Kept ((kind >>= next) cursor) ((kind >>= nextTwin) other) := by
  change Kept (next cursor.current.kind cursor) (nextTwin other.current.kind other)
  rw [← Cursor.current_eq_of_shown_eq same]
  exact tail

/--
A parser that looks one token ahead sees the same one, as long as the end mark is not at
hand.
-/
theorem kept_peek_bind
    {next nextTwin : TokenKind → Parser β}
    (same : cursor.shown = other.shown)
    (inside : cursor.current.kind ≠ .endOfInput)
    (tail : Kept (next cursor.peek cursor) (nextTwin cursor.peek other)) :
    Kept ((peek >>= next) cursor) ((peek >>= nextTwin) other) := by
  change Kept (next cursor.peek cursor) (nextTwin other.peek other)
  rw [← Cursor.peek_eq_of_shown_eq same inside]
  exact tail

theorem kept_advance
    (same : cursor.shown = other.shown) :
    Kept (advance cursor) (advance other) := by
  unfold advance
  rw [Cursor.current_eq_of_shown_eq same]
  exact .done (Cursor.shown_advance_eq same)

theorem kept_expect
    (same : cursor.shown = other.shown)
    (kind : TokenKind) :
    Kept (expect kind cursor) (expect kind other) := by
  unfold expect Cursor.check
  rw [Cursor.current_eq_of_shown_eq same]
  split
  · exact kept_advance same
  · exact kept_fail same _

theorem kept_name
    (same : cursor.shown = other.shown) :
    Kept (name cursor) (name other) := by
  unfold name
  rw [Cursor.current_eq_of_shown_eq same]
  split
  · exact .done (Cursor.shown_advance_eq same)
  · exact kept_fail same _

/-- Where a token is read, what follows decides. -/
theorem kept_advance_bind
    {next nextTwin : Span → Parser β}
    (same : cursor.shown = other.shown)
    (tail : ∀ span {middle otherMiddle : Cursor},
      middle.shown = otherMiddle.shown →
        Kept (next span middle) (nextTwin span otherMiddle)) :
    Kept ((advance >>= next) cursor) ((advance >>= nextTwin) other) :=
  kept_bind (kept_advance same) tail

/-- A value that is made into another one. -/
theorem kept_map
    {first firstTwin : Parser α}
    {make : α → β}
    (head : Kept (first cursor) (firstTwin other)) :
    Kept ((first >>= fun value => Pure.pure (make value)) cursor)
      ((firstTwin >>= fun value => Pure.pure (make value)) other) :=
  kept_bind head fun value _ _ same => kept_pure same (make value)

end

/-- With more fuel the parsers of the grammar keep what they answer with less. -/
structure Keeps (fuel more : Nat) : Prop where
  expression : ∀ {cursor other : Cursor}, cursor.shown = other.shown →
    Kept (expression fuel cursor) (expression more other)
  binary : ∀ {level} {cursor other : Cursor}, cursor.shown = other.shown →
    Kept (binary fuel level cursor) (binary more level other)
  operand : ∀ {level} {cursor other : Cursor}, cursor.shown = other.shown →
    Kept (operand fuel level cursor) (operand more level other)
  chain : ∀ {level left} {cursor other : Cursor}, cursor.shown = other.shown →
    Kept (chain fuel level left cursor) (chain more level left other)
  unary : ∀ {cursor other : Cursor}, cursor.shown = other.shown →
    Kept (unary fuel cursor) (unary more other)
  calls : ∀ {callee} {cursor other : Cursor}, cursor.shown = other.shown →
    Kept (calls fuel callee cursor) (calls more callee other)
  argument : ∀ {cursor other : Cursor}, cursor.shown = other.shown →
    Kept (argument fuel cursor) (argument more other)
  primary : ∀ {cursor other : Cursor}, cursor.shown = other.shown →
    Kept (primary fuel cursor) (primary more other)
  body : ∀ {cursor other : Cursor}, cursor.shown = other.shown →
    Kept (body fuel cursor) (body more other)
  bodyRest : ∀ {cursor other : Cursor}, cursor.shown = other.shown →
    Kept (bodyRest fuel cursor) (bodyRest more other)
  conditional : ∀ {cursor other : Cursor}, cursor.shown = other.shown →
    Kept (conditional fuel cursor) (conditional more other)
  statement : ∀ {cursor other : Cursor}, cursor.shown = other.shown →
    Kept (statement fuel cursor) (statement more other)

private theorem keeps_zero (more : Nat) : Keeps 0 more := by
  constructor <;> intros <;> exact .exhausted

section

variable {fuel more : Nat} {level : BinaryLevel} {left callee : Expr} {cursor other : Cursor}

private theorem keeps_expression
    (known : Keeps fuel more)
    (same : cursor.shown = other.shown) :
    Kept (expression (fuel + 1) cursor) (expression (more + 1) other) := by
  unfold expression
  refine kept_kind_bind same ?_
  split
  · refine kept_advance_bind same fun _ _ _ sameBehind => ?_
    exact kept_map (known.expression sameBehind)
  · exact known.binary same

private theorem keeps_binary
    (known : Keeps fuel more)
    (same : cursor.shown = other.shown) :
    Kept (binary (fuel + 1) level cursor) (binary (more + 1) level other) := by
  unfold binary
  exact kept_bind (known.operand same) fun left _ _ sameBehind =>
    known.chain sameBehind

private theorem keeps_operand
    (known : Keeps fuel more)
    (same : cursor.shown = other.shown) :
    Kept (operand (fuel + 1) level cursor) (operand (more + 1) level other) := by
  unfold operand
  cases level.tighter? with
  | some tighter =>
      exact known.binary same
  | none =>
      exact known.unary same

private theorem keeps_chain
    (known : Keeps fuel more)
    (same : cursor.shown = other.shown) :
    Kept (chain (fuel + 1) level left cursor) (chain (more + 1) level left other) := by
  unfold chain
  refine kept_kind_bind same ?_
  cases level.operator? cursor.current.kind with
  | some op =>
      refine kept_advance_bind same fun _ _ _ sameBehind => ?_
      refine kept_bind (known.operand sameBehind) fun right _ _ sameRight => ?_
      exact known.chain sameRight
  | none =>
      exact kept_pure same left

private theorem keeps_unary
    (known : Keeps fuel more)
    (same : cursor.shown = other.shown) :
    Kept (unary (fuel + 1) cursor) (unary (more + 1) other) := by
  unfold unary
  refine kept_kind_bind same ?_
  cases cursor.current.kind.unaryOperator? with
  | some op =>
      refine kept_advance_bind same fun _ _ _ sameBehind => ?_
      exact kept_map (known.unary sameBehind)
  | none =>
      exact kept_bind (known.primary same) fun callee _ _ sameBehind =>
        known.calls sameBehind

private theorem keeps_calls
    (known : Keeps fuel more)
    (same : cursor.shown = other.shown) :
    Kept (calls (fuel + 1) callee cursor) (calls (more + 1) callee other) := by
  unfold calls
  refine kept_kind_bind same ?_
  split
  · refine kept_advance_bind same fun _ _ _ sameBehind => ?_
    exact kept_bind (known.argument sameBehind) fun arg _ _ sameArgument =>
      known.calls sameArgument
  · exact kept_pure same callee

private theorem keeps_argument
    (known : Keeps fuel more)
    (same : cursor.shown = other.shown) :
    Kept (argument (fuel + 1) cursor) (argument (more + 1) other) := by
  unfold argument
  refine kept_kind_bind same ?_
  cases cursor.current.kind.unaryOperator? with
  | some op =>
      refine kept_advance_bind same fun _ _ _ sameBehind => ?_
      exact kept_map (known.argument sameBehind)
  | none =>
      exact known.primary same

private theorem keeps_primary
    (known : Keeps fuel more)
    (same : cursor.shown = other.shown) :
    Kept (primary (fuel + 1) cursor) (primary (more + 1) other) := by
  unfold primary
  refine kept_kind_bind same ?_
  cases cursor.current.kind.atom? with
  | some atom =>
      exact kept_map (kept_advance same)
  | none =>
      split
      · refine kept_advance_bind same fun _ _ _ sameBehind => ?_
        refine kept_bind (kept_name sameBehind) fun param _ _ sameBody => ?_
        exact kept_map (known.body sameBody)
      · split
        · refine kept_advance_bind same fun _ _ _ sameBehind => ?_
          refine kept_bind (known.expression sameBehind) fun inner _ _ sameClosing => ?_
          exact kept_map (kept_expect sameClosing _)
        · exact kept_fail same _

private theorem keeps_body
    (known : Keeps fuel more)
    (same : cursor.shown = other.shown) :
    Kept (body (fuel + 1) cursor) (body (more + 1) other) := by
  unfold body
  exact kept_bind (kept_expect same _) fun _ _ _ sameBehind =>
    known.bodyRest sameBehind

private theorem keeps_bodyRest
    (known : Keeps fuel more)
    (same : cursor.shown = other.shown) :
    Kept (bodyRest (fuel + 1) cursor) (bodyRest (more + 1) other) := by
  unfold bodyRest
  refine kept_kind_bind same ?_
  generalize cursor.current.kind = found
  split
  · exact kept_map (kept_advance same)
  · exact kept_fail same _
  · refine kept_bind (known.statement same) fun first _ _ sameBehind => ?_
    exact kept_map (known.bodyRest sameBehind)

private theorem keeps_conditional
    (known : Keeps fuel more)
    (same : cursor.shown = other.shown) :
    Kept (conditional (fuel + 1) cursor) (conditional (more + 1) other) := by
  unfold conditional
  refine kept_bind (kept_expect same _) fun _ _ _ sameCondition => ?_
  refine kept_bind (known.expression sameCondition) fun condition _ _ sameBody => ?_
  refine kept_bind (known.body sameBody) fun thenBody middle _ sameElse => ?_
  refine kept_kind_bind sameElse ?_
  split
  · refine kept_advance_bind sameElse fun _ behindElse _ sameBehind => ?_
    refine kept_kind_bind sameBehind ?_
    split
    · exact kept_map (known.conditional sameBehind)
    · exact kept_map (known.body sameBehind)
  · exact kept_pure sameElse _

private theorem keeps_statement
    (known : Keeps fuel more)
    (same : cursor.shown = other.shown) :
    Kept (statement (fuel + 1) cursor) (statement (more + 1) other) := by
  unfold statement
  refine kept_kind_bind same ?_
  generalize found : cursor.current.kind = next
  split
  · exact kept_map (kept_advance same)
  · exact kept_map (known.body same)
  · exact known.conditional same
  · refine kept_advance_bind same fun _ _ _ sameBehind => ?_
    refine kept_bind (known.expression sameBehind) fun condition _ _ sameBody => ?_
    exact kept_map (known.body sameBody)
  · refine kept_advance_bind same fun _ _ _ sameBehind => ?_
    refine kept_bind (kept_name sameBehind) fun declared _ _ sameSign => ?_
    refine kept_bind (kept_expect sameSign _) fun _ _ _ sameValue => ?_
    exact kept_map (known.expression sameValue)
  · refine kept_advance_bind same fun _ _ _ sameBehind => ?_
    refine kept_bind (kept_expect sameBehind _) fun _ _ _ sameValue => ?_
    exact kept_map (known.expression sameValue)
  · refine kept_advance_bind same fun _ _ _ sameBehind => ?_
    exact kept_map (known.expression sameBehind)
  · -- A name stands here, so the second token is shown as well.
    refine kept_peek_bind same (found ▸ nofun) ?_
    split
    · refine kept_advance_bind same fun _ _ _ sameSign => ?_
      refine kept_advance_bind sameSign fun _ _ _ sameValue => ?_
      exact kept_map (known.expression sameValue)
    · exact kept_map (known.expression same)
  · split
    · exact kept_map (known.expression same)
    · exact kept_fail same _

end

/-- With at least as much fuel, every parser keeps the answers it gives of the shown tokens. -/
theorem keeps
    {fuel more : Nat}
    (order : fuel ≤ more) :
    Keeps fuel more := by
  induction fuel generalizing more with
  | zero =>
      exact keeps_zero more
  | succ fuel inductionHypothesis =>
      obtain ⟨more, rfl⟩ : ∃ less, more = less + 1 :=
        Nat.exists_eq_succ_of_ne_zero (by omega)
      have known := inductionHypothesis (Nat.le_of_succ_le_succ order)
      exact {
        expression := keeps_expression known
        binary := keeps_binary known
        operand := keeps_operand known
        chain := keeps_chain known
        unary := keeps_unary known
        calls := keeps_calls known
        argument := keeps_argument known
        primary := keeps_primary known
        body := keeps_body known
        bodyRest := keeps_bodyRest known
        conditional := keeps_conditional known
        statement := keeps_statement known }

/-- Whole programs are read alike from cursors that show the same tokens. -/
theorem keeps_program
    {fuel more : Nat}
    {cursor other : Cursor}
    (order : fuel ≤ more)
    (same : cursor.shown = other.shown) :
    Kept (program fuel cursor) (program more other) := by
  induction fuel generalizing more cursor other with
  | zero =>
      exact .exhausted
  | succ fuel inductionHypothesis =>
      obtain ⟨more, rfl⟩ : ∃ less, more = less + 1 :=
        Nat.exists_eq_succ_of_ne_zero (by omega)
      have lessOrder := Nat.le_of_succ_le_succ order
      unfold program
      refine kept_kind_bind same ?_
      generalize cursor.current.kind = found
      split
      · exact kept_pure same []
      · refine kept_bind ((keeps lessOrder).statement same) fun _ _ _ sameBehind => ?_
        exact kept_map (inductionHypothesis lessOrder sameBehind)

/-- Sole expressions are read alike from cursors that show the same tokens. -/
theorem keeps_soleExpression
    {fuel more : Nat}
    {cursor other : Cursor}
    (order : fuel ≤ more)
    (same : cursor.shown = other.shown) :
    Kept (soleExpression fuel cursor) (soleExpression more other) := by
  unfold soleExpression
  refine kept_bind ((keeps order).expression same) fun value middle _ sameBehind => ?_
  refine kept_kind_bind sameBehind ?_
  generalize middle.current.kind = found
  split
  · exact kept_pure sameBehind value
  · exact kept_fail sameBehind _

end Parser

/-- The answer of a parser, unless its fuel ran out. -/
def Parsed.answer? : Parsed α → Option (Except ParseError α)
  | .done value _ => some (.ok value)
  | .failed error => some (.error error)
  | .exhausted => none

/-- An answer that is kept is the same answer. -/
theorem Parsed.Kept.answer?_eq
    {result other : Parsed α}
    (kept : result.Kept other)
    {answer : Except ParseError α}
    (answered : result.answer? = some answer) :
    other.answer? = some answer := by
  cases kept with
  | done =>
      exact answered
  | failed =>
      exact answered
  | exhausted =>
      cases answered

namespace Parser

/-- A parser that answers gives its answer. -/
theorem answer?_eq_some_answer
    {parser : Parser α}
    {least : Nat}
    {cursor : Cursor}
    (answers : Answers parser least cursor) :
    (parser cursor).answer? = some (parser.answer answers) := by
  cases read : parser cursor with
  | done value next =>
      rw [answer_eq_ok_iff.mpr ⟨next, read⟩]
      rfl
  | failed error =>
      rw [answer_eq_error_iff.mpr read]
      rfl
  | exhausted =>
      exact (answers.ne_exhausted read).elim

/--
A parser that keeps its answers has one answer at cursors that show the same tokens,
whatever the fuel that it answers with.
-/
theorem answer_eq_of_shown_eq
    {parser : Nat → Parser α}
    (kept : ∀ {fuel more : Nat} {cursor other : Cursor},
      fuel ≤ more → cursor.shown = other.shown →
        (parser fuel cursor).Kept (parser more other))
    {fuel otherFuel least otherLeast : Nat}
    {cursor other : Cursor}
    (same : cursor.shown = other.shown)
    (answers : Answers (parser fuel) least cursor)
    (otherAnswers : Answers (parser otherFuel) otherLeast other) :
    (parser fuel).answer answers = (parser otherFuel).answer otherAnswers := by
  have found := answer?_eq_some_answer answers
  have otherFound := answer?_eq_some_answer otherAnswers
  rcases le_total fuel otherFuel with order | order
  · exact Option.some.inj (((kept order same).answer?_eq found).symm.trans otherFound)
  · exact Option.some.inj (found.symm.trans ((kept order same.symm).answer?_eq otherFound))

end Parser

section

variable {tokens others : List Token}

/-- Tokens that show the same up to the end mark are the same program. -/
theorem parseProgram_eq_of_shown_eq
    (same : (Cursor.ofTokens tokens).shown = (Cursor.ofTokens others).shown) :
    parseProgram tokens = parseProgram others :=
  Parser.answer_eq_of_shown_eq Parser.keeps_program same _ _

/-- Only the tokens up to the first end mark decide what expression is read. -/
theorem parseExpr_eq_of_shown_eq
    (same : (Cursor.ofTokens tokens).shown = (Cursor.ofTokens others).shown) :
    parseExpr tokens = parseExpr others :=
  Parser.answer_eq_of_shown_eq Parser.keeps_soleExpression same _ _

end

/-- Tokens that end in an end mark, with no other one, are shown as they are. -/
theorem Cursor.shown_ofTokens_append
    {before : List Token}
    (inside : ∀ token ∈ before, token.kind ≠ .endOfInput)
    {mark : Token}
    (isMark : mark.kind = .endOfInput)
    (after : List Token) :
    (Cursor.ofTokens (before ++ mark :: after)).shown = before ++ [mark] := by
  change Token.upToEnd _ (before ++ mark :: after) = _
  rw [Token.upToEnd_append inside, Token.upToEnd, if_pos isMark]

/-- Tokens without an end mark are shown with one behind them. -/
theorem Cursor.shown_ofTokens
    {tokens : List Token}
    (inside : ∀ token ∈ tokens, token.kind ≠ .endOfInput) :
    (Cursor.ofTokens tokens).shown =
      tokens ++ [⟨.endOfInput, (tokens.getLast?.map Token.span).getD ⟨0, 0⟩⟩] := by
  have split := Token.upToEnd_append inside (Cursor.ofTokens tokens).finish []
  rwa [List.append_nil] at split

/-- A cursor may move on to another one without passing an end mark. -/
def Cursor.MovesTo (cursor next : Cursor) : Prop :=
  next.finish = cursor.finish ∧
    ∃ passed,
      cursor.rest = passed ++ next.rest ∧
        ∀ token ∈ passed, token.kind ≠ .endOfInput

/-- Reading a word only moves forward. -/
theorem Cursor.Reads.movesTo
    {cursor next : Cursor}
    {kinds : List TokenKind}
    (read : cursor.Reads kinds next) :
    cursor.MovesTo next := by
  have finish : next.finish = cursor.finish := by
    induction kinds generalizing cursor with
    | nil =>
        obtain rfl : cursor = next :=
          read
        rfl
    | cons kind kinds inductionHypothesis =>
        rw [inductionHypothesis read.2.2, advance]
        split <;> rfl
  obtain ⟨passed, split, -, inside⟩ := read.tokens
  exact ⟨finish, passed, split, inside⟩

namespace Parser

/--
From a cursor a parser moves on without passing an end mark, both when it is done and
when it stops at an error, which is found where the parser stands.
-/
structure StaysInside (parser : Parser α) (cursor : Cursor) : Prop where
  done : ∀ {value next}, parser cursor = .done value next → cursor.MovesTo next
  failed : ∀ {error}, parser cursor = .failed error →
    ∃ stop, cursor.MovesTo stop ∧ error.found = stop.current

/-- A parser that predicts a language moves past no token its words do not have. -/
theorem Predicts.staysInside
    {parser : Parser α}
    {language : α → List TokenKind → Prop}
    {cursor : Cursor}
    (known : Predicts parser language cursor) :
    StaysInside parser cursor where
  done := by
    intro value next read
    obtain ⟨kinds, reads, -⟩ := known.done read
    exact reads.movesTo
  failed := by
    intro error stopped
    obtain ⟨kinds, stop, reads, found, -⟩ := known.failed stopped
    exact ⟨stop, reads.movesTo, found⟩

/-- The reader of a sole expression predicts the expressions of the grammar. -/
theorem predicts_soleExpression
    (fuel : Nat)
    (cursor : Cursor) :
    Predicts (soleExpression fuel) (fun value => Derives (.expression value)) cursor := by
  have whole {value : Expr} {kinds : List TokenKind} (word : Derives (.expression value) kinds) :
      Derives (.expression value) (kinds ++ []) := by
    rwa [List.append_nil]
  unfold soleExpression
  refine (predictive fuel).expression.bind ?_ ?_
  · intro value kinds word
    exact ⟨value, [], whole word⟩
  · intro value middle kinds _ word
    refine .kind_bind ?_
    split
    · exact .pure (whole word)
    · exact .fail _ ⟨value, [], whole word⟩

/-- A statement that is read takes up at least one token. -/
theorem remaining_lt_of_statement
    {fuel : Nat}
    {cursor next : Cursor}
    {result : Stmt}
    (read : statement fuel cursor = .done result next) :
    next.remaining < cursor.remaining := by
  obtain ⟨kinds, reads, word, -⟩ := (predictive fuel).statement.done read
  obtain ⟨first, atHead, -⟩ := word.begins
  obtain ⟨passed, split, sameKinds, -⟩ := reads.tokens
  have some : passed ≠ [] := by
    rintro rfl
    rw [← sameKinds] at atHead
    cases atHead
  have longer := List.length_pos_iff.mpr some
  simp only [Cursor.remaining, split, List.length_append]
  omega

end Parser

/--
Every list of tokens has one answer as a program and one as an expression, which any fuel
from some amount on finds. Every statement that is read takes up a token, and no parser
passes an end mark. So tokens behind the first end mark do not matter, and a list without
one is read as if an end mark stood behind it where its last token stands.
-/
theorem parse_up_to_first_end_mark (tokens : List Token) :
    (∀ fuel, parseFuel tokens ≤ fuel →
      (Parser.program fuel (.ofTokens tokens)).answer? = some (parseProgram tokens) ∧
        (Parser.soleExpression fuel (.ofTokens tokens)).answer? = some (parseExpr tokens)) ∧
    (∀ fuel cursor result next,
      Parser.statement fuel cursor = .done result next → next.remaining < cursor.remaining) ∧
    (∀ fuel cursor,
      (Parser.program fuel).StaysInside cursor ∧
        (Parser.soleExpression fuel).StaysInside cursor ∧
          (Parser.statement fuel).StaysInside cursor ∧
            (Parser.expression fuel).StaysInside cursor) ∧
    (∀ before mark after,
      tokens = before ++ mark :: after →
        mark.kind = .endOfInput →
          (∀ token ∈ before, token.kind ≠ .endOfInput) →
            parseProgram tokens = parseProgram (before ++ [mark]) ∧
              parseExpr tokens = parseExpr (before ++ [mark])) ∧
    ((∀ token ∈ tokens, token.kind ≠ .endOfInput) →
      let mark : Token := ⟨.endOfInput, (tokens.getLast?.map Token.span).getD ⟨0, 0⟩⟩
      parseProgram tokens = parseProgram (tokens ++ [mark]) ∧
        parseExpr tokens = parseExpr (tokens ++ [mark])) := by
  refine ⟨?_, ?_, ?_, ?_, ?_⟩
  · intro fuel enough
    exact ⟨(Parser.keeps_program enough rfl).answer?_eq (Parser.answer?_eq_some_answer _),
      (Parser.keeps_soleExpression enough rfl).answer?_eq (Parser.answer?_eq_some_answer _)⟩
  · intro fuel cursor result next read
    exact Parser.remaining_lt_of_statement read
  · intro fuel cursor
    exact ⟨(Parser.predicts_program fuel cursor).staysInside,
      (Parser.predicts_soleExpression fuel cursor).staysInside,
      (Parser.predictive fuel).statement.staysInside,
      (Parser.predictive fuel).expression.staysInside⟩
  · rintro before mark after rfl isMark inside
    have same := (Cursor.shown_ofTokens_append inside isMark after).trans
      (Cursor.shown_ofTokens_append inside isMark []).symm
    exact ⟨parseProgram_eq_of_shown_eq same, parseExpr_eq_of_shown_eq same⟩
  · intro inside mark
    have same := (Cursor.shown_ofTokens inside).trans
      (Cursor.shown_ofTokens_append inside rfl []).symm
    exact ⟨parseProgram_eq_of_shown_eq same, parseExpr_eq_of_shown_eq same⟩

/-- A closing brace behind the end mark does no harm, and the end mark may be left out. -/
theorem parse_up_to_first_end_mark_brace :
    let before : List Token := [⟨.keyword .write, ⟨0, 5⟩⟩, ⟨.int 1, ⟨6, 7⟩⟩]
    let mark : Token := ⟨.endOfInput, ⟨7, 7⟩⟩
    let after : List Token := [⟨.symbol .rightBrace, ⟨8, 9⟩⟩, mark]
    parseProgram (before ++ [mark]) = .ok [.write (.number 1)] ∧
      parseProgram (before ++ mark :: after) = parseProgram (before ++ [mark]) ∧
        parseProgram before = parseProgram (before ++ [⟨.endOfInput, ⟨6, 7⟩⟩]) := by
  intro before mark after
  have inside : ∀ token ∈ before, token.kind ≠ .endOfInput := by
    decide
  obtain ⟨-, -, -, cut, -⟩ := parse_up_to_first_end_mark (before ++ mark :: after)
  obtain ⟨-, -, -, -, extended⟩ := parse_up_to_first_end_mark before
  exact ⟨by cbv, (cut before mark after rfl rfl inside).1, (extended inside).1⟩

end ScopeLang
