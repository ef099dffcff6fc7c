import ScopeLang.Parse.Descent

namespace ScopeLang

/-!
# Parsers make progress and do not run out of fuel

A successful parser has read at least one token, and sixteen units of fuel for
each token still to be read are enough for every parser of the grammar. Both
facts are proved together, since the fuel that a later step has left depends on
the tokens that earlier steps have read.
-/

namespace Cursor

/-- The number of tokens still to be read, an end mark included. -/
def remaining (cursor : Cursor) : Nat :=
  cursor.rest.length

/-- Reading a token other than the end mark leaves one token less. -/
theorem remaining_advance
    {cursor : Cursor}
    (inside : cursor.current.kind ≠ .endOfInput) :
    cursor.advance.remaining + 1 = cursor.remaining := by
  cases tokens : cursor.rest with
  | nil => simp [current, tokens] at inside
  | cons first rest =>
      have more : ¬ first.kind = .endOfInput := by simpa [current, tokens] using inside
      simp [advance, atEnd, current, remaining, tokens, more]

end Cursor

/-- The number of levels that are tighter. -/
def BinaryLevel.depth : BinaryLevel → Nat
  | .disjunction => 4
  | .conjunction => 3
  | .comparison => 2
  | .sum => 1
  | .product => 0

namespace Parser

/--
A parser answers at a cursor, and when it succeeds it has read at least so many
tokens.
-/
def Answers (parser : Parser α) (least : Nat) (cursor : Cursor) : Prop :=
  match parser cursor with
  | .done _ next => next.remaining + least ≤ cursor.remaining
  | .failed _ => True
  | .exhausted => False

namespace Answers

/-- A value is an answer that reads nothing. -/
theorem pure (value : α) (cursor : Cursor) :
    Answers (Pure.pure value : Parser α) 0 cursor :=
  Nat.le_refl cursor.remaining

/-- An error is an answer. -/
theorem fail (expected : Expectation) (least : Nat) (cursor : Cursor) :
    Answers (Parser.fail expected : Parser α) least cursor :=
  trivial

/-- A step that is done within its bound answers. -/
theorem of_done
    {parser : Parser α}
    {least : Nat}
    {cursor next : Cursor}
    {value : α}
    (read : parser cursor = .done value next)
    (order : next.remaining + least ≤ cursor.remaining) :
    Answers parser least cursor := by
  rw [Answers, read]
  exact order

/-- A step that failed answers. -/
theorem of_failed
    {parser : Parser α}
    {least : Nat}
    {cursor : Cursor}
    {error : ParseError}
    (stopped : parser cursor = .failed error) :
    Answers parser least cursor := by
  rw [Answers, stopped]
  trivial

/-- What an answer leaves when it is done. -/
theorem remaining_le
    {parser : Parser α}
    {least : Nat}
    {cursor next : Cursor}
    {value : α}
    (answers : Answers parser least cursor)
    (read : parser cursor = .done value next) :
    next.remaining + least ≤ cursor.remaining := by
  rw [Answers, read] at answers
  exact answers

/-- An answer is not for want of fuel. -/
theorem ne_exhausted
    {parser : Parser α}
    {least : Nat}
    {cursor : Cursor}
    (answers : Answers parser least cursor) :
    parser cursor ≠ .exhausted := by
  intro spent
  rw [Answers, spent] at answers
  exact answers

/-- Reading at least some tokens is reading at least fewer tokens. -/
theorem weaken
    {parser : Parser α}
    {more least : Nat}
    {cursor : Cursor}
    (answers : Answers parser more cursor)
    (order : least ≤ more) :
    Answers parser least cursor := by
  cases read : parser cursor with
  | exhausted => exact absurd read answers.ne_exhausted
  | failed error => exact of_failed read
  | done value next =>
      have left := answers.remaining_le read
      exact of_done read (by omega)

/-- Steps that answer one after the other read what both of them read. -/
theorem bind
    {first : Parser α}
    {next : α → Parser β}
    {least later : Nat}
    {cursor : Cursor}
    (head : Answers first least cursor)
    (tail : ∀ value middle,
      middle.remaining + least ≤ cursor.remaining → Answers (next value) later middle) :
    Answers (first >>= next) (least + later) cursor := by
  cases read : first cursor with
  | exhausted => exact absurd read head.ne_exhausted
  | failed error => exact of_failed (bind_of_failed read)
  | done value middle =>
      have passed := head.remaining_le read
      have rest := tail value middle passed
      have whole : (first >>= next) cursor = next value middle := bind_of_done read
      cases outcome : next value middle with
      | exhausted => exact absurd outcome rest.ne_exhausted
      | failed error => exact of_failed (whole.trans outcome)
      | done result final =>
          have left := rest.remaining_le outcome
          exact of_done (whole.trans outcome) (by omega)

/-- A step that reads a token may be followed by any step that answers. -/
theorem andThen
    {first : Parser α}
    {next : α → Parser β}
    {cursor : Cursor}
    (head : Answers first 1 cursor)
    (tail : ∀ value middle,
      middle.remaining < cursor.remaining → Answers (next value) 0 middle) :
    Answers (first >>= next) 1 cursor :=
  head.bind tail

/-- The same where nothing needs to have been read. -/
theorem andThenAny
    {first : Parser α}
    {next : α → Parser β}
    {cursor : Cursor}
    (head : Answers first 1 cursor)
    (tail : ∀ value middle,
      middle.remaining < cursor.remaining → Answers (next value) 0 middle) :
    Answers (first >>= next) 0 cursor :=
  (head.andThen tail).weaken (Nat.zero_le 1)

/-- Steps that need not read anything, one after the other. -/
theorem bindAny
    {first : Parser α}
    {next : α → Parser β}
    {cursor : Cursor}
    (head : Answers first 0 cursor)
    (tail : ∀ value middle,
      middle.remaining ≤ cursor.remaining → Answers (next value) 0 middle) :
    Answers (first >>= next) 0 cursor :=
  head.bind tail

/-- Looking at the next token reads nothing. -/
theorem kind_bind
    {next : TokenKind → Parser β}
    {least : Nat}
    {cursor : Cursor}
    (tail : Answers (next cursor.current.kind) least cursor) :
    Answers (kind >>= next) least cursor :=
  tail

/-- Looking two tokens ahead reads nothing. -/
theorem peek_bind
    {next : TokenKind → Parser β}
    {least : Nat}
    {cursor : Cursor}
    (tail : Answers (next cursor.peek) least cursor) :
    Answers (peek >>= next) least cursor :=
  tail

/-- Reading a token other than the end mark reads one token. -/
theorem advance
    {cursor : Cursor}
    (inside : cursor.current.kind ≠ .endOfInput) :
    Answers Parser.advance 1 cursor := by
  simp [Answers, Parser.advance, Cursor.remaining_advance inside]

/-- Reading a token of a known kind reads one token. -/
theorem advanceOn
    {cursor : Cursor}
    {kind : TokenKind}
    (found : cursor.current.kind = kind)
    (inside : kind ≠ .endOfInput) :
    Answers Parser.advance 1 cursor :=
  advance (found ▸ inside)

/-- Reading a token never leaves more tokens than before. -/
theorem advanceAny (cursor : Cursor) :
    Answers Parser.advance 0 cursor := by
  by_cases atEnd : cursor.current.kind = .endOfInput
  · simp [Answers, Parser.advance, Cursor.advance, Cursor.atEnd, atEnd]
  · exact (advance atEnd).weaken (Nat.zero_le 1)

/-- Reading a token of an expected kind reads one token. -/
theorem expect
    {kind : TokenKind}
    (inside : kind ≠ .endOfInput)
    (cursor : Cursor) :
    Answers (Parser.expect kind) 1 cursor := by
  unfold Answers Parser.expect
  by_cases found : cursor.check kind
  · have here : cursor.current.kind ≠ .endOfInput := by
      intro atEnd
      rw [Cursor.check, atEnd] at found
      cases kind <;> simp_all [TokenKind.sameAs]
    simp [found, Parser.advance, Cursor.remaining_advance here]
  · simp [found, Parser.fail]

/-- Reading an identifier reads one token. -/
theorem name (cursor : Cursor) :
    Answers Parser.name 1 cursor := by
  unfold Answers Parser.name
  cases found : cursor.current.kind with
  | ident name => simp [Cursor.remaining_advance, found]
  | _ => simp [Parser.fail]

end Answers

/-- With some fuel every parser of the grammar answers wherever the fuel is enough. -/
structure Ample (fuel : Nat) : Prop where
  expression : ∀ cursor, 16 * cursor.remaining + 13 ≤ fuel →
    Answers (expression fuel) 1 cursor
  binary : ∀ level cursor, 16 * cursor.remaining + 2 * BinaryLevel.depth level + 4 ≤ fuel →
    Answers (binary fuel level) 1 cursor
  operand : ∀ level cursor, 16 * cursor.remaining + 2 * BinaryLevel.depth level + 3 ≤ fuel →
    Answers (operand fuel level) 1 cursor
  chain : ∀ level left cursor, 16 * cursor.remaining + 1 ≤ fuel →
    Answers (chain fuel level left) 0 cursor
  unary : ∀ cursor, 16 * cursor.remaining + 2 ≤ fuel →
    Answers (unary fuel) 1 cursor
  calls : ∀ callee cursor, 16 * cursor.remaining + 1 ≤ fuel →
    Answers (calls fuel callee) 0 cursor
  argument : ∀ cursor, 16 * cursor.remaining + 2 ≤ fuel →
    Answers (argument fuel) 1 cursor
  primary : ∀ cursor, 16 * cursor.remaining + 1 ≤ fuel →
    Answers (primary fuel) 1 cursor
  body : ∀ cursor, 16 * cursor.remaining + 1 ≤ fuel →
    Answers (body fuel) 1 cursor
  bodyRest : ∀ cursor, 16 * cursor.remaining + 15 ≤ fuel →
    Answers (bodyRest fuel) 0 cursor
  conditional : ∀ cursor, 16 * cursor.remaining + 1 ≤ fuel →
    Answers (conditional fuel) 1 cursor
  statement : ∀ cursor, 16 * cursor.remaining + 14 ≤ fuel →
    Answers (statement fuel) 1 cursor

/-- No fuel at all is never enough. -/
private theorem ample_zero : Ample 0 := by
  constructor <;> intros <;> omega

/-- The fuel lasts for an expression, if what is left of it lasts for the parts. -/
private theorem ample_expression
    {fuel : Nat}
    (ample : Ample fuel)
    (cursor : Cursor)
    (enough : 16 * cursor.remaining + 13 ≤ fuel + 1) :
    Answers (expression (fuel + 1)) 1 cursor := by
  unfold expression
  apply Answers.kind_bind
  split
  · rename_i found
    refine (Answers.advanceOn (beq_iff_eq.1 found) nofun).andThen fun _ middle _ => ?_
    exact (ample.expression middle (by omega)).andThenAny fun _ _ _ => .pure _ _
  · exact ample.binary _ _ (by simp only [BinaryLevel.depth]; omega)

/-- The fuel lasts for the operators of a level, which are two steps above the next level. -/
private theorem ample_binary
    {fuel : Nat}
    (ample : Ample fuel)
    (level : BinaryLevel)
    (cursor : Cursor)
    (enough : 16 * cursor.remaining + 2 * level.depth + 4 ≤ fuel + 1) :
    Answers (binary (fuel + 1) level) 1 cursor := by
  unfold binary
  exact (ample.operand level cursor (by omega)).andThen fun left middle _ =>
    ample.chain level left middle (by omega)

private theorem ample_operand
    {fuel : Nat}
    (ample : Ample fuel)
    (level : BinaryLevel)
    (cursor : Cursor)
    (enough : 16 * cursor.remaining + 2 * level.depth + 3 ≤ fuel + 1) :
    Answers (operand (fuel + 1) level) 1 cursor := by
  unfold operand
  cases level with
  | product => exact ample.unary cursor (by simp only [BinaryLevel.depth] at enough; omega)
  | _ => exact ample.binary _ cursor (by simp only [BinaryLevel.depth] at *; omega)

/-- A token that is an operator at some level is not the end mark. -/
private theorem ne_endOfInput_of_operator?
    {level : BinaryLevel}
    {kind : TokenKind}
    {op : BinaryOp}
    (found : level.operator? kind = some op) :
    kind ≠ .endOfInput := by
  rintro rfl
  cases level <;> simp [BinaryLevel.operator?] at found

/-- A token that is a prefix operator is not the end mark. -/
private theorem ne_endOfInput_of_unaryOperator?
    {kind : TokenKind}
    {op : UnaryOp}
    (found : kind.unaryOperator? = some op) :
    kind ≠ .endOfInput := by
  rintro rfl
  simp [TokenKind.unaryOperator?] at found

/-- A token that is an expression on its own is not the end mark. -/
private theorem ne_endOfInput_of_atom?
    {kind : TokenKind}
    {atom : Expr}
    (found : kind.atom? = some atom) :
    kind ≠ .endOfInput := by
  rintro rfl
  cases found

/-- The fuel lasts for the rest of a chain of operators, which may take no token. -/
private theorem ample_chain
    {fuel : Nat}
    (ample : Ample fuel)
    (level : BinaryLevel)
    (left : Expr)
    (cursor : Cursor)
    (enough : 16 * cursor.remaining + 1 ≤ fuel + 1) :
    Answers (chain (fuel + 1) level left) 0 cursor := by
  unfold chain
  apply Answers.kind_bind
  split
  · rename_i op found
    have depth : level.depth ≤ 4 := by cases level <;> decide
    refine (Answers.advance (ne_endOfInput_of_operator? found)).andThenAny fun _ middle _ => ?_
    refine (ample.operand level middle (by omega)).andThenAny fun _ later _ => ?_
    exact ample.chain level _ later (by omega)
  · exact .pure _ _

private theorem ample_unary
    {fuel : Nat}
    (ample : Ample fuel)
    (cursor : Cursor)
    (enough : 16 * cursor.remaining + 2 ≤ fuel + 1) :
    Answers (unary (fuel + 1)) 1 cursor := by
  unfold unary
  apply Answers.kind_bind
  split
  · rename_i op found
    refine (Answers.advance (ne_endOfInput_of_unaryOperator? found)).andThen fun _ middle _ => ?_
    exact (ample.unary middle (by omega)).andThenAny fun _ _ _ => .pure _ _
  · exact (ample.primary cursor (by omega)).andThen fun callee middle _ =>
      ample.calls callee middle (by omega)

/-- The fuel lasts for the arguments behind a callee, which may take no token. -/
private theorem ample_calls
    {fuel : Nat}
    (ample : Ample fuel)
    (callee : Expr)
    (cursor : Cursor)
    (enough : 16 * cursor.remaining + 1 ≤ fuel + 1) :
    Answers (calls (fuel + 1) callee) 0 cursor := by
  unfold calls
  apply Answers.kind_bind
  split
  · rename_i found
    refine (Answers.advanceOn (beq_iff_eq.1 found) nofun).andThenAny fun _ middle _ => ?_
    refine (ample.argument middle (by omega)).andThenAny fun _ later _ => ?_
    exact ample.calls _ later (by omega)
  · exact .pure _ _

private theorem ample_argument
    {fuel : Nat}
    (ample : Ample fuel)
    (cursor : Cursor)
    (enough : 16 * cursor.remaining + 2 ≤ fuel + 1) :
    Answers (argument (fuel + 1)) 1 cursor := by
  unfold argument
  apply Answers.kind_bind
  split
  · rename_i op found
    refine (Answers.advance (ne_endOfInput_of_unaryOperator? found)).andThen fun _ middle _ => ?_
    exact (ample.argument middle (by omega)).andThenAny fun _ _ _ => .pure _ _
  · exact ample.primary cursor (by omega)

private theorem ample_primary
    {fuel : Nat}
    (ample : Ample fuel)
    (cursor : Cursor)
    (enough : 16 * cursor.remaining + 1 ≤ fuel + 1) :
    Answers (primary (fuel + 1)) 1 cursor := by
  unfold primary
  apply Answers.kind_bind
  split
  · rename_i atom found
    exact (Answers.advance (ne_endOfInput_of_atom? found)).andThen fun _ _ _ => .pure _ _
  · split
    · rename_i found
      refine (Answers.advanceOn (beq_iff_eq.1 found) nofun).andThen fun _ afterWord _ => ?_
      refine (Answers.name afterWord).andThenAny fun _ afterName _ => ?_
      exact (ample.body afterName (by omega)).andThenAny fun _ _ _ => .pure _ _
    · split
      · rename_i found
        refine (Answers.advanceOn (beq_iff_eq.1 found) nofun).andThen fun _ afterParen _ => ?_
        refine (ample.expression afterParen (by omega)).andThenAny fun _ afterInner _ => ?_
        exact (Answers.expect (by decide) afterInner).andThenAny fun _ _ _ => .pure _ _
      · exact .fail _ _ _

private theorem ample_body
    {fuel : Nat}
    (ample : Ample fuel)
    (cursor : Cursor)
    (enough : 16 * cursor.remaining + 1 ≤ fuel + 1) :
    Answers (body (fuel + 1)) 1 cursor := by
  unfold body
  exact (Answers.expect (by decide) cursor).andThen fun _ middle _ =>
    ample.bodyRest middle (by omega)

/-- The fuel lasts for the statements up to a closing brace, one token each at least. -/
private theorem ample_bodyRest
    {fuel : Nat}
    (ample : Ample fuel)
    (cursor : Cursor)
    (enough : 16 * cursor.remaining + 15 ≤ fuel + 1) :
    Answers (bodyRest (fuel + 1)) 0 cursor := by
  unfold bodyRest
  apply Answers.kind_bind
  split
  · rename_i found
    exact (Answers.advanceOn found nofun).andThenAny fun _ _ _ => .pure _ _
  · exact .fail _ _ _
  · refine (ample.statement cursor (by omega)).andThenAny fun _ middle _ => ?_
    exact (ample.bodyRest middle (by omega)).bindAny fun _ _ _ => .pure _ _

private theorem ample_conditional
    {fuel : Nat}
    (ample : Ample fuel)
    (cursor : Cursor)
    (enough : 16 * cursor.remaining + 1 ≤ fuel + 1) :
    Answers (conditional (fuel + 1)) 1 cursor := by
  unfold conditional
  refine (Answers.expect (by decide) cursor).andThen fun _ afterWord _ => ?_
  refine (ample.expression afterWord (by omega)).andThenAny fun _ afterCondition _ => ?_
  refine (ample.body afterCondition (by omega)).andThenAny fun _ afterBody _ => ?_
  apply Answers.kind_bind
  split
  · rename_i found
    refine (Answers.advanceOn (beq_iff_eq.1 found) nofun).andThenAny fun _ afterElse _ => ?_
    apply Answers.kind_bind
    split
    · exact (ample.conditional afterElse (by omega)).andThenAny fun _ _ _ => .pure _ _
    · exact (ample.body afterElse (by omega)).andThenAny fun _ _ _ => .pure _ _
  · exact .pure _ _

/-- The fuel lasts for a statement, which is one step above an expression. -/
private theorem ample_statement
    {fuel : Nat}
    (ample : Ample fuel)
    (cursor : Cursor)
    (enough : 16 * cursor.remaining + 14 ≤ fuel + 1) :
    Answers (statement (fuel + 1)) 1 cursor := by
  have sole : Answers (expression fuel >>= fun value => pure (Stmt.eval value)) 1 cursor :=
    (ample.expression cursor (by omega)).andThen fun _ _ _ => .pure _ _
  unfold statement
  apply Answers.kind_bind
  split
  · rename_i found
    exact (Answers.advanceOn found nofun).andThen fun _ _ _ => .pure _ _
  · exact (ample.body cursor (by omega)).andThen fun _ _ _ => .pure _ _
  · exact ample.conditional cursor (by omega)
  · rename_i found
    refine (Answers.advanceOn found nofun).andThen fun _ afterWord _ => ?_
    refine (ample.expression afterWord (by omega)).andThenAny fun _ afterCondition _ => ?_
    exact (ample.body afterCondition (by omega)).andThenAny fun _ _ _ => .pure _ _
  · rename_i found
    refine (Answers.advanceOn found nofun).andThen fun _ afterWord _ => ?_
    refine (Answers.name afterWord).andThenAny fun _ afterName _ => ?_
    refine (Answers.expect (by decide) afterName).andThenAny fun _ afterSign _ => ?_
    exact (ample.expression afterSign (by omega)).andThenAny fun _ _ _ => .pure _ _
  · rename_i found
    refine (Answers.advanceOn found nofun).andThen fun _ afterWord _ => ?_
    refine (Answers.expect (by decide) afterWord).andThenAny fun _ afterSign _ => ?_
    exact (ample.expression afterSign (by omega)).andThenAny fun _ _ _ => .pure _ _
  · rename_i found
    refine (Answers.advanceOn found nofun).andThen fun _ afterWord _ => ?_
    exact (ample.expression afterWord (by omega)).andThenAny fun _ _ _ => .pure _ _
  · rename_i found
    apply Answers.peek_bind
    split
    · refine (Answers.advanceOn found nofun).andThen fun _ afterName _ => ?_
      refine (Answers.advanceAny afterName).bindAny fun _ afterSign _ => ?_
      exact (ample.expression afterSign (by omega)).andThenAny fun _ _ _ => .pure _ _
    · exact sole
  · split
    · exact sole
    · exact .fail _ _ _

/-- Whatever the fuel, every parser answers wherever that fuel is enough. -/
theorem ample (fuel : Nat) : Ample fuel := by
  induction fuel with
  | zero => exact ample_zero
  | succ fuel inductionHypothesis =>
      exact {
        expression := ample_expression inductionHypothesis
        binary := ample_binary inductionHypothesis
        operand := ample_operand inductionHypothesis
        chain := ample_chain inductionHypothesis
        unary := ample_unary inductionHypothesis
        calls := ample_calls inductionHypothesis
        argument := ample_argument inductionHypothesis
        primary := ample_primary inductionHypothesis
        body := ample_body inductionHypothesis
        bodyRest := ample_bodyRest inductionHypothesis
        conditional := ample_conditional inductionHypothesis
        statement := ample_statement inductionHypothesis }

/-- Sixteen units of fuel for each token are enough to read a program. -/
theorem answers_program
    (fuel : Nat)
    (cursor : Cursor)
    (enough : 16 * cursor.remaining + 15 ≤ fuel) :
    Answers (program fuel) 0 cursor := by
  induction fuel generalizing cursor with
  | zero => omega
  | succ fuel inductionHypothesis =>
      unfold program
      apply Answers.kind_bind
      split
      · exact .pure _ _
      · refine ((ample fuel).statement cursor (by omega)).andThenAny fun _ middle _ => ?_
        exact (inductionHypothesis middle (by omega)).bindAny fun _ _ _ => .pure _ _

/-- Sixteen units of fuel for each token are enough to read a sole expression. -/
theorem answers_soleExpression
    (fuel : Nat)
    (cursor : Cursor)
    (enough : 16 * cursor.remaining + 13 ≤ fuel) :
    Answers (soleExpression fuel) 1 cursor := by
  unfold soleExpression
  refine ((ample fuel).expression cursor enough).andThen fun _ middle _ => ?_
  apply Answers.kind_bind
  split
  · exact .pure _ _
  · exact .fail _ _ _

end Parser

end ScopeLang
