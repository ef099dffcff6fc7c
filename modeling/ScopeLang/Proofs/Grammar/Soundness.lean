import ScopeLang.Proofs.Grammar.Reading

namespace ScopeLang

/-!
# Parsers read what the grammar derives

A parser that is done has read token kinds that spell its value. An expression
is also read as far as possible, so the token behind it closes it; that is why
no minus sign follows a statement that ends in an expression.
-/

namespace Parser

theorem of_bind_eq_done
    {first : Parser α}
    {next : α → Parser β}
    {cursor last : Cursor}
    {result : β}
    (done : (first >>= next) cursor = .done result last) :
    ∃ value middle,
      first cursor = .done value middle ∧
        next value middle = .done result last := by
  cases read : first cursor with
  | done value middle =>
      rw [bind_of_done read] at done
      exact ⟨value, middle, rfl, done⟩
  | failed error =>
      rw [bind_of_failed read] at done
      cases done
  | exhausted =>
      change Parser.bind first next cursor = _ at done
      rw [Parser.bind, read] at done
      cases done

/-- The parser that was chosen by the kind of the next token. -/
theorem of_kind_bind_eq_done
    {next : TokenKind → Parser β}
    {cursor last : Cursor}
    {result : β}
    (done : (kind >>= next) cursor = .done result last) :
    ∃ chosen, chosen = next cursor.current.kind ∧ chosen cursor = .done result last :=
  ⟨_, rfl, done⟩

theorem reads_of_expect_symbol
    {mark : Symbol}
    {cursor next : Cursor}
    {span : Span}
    (done : expect (.symbol mark) cursor = .done span next) :
    cursor.Reads [.symbol mark] next := by
  unfold expect at done
  split at done
  · rename_i found
    cases done
    exact .one (TokenKind.sameAs_symbol.mp found) nofun
  · cases done

theorem reads_of_expect_keyword
    {word : Keyword}
    {cursor next : Cursor}
    {span : Span}
    (done : expect (.keyword word) cursor = .done span next) :
    cursor.Reads [.keyword word] next := by
  unfold expect at done
  split at done
  · rename_i found
    cases done
    exact .one (TokenKind.sameAs_keyword.mp found) nofun
  · cases done

theorem reads_of_name
    {cursor next : Cursor}
    {identifier : Name}
    (done : name cursor = .done identifier next) :
    cursor.Reads [.ident identifier] next := by
  unfold name at done
  split at done
  · rename_i found
    cases done
    exact .one found nofun
  · cases done

/-- A token of a known kind is read by advancing. -/
theorem reads_of_advance
    {cursor next : Cursor}
    {kind : TokenKind}
    {span : Span}
    (found : cursor.current.kind = kind)
    (inside : kind ≠ .endOfInput)
    (done : advance cursor = .done span next) :
    cursor.Reads [kind] next := by
  cases done
  exact .one found inside

/-- A parser that is done at a cursor has read kinds that spell a phrase. -/
def Finds (phrase : Phrase) (cursor next : Cursor) : Prop :=
  ∃ kinds, cursor.Reads kinds next ∧ Derives phrase kinds

/-- With some fuel, whatever the parsers of the grammar read is derived. -/
structure Sound (fuel : Nat) : Prop where
  expression : ∀ {cursor next value},
    expression fuel cursor = .done value next →
      Finds (.expression value) cursor next ∧ next.current.kind.Closes 5
  binary : ∀ {level cursor next value},
    binary fuel level cursor = .done value next →
      Finds (.binary level value) cursor next ∧
        next.current.kind.Closes (BinaryLevel.depth level + 1)
  operand : ∀ {level cursor next value},
    operand fuel level cursor = .done value next →
      Finds (.operand level value) cursor next ∧
        next.current.kind.Closes (BinaryLevel.depth level)
  chain : ∀ {level left start cursor next value},
    chain fuel level left cursor = .done value next →
      Finds (.binary level left) start cursor →
      cursor.current.kind.Closes (BinaryLevel.depth level) →
      Finds (.binary level value) start next ∧
        next.current.kind.Closes (BinaryLevel.depth level + 1)
  unary : ∀ {cursor next value},
    unary fuel cursor = .done value next →
      Finds (.unary value) cursor next ∧ next.current.kind.Closes 0
  calls : ∀ {callee start cursor next value},
    calls fuel callee cursor = .done value next →
      Finds (.call callee) start cursor →
      Finds (.call value) start next ∧ next.current.kind.Closes 0
  argument : ∀ {cursor next value},
    argument fuel cursor = .done value next →
      Finds (.argument value) cursor next
  primary : ∀ {cursor next value},
    primary fuel cursor = .done value next →
      Finds (.primary value) cursor next
  body : ∀ {cursor next statements},
    body fuel cursor = .done statements next →
      Finds (.body statements) cursor next
  bodyRest : ∀ {cursor next statements},
    bodyRest fuel cursor = .done statements next →
      ∃ last,
        Finds (.sequence statements) cursor last ∧
          last.Reads [.symbol .rightBrace] next
  conditional : ∀ {cursor next result},
    conditional fuel cursor = .done result next →
      Finds (.conditional result) cursor next ∧ ¬ result.EndsInExpr
  statement : ∀ {cursor next result},
    statement fuel cursor = .done result next →
      Finds (.statement result) cursor next ∧
        (result.EndsInExpr → next.current.kind.Closes 5)

private theorem sound_zero : Sound 0 := by
  constructor <;> intros <;> contradiction

section

variable {fuel : Nat} {cursor next : Cursor}

private theorem sound_expression
    (sound : Sound fuel)
    {value : Expr}
    (done : expression (fuel + 1) cursor = .done value next) :
    Finds (.expression value) cursor next ∧ next.current.kind.Closes 5 := by
  unfold expression at done
  obtain ⟨kind, _, looked, done⟩ := of_bind_eq_done done
  cases looked
  split at done
  · rename_i found
    obtain ⟨_, middle, advanced, done⟩ := of_bind_eq_done done
    obtain ⟨inner, _, innerDone, done⟩ := of_bind_eq_done done
    cases done
    have isReturn := beq_iff_eq.mp found
    have word := reads_of_advance isReturn (by decide) advanced
    obtain ⟨⟨kinds, read, derived⟩, closes⟩ := sound.expression innerDone
    exact ⟨⟨_, word.append read, .ret derived⟩, closes⟩
  · obtain ⟨⟨kinds, read, derived⟩, closes⟩ := sound.binary done
    exact ⟨⟨kinds, read, .disjunction derived⟩, closes⟩

private theorem sound_binary
    (sound : Sound fuel)
    {level : BinaryLevel}
    {value : Expr}
    (done : binary (fuel + 1) level cursor = .done value next) :
    Finds (.binary level value) cursor next ∧
      next.current.kind.Closes (level.depth + 1) := by
  unfold binary at done
  obtain ⟨left, middle, operandDone, chainDone⟩ := of_bind_eq_done done
  obtain ⟨⟨kinds, read, derived⟩, closes⟩ := sound.operand operandDone
  exact sound.chain chainDone ⟨kinds, read, .single derived⟩ closes

private theorem sound_operand
    (sound : Sound fuel)
    {level : BinaryLevel}
    {value : Expr}
    (done : operand (fuel + 1) level cursor = .done value next) :
    Finds (.operand level value) cursor next ∧
      next.current.kind.Closes level.depth := by
  unfold operand at done
  cases found : level.tighter? with
  | some inner =>
      rw [found] at done
      have joins := BinaryLevel.tighter?_eq_some_iff.mp found
      obtain ⟨⟨kinds, read, derived⟩, closes⟩ := sound.binary done
      rw [joins.depth_eq]
      exact ⟨⟨kinds, read, .tighter joins derived⟩, closes⟩
  | none =>
      rw [found] at done
      obtain rfl := BinaryLevel.eq_product_of_tighter? found
      obtain ⟨⟨kinds, read, derived⟩, closes⟩ := sound.unary done
      exact ⟨⟨kinds, read, .tightest derived⟩, closes⟩

private theorem sound_chain
    (sound : Sound fuel)
    {level : BinaryLevel}
    {left value : Expr}
    {start : Cursor}
    (done : chain (fuel + 1) level left cursor = .done value next)
    (found : Finds (.binary level left) start cursor)
    (closes : cursor.current.kind.Closes level.depth) :
    Finds (.binary level value) start next ∧
      next.current.kind.Closes (level.depth + 1) := by
  unfold chain at done
  obtain ⟨kind, _, looked, done⟩ := of_bind_eq_done done
  cases looked
  cases operator : level.operator? cursor.current.kind with
  | some op =>
      simp only [operator] at done
      have spells := BinaryLevel.operator?_eq_some_iff.mp operator
      obtain ⟨_, afterSign, advanced, done⟩ := of_bind_eq_done done
      obtain ⟨right, middle, operandDone, chainDone⟩ := of_bind_eq_done done
      have sign := reads_of_advance rfl spells.ne_endOfInput advanced
      obtain ⟨before, leftRead, leftDerived⟩ := found
      obtain ⟨⟨after, rightRead, rightDerived⟩, rightCloses⟩ :=
        sound.operand operandDone
      refine sound.chain chainDone
        ⟨_, leftRead.append (sign.append rightRead), ?_⟩ rightCloses
      exact .extended leftDerived spells rightDerived
  | none =>
      simp only [operator] at done
      cases done
      exact ⟨found, closes.succ operator⟩

private theorem sound_unary
    (sound : Sound fuel)
    {value : Expr}
    (done : unary (fuel + 1) cursor = .done value next) :
    Finds (.unary value) cursor next ∧ next.current.kind.Closes 0 := by
  unfold unary at done
  obtain ⟨kind, _, looked, done⟩ := of_bind_eq_done done
  cases looked
  cases operator : cursor.current.kind.unaryOperator? with
  | some op =>
      simp only [operator] at done
      have spells := TokenKind.unaryOperator?_eq_some_iff.mp operator
      obtain ⟨_, afterSign, advanced, done⟩ := of_bind_eq_done done
      obtain ⟨inner, _, innerDone, done⟩ := of_bind_eq_done done
      cases done
      have sign := reads_of_advance rfl spells.ne_endOfInput advanced
      obtain ⟨⟨kinds, read, derived⟩, closes⟩ := sound.unary innerDone
      exact ⟨⟨_, sign.append read, .operator spells derived⟩, closes⟩
  | none =>
      simp only [operator] at done
      obtain ⟨callee, middle, primaryDone, callsDone⟩ := of_bind_eq_done done
      obtain ⟨kinds, read, derived⟩ := sound.primary primaryDone
      obtain ⟨⟨allKinds, allRead, called⟩, closes⟩ :=
        sound.calls callsDone ⟨kinds, read, .callee derived⟩
      exact ⟨⟨allKinds, allRead, .called called⟩, closes⟩

private theorem sound_calls
    (sound : Sound fuel)
    {callee value : Expr}
    {start : Cursor}
    (done : calls (fuel + 1) callee cursor = .done value next)
    (calleeFound : Finds (.call callee) start cursor) :
    Finds (.call value) start next ∧ next.current.kind.Closes 0 := by
  unfold calls at done
  obtain ⟨kind, _, looked, done⟩ := of_bind_eq_done done
  cases looked
  split at done
  · rename_i found
    obtain ⟨_, afterSign, advanced, done⟩ := of_bind_eq_done done
    obtain ⟨arg, middle, argumentDone, callsDone⟩ := of_bind_eq_done done
    have atSign := beq_iff_eq.mp found
    have sign := reads_of_advance atSign (by decide) advanced
    obtain ⟨before, calleeRead, calleeDerived⟩ := calleeFound
    obtain ⟨after, argRead, argDerived⟩ := sound.argument argumentDone
    refine sound.calls callsDone ⟨_, calleeRead.append (sign.append argRead), ?_⟩
    exact .applied calleeDerived argDerived
  · rename_i noSign
    cases done
    refine ⟨calleeFound, ?_, fun level inside => (Nat.not_lt_zero _ inside).elim⟩
    simpa using noSign

private theorem sound_argument
    (sound : Sound fuel)
    {value : Expr}
    (done : argument (fuel + 1) cursor = .done value next) :
    Finds (.argument value) cursor next := by
  unfold argument at done
  obtain ⟨kind, _, looked, done⟩ := of_bind_eq_done done
  cases looked
  cases operator : cursor.current.kind.unaryOperator? with
  | some op =>
      simp only [operator] at done
      have spells := TokenKind.unaryOperator?_eq_some_iff.mp operator
      obtain ⟨_, afterSign, advanced, done⟩ := of_bind_eq_done done
      obtain ⟨inner, _, innerDone, done⟩ := of_bind_eq_done done
      cases done
      have sign := reads_of_advance rfl spells.ne_endOfInput advanced
      obtain ⟨kinds, read, derived⟩ := sound.argument innerDone
      exact ⟨_, sign.append read, .argumentOperator spells derived⟩
  | none =>
      simp only [operator] at done
      obtain ⟨kinds, read, derived⟩ := sound.primary done
      exact ⟨kinds, read, .argumentPrimary derived⟩

/-- A token that is an expression on its own spells it. -/
theorem derives_of_atom?
    {kind : TokenKind}
    {value : Expr}
    (found : kind.atom? = some value) :
    Derives (.primary value) [kind] := by
  cases kind with
  | int =>
      cases found
      exact .number
  | ident =>
      cases found
      exact .ident
  | keyword word =>
      cases word <;> cases found
      · exact .read
      · exact .trueWord
      · exact .falseWord
  | symbol | invalid | endOfInput =>
      cases found

private theorem sound_primary
    (sound : Sound fuel)
    {value : Expr}
    (done : primary (fuel + 1) cursor = .done value next) :
    Finds (.primary value) cursor next := by
  unfold primary at done
  obtain ⟨kind, _, looked, done⟩ := of_bind_eq_done done
  cases looked
  cases found : cursor.current.kind.atom? with
  | some atom =>
      simp only [found] at done
      obtain ⟨_, middle, advanced, done⟩ := of_bind_eq_done done
      cases done
      have inside : cursor.current.kind ≠ .endOfInput := by
        intro atEnd
        rw [atEnd] at found
        cases found
      exact ⟨_, reads_of_advance rfl inside advanced, derives_of_atom? found⟩
  | none =>
      simp only [found] at done
      split at done
      · rename_i word
        obtain ⟨_, afterWord, advanced, done⟩ := of_bind_eq_done done
        obtain ⟨param, afterParam, nameDone, done⟩ := of_bind_eq_done done
        obtain ⟨inner, _, bodyDone, done⟩ := of_bind_eq_done done
        cases done
        have isLambda := beq_iff_eq.mp word
        have wordRead := reads_of_advance isLambda (by decide) advanced
        have paramRead := reads_of_name nameDone
        obtain ⟨kinds, bodyRead, derived⟩ := sound.body bodyDone
        exact ⟨_, wordRead.append (paramRead.append bodyRead), .lambda derived⟩
      · split at done
        · rename_i paren
          obtain ⟨_, afterParen, advanced, done⟩ := of_bind_eq_done done
          obtain ⟨inner, afterInner, innerDone, done⟩ := of_bind_eq_done done
          obtain ⟨_, afterClosing, expectDone, done⟩ := of_bind_eq_done done
          cases done
          have isParen := beq_iff_eq.mp paren
          have opening := reads_of_advance isParen (by decide) advanced
          obtain ⟨⟨kinds, read, derived⟩, -⟩ := sound.expression innerDone
          have closing := reads_of_expect_symbol expectDone
          exact ⟨_, opening.append (read.append closing), .parenthesized derived⟩
        · cases done

private theorem sound_body
    (sound : Sound fuel)
    {statements : List Stmt}
    (done : body (fuel + 1) cursor = .done statements next) :
    Finds (.body statements) cursor next := by
  unfold body at done
  obtain ⟨_, afterBrace, expectDone, restDone⟩ := of_bind_eq_done done
  have opening := reads_of_expect_symbol expectDone
  obtain ⟨last, ⟨kinds, read, derived⟩, closing⟩ := sound.bodyRest restDone
  exact ⟨_, opening.append (read.append closing), .body derived⟩

/-- A statement in front of a sequence, when the statement was read as far as possible. -/
private theorem finds_cons
    {middle last : Cursor}
    {first : Stmt}
    {rest : List Stmt}
    (firstFound : Finds (.statement first) cursor middle)
    (firstCloses : first.EndsInExpr → middle.current.kind.Closes 5)
    (restFound : Finds (.sequence rest) middle last) :
    Finds (.sequence (first :: rest)) cursor last := by
  obtain ⟨before, firstRead, firstDerived⟩ := firstFound
  obtain ⟨after, restRead, restDerived⟩ := restFound
  refine ⟨_, firstRead.append restRead, .cons firstDerived restDerived ?_⟩
  intro endsInExpr startsWithMinus
  have isMinus := restRead.kind_of_head startsWithMinus
  exact (firstCloses endsInExpr).ne_minus isMinus

private theorem sound_bodyRest
    (sound : Sound fuel)
    {statements : List Stmt}
    (done : bodyRest (fuel + 1) cursor = .done statements next) :
    ∃ last,
      Finds (.sequence statements) cursor last ∧
        last.Reads [.symbol .rightBrace] next := by
  unfold bodyRest at done
  obtain ⟨chosen, choice, done⟩ := of_kind_bind_eq_done done
  split at choice <;> subst choice
  · rename_i brace
    obtain ⟨_, afterBrace, advanced, done⟩ := of_bind_eq_done done
    cases done
    exact ⟨cursor, ⟨[], rfl, .nil⟩, reads_of_advance brace nofun advanced⟩
  · cases done
  · obtain ⟨first, middle, firstDone, done⟩ := of_bind_eq_done done
    obtain ⟨rest, _, restDone, done⟩ := of_bind_eq_done done
    cases done
    obtain ⟨firstFound, firstCloses⟩ := sound.statement firstDone
    obtain ⟨last, restFound, closing⟩ := sound.bodyRest restDone
    exact ⟨last, finds_cons firstFound firstCloses restFound, closing⟩

private theorem sound_conditional
    (sound : Sound fuel)
    {result : Stmt}
    (done : conditional (fuel + 1) cursor = .done result next) :
    Finds (.conditional result) cursor next ∧ ¬ result.EndsInExpr := by
  unfold conditional at done
  obtain ⟨_, afterWord, expectDone, done⟩ := of_bind_eq_done done
  obtain ⟨condition, afterCondition, conditionDone, done⟩ := of_bind_eq_done done
  obtain ⟨thenBody, afterThen, thenDone, done⟩ := of_bind_eq_done done
  have word := reads_of_expect_keyword expectDone
  obtain ⟨⟨before, conditionRead, conditionDerived⟩, -⟩ := sound.expression conditionDone
  obtain ⟨middle, thenRead, thenDerived⟩ := sound.body thenDone
  obtain ⟨chosen, choice, done⟩ := of_kind_bind_eq_done done
  split at choice <;> subst choice
  · rename_i elseWord
    obtain ⟨_, afterElse, advanced, done⟩ := of_bind_eq_done done
    have isElse := beq_iff_eq.mp elseWord
    have elseRead := reads_of_advance isElse (by decide) advanced
    obtain ⟨chosen, choice, done⟩ := of_kind_bind_eq_done done
    split at choice <;> subst choice
    · obtain ⟨nested, _, nestedDone, done⟩ := of_bind_eq_done done
      cases done
      obtain ⟨⟨after, nestedRead, nestedDerived⟩, -⟩ := sound.conditional nestedDone
      refine ⟨⟨_, ?_, .elseIf conditionDerived thenDerived nestedDerived⟩, id⟩
      exact word.append (conditionRead.append (thenRead.append (elseRead.append nestedRead)))
    · obtain ⟨elseBody, _, elseDone, done⟩ := of_bind_eq_done done
      cases done
      obtain ⟨after, elseBodyRead, elseDerived⟩ := sound.body elseDone
      refine ⟨⟨_, ?_, .ifElse conditionDerived thenDerived elseDerived⟩, id⟩
      exact word.append
        (conditionRead.append (thenRead.append (elseRead.append elseBodyRead)))
  · cases done
    refine ⟨⟨_, ?_, .ifThen conditionDerived thenDerived⟩, id⟩
    exact word.append (conditionRead.append thenRead)

private theorem sound_eval
    (sound : Sound fuel)
    {result : Stmt}
    (done : (expression fuel >>= fun value => pure (Stmt.eval value)) cursor =
      .done result next) :
    Finds (.statement result) cursor next ∧
      (result.EndsInExpr → next.current.kind.Closes 5) := by
  obtain ⟨value, _, valueDone, done⟩ := of_bind_eq_done done
  cases done
  obtain ⟨⟨kinds, read, derived⟩, closes⟩ := sound.expression valueDone
  exact ⟨⟨kinds, read, .eval derived⟩, fun _ => closes⟩

private theorem sound_statement
    (sound : Sound fuel)
    {result : Stmt}
    (done : statement (fuel + 1) cursor = .done result next) :
    Finds (.statement result) cursor next ∧
      (result.EndsInExpr → next.current.kind.Closes 5) := by
  unfold statement at done
  obtain ⟨chosen, choice, done⟩ := of_kind_bind_eq_done done
  split at choice <;> subst choice
  · rename_i semicolon
    obtain ⟨_, afterMark, advanced, done⟩ := of_bind_eq_done done
    cases done
    exact ⟨⟨_, reads_of_advance semicolon nofun advanced, .skip⟩, False.elim⟩
  · obtain ⟨inner, _, bodyDone, done⟩ := of_bind_eq_done done
    cases done
    obtain ⟨kinds, read, derived⟩ := sound.body bodyDone
    exact ⟨⟨kinds, read, .block derived⟩, False.elim⟩
  · obtain ⟨⟨kinds, read, derived⟩, noExpr⟩ := sound.conditional done
    exact ⟨⟨kinds, read, .conditional derived⟩, fun endsInExpr => (noExpr endsInExpr).elim⟩
  · rename_i isWhile
    obtain ⟨_, afterWord, advanced, done⟩ := of_bind_eq_done done
    obtain ⟨condition, afterCondition, conditionDone, done⟩ := of_bind_eq_done done
    obtain ⟨inner, _, bodyDone, done⟩ := of_bind_eq_done done
    cases done
    have word := reads_of_advance isWhile nofun advanced
    obtain ⟨⟨before, conditionRead, conditionDerived⟩, -⟩ := sound.expression conditionDone
    obtain ⟨after, bodyRead, bodyDerived⟩ := sound.body bodyDone
    refine ⟨⟨_, ?_, .loop conditionDerived bodyDerived⟩, False.elim⟩
    exact word.append (conditionRead.append bodyRead)
  · rename_i isNew
    obtain ⟨_, afterWord, advanced, done⟩ := of_bind_eq_done done
    obtain ⟨declared, afterName, nameDone, done⟩ := of_bind_eq_done done
    obtain ⟨_, afterSign, expectDone, done⟩ := of_bind_eq_done done
    obtain ⟨value, _, valueDone, done⟩ := of_bind_eq_done done
    cases done
    have word := reads_of_advance isNew nofun advanced
    have nameRead := reads_of_name nameDone
    have sign := reads_of_expect_symbol expectDone
    obtain ⟨⟨kinds, read, derived⟩, closes⟩ := sound.expression valueDone
    refine ⟨⟨_, ?_, .declare derived⟩, fun _ => closes⟩
    exact word.append (nameRead.append (sign.append read))
  · rename_i isRet
    obtain ⟨_, afterWord, advanced, done⟩ := of_bind_eq_done done
    obtain ⟨_, afterSign, expectDone, done⟩ := of_bind_eq_done done
    obtain ⟨value, _, valueDone, done⟩ := of_bind_eq_done done
    cases done
    have word := reads_of_advance isRet nofun advanced
    have sign := reads_of_expect_symbol expectDone
    obtain ⟨⟨kinds, read, derived⟩, closes⟩ := sound.expression valueDone
    exact ⟨⟨_, word.append (sign.append read), .retAssign derived⟩, fun _ => closes⟩
  · rename_i isWrite
    obtain ⟨_, afterWord, advanced, done⟩ := of_bind_eq_done done
    obtain ⟨value, _, valueDone, done⟩ := of_bind_eq_done done
    cases done
    have word := reads_of_advance isWrite nofun advanced
    obtain ⟨⟨kinds, read, derived⟩, closes⟩ := sound.expression valueDone
    exact ⟨⟨_, word.append read, .write derived⟩, fun _ => closes⟩
  · rename_i isName
    obtain ⟨ahead, _, looked, done⟩ := of_bind_eq_done done
    cases looked
    split at done
    · rename_i isSign
      obtain ⟨_, afterName, advanced, done⟩ := of_bind_eq_done done
      obtain ⟨_, afterSign, advancedAgain, done⟩ := of_bind_eq_done done
      obtain ⟨value, _, valueDone, done⟩ := of_bind_eq_done done
      cases done
      have nameRead := reads_of_advance isName nofun advanced
      cases advanced
      have signAhead : cursor.advance.current.kind = .symbol .colonEqual := by
        rw [← Cursor.peek_eq (isName ▸ nofun)]
        exact beq_iff_eq.mp isSign
      have sign := reads_of_advance signAhead nofun advancedAgain
      obtain ⟨⟨kinds, read, derived⟩, closes⟩ := sound.expression valueDone
      exact ⟨⟨_, nameRead.append (sign.append read), .assign derived⟩, fun _ => closes⟩
    · exact sound_eval sound done
  · split at done
    · exact sound_eval sound done
    · cases done

end

/-- Whatever the fuel, the parsers read only what the grammar derives. -/
theorem sound (fuel : Nat) : Sound fuel := by
  induction fuel with
  | zero =>
      exact sound_zero
  | succ fuel inductionHypothesis =>
      exact {
        expression := sound_expression inductionHypothesis
        binary := sound_binary inductionHypothesis
        operand := sound_operand inductionHypothesis
        chain := sound_chain inductionHypothesis
        unary := sound_unary inductionHypothesis
        calls := sound_calls inductionHypothesis
        argument := sound_argument inductionHypothesis
        primary := sound_primary inductionHypothesis
        body := sound_body inductionHypothesis
        bodyRest := sound_bodyRest inductionHypothesis
        conditional := sound_conditional inductionHypothesis
        statement := sound_statement inductionHypothesis }

/-- A program is read up to the end mark, and what was read spells it. -/
theorem sound_program
    {fuel : Nat}
    {cursor next : Cursor}
    {statements : List Stmt}
    (done : program fuel cursor = .done statements next) :
    Finds (.sequence statements) cursor next ∧ next.current.kind = .endOfInput := by
  induction fuel generalizing cursor statements with
  | zero =>
      cases done
  | succ fuel inductionHypothesis =>
      unfold program at done
      obtain ⟨chosen, choice, done⟩ := of_kind_bind_eq_done done
      split at choice <;> subst choice
      · rename_i atEnd
        cases done
        exact ⟨⟨[], rfl, .nil⟩, atEnd⟩
      · obtain ⟨first, middle, firstDone, done⟩ := of_bind_eq_done done
        obtain ⟨rest, _, restDone, done⟩ := of_bind_eq_done done
        cases done
        obtain ⟨firstFound, firstCloses⟩ := (sound fuel).statement firstDone
        obtain ⟨restFound, atEnd⟩ := inductionHypothesis restDone
        exact ⟨finds_cons firstFound firstCloses restFound, atEnd⟩

end Parser

end ScopeLang
