import ScopeLang.Parse
import ScopeLang.Proofs.Grammar.Soundness

namespace ScopeLang

/-!
# The parsers recognize the grammar

Wherever token kinds spell a phrase, the parser of the phrase reads them and
yields its tree, unless its fuel runs out; by induction on the derivation. What
stands behind the phrase must not continue it. Together with soundness, a list
of tokens parses to a program exactly when its kinds spell the program.
-/

namespace TokenKind

/-- Every kind counts as itself. -/
theorem sameAs_self (kind : TokenKind) : kind.sameAs kind = true := by
  cases kind <;> simp [sameAs]

/-- What starts a primary is no prefix operator. -/
theorem unaryOperator?_of_startsPrimary
    {kind : TokenKind}
    (starts : kind.startsPrimary = true) :
    kind.unaryOperator? = none := by
  cases found : kind.unaryOperator? with
  | none =>
      rfl
  | some op =>
      have spells := unaryOperator?_eq_some_iff.mp found
      cases spells <;> cases starts

/-- The parser takes every token that starts an expression of the grammar for a start. -/
theorem startsExpr_of_startsExpression
    {kind : TokenKind}
    (starts : kind.startsExpression = true) :
    kind.startsExpr = true := by
  cases kind with
  | int | ident =>
      rfl
  | keyword word =>
      cases word <;> cases starts <;> rfl
  | symbol mark =>
      cases mark <;> cases starts <;> rfl
  | invalid | endOfInput =>
      cases starts

namespace Closes

/-- A token that is no operator ends every expression. -/
theorem of_no_operator
    {kind : TokenKind}
    (noCall : kind ≠ .symbol .at)
    (noOperator : ∀ {level : BinaryLevel} {op}, ¬ level.Spells kind op) :
    kind.Closes 5 := by
  refine ⟨noCall, fun level _ => ?_⟩
  cases found : level.operator? kind with
  | none =>
      rfl
  | some op =>
      exact (noOperator (BinaryLevel.operator?_eq_some_iff.mp found)).elim

/-- The minus sign is the only token that both continues an expression and begins a statement. -/
theorem of_startsStatement
    {kind : TokenKind}
    (starts : kind.startsStatement = true)
    (noMinus : kind ≠ .symbol .minus) :
    kind.Closes 5 := by
  apply of_no_operator
  · rintro rfl
    cases starts
  · intro level op spells
    cases spells with
    | minus =>
        exact noMinus rfl
    | _ =>
        cases starts

/-- A condition ends at the brace that opens its body. -/
theorem leftBrace : Closes 5 (.symbol .leftBrace) :=
  of_startsStatement rfl nofun

/-- The last statement of a body ends at the brace that closes it. -/
theorem rightBrace : Closes 5 (.symbol .rightBrace) :=
  of_no_operator nofun nofun

/-- An expression in parentheses ends at the closing one. -/
theorem rightParen : Closes 5 (.symbol .rightParen) :=
  of_no_operator nofun nofun

/-- The end mark ends every expression. -/
theorem endOfInput : Closes 5 .endOfInput :=
  of_no_operator nofun nofun

end Closes

end TokenKind

/-- Whether a statement ends in front of a token instead of going on with it. -/
structure Stmt.StopsAt (statement : Stmt) (kind : TokenKind) : Prop where
  noElse : kind ≠ .keyword .elseWord
  noSign : kind ≠ .symbol .colonEqual
  closes : statement.EndsInExpr → kind.Closes 5

namespace Parser

/-- A parser yields a value and stops at a cursor, unless its fuel runs out. -/
def Agrees (parser : Parser α) (cursor : Cursor) (value : α) (next : Cursor) : Prop :=
  parser cursor = .exhausted ∨ parser cursor = .done value next

namespace Agrees

/-- Without fuel a parser of the grammar agrees with everything. -/
theorem fueled
    (parser : Nat → Parser α)
    {cursor next : Cursor}
    {value : α}
    (spent : parser 0 = giveUp)
    (more : ∀ fuel, Agrees (parser (fuel + 1)) cursor value next)
    (fuel : Nat) :
    Agrees (parser fuel) cursor value next := by
  cases fuel with
  | zero =>
      rw [spent]
      exact .inl rfl
  | succ fuel =>
      exact more fuel

/-- A parser that reads nothing agrees where it stands. -/
theorem pure (value : α) (cursor : Cursor) :
    Agrees (Pure.pure value) cursor value cursor :=
  .inr rfl

/-- Parsers in a row agree when each agrees with its part. -/
theorem bind
    {first : Parser α}
    {next : α → Parser β}
    {cursor middle last : Cursor}
    {value : α}
    {result : β}
    (head : Agrees first cursor value middle)
    (tail : Agrees (next value) middle result last) :
    Agrees (first >>= next) cursor result last := by
  rcases head with spent | done
  · left
    change Parser.bind first next cursor = _
    rw [Parser.bind, spent]
  · unfold Agrees
    rw [bind_of_done done]
    exact tail

section

variable {cursor last : Cursor} {result : β}

/-- A parser that looks at the token at hand goes on as that token says. -/
theorem kind_bind
    {next : TokenKind → Parser β}
    {kind : TokenKind}
    (found : cursor.current.kind = kind)
    (tail : Agrees (next kind) cursor result last) :
    Agrees (Parser.kind >>= next) cursor result last :=
  bind (.inr rfl) (found ▸ tail)

/-- A parser that looks one token ahead goes on as that token says. -/
theorem peek_bind
    {next : TokenKind → Parser β}
    {kind : TokenKind}
    (found : cursor.peek = kind)
    (tail : Agrees (next kind) cursor result last) :
    Agrees (Parser.peek >>= next) cursor result last :=
  bind (.inr rfl) (found ▸ tail)

/-- A parser that steps over a token goes on behind it. -/
theorem advance_bind
    {next : Span → Parser β}
    (tail : Agrees (next cursor.current.span) cursor.advance result last) :
    Agrees (Parser.advance >>= next) cursor result last :=
  bind (.inr rfl) tail

/-- A parser that expects the token at hand goes on behind it. -/
theorem expect_bind
    {next : Span → Parser β}
    {kind : TokenKind}
    (found : cursor.current.kind = kind)
    (tail : Agrees (next cursor.current.span) cursor.advance result last) :
    Agrees (Parser.expect kind >>= next) cursor result last := by
  refine bind (.inr ?_) tail
  have same : cursor.check kind = true := by
    rw [Cursor.check, found]
    exact kind.sameAs_self
  rw [Parser.expect, if_pos same]
  rfl

/-- A parser that expects a name reads the one at hand. -/
theorem name_bind
    {next : Name → Parser β}
    {identifier : Name}
    (found : cursor.current.kind = .ident identifier)
    (tail : Agrees (next identifier) cursor.advance result last) :
    Agrees (Parser.name >>= next) cursor result last := by
  refine bind (.inr ?_) tail
  simp only [Parser.name, found]

end

end Agrees

/--
The parser of a phrase agrees with it on the token kinds, wherever they stand in
front of a token that does not continue the phrase. Where operators or calls
group to the left, the phrase may be the left part of a longer one, so any result
that can be reached from behind the phrase is reached from its beginning.
-/
def Recognized : Phrase → List TokenKind → Prop
  | .expression value, kinds =>
      ∀ fuel {cursor next : Cursor}, cursor.Reads kinds next →
        next.current.kind.Closes 5 →
          Agrees (expression fuel) cursor value next
  | .binary level value, kinds =>
      ∀ fuel {cursor middle : Cursor}, cursor.Reads kinds middle →
        middle.current.kind.Closes level.depth →
          ∀ {result next}, (∀ less, Agrees (chain less level value) middle result next) →
            Agrees (binary fuel level) cursor result next
  | .operand level value, kinds =>
      ∀ fuel {cursor next : Cursor}, cursor.Reads kinds next →
        next.current.kind.Closes level.depth →
          Agrees (operand fuel level) cursor value next
  | .unary value, kinds =>
      ∀ fuel {cursor next : Cursor}, cursor.Reads kinds next →
        next.current.kind.Closes 0 →
          Agrees (unary fuel) cursor value next
  | .call value, kinds =>
      ∀ fuel {cursor middle : Cursor}, cursor.Reads kinds middle →
        ∀ {result next}, (∀ less, Agrees (calls less value) middle result next) →
          Agrees (primary fuel >>= calls fuel) cursor result next
  | .argument value, kinds =>
      ∀ fuel {cursor next : Cursor}, cursor.Reads kinds next →
        Agrees (argument fuel) cursor value next
  | .primary value, kinds =>
      ∀ fuel {cursor next : Cursor}, cursor.Reads kinds next →
        Agrees (primary fuel) cursor value next
  | .body statements, kinds =>
      ∀ fuel {cursor next : Cursor}, cursor.Reads kinds next →
        Agrees (body fuel) cursor statements next
  | .sequence statements, kinds =>
      ∀ fuel {cursor next : Cursor}, cursor.Reads kinds next →
        (next.current.kind = .symbol .rightBrace →
          Agrees (bodyRest fuel) cursor statements next.advance) ∧
        (next.current.kind = .endOfInput →
          Agrees (program fuel) cursor statements next)
  | .conditional result, kinds =>
      ∀ fuel {cursor next : Cursor}, cursor.Reads kinds next →
        next.current.kind ≠ .keyword .elseWord →
          Agrees (conditional fuel) cursor result next
  | .statement result, kinds =>
      ∀ fuel {cursor next : Cursor}, cursor.Reads kinds next →
        result.StopsAt next.current.kind →
          Agrees (statement fuel) cursor result next

section

variable {kinds before after : List TokenKind}

/-- Behind the last operand of a level the chain stops. -/
private theorem chain_stops
    {level : BinaryLevel}
    {value : Expr}
    {cursor : Cursor}
    (closes : cursor.current.kind.Closes (level.depth + 1)) :
    ∀ fuel, Agrees (chain fuel level value) cursor value cursor := by
  refine Agrees.fueled (chain · level value) rfl fun fuel => ?_
  have noOperator := closes.2 level (Nat.lt_succ_self _)
  unfold chain
  refine .kind_bind rfl ?_
  rw [noOperator]
  exact .pure value cursor

/-- Behind the last argument the calls stop. -/
private theorem calls_stop
    {value : Expr}
    {cursor : Cursor}
    (noCall : cursor.current.kind ≠ .symbol .at) :
    ∀ fuel, Agrees (calls fuel value) cursor value cursor := by
  refine Agrees.fueled (calls · value) rfl fun fuel => ?_
  unfold calls
  refine .kind_bind rfl ?_
  rw [if_neg (by simpa using noCall)]
  exact .pure value cursor

private theorem recognized_ret
    {value : Expr}
    (inner : Recognized (.expression value) kinds) :
    Recognized (.expression (.ret value)) (.keyword .returnWord :: kinds) := by
  intro fuel cursor next read closes
  obtain ⟨word, -, innerRead⟩ := read
  refine Agrees.fueled expression rfl (fun fuel => ?_) fuel
  unfold expression
  refine .kind_bind word ?_
  refine .advance_bind ?_
  have innerAgrees := inner fuel innerRead closes
  exact .bind innerAgrees (.pure _ _)

private theorem recognized_disjunction
    {value : Expr}
    (derived : Derives (.binary .disjunction value) kinds)
    (inner : Recognized (.binary .disjunction value) kinds) :
    Recognized (.expression value) kinds := by
  intro fuel cursor next read closes
  obtain ⟨first, rest, rfl, starts, -⟩ := derived.begins
  have noReturn : first ≠ .keyword .returnWord := by
    rintro rfl
    cases starts
  refine Agrees.fueled expression rfl (fun fuel => ?_) fuel
  unfold expression
  refine .kind_bind read.1 ?_
  rw [if_neg (by simpa using noReturn)]
  exact inner fuel read (closes.mono (by decide)) (chain_stops closes)

/-- An operand alone is an operation of its level with nothing to chain. -/
private theorem recognized_single
    {level : BinaryLevel}
    {value : Expr}
    (operandKnown : Recognized (.operand level value) kinds) :
    Recognized (.binary level value) kinds := by
  intro fuel cursor middle read closes result next goesOn
  refine Agrees.fueled (binary · level) rfl (fun fuel => ?_) fuel
  unfold binary
  have operandAgrees := operandKnown fuel read closes
  exact .bind operandAgrees (goesOn fuel)

/-- A chain goes on through one more operator of its level, from the left. -/
private theorem recognized_extended
    {level : BinaryLevel}
    {kind : TokenKind}
    {op : BinaryOp}
    {left right : Expr}
    (leftKnown : Recognized (.binary level left) before)
    (spells : level.Spells kind op)
    (rightKnown : Recognized (.operand level right) after) :
    Recognized (.binary level (.binary op left right)) (before ++ kind :: after) := by
  intro fuel cursor last read closes result next goesOn
  obtain ⟨middle, leftRead, sign, -, rightRead⟩ := read.of_append
  have stopsLeft : middle.current.kind.Closes level.depth :=
    sign ▸ .of_spells spells
  refine leftKnown fuel leftRead stopsLeft ?_
  refine Agrees.fueled (chain · level left) rfl fun less => ?_
  unfold chain
  refine .kind_bind sign ?_
  rw [BinaryLevel.operator?_eq_some_iff.mpr spells]
  refine .advance_bind ?_
  have rightAgrees := rightKnown less rightRead closes
  exact .bind rightAgrees (goesOn less)

/-- An operand is read by descending to the level that binds tighter. -/
private theorem recognized_tighter
    {level inner : BinaryLevel}
    {value : Expr}
    (joins : level.Joins inner)
    (innerKnown : Recognized (.binary inner value) kinds) :
    Recognized (.operand level value) kinds := by
  intro fuel cursor next read closes
  rw [joins.depth_eq] at closes
  refine Agrees.fueled (operand · level) rfl (fun fuel => ?_) fuel
  unfold operand
  rw [BinaryLevel.tighter?_eq_some_iff.mpr joins]
  exact innerKnown fuel read (closes.mono (Nat.le_succ _)) (chain_stops closes)

private theorem recognized_tightest
    {value : Expr}
    (inner : Recognized (.unary value) kinds) :
    Recognized (.operand .product value) kinds := by
  intro fuel cursor next read closes
  refine Agrees.fueled (operand · .product) rfl (fun fuel => ?_) fuel
  unfold operand
  exact inner fuel read closes

private theorem recognized_operator
    {kind : TokenKind}
    {op : UnaryOp}
    {value : Expr}
    (spells : UnaryOp.Spells kind op)
    (inner : Recognized (.unary value) kinds) :
    Recognized (.unary (.unary op value)) (kind :: kinds) := by
  intro fuel cursor next read closes
  obtain ⟨sign, -, innerRead⟩ := read
  refine Agrees.fueled unary rfl (fun fuel => ?_) fuel
  unfold unary
  refine .kind_bind sign ?_
  rw [TokenKind.unaryOperator?_eq_some_iff.mpr spells]
  refine .advance_bind ?_
  have innerAgrees := inner fuel innerRead closes
  exact .bind innerAgrees (.pure _ _)

private theorem recognized_called
    {value : Expr}
    (derived : Derives (.call value) kinds)
    (inner : Recognized (.call value) kinds) :
    Recognized (.unary value) kinds := by
  intro fuel cursor next read closes
  obtain ⟨first, rest, rfl, starts, -⟩ := derived.begins
  refine Agrees.fueled unary rfl (fun fuel => ?_) fuel
  unfold unary
  refine .kind_bind read.1 ?_
  rw [TokenKind.unaryOperator?_of_startsPrimary starts]
  exact inner fuel read (calls_stop closes.1)

/-- A row of calls goes on through one more `@` and its argument. -/
private theorem recognized_applied
    {callee arg : Expr}
    (calleeKnown : Recognized (.call callee) before)
    (argKnown : Recognized (.argument arg) after) :
    Recognized (.call (.call callee arg)) (before ++ .symbol .at :: after) := by
  intro fuel cursor last read result next goesOn
  obtain ⟨middle, calleeRead, sign, -, argRead⟩ := read.of_append
  refine calleeKnown fuel calleeRead ?_
  refine Agrees.fueled (calls · callee) rfl fun less => ?_
  unfold calls
  refine .kind_bind sign ?_
  refine .advance_bind ?_
  have argAgrees := argKnown less argRead
  exact .bind argAgrees (goesOn less)

private theorem recognized_argumentOperator
    {kind : TokenKind}
    {op : UnaryOp}
    {value : Expr}
    (spells : UnaryOp.Spells kind op)
    (inner : Recognized (.argument value) kinds) :
    Recognized (.argument (.unary op value)) (kind :: kinds) := by
  intro fuel cursor next read
  obtain ⟨sign, -, innerRead⟩ := read
  refine Agrees.fueled argument rfl (fun fuel => ?_) fuel
  unfold argument
  refine .kind_bind sign ?_
  rw [TokenKind.unaryOperator?_eq_some_iff.mpr spells]
  refine .advance_bind ?_
  have innerAgrees := inner fuel innerRead
  exact .bind innerAgrees (.pure _ _)

private theorem recognized_argumentPrimary
    {value : Expr}
    (derived : Derives (.primary value) kinds)
    (inner : Recognized (.primary value) kinds) :
    Recognized (.argument value) kinds := by
  intro fuel cursor next read
  obtain ⟨first, rest, rfl, starts, -⟩ := derived.begins
  refine Agrees.fueled argument rfl (fun fuel => ?_) fuel
  unfold argument
  refine .kind_bind read.1 ?_
  rw [TokenKind.unaryOperator?_of_startsPrimary starts]
  exact inner fuel read

private theorem recognized_atom
    {kind : TokenKind}
    {value : Expr}
    (atom : kind.atom? = some value) :
    Recognized (.primary value) [kind] := by
  intro fuel cursor next read
  obtain ⟨here, -, rfl⟩ := read
  refine Agrees.fueled primary rfl (fun fuel => ?_) fuel
  unfold primary
  refine .kind_bind here ?_
  rw [atom]
  exact .advance_bind (.pure _ _)

private theorem recognized_lambda
    {param : Name}
    {statements : List Stmt}
    (inner : Recognized (.body statements) kinds) :
    Recognized (.primary (.lambda param statements))
      (.keyword .lambda :: .ident param :: kinds) := by
  intro fuel cursor next read
  obtain ⟨word, -, paramHere, -, bodyRead⟩ := read
  refine Agrees.fueled primary rfl (fun fuel => ?_) fuel
  unfold primary
  refine .kind_bind word ?_
  refine .advance_bind ?_
  refine .name_bind paramHere ?_
  have innerAgrees := inner fuel bodyRead
  exact .bind innerAgrees (.pure _ _)

private theorem recognized_parenthesized
    {value : Expr}
    (inner : Recognized (.expression value) kinds) :
    Recognized (.primary value) (.symbol .leftParen :: (kinds ++ [.symbol .rightParen])) := by
  intro fuel cursor next read
  obtain ⟨opening, -, insideRead⟩ := read
  obtain ⟨middle, innerRead, closing, -, rfl⟩ := insideRead.of_append
  refine Agrees.fueled primary rfl (fun fuel => ?_) fuel
  unfold primary
  refine .kind_bind opening ?_
  refine .advance_bind ?_
  have innerAgrees := inner fuel innerRead (closing ▸ .rightParen)
  refine .bind innerAgrees ?_
  exact .expect_bind closing (.pure _ _)

private theorem recognized_body
    {statements : List Stmt}
    (inner : Recognized (.sequence statements) kinds) :
    Recognized (.body statements)
      (.symbol .leftBrace :: (kinds ++ [.symbol .rightBrace])) := by
  intro fuel cursor next read
  obtain ⟨opening, -, insideRead⟩ := read
  obtain ⟨middle, innerRead, closing, -, rfl⟩ := insideRead.of_append
  refine Agrees.fueled body rfl (fun fuel => ?_) fuel
  unfold body
  refine .expect_bind opening ?_
  exact (inner fuel innerRead).1 closing

private theorem recognized_nil : Recognized (.sequence []) [] := by
  intro fuel cursor next read
  obtain rfl : cursor = next :=
    read
  constructor
  · intro brace
    refine Agrees.fueled bodyRest rfl (fun fuel => ?_) fuel
    unfold bodyRest
    exact .kind_bind brace (.advance_bind (.pure _ _))
  · intro atEnd
    refine Agrees.fueled program rfl (fun fuel => ?_) fuel
    unfold program
    exact .kind_bind atEnd (.pure _ _)

/-- In front of the rest of a sequence, or of its end, every statement stops. -/
private theorem stopsAt_of_sequence
    {first : Stmt}
    {rest : List Stmt}
    {middle last : Cursor}
    (derived : Derives (.sequence rest) kinds)
    (noMinus : first.EndsInExpr → kinds.head? ≠ some (.symbol .minus))
    (read : middle.Reads kinds last)
    (atEnd : last.current.kind = .symbol .rightBrace ∨ last.current.kind = .endOfInput) :
    first.StopsAt middle.current.kind := by
  cases kinds with
  | nil =>
      obtain rfl : middle = last :=
        read
      rcases atEnd with brace | finish
      · rw [brace]
        exact ⟨nofun, nofun, fun _ => .rightBrace⟩
      · rw [finish]
        exact ⟨nofun, nofun, fun _ => .endOfInput⟩
  | cons kind kinds =>
      have starts : kind.startsStatement = true :=
        derived.begins kind rfl
      obtain ⟨here, -, -⟩ := read
      rw [here]
      constructor
      · rintro rfl
        cases starts
      · rintro rfl
        cases starts
      · intro endsInExpr
        exact .of_startsStatement starts (by simpa using noMinus endsInExpr)

/-- A statement ends where the next begins, unless a minus sign would be taken for a difference. -/
private theorem recognized_cons
    {first : Stmt}
    {rest : List Stmt}
    (firstDerived : Derives (.statement first) before)
    (restDerived : Derives (.sequence rest) after)
    (noMinus : first.EndsInExpr → after.head? ≠ some (.symbol .minus))
    (firstKnown : Recognized (.statement first) before)
    (restKnown : Recognized (.sequence rest) after) :
    Recognized (.sequence (first :: rest)) (before ++ after) := by
  intro fuel cursor next read
  obtain ⟨middle, firstRead, restRead⟩ := read.of_append
  obtain ⟨kind, atHead, starts⟩ := firstDerived.begins
  have here := firstRead.kind_of_head atHead
  constructor
  · intro brace
    have stops := stopsAt_of_sequence restDerived noMinus restRead (.inl brace)
    refine Agrees.fueled bodyRest rfl (fun fuel => ?_) fuel
    unfold bodyRest
    refine .kind_bind here ?_
    split
    · cases starts
    · cases starts
    · have firstAgrees := firstKnown fuel firstRead stops
      refine .bind firstAgrees ?_
      have restAgrees := (restKnown fuel restRead).1 brace
      exact .bind restAgrees (.pure _ _)
  · intro atEnd
    have stops := stopsAt_of_sequence restDerived noMinus restRead (.inr atEnd)
    refine Agrees.fueled program rfl (fun fuel => ?_) fuel
    unfold program
    refine .kind_bind here ?_
    split
    · cases starts
    · have firstAgrees := firstKnown fuel firstRead stops
      refine .bind firstAgrees ?_
      have restAgrees := (restKnown fuel restRead).2 atEnd
      exact .bind restAgrees (.pure _ _)

/-- The brace of a body ends the expression in front of it. -/
private theorem closes_of_body
    {statements : List Stmt}
    {cursor next : Cursor}
    (derived : Derives (.body statements) kinds)
    (read : cursor.Reads kinds next) :
    cursor.current.kind.Closes 5 := by
  rw [read.kind_of_head derived.begins]
  exact .leftBrace

/-- The condition and the first body of a conditional, whatever is read behind them. -/
private theorem agrees_branch
    {condition : Expr}
    {thenBody : List Stmt}
    {next : Expr → List Stmt → Parser Stmt}
    {fuel : Nat}
    {cursor middle last final : Cursor}
    {result : Stmt}
    (thenDerived : Derives (.body thenBody) after)
    (conditionKnown : Recognized (.expression condition) before)
    (thenKnown : Recognized (.body thenBody) after)
    (word : cursor.current.kind = .keyword .ifWord)
    (conditionRead : cursor.advance.Reads before middle)
    (thenRead : middle.Reads after last)
    (tail : Agrees (next condition thenBody) last result final) :
    Agrees
      (do
        let _ ← expect (.keyword .ifWord)
        let condition ← expression fuel
        let thenBody ← body fuel
        next condition thenBody)
      cursor result final := by
  have stops := closes_of_body thenDerived thenRead
  have conditionAgrees := conditionKnown fuel conditionRead stops
  have thenAgrees := thenKnown fuel thenRead
  exact .expect_bind word (.bind conditionAgrees (.bind thenAgrees tail))

private theorem recognized_ifThen
    {condition : Expr}
    {thenBody : List Stmt}
    (thenDerived : Derives (.body thenBody) after)
    (conditionKnown : Recognized (.expression condition) before)
    (thenKnown : Recognized (.body thenBody) after) :
    Recognized (.conditional (.ifThen condition thenBody))
      (.keyword .ifWord :: (before ++ after)) := by
  intro fuel cursor next read noElse
  obtain ⟨word, -, partsRead⟩ := read
  obtain ⟨middle, conditionRead, thenRead⟩ := partsRead.of_append
  refine Agrees.fueled conditional rfl (fun fuel => ?_) fuel
  unfold conditional
  refine agrees_branch thenDerived conditionKnown thenKnown word conditionRead thenRead ?_
  refine .kind_bind rfl ?_
  rw [if_neg (by simpa using noElse)]
  exact .pure _ _

/-- Both bodies of a conditional are read in turn, with `else` between them. -/
private theorem recognized_ifElse
    {condition : Expr}
    {thenBody elseBody : List Stmt}
    {middle : List TokenKind}
    (thenDerived : Derives (.body thenBody) middle)
    (elseDerived : Derives (.body elseBody) after)
    (conditionKnown : Recognized (.expression condition) before)
    (thenKnown : Recognized (.body thenBody) middle)
    (elseKnown : Recognized (.body elseBody) after) :
    Recognized (.conditional (.ifElse condition thenBody elseBody))
      (.keyword .ifWord :: (before ++ (middle ++ .keyword .elseWord :: after))) := by
  intro fuel cursor next read _
  obtain ⟨word, -, partsRead⟩ := read
  obtain ⟨afterCondition, conditionRead, bodiesRead⟩ := partsRead.of_append
  obtain ⟨afterThen, thenRead, isElse, -, elseRead⟩ := bodiesRead.of_append
  refine Agrees.fueled conditional rfl (fun fuel => ?_) fuel
  unfold conditional
  refine agrees_branch thenDerived conditionKnown thenKnown word conditionRead thenRead ?_
  refine .kind_bind isElse ?_
  refine .advance_bind ?_
  refine .kind_bind (elseRead.kind_of_head elseDerived.begins) ?_
  have elseAgrees := elseKnown fuel elseRead
  exact .bind elseAgrees (.pure _ _)

/-- An `else` in front of another conditional takes it as the only statement of its body. -/
private theorem recognized_elseIf
    {condition : Expr}
    {thenBody : List Stmt}
    {nested : Stmt}
    {middle : List TokenKind}
    (thenDerived : Derives (.body thenBody) middle)
    (nestedDerived : Derives (.conditional nested) after)
    (conditionKnown : Recognized (.expression condition) before)
    (thenKnown : Recognized (.body thenBody) middle)
    (nestedKnown : Recognized (.conditional nested) after) :
    Recognized (.conditional (.ifElse condition thenBody [nested]))
      (.keyword .ifWord :: (before ++ (middle ++ .keyword .elseWord :: after))) := by
  intro fuel cursor next read noElse
  obtain ⟨word, -, partsRead⟩ := read
  obtain ⟨afterCondition, conditionRead, bodiesRead⟩ := partsRead.of_append
  obtain ⟨afterThen, thenRead, isElse, -, nestedRead⟩ := bodiesRead.of_append
  refine Agrees.fueled conditional rfl (fun fuel => ?_) fuel
  unfold conditional
  refine agrees_branch thenDerived conditionKnown thenKnown word conditionRead thenRead ?_
  refine .kind_bind isElse ?_
  refine .advance_bind ?_
  refine .kind_bind (nestedRead.kind_of_head nestedDerived.begins) ?_
  have nestedAgrees := nestedKnown fuel nestedRead noElse
  exact .bind nestedAgrees (.pure _ _)

private theorem recognized_skip : Recognized (.statement .skip) [.symbol .semicolon] := by
  intro fuel cursor next read _
  obtain ⟨mark, -, rfl⟩ := read
  refine Agrees.fueled statement rfl (fun fuel => ?_) fuel
  unfold statement
  exact .kind_bind mark (.advance_bind (.pure _ _))

private theorem recognized_block
    {statements : List Stmt}
    (derived : Derives (.body statements) kinds)
    (inner : Recognized (.body statements) kinds) :
    Recognized (.statement (.block statements)) kinds := by
  intro fuel cursor next read _
  refine Agrees.fueled statement rfl (fun fuel => ?_) fuel
  unfold statement
  refine .kind_bind (read.kind_of_head derived.begins) ?_
  have innerAgrees := inner fuel read
  exact .bind innerAgrees (.pure _ _)

private theorem recognized_conditional
    {result : Stmt}
    (derived : Derives (.conditional result) kinds)
    (inner : Recognized (.conditional result) kinds) :
    Recognized (.statement result) kinds := by
  intro fuel cursor next read stops
  refine Agrees.fueled statement rfl (fun fuel => ?_) fuel
  unfold statement
  refine .kind_bind (read.kind_of_head derived.begins) ?_
  exact inner fuel read stops.noElse

private theorem recognized_loop
    {condition : Expr}
    {statements : List Stmt}
    (bodyDerived : Derives (.body statements) after)
    (conditionKnown : Recognized (.expression condition) before)
    (bodyKnown : Recognized (.body statements) after) :
    Recognized (.statement (.loop condition statements))
      (.keyword .whileWord :: (before ++ after)) := by
  intro fuel cursor next read _
  obtain ⟨word, -, partsRead⟩ := read
  obtain ⟨middle, conditionRead, bodyRead⟩ := partsRead.of_append
  have stops := closes_of_body bodyDerived bodyRead
  refine Agrees.fueled statement rfl (fun fuel => ?_) fuel
  unfold statement
  refine .kind_bind word ?_
  refine .advance_bind ?_
  have conditionAgrees := conditionKnown fuel conditionRead stops
  refine .bind conditionAgrees ?_
  have bodyAgrees := bodyKnown fuel bodyRead
  exact .bind bodyAgrees (.pure _ _)

private theorem recognized_declare
    {name : Name}
    {value : Expr}
    (valueKnown : Recognized (.expression value) kinds) :
    Recognized (.statement (.declare name value))
      (.keyword .declare :: .ident name :: .symbol .colonEqual :: kinds) := by
  intro fuel cursor next read stops
  obtain ⟨word, -, nameHere, -, sign, -, valueRead⟩ := read
  refine Agrees.fueled statement rfl (fun fuel => ?_) fuel
  unfold statement
  refine .kind_bind word ?_
  refine .advance_bind ?_
  refine .name_bind nameHere ?_
  refine .expect_bind sign ?_
  have valueAgrees := valueKnown fuel valueRead (stops.closes trivial)
  exact .bind valueAgrees (.pure _ _)

/-- An assignment to `ret` is read as a statement that returns. -/
private theorem recognized_retAssign
    {value : Expr}
    (valueKnown : Recognized (.expression value) kinds) :
    Recognized (.statement (.eval (.ret value)))
      (.keyword .retWord :: .symbol .colonEqual :: kinds) := by
  intro fuel cursor next read stops
  obtain ⟨word, -, sign, -, valueRead⟩ := read
  refine Agrees.fueled statement rfl (fun fuel => ?_) fuel
  unfold statement
  refine .kind_bind word ?_
  refine .advance_bind ?_
  refine .expect_bind sign ?_
  have valueAgrees := valueKnown fuel valueRead (stops.closes trivial)
  exact .bind valueAgrees (.pure _ _)

/-- A name in front of `:=` is told from a variable by looking one token ahead. -/
private theorem recognized_assign
    {name : Name}
    {value : Expr}
    (valueKnown : Recognized (.expression value) kinds) :
    Recognized (.statement (.assign name value))
      (.ident name :: .symbol .colonEqual :: kinds) := by
  intro fuel cursor next read stops
  obtain ⟨nameHere, inside, sign, -, valueRead⟩ := read
  have signAhead : cursor.peek = .symbol .colonEqual := by
    rw [Cursor.peek_eq (nameHere ▸ inside), sign]
  refine Agrees.fueled statement rfl (fun fuel => ?_) fuel
  unfold statement
  refine .kind_bind nameHere ?_
  refine .peek_bind signAhead ?_
  refine .advance_bind ?_
  refine .advance_bind ?_
  have valueAgrees := valueKnown fuel valueRead (stops.closes trivial)
  exact .bind valueAgrees (.pure _ _)

private theorem recognized_write
    {value : Expr}
    (valueKnown : Recognized (.expression value) kinds) :
    Recognized (.statement (.write value)) (.keyword .write :: kinds) := by
  intro fuel cursor next read stops
  obtain ⟨word, -, valueRead⟩ := read
  refine Agrees.fueled statement rfl (fun fuel => ?_) fuel
  unfold statement
  refine .kind_bind word ?_
  refine .advance_bind ?_
  have valueAgrees := valueKnown fuel valueRead (stops.closes trivial)
  exact .bind valueAgrees (.pure _ _)

/--
An expression is a statement of its own. Among the kinds of tokens that begin an expression,
only a name needs a second look.
-/
private theorem recognized_eval
    {value : Expr}
    (derived : Derives (.expression value) kinds)
    (valueKnown : Recognized (.expression value) kinds) :
    Recognized (.statement (.eval value)) kinds := by
  intro fuel cursor next read stops
  obtain ⟨first, rest, rfl, starts, noSign⟩ := derived.begins
  obtain ⟨here, inside, restRead⟩ := read
  have noSignAhead : cursor.peek ≠ .symbol .colonEqual := by
    rw [Cursor.peek_eq (here ▸ inside)]
    cases rest with
    | nil =>
        obtain rfl : cursor.advance = next :=
          restRead
        exact stops.noSign
    | cons =>
        rw [restRead.1]
        simpa using noSign
  refine Agrees.fueled statement rfl (fun fuel => ?_) fuel
  have valueAgrees := valueKnown fuel ⟨here, inside, restRead⟩ (stops.closes trivial)
  have evalAgrees :
      Agrees (expression fuel >>= fun found => Pure.pure (Stmt.eval found)) cursor
        (Stmt.eval value) next :=
    .bind valueAgrees (.pure _ _)
  unfold statement
  refine .kind_bind here ?_
  split
  case h_8 =>
    refine .peek_bind rfl ?_
    rw [if_neg (by simpa using noSignAhead)]
    exact evalAgrees
  case h_9 =>
    rw [if_pos (TokenKind.startsExpr_of_startsExpression starts)]
    exact evalAgrees
  all_goals
    cases starts

end

/-- The parsers of the grammar agree with every derivation. -/
theorem recognized
    {phrase : Phrase}
    {kinds : List TokenKind}
    (derivation : Derives phrase kinds) :
    Recognized phrase kinds := by
  induction derivation with
  | ret _ value =>
      exact recognized_ret value
  | disjunction derived value =>
      exact recognized_disjunction derived value
  | single _ operand =>
      exact recognized_single operand
  | extended _ spells _ left right =>
      exact recognized_extended left spells right
  | tighter joins _ value =>
      exact recognized_tighter joins value
  | tightest _ value =>
      exact recognized_tightest value
  | operator spells _ value =>
      exact recognized_operator spells value
  | called derived value =>
      exact recognized_called derived value
  | callee _ value =>
      intro fuel cursor middle read result next goesOn
      exact .bind (value fuel read) (goesOn fuel)
  | applied _ _ callee arg =>
      exact recognized_applied callee arg
  | argumentOperator spells _ value =>
      exact recognized_argumentOperator spells value
  | argumentPrimary derived value =>
      exact recognized_argumentPrimary derived value
  | number | trueWord | falseWord | ident | read =>
      exact recognized_atom rfl
  | lambda _ body =>
      exact recognized_lambda body
  | parenthesized _ value =>
      exact recognized_parenthesized value
  | body _ statements =>
      exact recognized_body statements
  | nil =>
      exact recognized_nil
  | cons firstDerived restDerived noMinus first rest =>
      exact recognized_cons firstDerived restDerived noMinus first rest
  | ifThen _ thenDerived condition thenBody =>
      exact recognized_ifThen thenDerived condition thenBody
  | ifElse _ thenDerived elseDerived condition thenBody elseBody =>
      exact recognized_ifElse thenDerived elseDerived condition thenBody elseBody
  | elseIf _ thenDerived nestedDerived condition thenBody nested =>
      exact recognized_elseIf thenDerived nestedDerived condition thenBody nested
  | skip =>
      exact recognized_skip
  | block derived body =>
      exact recognized_block derived body
  | conditional derived nested =>
      exact recognized_conditional derived nested
  | loop _ bodyDerived condition body =>
      exact recognized_loop bodyDerived condition body
  | declare _ value =>
      exact recognized_declare value
  | retAssign _ value =>
      exact recognized_retAssign value
  | assign _ value =>
      exact recognized_assign value
  | write _ value =>
      exact recognized_write value
  | eval derived value =>
      exact recognized_eval derived value

/-- Reading a program up to the end mark is decided by the kinds in front of the mark. -/
theorem program_eq_done_iff
    {fuel : Nat}
    {cursor last : Cursor}
    {kinds : List TokenKind}
    {statements : List Stmt}
    (enough : 16 * cursor.remaining + 15 ≤ fuel)
    (read : cursor.Reads kinds last)
    (atEnd : last.current.kind = .endOfInput) :
    (∃ next, program fuel cursor = .done statements next) ↔
      Derives (.sequence statements) kinds := by
  constructor
  · rintro ⟨next, done⟩
    obtain ⟨⟨found, foundRead, derived⟩, foundEnd⟩ := sound_program done
    obtain rfl : found = kinds :=
      foundRead.eq_of_atEnd read foundEnd atEnd
    exact derived
  · intro derived
    rcases (recognized derived fuel read).2 atEnd with spent | done
    · exact ((answers_program fuel cursor enough).ne_exhausted spent).elim
    · exact ⟨last, done⟩

end Parser

/-- A list of tokens is read with enough fuel. -/
theorem remaining_le_parseFuel (tokens : List Token) :
    16 * (Cursor.ofTokens tokens).remaining + 15 ≤ parseFuel tokens := by
  simp only [parseFuel, Cursor.remaining, Cursor.ofTokens]
  omega

/--
A list of tokens that ends at its only end mark parses to a program exactly when
the kinds in front of the mark spell the program.
-/
theorem parseProgram_eq_ok_iff
    {tokens : List Token}
    {finish : Token}
    {statements : List Stmt}
    (inside : ∀ token ∈ tokens, token.kind ≠ .endOfInput)
    (atEnd : finish.kind = .endOfInput) :
    parseProgram (tokens ++ [finish]) = .ok statements ↔
      Derives (.sequence statements) (tokens.map Token.kind) := by
  have read := Cursor.reads_tokens (Cursor.ofTokens (tokens ++ [finish])).finish inside [finish]
  unfold parseProgram
  rw [Parser.answer_eq_ok_iff]
  refine Parser.program_eq_done_iff ?_ read atEnd
  simp only [parseFuel, Cursor.remaining, Cursor.ofTokens]
  omega

/-- A difference groups to the left, and a semicolon keeps a minus sign apart from it. -/
theorem parseProgram_eq_ok_iff_minus_signs :
    let kinds : List TokenKind :=
      [.int 1, .symbol .minus, .int 2, .symbol .minus, .int 3, .symbol .semicolon,
        .symbol .minus, .int 4]
    let tokens : List Token := kinds.map (⟨·, ⟨0, 0⟩⟩)
    let finish : Token := ⟨.endOfInput, ⟨0, 0⟩⟩
    let statements : List Stmt :=
      [.eval (.binary .sub (.binary .sub (.number 1) (.number 2)) (.number 3)), .skip,
        .eval (.unary .neg (.number 4))]
    (∀ token ∈ tokens, token.kind ≠ .endOfInput) ∧
      parseProgram (tokens ++ [finish]) = .ok statements ∧
        Derives (.sequence statements) kinds := by
  intro kinds tokens finish statements
  have inside : ∀ token ∈ tokens, token.kind ≠ .endOfInput := by
    decide
  have parsed : parseProgram (tokens ++ [finish]) = .ok statements :=
    rfl
  exact ⟨inside, parsed, (parseProgram_eq_ok_iff inside rfl).mp parsed⟩

end ScopeLang
