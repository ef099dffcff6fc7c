import ScopeLang.Parse.Progress
import ScopeLang.Proofs.Grammar

namespace ScopeLang

/-!
# Reading token kinds

What joins parsers and the grammar: the kinds that lie between two cursors, how
a step of a parser moves between them, and which token closes an expression.
-/

namespace Cursor

/-- Tokens of these kinds, none of them the end mark, lie between two cursors. -/
def Reads (cursor : Cursor) : List TokenKind → Cursor → Prop
  | [], next => cursor = next
  | kind :: rest, next =>
      cursor.current.kind = kind ∧
        kind ≠ .endOfInput ∧
          cursor.advance.Reads rest next

namespace Reads

/-- A cursor at a token other than the end mark reads its kind in one step. -/
theorem one
    {cursor : Cursor}
    {kind : TokenKind}
    (here : cursor.current.kind = kind)
    (inside : kind ≠ .endOfInput) :
    cursor.Reads [kind] cursor.advance :=
  ⟨here, inside, rfl⟩

/-- Reading one word and then another reads both in a row. -/
theorem append
    {cursor middle next : Cursor}
    {before after : List TokenKind}
    (earlier : cursor.Reads before middle)
    (later : middle.Reads after next) :
    cursor.Reads (before ++ after) next := by
  induction before generalizing cursor with
  | nil =>
      obtain rfl : cursor = middle :=
        earlier
      exact later
  | cons kind rest inductionHypothesis =>
      obtain ⟨here, inside, restRead⟩ := earlier
      exact ⟨here, inside, inductionHypothesis restRead⟩

/-- A reading of two words in a row passes the place between them. -/
theorem of_append
    {cursor next : Cursor}
    {before after : List TokenKind}
    (read : cursor.Reads (before ++ after) next) :
    ∃ middle, cursor.Reads before middle ∧ middle.Reads after next := by
  induction before generalizing cursor with
  | nil =>
      exact ⟨cursor, rfl, read⟩
  | cons kind rest inductionHypothesis =>
      obtain ⟨here, inside, restRead⟩ := read
      obtain ⟨middle, earlier, later⟩ := inductionHypothesis restRead
      exact ⟨middle, ⟨here, inside, earlier⟩, later⟩

/-- The token at a cursor is the first of the kinds that are read from it. -/
theorem kind_of_head
    {cursor next : Cursor}
    {kinds : List TokenKind}
    (read : cursor.Reads kinds next)
    {kind : TokenKind}
    (atHead : kinds.head? = some kind) :
    cursor.current.kind = kind := by
  cases kinds with
  | nil =>
      simp at atHead
  | cons first rest =>
      obtain rfl : first = kind := by
        simpa using atHead
      exact read.1

/-- Up to an end mark there is one way to read. -/
theorem eq_of_atEnd
    {cursor next other : Cursor}
    {kinds others : List TokenKind}
    (read : cursor.Reads kinds next)
    (otherRead : cursor.Reads others other)
    (atEnd : next.current.kind = .endOfInput)
    (otherAtEnd : other.current.kind = .endOfInput) :
    kinds = others := by
  induction kinds generalizing cursor others with
  | nil =>
      obtain rfl : cursor = next :=
        read
      cases others with
      | nil =>
          rfl
      | cons =>
          obtain ⟨here, inside, -⟩ := otherRead
          exact (inside (here.symm.trans atEnd)).elim
  | cons kind rest inductionHypothesis =>
      obtain ⟨here, inside, restRead⟩ := read
      cases others with
      | nil =>
          obtain rfl : cursor = other :=
            otherRead
          exact (inside (here.symm.trans otherAtEnd)).elim
      | cons otherKind otherRest =>
          obtain ⟨otherHere, -, otherRestRead⟩ := otherRead
          rw [inductionHypothesis restRead otherRestRead, ← here, ← otherHere]

end Reads

/-- Tokens other than the end mark are read one after the other. -/
theorem reads_tokens
    {tokens : List Token}
    (finish : Span)
    (inside : ∀ token ∈ tokens, token.kind ≠ .endOfInput)
    (rest : List Token) :
    Reads ⟨tokens ++ rest, finish⟩ (tokens.map Token.kind) ⟨rest, finish⟩ := by
  induction tokens with
  | nil =>
      rfl
  | cons token tokens inductionHypothesis =>
      obtain ⟨firstInside, restInside⟩ := List.forall_mem_cons.mp inside
      refine ⟨rfl, firstInside, ?_⟩
      have notAtEnd : atEnd ⟨token :: (tokens ++ rest), finish⟩ = false := by
        simpa [atEnd, current] using firstInside
      have step :
          advance ⟨token :: (tokens ++ rest), finish⟩ = ⟨tokens ++ rest, finish⟩ := by
        simp [advance, notAtEnd]
      rw [List.cons_append, step]
      exact inductionHypothesis restInside

/-- Inside the tokens, what lies ahead is what the next step will stand at. -/
theorem peek_eq
    {cursor : Cursor}
    (inside : cursor.current.kind ≠ .endOfInput) :
    cursor.peek = cursor.advance.current.kind := by
  cases shape : cursor.rest with
  | nil =>
      simp [current, shape] at inside
  | cons first rest =>
      have more : first.kind ≠ .endOfInput := by
        simpa [current, shape] using inside
      cases rest <;>
        simp [peek, advance, atEnd, current, shape, more]

end Cursor

namespace TokenKind

/-- Only a symbol counts as that symbol. -/
theorem sameAs_symbol
    {kind : TokenKind}
    {mark : Symbol} :
    kind.sameAs (.symbol mark) = true ↔ kind = .symbol mark := by
  cases kind <;> simp [sameAs]

/-- Only a keyword counts as that keyword. -/
theorem sameAs_keyword
    {kind : TokenKind}
    {word : Keyword} :
    kind.sameAs (.keyword word) = true ↔ kind = .keyword word := by
  cases kind <;> simp [sameAs]

end TokenKind

namespace BinaryLevel

/-- The operators a level looks for are those the grammar spells at it. -/
theorem operator?_eq_some_iff
    {level : BinaryLevel}
    {kind : TokenKind}
    {op : BinaryOp} :
    level.operator? kind = some op ↔ level.Spells kind op := by
  constructor
  · intro found
    unfold operator? at found
    split at found <;> cases found <;> constructor
  · intro spells
    cases spells <;> rfl

/-- No binary operator is spelled by the end mark. -/
theorem Spells.ne_endOfInput
    {level : BinaryLevel}
    {kind : TokenKind}
    {op : BinaryOp}
    (spells : level.Spells kind op) :
    kind ≠ .endOfInput := by
  cases spells <;> exact nofun

/-- The level the parser descends to is the one the grammar joins. -/
theorem tighter?_eq_some_iff
    {level inner : BinaryLevel} :
    level.tighter? = some inner ↔ level.Joins inner := by
  constructor
  · intro found
    cases level <;> cases found <;> constructor
  · intro joins
    cases joins <;> rfl

/-- Products are the only level with no tighter one below. -/
theorem eq_product_of_tighter?
    {level : BinaryLevel}
    (tightest : level.tighter? = none) :
    level = .product := by
  cases level <;> simp_all [tighter?]

/-- Levels are told apart by how many levels bind tighter. -/
theorem eq_of_depth_eq
    {first second : BinaryLevel}
    (same : first.depth = second.depth) :
    first = second := by
  cases first <;> cases second <;> simp_all [depth]

/-- A level lies one above the level whose operands it joins. -/
theorem Joins.depth_eq
    {level inner : BinaryLevel}
    (joins : level.Joins inner) :
    level.depth = inner.depth + 1 := by
  cases joins <;> rfl

end BinaryLevel

/-- No prefix operator is spelled by the end mark. -/
theorem UnaryOp.Spells.ne_endOfInput
    {kind : TokenKind}
    {op : UnaryOp}
    (spells : UnaryOp.Spells kind op) :
    kind ≠ .endOfInput := by
  cases spells <;> exact nofun

/-- The prefix operators the parser looks for are those the grammar spells. -/
theorem TokenKind.unaryOperator?_eq_some_iff
    {kind : TokenKind}
    {op : UnaryOp} :
    kind.unaryOperator? = some op ↔ UnaryOp.Spells kind op := by
  constructor
  · intro found
    unfold unaryOperator? at found
    split at found <;> cases found <;> constructor
  · intro spells
    cases spells <;> rfl

namespace TokenKind

/--
A token that continues no call and no operand of the levels below a depth: the
expression read so far ends here.
-/
def Closes (depth : Nat) (kind : TokenKind) : Prop :=
  kind ≠ .symbol .at ∧
    ∀ level : BinaryLevel, level.depth < depth → level.operator? kind = none

namespace Closes

/-- A token that closes the tighter levels, and is no operator here, closes this level as well. -/
theorem succ
    {level : BinaryLevel}
    {kind : TokenKind}
    (closes : kind.Closes level.depth)
    (noOperator : level.operator? kind = none) :
    kind.Closes (level.depth + 1) := by
  refine ⟨closes.1, fun other inside => ?_⟩
  rcases Nat.lt_or_eq_of_le (Nat.le_of_lt_succ inside) with tighter | same
  · exact closes.2 other tighter
  · obtain rfl := BinaryLevel.eq_of_depth_eq same
    exact noOperator

/-- What closes looser levels closes the tighter ones. -/
theorem mono
    {less more : Nat}
    {kind : TokenKind}
    (closes : kind.Closes more)
    (order : less ≤ more) :
    kind.Closes less :=
  ⟨closes.1, fun level inside => closes.2 level (Nat.lt_of_lt_of_le inside order)⟩

/-- An operator ends the operands of its own level. -/
theorem of_spells
    {level : BinaryLevel}
    {kind : TokenKind}
    {op : BinaryOp}
    (spells : level.Spells kind op) :
    kind.Closes level.depth := by
  refine ⟨?_, fun other tighter => ?_⟩
  · cases spells <;> exact nofun
  · cases spells <;> cases other <;>
      simp_all [BinaryLevel.depth, BinaryLevel.operator?]

/-- A token that closes every level is no minus sign, which would go on with a sum. -/
theorem ne_minus
    {kind : TokenKind}
    (closes : kind.Closes 5) :
    kind ≠ .symbol .minus := by
  rintro rfl
  have stopped := closes.2 .sum (by decide)
  cases stopped

end Closes

end TokenKind

end ScopeLang
