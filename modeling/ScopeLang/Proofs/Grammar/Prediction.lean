import ScopeLang.Proofs.Grammar.Recognition

namespace ScopeLang

/-!
# Prediction

The parsers of the grammar are predictive: what they do depends on the kinds of the
tokens that they read and on the kind of the token that they stop at, and on nothing
behind it. A parser that is done has read a word of its language. A parser that
fails has read the beginning of a word, and the token that it fails at is the first
one that fits no word.

The languages follow the parsers from left to right. What is left to be read behind
some kinds is spelled by the words of the language that begin with these kinds.
-/

namespace Cursor.Reads

/-- Where the same kinds lie ahead, the next token is of the same kind. -/
theorem current_kind_eq
    {cursor next other last : Cursor}
    {kinds : List TokenKind}
    (read : cursor.Reads kinds next)
    (otherRead : other.Reads kinds last)
    (same : last.current.kind = next.current.kind) :
    other.current.kind = cursor.current.kind := by
  cases kinds with
  | nil =>
      obtain rfl : cursor = next :=
        read
      obtain rfl : other = last :=
        otherRead
      exact same
  | cons =>
      exact otherRead.1.trans read.1.symm

/-- Where the same kinds lie ahead, one of them at least, so is the second token. -/
theorem peek_kind_eq
    {cursor next other last : Cursor}
    {kind : TokenKind}
    {kinds : List TokenKind}
    (read : cursor.Reads (kind :: kinds) next)
    (otherRead : other.Reads (kind :: kinds) last)
    (same : last.current.kind = next.current.kind) :
    other.peek = cursor.peek := by
  obtain ⟨here, inside, restRead⟩ := read
  obtain ⟨otherHere, -, otherRestRead⟩ := otherRead
  rw [Cursor.peek_eq (otherHere ▸ inside), Cursor.peek_eq (here ▸ inside)]
  exact restRead.current_kind_eq otherRestRead same

end Cursor.Reads

namespace Parser

/--
At a cursor, a parser reads a word of a language or stops at the first token that
fits no word, and wherever the same kinds lie ahead it does the same.
-/
structure Predicts
    (parser : Parser α)
    (language : α → List TokenKind → Prop)
    (cursor : Cursor) :
    Prop where
  done : ∀ {value next}, parser cursor = .done value next →
    ∃ kinds,
      cursor.Reads kinds next ∧
        language value kinds ∧
          ∀ {other last : Cursor}, other.Reads kinds last →
            last.current.kind = next.current.kind →
              parser other = .done value last
  failed : ∀ {error}, parser cursor = .failed error →
    ∃ kinds stop,
      cursor.Reads kinds stop ∧
        error.found = stop.current ∧
          (∃ value more, language value (kinds ++ more)) ∧
            ∀ {other last : Cursor}, other.Reads kinds last →
              last.current.kind = stop.current.kind →
                parser other = .failed (last.errorExpected error.expected)

/-- Two parsers in a row fail when the first does, or the second where the first left off. -/
theorem of_bind_eq_failed
    {first : Parser α}
    {next : α → Parser β}
    {cursor : Cursor}
    {error : ParseError}
    (failed : (first >>= next) cursor = .failed error) :
    first cursor = .failed error ∨
      ∃ value middle,
        first cursor = .done value middle ∧
          next value middle = .failed error := by
  cases read : first cursor with
  | done value middle =>
      rw [bind_of_done read] at failed
      exact .inr ⟨value, middle, rfl, failed⟩
  | failed =>
      rw [bind_of_failed read] at failed
      cases failed
      exact .inl rfl
  | exhausted =>
      change Parser.bind first next cursor = _ at failed
      rw [Parser.bind, read] at failed
      cases failed

/-- To expect a token is to look at the next one first. -/
theorem expect_bind_eq
    (kind : TokenKind)
    (parser : Parser β) :
    (expect kind >>= fun _ => parser) =
      (Parser.kind >>= fun found =>
        if found.sameAs kind then advance >>= fun _ => parser
        else fail (.kind kind)) := by
  funext cursor
  change Parser.bind (expect kind) (fun _ => parser) cursor =
    (if cursor.current.kind.sameAs kind then advance >>= fun _ => parser
      else fail (.kind kind)) cursor
  cases same : cursor.current.kind.sameAs kind with
  | true =>
      rw [if_pos rfl, Parser.bind, expect, Cursor.check, if_pos same]
      rfl
  | false =>
      rw [if_neg Bool.false_ne_true, Parser.bind, expect, Cursor.check, if_neg (by simp [same])]
      rfl

namespace Predicts

section

variable {language : β → List TokenKind → Prop} {cursor : Cursor}

/-- A parser that reads nothing predicts a language with the empty word. -/
theorem pure
    {value : β}
    (spelled : language value []) :
    Predicts (Pure.pure value) language cursor where
  done := by
    intro _ _ read
    cases read
    refine ⟨[], rfl, spelled, ?_⟩
    intro other last otherRead _
    obtain rfl : other = last :=
      otherRead
    rfl
  failed := nofun

/-- A parser that fails at once has read a prefix of any word there is. -/
theorem fail
    (expected : Expectation)
    (completes : ∃ value more, language value more) :
    Predicts (Parser.fail expected) language cursor where
  done := nofun
  failed := by
    intro _ stopped
    cases stopped
    refine ⟨[], cursor, rfl, rfl, completes, ?_⟩
    intro other last otherRead _
    obtain rfl : other = last :=
      otherRead
    rfl

/-- A parser out of fuel has said nothing that could be wrong. -/
theorem giveUp : Predicts Parser.giveUp language cursor where
  done := nofun
  failed := nofun

/-- A parser whose words are words of a language, with regard to the token it begins at. -/
theorem restrict
    {parser : Parser β}
    {words : β → List TokenKind → Prop}
    (known : Predicts parser words cursor)
    (completes : ∃ value more, language value more)
    (spelled :
      ∀ {value kinds},
        words value kinds →
          (∀ kind, kinds.head? = some kind → cursor.current.kind = kind) →
            language value kinds) :
    Predicts parser language cursor where
  done := by
    intro value next read
    obtain ⟨kinds, reads, word, alike⟩ := known.done read
    refine ⟨kinds, reads, spelled word ?_, alike⟩
    intro kind atHead
    exact reads.kind_of_head atHead
  failed := by
    intro error stopped
    obtain ⟨kinds, stop, reads, found, ⟨value, more, word⟩, alike⟩ := known.failed stopped
    refine ⟨kinds, stop, reads, found, ?_, alike⟩
    cases kinds with
    | nil =>
        exact completes
    | cons first rest =>
        refine ⟨value, more, spelled word ?_⟩
        intro kind atHead
        obtain rfl : first = kind := by
          simpa using atHead
        exact reads.1

/-- A parser whose words all belong to a language predicts that language. -/
theorem mono
    {parser : Parser β}
    {words : β → List TokenKind → Prop}
    (known : Predicts parser words cursor)
    (spelled : ∀ {value kinds}, words value kinds → language value kinds) :
    Predicts parser language cursor where
  done := by
    intro value next read
    obtain ⟨kinds, reads, word, alike⟩ := known.done read
    exact ⟨kinds, reads, spelled word, alike⟩
  failed := by
    intro error stopped
    obtain ⟨kinds, stop, reads, found, ⟨value, more, word⟩, alike⟩ := known.failed stopped
    exact ⟨kinds, stop, reads, found, ⟨value, more, spelled word⟩, alike⟩

/--
A part of a word, and behind it what is left of the word. The token at which the first part
stops is where the second part begins.
-/
theorem bind
    {first : Parser α}
    {next : α → Parser β}
    {part : α → List TokenKind → Prop}
    (head : Predicts first part cursor)
    (completes :
      ∀ {value kinds}, part value kinds → ∃ result more, language result (kinds ++ more))
    (tail :
      ∀ {value middle kinds},
        first cursor = .done value middle →
          part value kinds →
            Predicts (next value) (fun result more => language result (kinds ++ more)) middle) :
    Predicts (first >>= next) language cursor where
  done := by
    intro result last read
    obtain ⟨value, middle, firstRead, nextRead⟩ := of_bind_eq_done read
    obtain ⟨kinds, reads, word, alike⟩ := head.done firstRead
    obtain ⟨more, moreReads, wholeWord, moreAlike⟩ := (tail firstRead word).done nextRead
    refine ⟨kinds ++ more, reads.append moreReads, wholeWord, ?_⟩
    intro other otherLast otherRead same
    obtain ⟨otherMiddle, otherReads, otherMoreReads⟩ := otherRead.of_append
    have sameMiddle := moreReads.current_kind_eq otherMoreReads same
    rw [bind_of_done (alike otherReads sameMiddle)]
    exact moreAlike otherMoreReads same
  failed := by
    intro error stopped
    rcases of_bind_eq_failed stopped with firstStopped | ⟨value, middle, firstRead, nextStopped⟩
    · obtain ⟨kinds, stop, reads, found, ⟨value, more, word⟩, alike⟩ := head.failed firstStopped
      obtain ⟨result, others, wholeWord⟩ := completes word
      refine ⟨kinds, stop, reads, found, ⟨result, more ++ others, ?_⟩, ?_⟩
      · rwa [← List.append_assoc]
      · intro other last otherRead same
        exact bind_of_failed (alike otherRead same)
    · obtain ⟨kinds, reads, word, alike⟩ := head.done firstRead
      obtain ⟨more, stop, moreReads, found, ⟨result, others, wholeWord⟩, moreAlike⟩ :=
        (tail firstRead word).failed nextStopped
      refine ⟨kinds ++ more, stop, reads.append moreReads, found, ⟨result, others, ?_⟩, ?_⟩
      · rwa [List.append_assoc]
      · intro other otherLast otherRead same
        obtain ⟨otherMiddle, otherReads, otherMoreReads⟩ := otherRead.of_append
        have sameMiddle := moreReads.current_kind_eq otherMoreReads same
        rw [bind_of_done (alike otherReads sameMiddle)]
        exact moreAlike otherMoreReads same

/-- A parser whose value is made into another one. -/
theorem map
    {first : Parser α}
    {make : α → β}
    {part : α → List TokenKind → Prop}
    (head : Predicts first part cursor)
    (spelled : ∀ {value kinds}, part value kinds → language (make value) kinds) :
    Predicts (first >>= fun value => Pure.pure (make value)) language cursor := by
  refine head.bind ?_ ?_
  · intro value kinds word
    exact ⟨make value, [], by simpa using spelled word⟩
  · intro value middle kinds _ word
    exact .pure (by simpa using spelled word)

/-- A parser that does what a predictive one does, wherever the same kinds lie ahead. -/
theorem congr
    {parser twin : Parser β}
    (known : Predicts twin language cursor)
    (here : parser cursor = twin cursor)
    (elsewhere :
      ∀ {kinds stop other last},
        cursor.Reads kinds stop →
          other.Reads kinds last →
            last.current.kind = stop.current.kind →
              parser other = twin other) :
    Predicts parser language cursor where
  done := by
    intro value next read
    obtain ⟨kinds, reads, word, alike⟩ := known.done (here ▸ read)
    refine ⟨kinds, reads, word, ?_⟩
    intro other last otherReads same
    rw [elsewhere reads otherReads same]
    exact alike otherReads same
  failed := by
    intro error stopped
    obtain ⟨kinds, stop, reads, found, viable, alike⟩ := known.failed (here ▸ stopped)
    refine ⟨kinds, stop, reads, found, viable, ?_⟩
    intro other last otherReads same
    rw [elsewhere reads otherReads same]
    exact alike otherReads same

/-- The kind of the next token decides how to go on. -/
theorem kind_bind
    {next : TokenKind → Parser β}
    (tail : Predicts (next cursor.current.kind) language cursor) :
    Predicts (Parser.kind >>= next) language cursor := by
  refine tail.congr rfl ?_
  intro kinds stop other last reads otherReads same
  change next other.current.kind other = _
  rw [reads.current_kind_eq otherReads same]

/-- A token that was looked at is read, and what is left is what may follow it. -/
theorem advance_bind
    {parser : Parser β}
    {kind : TokenKind}
    (found : cursor.current.kind = kind)
    (inside : kind ≠ .endOfInput)
    (tail : Predicts parser (fun value kinds => language value (kind :: kinds)) cursor.advance) :
    Predicts (Parser.advance >>= fun _ => parser) language cursor where
  done := by
    intro value last read
    obtain ⟨kinds, reads, word, alike⟩ := tail.done read
    refine ⟨kind :: kinds, ⟨found, inside, reads⟩, word, ?_⟩
    intro other otherLast otherRead same
    exact alike otherRead.2.2 same
  failed := by
    intro error stopped
    obtain ⟨kinds, stop, reads, atStop, viable, alike⟩ := tail.failed stopped
    refine ⟨kind :: kinds, stop, ⟨found, inside, reads⟩, atStop, viable, ?_⟩
    intro other otherLast otherRead same
    exact alike otherRead.2.2 same

/-- A token of one kind is read, and any other one is the first that fits no word. -/
theorem expect_bind
    {parser : Parser β}
    {kind : TokenKind}
    (exact : ∀ {other : TokenKind}, other.sameAs kind = true ↔ other = kind)
    (inside : kind ≠ .endOfInput)
    (completes : ∃ value more, language value (kind :: more))
    (tail : Predicts parser (fun value kinds => language value (kind :: kinds)) cursor.advance) :
    Predicts (Parser.expect kind >>= fun _ => parser) language cursor := by
  rw [expect_bind_eq]
  refine kind_bind ?_
  split
  · rename_i same
    exact advance_bind (exact.mp same) inside tail
  · obtain ⟨value, more, word⟩ := completes
    exact fail _ ⟨value, kind :: more, word⟩

end

/-- An identifier is read. -/
theorem name {cursor : Cursor} :
    Predicts Parser.name (fun identifier kinds => kinds = [.ident identifier]) cursor where
  done := by
    intro identifier next read
    have reads := reads_of_name read
    refine ⟨_, reads, rfl, ?_⟩
    intro other last otherRead _
    obtain ⟨here, -, rfl⟩ := otherRead
    rw [Parser.name, here]
  failed := by
    intro error stopped
    unfold Parser.name at stopped
    split at stopped
    · cases stopped
    · rename_i notIdent
      cases stopped
      refine ⟨[], cursor, rfl, rfl, ⟨⟨0⟩, [.ident ⟨0⟩], rfl⟩, ?_⟩
      intro other last otherRead same
      obtain rfl : other = last :=
        otherRead
      unfold Parser.name
      split
      · rename_i identifier here
        exact (notIdent identifier (same.symm.trans here)).elim
      · rfl

/--
The kind of the second token decides how to go on, with a parser that reads at least
the first one: its words are not empty, and the first token alone is no reason to fail.
-/
theorem peek_bind
    {next : TokenKind → Parser β}
    {language : β → List TokenKind → Prop}
    {cursor : Cursor}
    (nonempty : ∀ {value}, ¬ language value [])
    (agrees :
      ∃ other value last,
        other.current.kind = cursor.current.kind ∧
          Agrees (next cursor.peek) other value last)
    (tail : Predicts (next cursor.peek) language cursor) :
    Predicts (Parser.peek >>= next) language cursor where
  done := by
    intro value stop read
    obtain ⟨kinds, reads, word, alike⟩ := tail.done read
    refine ⟨kinds, reads, word, ?_⟩
    cases kinds with
    | nil =>
        exact (nonempty word).elim
    | cons =>
        intro other last otherReads same
        change next other.peek other = _
        rw [reads.peek_kind_eq otherReads same]
        exact alike otherReads same
  failed := by
    intro error stopped
    obtain ⟨kinds, stop, reads, found, viable, alike⟩ := tail.failed stopped
    refine ⟨kinds, stop, reads, found, viable, ?_⟩
    cases kinds with
    | nil =>
        obtain rfl : cursor = stop :=
          reads
        obtain ⟨other, value, last, sameKind, agreed⟩ := agrees
        have fails := @alike other other rfl sameKind
        rcases agreed with spent | read
        · exact nomatch spent.symm.trans fails
        · exact nomatch read.symm.trans fails
    | cons =>
        intro other last otherReads same
        change next other.peek other = _
        rw [reads.peek_kind_eq otherReads same]
        exact alike otherReads same

end Predicts

end Parser

/-- A primary is an expression. -/
theorem Derives.expression_of_primary
    {value : Expr}
    {kinds : List TokenKind}
    (primary : Derives (.primary value) kinds) :
    Derives (.expression value) kinds := by
  have product := Derives.single (.tightest (.called (.callee primary)))
  have sum := Derives.single (.tighter .products product)
  have comparison := Derives.single (.tighter .sums sum)
  have conjunction := Derives.single (.tighter .comparisons comparison)
  exact .disjunction (.single (.tighter .conjunctions conjunction))

/-- A statement in front of the statements in braces. -/
theorem Derives.body_cons
    {first : Stmt}
    {rest : List Stmt}
    {before after : List TokenKind}
    (statement : Derives (.statement first) before)
    (sequence : Derives (.sequence rest) after)
    (noMinus : first.EndsInExpr → after.head? ≠ some (.symbol .minus)) :
    Derives (.body (first :: rest))
      (.symbol .leftBrace :: (before ++ (after ++ [.symbol .rightBrace]))) := by
  rw [← List.append_assoc]
  exact .body (.cons statement sequence noMinus)

namespace Parser

/-- With some fuel, the parsers of the grammar are predictive. -/
structure Predictive (fuel : Nat) : Prop where
  expression : ∀ {cursor},
    Predicts (expression fuel) (fun value => Derives (.expression value)) cursor
  binary : ∀ {level cursor},
    Predicts (binary fuel level) (fun value => Derives (.binary level value)) cursor
  operand : ∀ {level cursor},
    Predicts (operand fuel level) (fun value => Derives (.operand level value)) cursor
  chain : ∀ {level left cursor},
    Predicts (chain fuel level left)
      (fun value kinds =>
        ∀ {before}, Derives (.binary level left) before →
          Derives (.binary level value) (before ++ kinds))
      cursor
  unary : ∀ {cursor},
    Predicts (unary fuel) (fun value => Derives (.unary value)) cursor
  calls : ∀ {callee cursor},
    Predicts (calls fuel callee)
      (fun value kinds =>
        ∀ {before}, Derives (.call callee) before →
          Derives (.call value) (before ++ kinds))
      cursor
  argument : ∀ {cursor},
    Predicts (argument fuel) (fun value => Derives (.argument value)) cursor
  primary : ∀ {cursor},
    Predicts (primary fuel) (fun value => Derives (.primary value)) cursor
  body : ∀ {cursor},
    Predicts (body fuel) (fun statements => Derives (.body statements)) cursor
  bodyRest : ∀ {cursor},
    Predicts (bodyRest fuel)
      (fun statements kinds => Derives (.body statements) (.symbol .leftBrace :: kinds))
      cursor
  conditional : ∀ {cursor},
    Predicts (conditional fuel) (fun result => Derives (.conditional result)) cursor
  statement : ∀ {cursor},
    Predicts (statement fuel) (fun result => Derives (.statement result)) cursor

private theorem predictive_zero : Predictive 0 := by
  constructor <;> intros <;> exact .giveUp

section

variable {fuel : Nat} {cursor : Cursor}

private theorem predicts_expression (known : Predictive fuel) :
    Predicts (expression (fuel + 1)) (fun value => Derives (.expression value)) cursor := by
  unfold expression
  refine .kind_bind ?_
  split
  · rename_i found
    refine .advance_bind (beq_iff_eq.mp found) (by decide) ?_
    exact known.expression.map .ret
  · exact known.binary.mono .disjunction

private theorem predicts_binary
    (known : Predictive fuel)
    {level : BinaryLevel} :
    Predicts (binary (fuel + 1) level) (fun value => Derives (.binary level value)) cursor := by
  unfold binary
  refine known.operand.bind ?_ ?_
  · intro left kinds operand
    exact ⟨left, [], by simpa using .single operand⟩
  · intro left middle kinds _ operand
    exact known.chain.mono fun extend => extend (.single operand)

private theorem predicts_operand
    (known : Predictive fuel)
    {level : BinaryLevel} :
    Predicts (operand (fuel + 1) level) (fun value => Derives (.operand level value)) cursor := by
  unfold operand
  split
  · rename_i inner tighter
    exact known.binary.mono (.tighter (BinaryLevel.tighter?_eq_some_iff.mp tighter))
  · rename_i tightest
    obtain rfl := BinaryLevel.eq_product_of_tighter? tightest
    exact known.unary.mono .tightest

private theorem predicts_chain
    (known : Predictive fuel)
    {level : BinaryLevel}
    {left : Expr} :
    Predicts (chain (fuel + 1) level left)
      (fun value kinds =>
        ∀ {before}, Derives (.binary level left) before →
          Derives (.binary level value) (before ++ kinds))
      cursor := by
  unfold chain
  refine .kind_bind ?_
  split
  · rename_i op operator
    have spells := BinaryLevel.operator?_eq_some_iff.mp operator
    refine .advance_bind rfl spells.ne_endOfInput ?_
    refine known.operand.bind ?_ ?_
    · intro right kinds operand
      refine ⟨.binary op left right, [], ?_⟩
      intro before derived
      simpa using Derives.extended derived spells operand
    · intro right middle kinds _ operand
      refine known.chain.mono ?_
      intro value more extend before derived
      simpa using extend (.extended derived spells operand)
  · refine .pure ?_
    intro before derived
    simpa using derived

private theorem predicts_unary (known : Predictive fuel) :
    Predicts (unary (fuel + 1)) (fun value => Derives (.unary value)) cursor := by
  unfold unary
  refine .kind_bind ?_
  split
  · rename_i op operator
    have spells := TokenKind.unaryOperator?_eq_some_iff.mp operator
    refine .advance_bind rfl spells.ne_endOfInput ?_
    exact known.unary.map (.operator spells)
  · refine known.primary.bind ?_ ?_
    · intro callee kinds primary
      exact ⟨callee, [], by simpa using Derives.called (.callee primary)⟩
    · intro callee middle kinds _ primary
      exact known.calls.mono fun extend => .called (extend (.callee primary))

private theorem predicts_calls
    (known : Predictive fuel)
    {callee : Expr} :
    Predicts (calls (fuel + 1) callee)
      (fun value kinds =>
        ∀ {before}, Derives (.call callee) before →
          Derives (.call value) (before ++ kinds))
      cursor := by
  unfold calls
  refine .kind_bind ?_
  split
  · rename_i sign
    refine .advance_bind (beq_iff_eq.mp sign) (by decide) ?_
    refine known.argument.bind ?_ ?_
    · intro arg kinds argument
      refine ⟨.call callee arg, [], ?_⟩
      intro before derived
      simpa using Derives.applied derived argument
    · intro arg middle kinds _ argument
      refine known.calls.mono ?_
      intro value more extend before derived
      simpa using extend (.applied derived argument)
  · refine .pure ?_
    intro before derived
    simpa using derived

private theorem predicts_argument (known : Predictive fuel) :
    Predicts (argument (fuel + 1)) (fun value => Derives (.argument value)) cursor := by
  unfold argument
  refine .kind_bind ?_
  split
  · rename_i op operator
    have spells := TokenKind.unaryOperator?_eq_some_iff.mp operator
    refine .advance_bind rfl spells.ne_endOfInput ?_
    exact known.argument.map (.argumentOperator spells)
  · exact known.primary.mono .argumentPrimary

private theorem predicts_primary (known : Predictive fuel) :
    Predicts (primary (fuel + 1)) (fun value => Derives (.primary value)) cursor := by
  unfold primary
  refine .kind_bind ?_
  split
  · rename_i atom found
    have inside : cursor.current.kind ≠ .endOfInput := by
      intro atEnd
      rw [atEnd] at found
      cases found
    exact .advance_bind rfl inside (.pure (derives_of_atom? found))
  · split
    · rename_i word
      refine .advance_bind (beq_iff_eq.mp word) (by decide) ?_
      refine Predicts.name.bind ?_ ?_
      · rintro param _ rfl
        exact ⟨.lambda param [], [.symbol .leftBrace, .symbol .rightBrace], .lambda (.body .nil)⟩
      · rintro param middle _ _ rfl
        exact known.body.map .lambda
    · split
      · rename_i paren
        refine .advance_bind (beq_iff_eq.mp paren) (by decide) ?_
        refine known.expression.bind ?_ ?_
        · intro inner kinds expression
          exact ⟨inner, [.symbol .rightParen], .parenthesized expression⟩
        · intro inner middle kinds _ expression
          have closed := Derives.parenthesized expression
          exact .expect_bind TokenKind.sameAs_symbol (by decide) ⟨inner, [], closed⟩ (.pure closed)
      · exact .fail _ ⟨.number 0, [.int 0], .number⟩

private theorem predicts_body (known : Predictive fuel) :
    Predicts (body (fuel + 1)) (fun statements => Derives (.body statements)) cursor := by
  unfold body
  exact .expect_bind TokenKind.sameAs_symbol (by decide) ⟨[], [.symbol .rightBrace], .body .nil⟩
    known.bodyRest

/--
Behind a statement, only such words are predicted as may follow it: when it ends in
an expression, the next token has closed the expression and so is no minus sign.
-/
private theorem predicts_behind
    {parser : Parser (List Stmt)}
    {words : List Stmt → List TokenKind → Prop}
    {middle : Cursor}
    {first : Stmt}
    (read : statement fuel cursor = .done first middle)
    (completes :
      ∃ rest kinds,
        words rest kinds ∧ (first.EndsInExpr → kinds.head? ≠ some (.symbol .minus)))
    (known : Predicts parser words middle) :
    Predicts parser
      (fun rest kinds =>
        words rest kinds ∧ (first.EndsInExpr → kinds.head? ≠ some (.symbol .minus)))
      middle := by
  obtain ⟨-, closes⟩ := (sound fuel).statement read
  refine known.restrict completes ?_
  intro rest kinds word atHead
  refine ⟨word, ?_⟩
  intro endsInExpr startsWithMinus
  exact (closes endsInExpr).ne_minus (atHead _ startsWithMinus)

private theorem predicts_bodyRest (known : Predictive fuel) :
    Predicts (bodyRest (fuel + 1))
      (fun statements kinds => Derives (.body statements) (.symbol .leftBrace :: kinds))
      cursor := by
  unfold bodyRest
  refine .kind_bind ?_
  split
  · rename_i brace
    exact .advance_bind brace nofun (.pure (.body .nil))
  · exact .fail _ ⟨[], [.symbol .rightBrace], .body .nil⟩
  · refine known.statement.bind ?_ ?_
    · intro first kinds derived
      exact ⟨[first], [.symbol .rightBrace], .body_cons derived .nil (by simp)⟩
    · intro first middle kinds read derived
      have completes :
          ∃ rest more,
            Derives (.body rest) (.symbol .leftBrace :: more) ∧
              (first.EndsInExpr → more.head? ≠ some (.symbol .minus)) :=
        ⟨[], [.symbol .rightBrace], .body .nil, by simp⟩
      refine (predicts_behind read completes known.bodyRest).map ?_
      rintro rest more ⟨body, noMinus⟩
      cases body with
      | body sequence =>
          refine .body_cons derived sequence ?_
          intro endsInExpr startsWithMinus
          exact noMinus endsInExpr (by simp [List.head?_append, startsWithMinus])

private theorem predicts_conditional (known : Predictive fuel) :
    Predicts (conditional (fuel + 1)) (fun result => Derives (.conditional result)) cursor := by
  have noStatements : Derives (.body []) [.symbol .leftBrace, .symbol .rightBrace] :=
    .body .nil
  unfold conditional
  refine .expect_bind TokenKind.sameAs_keyword (by decide) ?_ ?_
  · exact ⟨.ifThen (.number 0) [], _, .ifThen (.expression_of_primary .number) noStatements⟩
  refine known.expression.bind ?_ ?_
  · intro condition before expression
    exact ⟨.ifThen condition [], _, .ifThen expression noStatements⟩
  intro condition afterCondition before _ expression
  refine known.body.bind ?_ ?_
  · intro thenBody middle body
    exact ⟨.ifThen condition thenBody, [], by simpa using Derives.ifThen expression body⟩
  intro thenBody afterThen middle _ body
  refine .kind_bind ?_
  split
  · rename_i elseWord
    refine .advance_bind (beq_iff_eq.mp elseWord) (by decide) ?_
    refine .kind_bind ?_
    split
    · exact known.conditional.map (.elseIf expression body)
    · exact known.body.map (.ifElse expression body)
  · exact .pure (by simpa using Derives.ifThen expression body)

/-- An expression that stands for a statement. -/
private theorem predicts_eval (known : Predictive fuel) :
    Predicts (expression fuel >>= fun value => Pure.pure (Stmt.eval value))
      (fun result => Derives (.statement result)) cursor :=
  known.expression.map .eval

/-- A name with nothing behind it is read as an expression. -/
private theorem agrees_name
    {identifier : Name}
    (fuel : Nat)
    (token : Token)
    (found : token.kind = .ident identifier) :
    Agrees (expression fuel) ⟨[token], token.span⟩ (.ident identifier) ⟨[], token.span⟩ := by
  have read := @Cursor.reads_tokens [token] token.span (by simp [found]) []
  rw [List.map_singleton, found] at read
  exact recognized (.expression_of_primary .ident) fuel read .endOfInput

/-- A name is the first token of an assignment or of an expression, which the second token tells. -/
private theorem predicts_named
    (known : Predictive fuel)
    {assigned : Name}
    (found : cursor.current.kind = .ident assigned) :
    Predicts
      (peek >>= fun ahead =>
        if ahead == .symbol .colonEqual then
          advance >>= fun _ => advance >>= fun _ =>
            expression fuel >>= fun value => Pure.pure (Stmt.assign assigned value)
        else
          expression fuel >>= fun value => Pure.pure (Stmt.eval value))
      (fun result => Derives (.statement result)) cursor := by
  refine .peek_bind ?_ ?_ ?_
  · intro result derived
    obtain ⟨_, none, _⟩ := derived.begins
    cases none
  · -- A name is followed by an assignment or by nothing, and either way it is read.
    let name : Token := ⟨.ident assigned, ⟨0, 0⟩⟩
    let sign : Token := ⟨.symbol .colonEqual, ⟨0, 0⟩⟩
    have agreed := agrees_name fuel name rfl
    split
    · refine ⟨⟨[name, sign, name], name.span⟩, .assign assigned (.ident assigned), ⟨[], name.span⟩,
        found.symm, ?_⟩
      exact .advance_bind (.advance_bind (agreed.bind (.pure _ _)))
    · exact ⟨⟨[name], name.span⟩, _, _, found.symm, agreed.bind (.pure _ _)⟩
  · split
    · rename_i sign
      have signAhead : cursor.advance.current.kind = .symbol .colonEqual := by
        rw [← Cursor.peek_eq (found ▸ nofun)]
        exact beq_iff_eq.mp sign
      refine .advance_bind found nofun ?_
      refine .advance_bind signAhead nofun ?_
      exact known.expression.map .assign
    · exact predicts_eval known

private theorem predicts_statement (known : Predictive fuel) :
    Predicts (statement (fuel + 1)) (fun result => Derives (.statement result)) cursor := by
  have zero : Derives (.expression (.number 0)) [.int 0] :=
    .expression_of_primary .number
  unfold statement
  refine .kind_bind ?_
  split
  · rename_i semicolon
    exact .advance_bind semicolon nofun (.pure .skip)
  · exact known.body.map .block
  · exact known.conditional.mono .conditional
  · rename_i isWhile
    refine .advance_bind isWhile nofun ?_
    refine known.expression.bind ?_ ?_
    · intro condition kinds expression
      exact ⟨.loop condition [], _, .loop expression (.body .nil)⟩
    · intro condition middle kinds _ expression
      exact known.body.map (.loop expression)
  · rename_i isNew
    refine .advance_bind isNew nofun ?_
    refine Predicts.name.bind ?_ ?_
    · rintro declared _ rfl
      exact ⟨.declare declared (.number 0), _, .declare zero⟩
    · rintro declared middle _ _ rfl
      refine .expect_bind TokenKind.sameAs_symbol (by decide) ?_ ?_
      · exact ⟨.declare declared (.number 0), _, .declare zero⟩
      · exact known.expression.map .declare
  · rename_i isRet
    refine .advance_bind isRet nofun ?_
    refine .expect_bind TokenKind.sameAs_symbol (by decide) ?_ ?_
    · exact ⟨.eval (.ret (.number 0)), _, .retAssign zero⟩
    · exact known.expression.map .retAssign
  · rename_i isWrite
    refine .advance_bind isWrite nofun ?_
    exact known.expression.map .write
  · rename_i found
    exact predicts_named known found
  · split
    · exact predicts_eval known
    · exact .fail _ ⟨.skip, [.symbol .semicolon], .skip⟩

end

/-- Whatever the fuel, the parsers of the grammar are predictive. -/
theorem predictive (fuel : Nat) : Predictive fuel := by
  induction fuel with
  | zero =>
      exact predictive_zero
  | succ fuel inductionHypothesis =>
      exact {
        expression := predicts_expression inductionHypothesis
        binary := predicts_binary inductionHypothesis
        operand := predicts_operand inductionHypothesis
        chain := predicts_chain inductionHypothesis
        unary := predicts_unary inductionHypothesis
        calls := predicts_calls inductionHypothesis
        argument := predicts_argument inductionHypothesis
        primary := predicts_primary inductionHypothesis
        body := predicts_body inductionHypothesis
        bodyRest := predicts_bodyRest inductionHypothesis
        conditional := predicts_conditional inductionHypothesis
        statement := predicts_statement inductionHypothesis }

/-- A program is predicted up to the end mark. -/
theorem predicts_program
    (fuel : Nat)
    (cursor : Cursor) :
    Predicts (program fuel) (fun statements => Derives (.sequence statements)) cursor := by
  induction fuel generalizing cursor with
  | zero =>
      exact .giveUp
  | succ fuel inductionHypothesis =>
      unfold program
      refine .kind_bind ?_
      split
      · exact .pure .nil
      · refine (predictive fuel).statement.bind ?_ ?_
        · intro first kinds derived
          exact ⟨[first], [], .cons derived .nil (by simp)⟩
        · intro first middle kinds read derived
          have completes :
              ∃ rest more,
                Derives (.sequence rest) more ∧
                  (first.EndsInExpr → more.head? ≠ some (.symbol .minus)) :=
            ⟨[], [], .nil, by simp⟩
          refine (predicts_behind read completes (inductionHypothesis middle)).map ?_
          rintro rest more ⟨sequence, noMinus⟩
          exact .cons derived sequence noMinus

end Parser

end ScopeLang
