import ScopeLang.Proofs.Grammar
import ScopeLang.Proofs.Token.Renaming

namespace ScopeLang

/-!
# The grammar and names

The grammar looks at identifiers without looking at their names. Token kinds
that differ from those of a phrase in names only spell a phrase that differs
from it in names only; by induction on the derivation.
-/

namespace TokenKind.AllRenamed

variable {names : Renaming}

/-- Kinds that correspond to those of two parts fall into two parts themselves. -/
theorem of_append
    {before after others : List TokenKind}
    (renamed : TokenKind.AllRenamed names (before ++ after) others) :
    ∃ otherBefore otherAfter,
      others = otherBefore ++ otherAfter ∧
        TokenKind.AllRenamed names before otherBefore ∧
          TokenKind.AllRenamed names after otherAfter := by
  induction before generalizing others with
  | nil =>
      exact ⟨[], others, rfl, .nil, renamed⟩
  | cons kind before inductionHypothesis =>
      cases renamed with
      | cons first rest =>
          obtain ⟨otherBefore, otherAfter, rfl, early, late⟩ := inductionHypothesis rest
          exact ⟨_ :: otherBefore, otherAfter, rfl, .cons first early, late⟩

theorem of_symbol_cons
    {mark : Symbol}
    {kinds others : List TokenKind}
    (renamed : TokenKind.AllRenamed names (.symbol mark :: kinds) others) :
    ∃ rest, others = .symbol mark :: rest ∧ TokenKind.AllRenamed names kinds rest := by
  cases renamed with
  | cons first rest =>
      cases first
      exact ⟨_, rfl, rest⟩

theorem of_keyword_cons
    {word : Keyword}
    {kinds others : List TokenKind}
    (renamed : TokenKind.AllRenamed names (.keyword word :: kinds) others) :
    ∃ rest, others = .keyword word :: rest ∧ TokenKind.AllRenamed names kinds rest := by
  cases renamed with
  | cons first rest =>
      cases first
      exact ⟨_, rfl, rest⟩

theorem of_ident_cons
    {name : Name}
    {kinds others : List TokenKind}
    (renamed : TokenKind.AllRenamed names (.ident name :: kinds) others) :
    ∃ other rest,
      others = .ident other :: rest ∧
        names name other ∧
          TokenKind.AllRenamed names kinds rest := by
  cases renamed with
  | cons first rest =>
      cases first with
      | ident pair =>
          exact ⟨_, _, rfl, pair, rest⟩

/-- No symbol comes to the front. -/
theorem head?_ne_symbol
    {kinds others : List TokenKind}
    {mark : Symbol}
    (renamed : TokenKind.AllRenamed names kinds others)
    (different : kinds.head? ≠ some (.symbol mark)) :
    others.head? ≠ some (.symbol mark) := by
  cases renamed with
  | nil =>
      exact different
  | cons first rest =>
      cases first with
      | ident =>
          simp
      | _ =>
          exact different

end TokenKind.AllRenamed

/-- The tokens of a binary operator have no names. -/
theorem BinaryLevel.Spells.eq_of_renamed
    {names : Renaming}
    {level : BinaryLevel}
    {op : BinaryOp}
    {kind other : TokenKind}
    (spells : level.Spells kind op)
    (renamed : TokenKind.Renamed names kind other) :
    other = kind := by
  cases spells <;> cases renamed <;> rfl

/-- The tokens of a prefix operator have no names. -/
theorem UnaryOp.Spells.eq_of_renamed
    {names : Renaming}
    {op : UnaryOp}
    {kind other : TokenKind}
    (spells : UnaryOp.Spells kind op)
    (renamed : TokenKind.Renamed names kind other) :
    other = kind := by
  cases spells <;> cases renamed <;> rfl

theorem Stmt.Renamed.endsInExpr
    {names : Renaming}
    {statement other : Stmt}
    (renamed : Stmt.Renamed names statement other)
    (ends : other.EndsInExpr) :
    statement.EndsInExpr := by
  cases renamed <;> exact ends

/-- Token kinds spell a phrase of the same construct that differs in its names only. -/
def Phrase.Respelled (names : Renaming) (kinds : List TokenKind) : Phrase → Prop
  | .expression value =>
      ∃ other, Expr.Renamed names value other ∧ Derives (.expression other) kinds
  | .binary level value =>
      ∃ other, Expr.Renamed names value other ∧ Derives (.binary level other) kinds
  | .operand level value =>
      ∃ other, Expr.Renamed names value other ∧ Derives (.operand level other) kinds
  | .unary value =>
      ∃ other, Expr.Renamed names value other ∧ Derives (.unary other) kinds
  | .call value =>
      ∃ other, Expr.Renamed names value other ∧ Derives (.call other) kinds
  | .argument value =>
      ∃ other, Expr.Renamed names value other ∧ Derives (.argument other) kinds
  | .primary value =>
      ∃ other, Expr.Renamed names value other ∧ Derives (.primary other) kinds
  | .body statements =>
      ∃ others, Stmt.AllRenamed names statements others ∧ Derives (.body others) kinds
  | .sequence statements =>
      ∃ others, Stmt.AllRenamed names statements others ∧ Derives (.sequence others) kinds
  | .conditional branches =>
      ∃ other, Stmt.Renamed names branches other ∧ Derives (.conditional other) kinds
  | .statement command =>
      ∃ other, Stmt.Renamed names command other ∧ Derives (.statement other) kinds

/-- A derivation carries over to token kinds with other names. -/
theorem Derives.respelled
    {names : Renaming}
    {phrase : Phrase}
    {kinds others : List TokenKind}
    (derivation : Derives phrase kinds)
    (renamed : TokenKind.AllRenamed names kinds others) :
    phrase.Respelled names others := by
  induction derivation generalizing others with
  | ret _ value =>
      obtain ⟨rest, rfl, restRenamed⟩ := renamed.of_keyword_cons
      obtain ⟨other, same, derived⟩ := value restRenamed
      exact ⟨.ret other, .ret same, .ret derived⟩
  | disjunction _ value =>
      obtain ⟨other, same, derived⟩ := value renamed
      exact ⟨other, same, .disjunction derived⟩
  | single _ value =>
      obtain ⟨other, same, derived⟩ := value renamed
      exact ⟨other, same, .single derived⟩
  | extended _ spells _ left right =>
      obtain ⟨before, rest, rfl, early, late⟩ := renamed.of_append
      cases late with
      | cons operator late =>
          obtain rfl := spells.eq_of_renamed operator
          obtain ⟨otherLeft, sameLeft, leftDerived⟩ := left early
          obtain ⟨otherRight, sameRight, rightDerived⟩ := right late
          exact ⟨_, .binary sameLeft sameRight, .extended leftDerived spells rightDerived⟩
  | tighter joins _ value =>
      obtain ⟨other, same, derived⟩ := value renamed
      exact ⟨other, same, .tighter joins derived⟩
  | tightest _ value =>
      obtain ⟨other, same, derived⟩ := value renamed
      exact ⟨other, same, .tightest derived⟩
  | operator spells _ operand =>
      cases renamed with
      | cons operator rest =>
          obtain rfl := spells.eq_of_renamed operator
          obtain ⟨other, same, derived⟩ := operand rest
          exact ⟨_, .unary same, .operator spells derived⟩
  | called _ value =>
      obtain ⟨other, same, derived⟩ := value renamed
      exact ⟨other, same, .called derived⟩
  | callee _ value =>
      obtain ⟨other, same, derived⟩ := value renamed
      exact ⟨other, same, .callee derived⟩
  | applied _ _ callee arg =>
      obtain ⟨before, rest, rfl, early, late⟩ := renamed.of_append
      obtain ⟨after, rfl, argRenamed⟩ := late.of_symbol_cons
      obtain ⟨otherCallee, sameCallee, calleeDerived⟩ := callee early
      obtain ⟨otherArg, sameArg, argDerived⟩ := arg argRenamed
      exact ⟨_, .call sameCallee sameArg, .applied calleeDerived argDerived⟩
  | argumentOperator spells _ operand =>
      cases renamed with
      | cons operator rest =>
          obtain rfl := spells.eq_of_renamed operator
          obtain ⟨other, same, derived⟩ := operand rest
          exact ⟨_, .unary same, .argumentOperator spells derived⟩
  | argumentPrimary _ value =>
      obtain ⟨other, same, derived⟩ := value renamed
      exact ⟨other, same, .argumentPrimary derived⟩
  | number =>
      cases renamed with
      | cons first rest =>
          cases first
          cases rest
          exact ⟨_, .number, .number⟩
  | trueWord =>
      obtain ⟨rest, rfl, restRenamed⟩ := renamed.of_keyword_cons
      cases restRenamed
      exact ⟨_, .bool, .trueWord⟩
  | falseWord =>
      obtain ⟨rest, rfl, restRenamed⟩ := renamed.of_keyword_cons
      cases restRenamed
      exact ⟨_, .bool, .falseWord⟩
  | ident =>
      obtain ⟨other, rest, rfl, pair, restRenamed⟩ := renamed.of_ident_cons
      cases restRenamed
      exact ⟨_, .ident pair, .ident⟩
  | read =>
      obtain ⟨rest, rfl, restRenamed⟩ := renamed.of_keyword_cons
      cases restRenamed
      exact ⟨_, .read, .read⟩
  | lambda _ body =>
      obtain ⟨rest, rfl, restRenamed⟩ := renamed.of_keyword_cons
      obtain ⟨param, inner, rfl, pair, innerRenamed⟩ := restRenamed.of_ident_cons
      obtain ⟨others, same, derived⟩ := body innerRenamed
      exact ⟨_, .lambda pair same, .lambda derived⟩
  | parenthesized _ value =>
      obtain ⟨rest, rfl, restRenamed⟩ := renamed.of_symbol_cons
      obtain ⟨inner, closing, rfl, innerRenamed, closingRenamed⟩ := restRenamed.of_append
      obtain ⟨nothing, rfl, nothingRenamed⟩ := closingRenamed.of_symbol_cons
      cases nothingRenamed
      obtain ⟨other, same, derived⟩ := value innerRenamed
      exact ⟨other, same, .parenthesized derived⟩
  | body _ statements =>
      obtain ⟨rest, rfl, restRenamed⟩ := renamed.of_symbol_cons
      obtain ⟨inner, closing, rfl, innerRenamed, closingRenamed⟩ := restRenamed.of_append
      obtain ⟨nothing, rfl, nothingRenamed⟩ := closingRenamed.of_symbol_cons
      cases nothingRenamed
      obtain ⟨others, same, derived⟩ := statements innerRenamed
      exact ⟨others, same, .body derived⟩
  | nil =>
      cases renamed
      exact ⟨[], .nil, .nil⟩
  | cons _ _ apart first rest =>
      obtain ⟨before, after, rfl, early, late⟩ := renamed.of_append
      obtain ⟨otherFirst, sameFirst, firstDerived⟩ := first early
      obtain ⟨otherRest, sameRest, restDerived⟩ := rest late
      refine ⟨_, .cons sameFirst sameRest, .cons firstDerived restDerived ?_⟩
      intro ends
      exact late.head?_ne_symbol (apart (sameFirst.endsInExpr ends))
  | ifThen _ _ condition thenBody =>
      obtain ⟨rest, rfl, restRenamed⟩ := renamed.of_keyword_cons
      obtain ⟨before, after, rfl, early, late⟩ := restRenamed.of_append
      obtain ⟨otherCondition, sameCondition, conditionDerived⟩ := condition early
      obtain ⟨otherThen, sameThen, thenDerived⟩ := thenBody late
      exact ⟨_, .ifThen sameCondition sameThen, .ifThen conditionDerived thenDerived⟩
  | ifElse _ _ _ condition thenBody elseBody =>
      obtain ⟨rest, rfl, restRenamed⟩ := renamed.of_keyword_cons
      obtain ⟨before, branches, rfl, early, branchesRenamed⟩ := restRenamed.of_append
      obtain ⟨middle, otherwise, rfl, between, otherwiseRenamed⟩ := branchesRenamed.of_append
      obtain ⟨after, rfl, late⟩ := otherwiseRenamed.of_keyword_cons
      obtain ⟨otherCondition, sameCondition, conditionDerived⟩ := condition early
      obtain ⟨otherThen, sameThen, thenDerived⟩ := thenBody between
      obtain ⟨otherElse, sameElse, elseDerived⟩ := elseBody late
      exact ⟨_, .ifElse sameCondition sameThen sameElse,
        .ifElse conditionDerived thenDerived elseDerived⟩
  | elseIf _ _ _ condition thenBody nested =>
      obtain ⟨rest, rfl, restRenamed⟩ := renamed.of_keyword_cons
      obtain ⟨before, branches, rfl, early, branchesRenamed⟩ := restRenamed.of_append
      obtain ⟨middle, otherwise, rfl, between, otherwiseRenamed⟩ := branchesRenamed.of_append
      obtain ⟨after, rfl, late⟩ := otherwiseRenamed.of_keyword_cons
      obtain ⟨otherCondition, sameCondition, conditionDerived⟩ := condition early
      obtain ⟨otherThen, sameThen, thenDerived⟩ := thenBody between
      obtain ⟨otherNested, sameNested, nestedDerived⟩ := nested late
      exact ⟨_, .ifElse sameCondition sameThen (.cons sameNested .nil),
        .elseIf conditionDerived thenDerived nestedDerived⟩
  | skip =>
      obtain ⟨rest, rfl, restRenamed⟩ := renamed.of_symbol_cons
      cases restRenamed
      exact ⟨_, .skip, .skip⟩
  | block _ body =>
      obtain ⟨others, same, derived⟩ := body renamed
      exact ⟨_, .block same, .block derived⟩
  | conditional _ statement =>
      obtain ⟨other, same, derived⟩ := statement renamed
      exact ⟨other, same, .conditional derived⟩
  | loop _ _ condition body =>
      obtain ⟨rest, rfl, restRenamed⟩ := renamed.of_keyword_cons
      obtain ⟨before, after, rfl, early, late⟩ := restRenamed.of_append
      obtain ⟨otherCondition, sameCondition, conditionDerived⟩ := condition early
      obtain ⟨otherBody, sameBody, bodyDerived⟩ := body late
      exact ⟨_, .loop sameCondition sameBody, .loop conditionDerived bodyDerived⟩
  | declare _ value =>
      obtain ⟨declared, rfl, declaredRenamed⟩ := renamed.of_keyword_cons
      obtain ⟨name, rest, rfl, pair, restRenamed⟩ := declaredRenamed.of_ident_cons
      obtain ⟨spelled, rfl, valueRenamed⟩ := restRenamed.of_symbol_cons
      obtain ⟨other, same, derived⟩ := value valueRenamed
      exact ⟨_, .declare pair same, .declare derived⟩
  | retAssign _ value =>
      obtain ⟨rest, rfl, restRenamed⟩ := renamed.of_keyword_cons
      obtain ⟨spelled, rfl, valueRenamed⟩ := restRenamed.of_symbol_cons
      obtain ⟨other, same, derived⟩ := value valueRenamed
      exact ⟨_, .eval (.ret same), .retAssign derived⟩
  | assign _ value =>
      obtain ⟨name, rest, rfl, pair, restRenamed⟩ := renamed.of_ident_cons
      obtain ⟨spelled, rfl, valueRenamed⟩ := restRenamed.of_symbol_cons
      obtain ⟨other, same, derived⟩ := value valueRenamed
      exact ⟨_, .assign pair same, .assign derived⟩
  | write _ value =>
      obtain ⟨rest, rfl, restRenamed⟩ := renamed.of_keyword_cons
      obtain ⟨other, same, derived⟩ := value restRenamed
      exact ⟨_, .write same, .write derived⟩
  | eval _ value =>
      obtain ⟨other, same, derived⟩ := value renamed
      exact ⟨_, .eval same, .eval derived⟩

end ScopeLang
