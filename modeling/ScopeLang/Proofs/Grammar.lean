import ScopeLang.Parse.Descent

namespace ScopeLang

/-!
# The grammar

Which token kinds spell which program, stated without a parser. A phrase is a
construct of the grammar together with the tree it stands for, and a derivation
shows that a list of token kinds spells a phrase. Binary operators and calls
group to the left, so their rules recur on the left.

Statements are written one after the other without a separator, and one rule
keeps sequences unambiguous: behind a statement that ends in an expression, no
statement begins with a minus sign, which would continue the expression.
-/

/-- The tokens that are written for the operators of a level. -/
inductive BinaryLevel.Spells : BinaryLevel → TokenKind → BinaryOp → Prop where
  | orWord : Spells .disjunction (.keyword .orWord) .or
  | pipePipe : Spells .disjunction (.symbol .pipePipe) .or
  | andWord : Spells .conjunction (.keyword .andWord) .and
  | ampAmp : Spells .conjunction (.symbol .ampAmp) .and
  | equalEqual : Spells .comparison (.symbol .equalEqual) .eq
  | bangEqual : Spells .comparison (.symbol .bangEqual) .ne
  | less : Spells .comparison (.symbol .less) .lt
  | lessEqual : Spells .comparison (.symbol .lessEqual) .le
  | greater : Spells .comparison (.symbol .greater) .gt
  | greaterEqual : Spells .comparison (.symbol .greaterEqual) .ge
  | plus : Spells .sum (.symbol .plus) .add
  | minus : Spells .sum (.symbol .minus) .sub
  | star : Spells .product (.symbol .star) .mul
  | slash : Spells .product (.symbol .slash) .div

/-- The level of the operands of a level. -/
inductive BinaryLevel.Joins : BinaryLevel → BinaryLevel → Prop where
  | conjunctions : Joins .disjunction .conjunction
  | comparisons : Joins .conjunction .comparison
  | sums : Joins .comparison .sum
  | products : Joins .sum .product

/-- The tokens that are written for the prefix operators. -/
inductive UnaryOp.Spells : TokenKind → UnaryOp → Prop where
  | minus : Spells (.symbol .minus) .neg
  | notWord : Spells (.keyword .notWord) .not
  | bang : Spells (.symbol .bang) .not

/-- Whether the last part of a statement is an expression. -/
def Stmt.EndsInExpr : Stmt → Prop
  | .declare _ _ | .assign _ _ | .write _ | .eval _ => True
  | _ => False

/-- A construct of the grammar with the tree it stands for. -/
inductive Phrase where
  | expression (value : Expr)
  /-- Operands of a level with operators of the level between them. -/
  | binary (level : BinaryLevel) (value : Expr)
  | operand (level : BinaryLevel) (value : Expr)
  | unary (value : Expr)
  | call (value : Expr)
  | argument (value : Expr)
  | primary (value : Expr)
  /-- Statements in braces. -/
  | body (statements : List Stmt)
  /-- Statements one after the other. -/
  | sequence (statements : List Stmt)
  | conditional (statement : Stmt)
  | statement (statement : Stmt)

/-- The token kinds that spell a phrase. -/
inductive Derives : Phrase → List TokenKind → Prop where
  | ret {value kinds} :
      Derives (.expression value) kinds →
      Derives (.expression (.ret value)) (.keyword .returnWord :: kinds)
  | disjunction {value kinds} :
      Derives (.binary .disjunction value) kinds →
      Derives (.expression value) kinds
  | single {level value kinds} :
      Derives (.operand level value) kinds →
      Derives (.binary level value) kinds
  | extended {level kind op left right before after} :
      Derives (.binary level left) before →
      level.Spells kind op →
      Derives (.operand level right) after →
      Derives (.binary level (.binary op left right)) (before ++ kind :: after)
  | tighter {level inner value kinds} :
      level.Joins inner →
      Derives (.binary inner value) kinds →
      Derives (.operand level value) kinds
  | tightest {value kinds} :
      Derives (.unary value) kinds →
      Derives (.operand .product value) kinds
  | operator {kind op operand kinds} :
      UnaryOp.Spells kind op →
      Derives (.unary operand) kinds →
      Derives (.unary (.unary op operand)) (kind :: kinds)
  | called {value kinds} :
      Derives (.call value) kinds →
      Derives (.unary value) kinds
  | callee {value kinds} :
      Derives (.primary value) kinds →
      Derives (.call value) kinds
  | applied {callee arg before after} :
      Derives (.call callee) before →
      Derives (.argument arg) after →
      Derives (.call (.call callee arg)) (before ++ .symbol .at :: after)
  | argumentOperator {kind op operand kinds} :
      UnaryOp.Spells kind op →
      Derives (.argument operand) kinds →
      Derives (.argument (.unary op operand)) (kind :: kinds)
  | argumentPrimary {value kinds} :
      Derives (.primary value) kinds →
      Derives (.argument value) kinds
  | number {value} :
      Derives (.primary (.number value)) [.int value]
  | trueWord :
      Derives (.primary (.bool true)) [.keyword .trueWord]
  | falseWord :
      Derives (.primary (.bool false)) [.keyword .falseWord]
  | ident {name} :
      Derives (.primary (.ident name)) [.ident name]
  | read :
      Derives (.primary .read) [.keyword .read]
  | lambda {param body kinds} :
      Derives (.body body) kinds →
      Derives (.primary (.lambda param body)) (.keyword .lambda :: .ident param :: kinds)
  | parenthesized {value kinds} :
      Derives (.expression value) kinds →
      Derives (.primary value) (.symbol .leftParen :: (kinds ++ [.symbol .rightParen]))
  | body {statements kinds} :
      Derives (.sequence statements) kinds →
      Derives (.body statements) (.symbol .leftBrace :: (kinds ++ [.symbol .rightBrace]))
  | nil :
      Derives (.sequence []) []
  | cons {first rest before after} :
      Derives (.statement first) before →
      Derives (.sequence rest) after →
      (first.EndsInExpr → after.head? ≠ some (.symbol .minus)) →
      Derives (.sequence (first :: rest)) (before ++ after)
  | ifThen {condition thenBody before after} :
      Derives (.expression condition) before →
      Derives (.body thenBody) after →
      Derives (.conditional (.ifThen condition thenBody))
        (.keyword .ifWord :: (before ++ after))
  | ifElse {condition thenBody elseBody before middle after} :
      Derives (.expression condition) before →
      Derives (.body thenBody) middle →
      Derives (.body elseBody) after →
      Derives (.conditional (.ifElse condition thenBody elseBody))
        (.keyword .ifWord :: (before ++ (middle ++ .keyword .elseWord :: after)))
  | elseIf {condition thenBody nested before middle after} :
      Derives (.expression condition) before →
      Derives (.body thenBody) middle →
      Derives (.conditional nested) after →
      Derives (.conditional (.ifElse condition thenBody [nested]))
        (.keyword .ifWord :: (before ++ (middle ++ .keyword .elseWord :: after)))
  | skip :
      Derives (.statement .skip) [.symbol .semicolon]
  | block {body kinds} :
      Derives (.body body) kinds →
      Derives (.statement (.block body)) kinds
  | conditional {statement kinds} :
      Derives (.conditional statement) kinds →
      Derives (.statement statement) kinds
  | loop {condition body before after} :
      Derives (.expression condition) before →
      Derives (.body body) after →
      Derives (.statement (.loop condition body))
        (.keyword .whileWord :: (before ++ after))
  | declare {name value kinds} :
      Derives (.expression value) kinds →
      Derives (.statement (.declare name value))
        (.keyword .declare :: .ident name :: .symbol .colonEqual :: kinds)
  | retAssign {value kinds} :
      Derives (.expression value) kinds →
      Derives (.statement (.eval (.ret value)))
        (.keyword .retWord :: .symbol .colonEqual :: kinds)
  | assign {name value kinds} :
      Derives (.expression value) kinds →
      Derives (.statement (.assign name value))
        (.ident name :: .symbol .colonEqual :: kinds)
  | write {value kinds} :
      Derives (.expression value) kinds →
      Derives (.statement (.write value)) (.keyword .write :: kinds)
  | eval {value kinds} :
      Derives (.expression value) kinds →
      Derives (.statement (.eval value)) kinds

namespace TokenKind

/-- Whether a primary can begin with a token. -/
def startsPrimary : TokenKind → Bool
  | .int _ | .ident _ | .symbol .leftParen => true
  | .keyword word => word ∈ [.trueWord, .falseWord, .read, .lambda]
  | _ => false

/-- Whether an operand can begin with a token. -/
def startsOperand (kind : TokenKind) : Bool :=
  kind.startsPrimary || kind ∈ [.symbol .minus, .keyword .notWord, .symbol .bang]

/-- Whether an expression can begin with a token. -/
def startsExpression (kind : TokenKind) : Bool :=
  kind.startsOperand || kind == .keyword .returnWord

/-- Whether a statement can begin with a token. -/
def startsStatement (kind : TokenKind) : Bool :=
  kind.startsExpression ||
    kind ∈ [.symbol .semicolon, .symbol .leftBrace, .keyword .ifWord, .keyword .whileWord,
      .keyword .declare, .keyword .retWord, .keyword .write]

end TokenKind

/--
Token kinds that begin with one of some class. The second one is not the sign of
an assignment, which is what tells an expression from an assignment.
-/
def Opens (starts : TokenKind → Bool) (kinds : List TokenKind) : Prop :=
  ∃ first rest,
    kinds = first :: rest ∧
      starts first = true ∧
        rest.head? ≠ some (.symbol .colonEqual)

namespace Opens

/-- A word that opens with a narrower start opens with a wider one. -/
theorem mono
    {fewer more : TokenKind → Bool}
    {kinds : List TokenKind}
    (opens : Opens fewer kinds)
    (wider : ∀ kind, fewer kind = true → more kind = true) :
    Opens more kinds := by
  obtain ⟨first, rest, shape, starts, noSign⟩ := opens
  exact ⟨first, rest, shape, wider first starts, noSign⟩

/-- What follows a word leaves its opening, unless it turns the first name into a target of `:=`. -/
theorem append
    {starts : TokenKind → Bool}
    {kinds more : List TokenKind}
    (opens : Opens starts kinds)
    (noSign : more.head? ≠ some (.symbol .colonEqual)) :
    Opens starts (kinds ++ more) := by
  obtain ⟨first, rest, rfl, starts, restNoSign⟩ := opens
  refine ⟨first, rest ++ more, rfl, starts, ?_⟩
  cases rest with
  | nil =>
      exact noSign
  | cons =>
      exact restNoSign

/-- A token in front of kinds that open an expression. -/
theorem cons
    {starts outer : TokenKind → Bool}
    {kind : TokenKind}
    {kinds : List TokenKind}
    (opens : Opens starts kinds)
    (noSign : starts (.symbol .colonEqual) = false)
    (outerStarts : outer kind = true) :
    Opens outer (kind :: kinds) := by
  obtain ⟨first, rest, rfl, startsFirst, -⟩ := opens
  refine ⟨kind, first :: rest, rfl, outerStarts, ?_⟩
  intro isSign
  obtain rfl : first = .symbol .colonEqual := by
    simpa using isSign
  rw [noSign] at startsFirst
  cases startsFirst

end Opens

/-- How the token kinds of a phrase begin. -/
def Phrase.Begins : Phrase → List TokenKind → Prop
  | .expression _, kinds => Opens TokenKind.startsExpression kinds
  | .binary _ _, kinds | .operand _ _, kinds | .unary _, kinds | .argument _, kinds =>
      Opens TokenKind.startsOperand kinds
  | .call _, kinds | .primary _, kinds => Opens TokenKind.startsPrimary kinds
  | .body _, kinds => kinds.head? = some (.symbol .leftBrace)
  | .sequence _, kinds => ∀ kind, kinds.head? = some kind → kind.startsStatement = true
  | .conditional _, kinds => kinds.head? = some (.keyword .ifWord)
  | .statement _, kinds => ∃ kind, kinds.head? = some kind ∧ kind.startsStatement = true

/-- A prefix operator starts an operand. -/
private theorem startsOperand_of_spells
    {kind : TokenKind}
    {op : UnaryOp}
    (spells : UnaryOp.Spells kind op) :
    kind.startsOperand = true := by
  cases spells <;> rfl

/-- No binary operator is the sign of a declaration. -/
private theorem ne_colonEqual_of_spells
    {level : BinaryLevel}
    {kind : TokenKind}
    {op : BinaryOp}
    (spells : level.Spells kind op) :
    kind ≠ .symbol .colonEqual := by
  cases spells <;> exact nofun

/-- What starts a primary starts an operand. -/
theorem TokenKind.startsOperand_of_startsPrimary
    {kind : TokenKind}
    (starts : kind.startsPrimary = true) :
    kind.startsOperand = true := by
  simp [startsOperand, starts]

/-- What starts an operand starts an expression. -/
theorem TokenKind.startsExpression_of_startsOperand
    {kind : TokenKind}
    (starts : kind.startsOperand = true) :
    kind.startsExpression = true := by
  simp [startsExpression, starts]

/-- What starts an expression starts a statement. -/
theorem TokenKind.startsStatement_of_startsExpression
    {kind : TokenKind}
    (starts : kind.startsExpression = true) :
    kind.startsStatement = true := by
  simp [startsStatement, starts]

/-- Every phrase begins as its construct has to. -/
theorem Derives.begins
    {phrase : Phrase}
    {kinds : List TokenKind}
    (derivation : Derives phrase kinds) :
    phrase.Begins kinds := by
  induction derivation with
  | ret _ value =>
      exact value.cons rfl rfl
  | disjunction _ value =>
      exact Opens.mono value fun _ => TokenKind.startsExpression_of_startsOperand
  | single _ value | tighter _ _ value | tightest _ value | callee _ value =>
      exact value
  | extended _ spells _ left _ =>
      exact left.append (by simpa using ne_colonEqual_of_spells spells)
  | operator spells _ operand | argumentOperator spells _ operand =>
      exact operand.cons rfl (startsOperand_of_spells spells)
  | called _ value | argumentPrimary _ value =>
      exact Opens.mono value fun _ => TokenKind.startsOperand_of_startsPrimary
  | applied _ _ callee _ =>
      exact callee.append (by simp)
  | number | trueWord | falseWord | ident | read =>
      exact ⟨_, [], rfl, rfl, by simp⟩
  | lambda =>
      exact ⟨_, _, rfl, rfl, by simp⟩
  | parenthesized _ value =>
      exact (value.append (by simp)).cons rfl rfl
  | body =>
      rfl
  | nil =>
      simp [Phrase.Begins]
  | @cons _ _ before after _ _ _ first _ =>
      obtain ⟨kind, atHead, starts⟩ := first
      intro other found
      cases before with
      | nil =>
          simp at atHead
      | cons =>
          simp_all
  | ifThen | ifElse | elseIf =>
      rfl
  | skip | loop | declare | retAssign | assign | write =>
      exact ⟨_, rfl, rfl⟩
  | block _ body =>
      exact ⟨_, body, rfl⟩
  | conditional _ nested =>
      exact ⟨_, nested, rfl⟩
  | eval _ value =>
      obtain ⟨first, rest, rfl, starts, -⟩ := value
      exact ⟨first, rfl, TokenKind.startsStatement_of_startsExpression starts⟩

end ScopeLang
