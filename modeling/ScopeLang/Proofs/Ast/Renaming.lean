import ScopeLang.Ast.Tree
import ScopeLang.Value.Operator

namespace ScopeLang

/-!
# Programs that differ in their names

Names are positions in a table, so one and the same source reads as different
programs with different tables. Two programs are renamings of each other when
they have the same shape and their names correspond, place by place. What a
program shows of itself depends on its names through their texts only.
-/

/-! ## The names in a program -/

mutual

/-- The names that occur in an expression. -/
def Expr.names : Expr → List Name
  | .ident name => [name]
  | .number _ | .bool _ | .read => []
  | .binary _ left right => left.names ++ right.names
  | .unary _ operand => operand.names
  | .ret value => value.names
  | .lambda param body => param :: Stmt.allNames body
  | .call callee arg => callee.names ++ arg.names

/-- The names that occur in a statement. -/
def Stmt.names : Stmt → List Name
  | .skip => []
  | .block body => Stmt.allNames body
  | .ifThen condition thenBody => condition.names ++ Stmt.allNames thenBody
  | .ifElse condition thenBody elseBody =>
      condition.names ++ (Stmt.allNames thenBody ++ Stmt.allNames elseBody)
  | .loop condition body => condition.names ++ Stmt.allNames body
  | .declare name value | .assign name value => name :: value.names
  | .write value | .eval value => value.names

/-- The names that occur in the statements of a sequence. -/
def Stmt.allNames : List Stmt → List Name
  | [] => []
  | statement :: rest => statement.names ++ Stmt.allNames rest

end

/-- The names that occur in a value; only closures have any. -/
def Value.names : Value → List Name
  | .closure param body => param :: Stmt.allNames body
  | _ => []

/-! ## Renamings -/

/-- Which names of one program stand for which names of another. -/
abbrev Renaming := Name → Name → Prop

mutual

/-- Expressions of one shape whose names correspond. -/
inductive Expr.Renamed (names : Renaming) : Expr → Expr → Prop where
  | ident {name other} :
      names name other →
      Expr.Renamed names (.ident name) (.ident other)
  | number {value} :
      Expr.Renamed names (.number value) (.number value)
  | bool {value} :
      Expr.Renamed names (.bool value) (.bool value)
  | binary {op left right otherLeft otherRight} :
      Expr.Renamed names left otherLeft →
      Expr.Renamed names right otherRight →
      Expr.Renamed names (.binary op left right) (.binary op otherLeft otherRight)
  | unary {op operand otherOperand} :
      Expr.Renamed names operand otherOperand →
      Expr.Renamed names (.unary op operand) (.unary op otherOperand)
  | read :
      Expr.Renamed names .read .read
  | ret {value otherValue} :
      Expr.Renamed names value otherValue →
      Expr.Renamed names (.ret value) (.ret otherValue)
  | lambda {param otherParam body otherBody} :
      names param otherParam →
      Stmt.AllRenamed names body otherBody →
      Expr.Renamed names (.lambda param body) (.lambda otherParam otherBody)
  | call {callee arg otherCallee otherArg} :
      Expr.Renamed names callee otherCallee →
      Expr.Renamed names arg otherArg →
      Expr.Renamed names (.call callee arg) (.call otherCallee otherArg)

/-- Statements of one shape whose names correspond. -/
inductive Stmt.Renamed (names : Renaming) : Stmt → Stmt → Prop where
  | skip :
      Stmt.Renamed names .skip .skip
  | block {body otherBody} :
      Stmt.AllRenamed names body otherBody →
      Stmt.Renamed names (.block body) (.block otherBody)
  | ifThen {condition thenBody otherCondition otherThen} :
      Expr.Renamed names condition otherCondition →
      Stmt.AllRenamed names thenBody otherThen →
      Stmt.Renamed names (.ifThen condition thenBody) (.ifThen otherCondition otherThen)
  | ifElse {condition thenBody elseBody otherCondition otherThen otherElse} :
      Expr.Renamed names condition otherCondition →
      Stmt.AllRenamed names thenBody otherThen →
      Stmt.AllRenamed names elseBody otherElse →
      Stmt.Renamed names (.ifElse condition thenBody elseBody)
        (.ifElse otherCondition otherThen otherElse)
  | loop {condition body otherCondition otherBody} :
      Expr.Renamed names condition otherCondition →
      Stmt.AllRenamed names body otherBody →
      Stmt.Renamed names (.loop condition body) (.loop otherCondition otherBody)
  | declare {name other value otherValue} :
      names name other →
      Expr.Renamed names value otherValue →
      Stmt.Renamed names (.declare name value) (.declare other otherValue)
  | assign {name other value otherValue} :
      names name other →
      Expr.Renamed names value otherValue →
      Stmt.Renamed names (.assign name value) (.assign other otherValue)
  | write {value otherValue} :
      Expr.Renamed names value otherValue →
      Stmt.Renamed names (.write value) (.write otherValue)
  | eval {value otherValue} :
      Expr.Renamed names value otherValue →
      Stmt.Renamed names (.eval value) (.eval otherValue)

/-- Sequences of one length whose statements are renamings of each other, place by place. -/
inductive Stmt.AllRenamed (names : Renaming) : List Stmt → List Stmt → Prop where
  | nil :
      Stmt.AllRenamed names [] []
  | cons {first rest otherFirst otherRest} :
      Stmt.Renamed names first otherFirst →
      Stmt.AllRenamed names rest otherRest →
      Stmt.AllRenamed names (first :: rest) (otherFirst :: otherRest)

end

section

variable {names : Renaming}

mutual

/-- Where the names of an expression correspond to themselves, it is a renaming of itself. -/
theorem Expr.Renamed.of_names :
    {expr : Expr} →
      (∀ name ∈ expr.names, names name name) →
      Expr.Renamed names expr expr
  | .ident _, same =>
      .ident (same _ List.mem_cons_self)
  | .number _, _ =>
      .number
  | .bool _, _ =>
      .bool
  | .binary _ _ _, same => by
      obtain ⟨left, right⟩ := List.forall_mem_append.mp same
      exact .binary (Expr.Renamed.of_names left) (Expr.Renamed.of_names right)
  | .unary _ operand, same =>
      .unary (@Expr.Renamed.of_names operand same)
  | .read, _ =>
      .read
  | .ret value, same =>
      .ret (@Expr.Renamed.of_names value same)
  | .lambda _ _, same => by
      obtain ⟨param, body⟩ := List.forall_mem_cons.mp same
      exact .lambda param (Stmt.AllRenamed.of_names body)
  | .call _ _, same => by
      obtain ⟨callee, arg⟩ := List.forall_mem_append.mp same
      exact .call (Expr.Renamed.of_names callee) (Expr.Renamed.of_names arg)

/-- A statement is a renaming of itself, if all its names correspond to themselves. -/
theorem Stmt.Renamed.of_names :
    {statement : Stmt} →
      (∀ name ∈ statement.names, names name name) →
      Stmt.Renamed names statement statement
  | .skip, _ =>
      .skip
  | .block body, same =>
      .block (@Stmt.AllRenamed.of_names body same)
  | .ifThen _ _, same => by
      obtain ⟨condition, thenBody⟩ := List.forall_mem_append.mp same
      exact .ifThen (Expr.Renamed.of_names condition) (Stmt.AllRenamed.of_names thenBody)
  | .ifElse _ _ _, same => by
      obtain ⟨condition, bodies⟩ := List.forall_mem_append.mp same
      obtain ⟨thenBody, elseBody⟩ := List.forall_mem_append.mp bodies
      exact .ifElse (Expr.Renamed.of_names condition) (Stmt.AllRenamed.of_names thenBody)
        (Stmt.AllRenamed.of_names elseBody)
  | .loop _ _, same => by
      obtain ⟨condition, body⟩ := List.forall_mem_append.mp same
      exact .loop (Expr.Renamed.of_names condition) (Stmt.AllRenamed.of_names body)
  | .declare _ _, same => by
      obtain ⟨name, value⟩ := List.forall_mem_cons.mp same
      exact .declare name (Expr.Renamed.of_names value)
  | .assign _ _, same => by
      obtain ⟨name, value⟩ := List.forall_mem_cons.mp same
      exact .assign name (Expr.Renamed.of_names value)
  | .write value, same =>
      .write (@Expr.Renamed.of_names value same)
  | .eval value, same =>
      .eval (@Expr.Renamed.of_names value same)

/-- A sequence is a renaming of itself, if all its names correspond to themselves. -/
theorem Stmt.AllRenamed.of_names :
    {body : List Stmt} →
      (∀ name ∈ Stmt.allNames body, names name name) →
      Stmt.AllRenamed names body body
  | [], _ =>
      .nil
  | _ :: _, same => by
      obtain ⟨first, rest⟩ := List.forall_mem_append.mp same
      exact .cons (Stmt.Renamed.of_names first) (Stmt.AllRenamed.of_names rest)

end

/-- Where all names correspond to themselves, every expression is a renaming of itself. -/
theorem Expr.Renamed.refl
    (reflexive : ∀ name, names name name)
    (expr : Expr) :
    Expr.Renamed names expr expr :=
  .of_names fun name _ => reflexive name

/-- Where all names correspond to themselves, every sequence is a renaming of itself. -/
theorem Stmt.AllRenamed.refl
    (reflexive : ∀ name, names name name)
    (body : List Stmt) :
    Stmt.AllRenamed names body body :=
  .of_names fun name _ => reflexive name

/-- Sequences that are renamings of each other may be extended by such sequences. -/
theorem Stmt.AllRenamed.append
    {first second otherFirst otherSecond : List Stmt}
    (earlier : Stmt.AllRenamed names first otherFirst)
    (later : Stmt.AllRenamed names second otherSecond) :
    Stmt.AllRenamed names (first ++ second) (otherFirst ++ otherSecond) := by
  induction first generalizing otherFirst with
  | nil =>
      cases earlier
      exact later
  | cons statement rest inductionHypothesis =>
      cases earlier with
      | cons statementRenamed restRenamed =>
          exact .cons statementRenamed (inductionHypothesis restRenamed)

mutual

/-- A wider correspondence of names relates more. -/
theorem Expr.Renamed.mono
    {wider : Renaming}
    (included : ∀ name other, names name other → wider name other) :
    {expr other : Expr} →
      Expr.Renamed names expr other →
      Expr.Renamed wider expr other
  | .ident _, _, .ident pair =>
      .ident (included _ _ pair)
  | .number _, _, .number =>
      .number
  | .bool _, _, .bool =>
      .bool
  | .binary _ _ _, _, .binary left right =>
      .binary (Expr.Renamed.mono included left) (Expr.Renamed.mono included right)
  | .unary _ _, _, .unary operand =>
      .unary (Expr.Renamed.mono included operand)
  | .read, _, .read =>
      .read
  | .ret _, _, .ret value =>
      .ret (Expr.Renamed.mono included value)
  | .lambda _ _, _, .lambda param body =>
      .lambda (included _ _ param) (Stmt.AllRenamed.mono included body)
  | .call _ _, _, .call callee arg =>
      .call (Expr.Renamed.mono included callee) (Expr.Renamed.mono included arg)

/-- Renamed statements stay so where more names correspond. -/
theorem Stmt.Renamed.mono
    {wider : Renaming}
    (included : ∀ name other, names name other → wider name other) :
    {statement other : Stmt} →
      Stmt.Renamed names statement other →
      Stmt.Renamed wider statement other
  | .skip, _, .skip =>
      .skip
  | .block _, _, .block body =>
      .block (Stmt.AllRenamed.mono included body)
  | .ifThen _ _, _, .ifThen condition thenBody =>
      .ifThen (Expr.Renamed.mono included condition)
        (Stmt.AllRenamed.mono included thenBody)
  | .ifElse _ _ _, _, .ifElse condition thenBody elseBody =>
      .ifElse (Expr.Renamed.mono included condition)
        (Stmt.AllRenamed.mono included thenBody)
        (Stmt.AllRenamed.mono included elseBody)
  | .loop _ _, _, .loop condition body =>
      .loop (Expr.Renamed.mono included condition)
        (Stmt.AllRenamed.mono included body)
  | .declare _ _, _, .declare pair value =>
      .declare (included _ _ pair) (Expr.Renamed.mono included value)
  | .assign _ _, _, .assign pair value =>
      .assign (included _ _ pair) (Expr.Renamed.mono included value)
  | .write _, _, .write value =>
      .write (Expr.Renamed.mono included value)
  | .eval _, _, .eval value =>
      .eval (Expr.Renamed.mono included value)

/-- Renamed sequences stay so where more names correspond. -/
theorem Stmt.AllRenamed.mono
    {wider : Renaming}
    (included : ∀ name other, names name other → wider name other) :
    {body other : List Stmt} →
      Stmt.AllRenamed names body other →
      Stmt.AllRenamed wider body other
  | [], _, .nil =>
      .nil
  | _ :: _, _, .cons first rest =>
      .cons (Stmt.Renamed.mono included first) (Stmt.AllRenamed.mono included rest)

end

mutual

/-- Where names correspond only to themselves, renamings of each other are equal. -/
theorem Expr.Renamed.eq
    (identical : ∀ name other, names name other → name = other) :
    {expr other : Expr} →
      Expr.Renamed names expr other →
      expr = other
  | .ident _, _, .ident pair => by
      rw [identical _ _ pair]
  | .number _, _, .number =>
      rfl
  | .bool _, _, .bool =>
      rfl
  | .binary _ _ _, _, .binary left right => by
      rw [Expr.Renamed.eq identical left, Expr.Renamed.eq identical right]
  | .unary _ _, _, .unary operand => by
      rw [Expr.Renamed.eq identical operand]
  | .read, _, .read =>
      rfl
  | .ret _, _, .ret value => by
      rw [Expr.Renamed.eq identical value]
  | .lambda _ _, _, .lambda param body => by
      rw [identical _ _ param, Stmt.AllRenamed.eq identical body]
  | .call _ _, _, .call callee arg => by
      rw [Expr.Renamed.eq identical callee, Expr.Renamed.eq identical arg]

/-- Where names correspond only to themselves, renamed statements are the same. -/
theorem Stmt.Renamed.eq
    (identical : ∀ name other, names name other → name = other) :
    {statement other : Stmt} →
      Stmt.Renamed names statement other →
      statement = other
  | .skip, _, .skip =>
      rfl
  | .block _, _, .block body => by
      rw [Stmt.AllRenamed.eq identical body]
  | .ifThen _ _, _, .ifThen condition thenBody => by
      rw [Expr.Renamed.eq identical condition, Stmt.AllRenamed.eq identical thenBody]
  | .ifElse _ _ _, _, .ifElse condition thenBody elseBody => by
      rw [Expr.Renamed.eq identical condition, Stmt.AllRenamed.eq identical thenBody,
        Stmt.AllRenamed.eq identical elseBody]
  | .loop _ _, _, .loop condition body => by
      rw [Expr.Renamed.eq identical condition, Stmt.AllRenamed.eq identical body]
  | .declare _ _, _, .declare pair value => by
      rw [identical _ _ pair, Expr.Renamed.eq identical value]
  | .assign _ _, _, .assign pair value => by
      rw [identical _ _ pair, Expr.Renamed.eq identical value]
  | .write _, _, .write value => by
      rw [Expr.Renamed.eq identical value]
  | .eval _, _, .eval value => by
      rw [Expr.Renamed.eq identical value]

/-- Where names correspond only to themselves, renamed sequences are the same. -/
theorem Stmt.AllRenamed.eq
    (identical : ∀ name other, names name other → name = other) :
    {body other : List Stmt} →
      Stmt.AllRenamed names body other →
      body = other
  | [], _, .nil =>
      rfl
  | _ :: _, _, .cons first rest => by
      rw [Stmt.Renamed.eq identical first, Stmt.AllRenamed.eq identical rest]

end

/-- Sequences that are renamings of each other are of one length. -/
theorem Stmt.AllRenamed.length_eq
    {body other : List Stmt}
    (renamed : Stmt.AllRenamed names body other) :
    body.length = other.length := by
  induction body generalizing other with
  | nil =>
      cases renamed
      rfl
  | cons _ _ inductionHypothesis =>
      cases renamed with
      | cons _ rest =>
          rw [List.length_cons, List.length_cons, inductionHypothesis rest]

mutual

/-- A tree shows the texts of names only. -/
theorem Expr.Renamed.tree_eq
    {table otherTable : NameTable}
    (sameText : ∀ name other, names name other → table.textOf name = otherTable.textOf other) :
    {expr other : Expr} →
      Expr.Renamed names expr other →
      expr.tree table = other.tree otherTable
  | .ident _, _, .ident pair => by
      simp only [Expr.tree, NameTable.identifierTree, sameText _ _ pair]
  | .number _, _, .number => by
      simp only [Expr.tree]
  | .bool _, _, .bool => by
      simp only [Expr.tree]
  | .binary _ _ _, _, .binary left right => by
      simp only [Expr.tree, Expr.Renamed.tree_eq sameText left,
        Expr.Renamed.tree_eq sameText right]
  | .unary .neg _, _, .unary operand | .unary .not _, _, .unary operand => by
      simp only [Expr.tree, Expr.Renamed.tree_eq sameText operand]
  | .read, _, .read => by
      simp only [Expr.tree]
  | .ret _, _, .ret value => by
      simp only [Expr.tree, Expr.Renamed.tree_eq sameText value]
  | .lambda _ _, _, .lambda param body => by
      simp only [Expr.tree, NameTable.identifierTree, sameText _ _ param, body.length_eq,
        Stmt.AllRenamed.trees_eq sameText body]
  | .call _ _, _, .call callee arg => by
      simp only [Expr.tree, Expr.Renamed.tree_eq sameText callee,
        Expr.Renamed.tree_eq sameText arg]

/-- Renamed statements have the same tree, if corresponding names have the same text. -/
theorem Stmt.Renamed.tree_eq
    {table otherTable : NameTable}
    (sameText : ∀ name other, names name other → table.textOf name = otherTable.textOf other) :
    {statement other : Stmt} →
      Stmt.Renamed names statement other →
      statement.tree table = other.tree otherTable
  | .skip, _, .skip => by
      simp only [Stmt.tree]
  | .block _, _, .block body => by
      simp only [Stmt.tree, body.length_eq, Stmt.AllRenamed.trees_eq sameText body]
  | .ifThen _ _, _, .ifThen condition thenBody => by
      simp only [Stmt.tree, Expr.Renamed.tree_eq sameText condition, thenBody.length_eq,
        Stmt.AllRenamed.trees_eq sameText thenBody]
  | .ifElse _ _ _, _, .ifElse condition thenBody elseBody => by
      simp only [Stmt.tree, Expr.Renamed.tree_eq sameText condition, thenBody.length_eq,
        elseBody.length_eq, Stmt.AllRenamed.trees_eq sameText thenBody,
        Stmt.AllRenamed.trees_eq sameText elseBody]
  | .loop _ _, _, .loop condition body => by
      simp only [Stmt.tree, Expr.Renamed.tree_eq sameText condition, body.length_eq,
        Stmt.AllRenamed.trees_eq sameText body]
  | .declare _ _, _, .declare pair value | .assign _ _, _, .assign pair value => by
      simp only [Stmt.tree, NameTable.identifierTree, sameText _ _ pair,
        Expr.Renamed.tree_eq sameText value]
  | .write _, _, .write value | .eval _, _, .eval value => by
      simp only [Stmt.tree, Expr.Renamed.tree_eq sameText value]

/-- Renamed sequences have the same trees, if corresponding names have the same text. -/
theorem Stmt.AllRenamed.trees_eq
    {table otherTable : NameTable}
    (sameText : ∀ name other, names name other → table.textOf name = otherTable.textOf other) :
    {body other : List Stmt} →
      Stmt.AllRenamed names body other →
      Stmt.trees table body = Stmt.trees otherTable other
  | [], _, .nil => by
      simp only [Stmt.trees]
  | _ :: _, _, .cons first rest => by
      simp only [Stmt.trees, Stmt.Renamed.tree_eq sameText first,
        Stmt.AllRenamed.trees_eq sameText rest]

end

end

/-- Values of one shape whose names correspond. -/
inductive Value.Renamed (names : Renaming) : Value → Value → Prop where
  | number {value} :
      Value.Renamed names (.number value) (.number value)
  | bool {value} :
      Value.Renamed names (.bool value) (.bool value)
  | closure {param otherParam body otherBody} :
      names param otherParam →
      Stmt.AllRenamed names body otherBody →
      Value.Renamed names (.closure param body) (.closure otherParam otherBody)
  | unset :
      Value.Renamed names .unset .unset

/-- Results of which both are the same error, or both are values that correspond. -/
inductive Value.ResultRenamed (names : Renaming) :
    Except EvalError Value → Except EvalError Value → Prop where
  | ok {value other} :
      Value.Renamed names value other →
      Value.ResultRenamed names (.ok value) (.ok other)
  | error {error} :
      Value.ResultRenamed names (.error error) (.error error)

section

variable {names : Renaming}

namespace Value.Renamed

/-- Where the names of a value correspond to themselves, it is a renaming of itself. -/
theorem of_names
    {value : Value}
    (same : ∀ name ∈ value.names, names name name) :
    Value.Renamed names value value := by
  cases value with
  | number =>
      exact .number
  | bool =>
      exact .bool
  | closure param body =>
      obtain ⟨paramSame, bodySame⟩ := List.forall_mem_cons.mp same
      exact .closure paramSame (.of_names bodySame)
  | unset =>
      exact .unset

/-- Where all names correspond to themselves, every value is a renaming of itself. -/
theorem refl
    (reflexive : ∀ name, names name name)
    (value : Value) :
    Value.Renamed names value value :=
  .of_names fun name _ => reflexive name

/-- Renamed values stay so where more names correspond. -/
theorem mono
    {wider : Renaming}
    {value other : Value}
    (included : ∀ name other, names name other → wider name other)
    (renamed : Value.Renamed names value other) :
    Value.Renamed wider value other := by
  cases renamed with
  | number =>
      exact .number
  | bool =>
      exact .bool
  | closure param body =>
      exact .closure (included _ _ param) (body.mono included)
  | unset =>
      exact .unset

/-- Where names correspond only to themselves, renamed values are the same. -/
theorem eq
    {value other : Value}
    (identical : ∀ name other, names name other → name = other)
    (renamed : Value.Renamed names value other) :
    value = other := by
  cases renamed with
  | number | bool | unset =>
      rfl
  | closure param body =>
      rw [identical _ _ param, body.eq identical]

/-- A closure is shown without its names. -/
theorem text_eq
    {value other : Value}
    (renamed : Value.Renamed names value other) :
    value.text = other.text := by
  cases renamed <;> rfl

/-- Two values are numbers exactly if their renamings are, and then the same ones. -/
theorem numbers_eq
    {left right otherLeft otherRight : Value}
    (leftRenamed : Value.Renamed names left otherLeft)
    (rightRenamed : Value.Renamed names right otherRight) :
    left.numbers right = otherLeft.numbers otherRight := by
  cases leftRenamed <;> cases rightRenamed <;> rfl

/-- Two values are truth values exactly if their renamings are, and then the same ones. -/
theorem booleans_eq
    {left right otherLeft otherRight : Value}
    (leftRenamed : Value.Renamed names left otherLeft)
    (rightRenamed : Value.Renamed names right otherRight) :
    left.booleans right = otherLeft.booleans otherRight := by
  cases leftRenamed <;> cases rightRenamed <;> rfl

/-- A binary operator looks at numbers and truth values only, and yields no closure. -/
theorem binary
    {left right otherLeft otherRight : Value}
    (op : BinaryOp)
    (leftRenamed : Value.Renamed names left otherLeft)
    (rightRenamed : Value.Renamed names right otherRight) :
    Value.ResultRenamed names (op.apply left right) (op.apply otherLeft otherRight) := by
  have numbers := leftRenamed.numbers_eq rightRenamed
  have booleans := leftRenamed.booleans_eq rightRenamed
  cases op with
  | add | sub | mul =>
      simp only [BinaryOp.apply, numbers]
      cases otherLeft.numbers otherRight with
      | error =>
          exact .error
      | ok =>
          exact .ok .number
  | div =>
      simp only [BinaryOp.apply, numbers]
      cases otherLeft.numbers otherRight with
      | error =>
          exact .error
      | ok operands =>
          by_cases zero : operands.2 = 0
          · simp only [bind, Except.bind, if_pos zero]
            exact .error
          · simp only [bind, Except.bind, if_neg zero]
            exact .ok .number
  | eq | lt | le | gt | ge =>
      simp only [BinaryOp.apply, numbers]
      cases otherLeft.numbers otherRight with
      | error =>
          exact .error
      | ok =>
          exact .ok .bool
  | ne =>
      exact .error
  | and | or =>
      simp only [BinaryOp.apply, booleans]
      cases otherLeft.booleans otherRight with
      | error =>
          exact .error
      | ok =>
          exact .ok .bool

/-- An operator gives renamings of one operand renamed results. -/
theorem unary
    {operand otherOperand : Value}
    (op : UnaryOp)
    (renamed : Value.Renamed names operand otherOperand) :
    Value.ResultRenamed names (op.apply operand) (op.apply otherOperand) := by
  cases op with
  | neg =>
      cases renamed with
      | number =>
          exact .ok .number
      | bool | closure | unset =>
          exact .error
  | not =>
      cases renamed with
      | bool =>
          exact .ok .bool
      | number | closure | unset =>
          exact .error

end Value.Renamed

end

end ScopeLang
