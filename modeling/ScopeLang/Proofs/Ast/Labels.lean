import Mathlib.Logic.Function.Basic
import ScopeLang.Proofs.Ast.Drawing
import ScopeLang.Proofs.Ast.Renaming
import ScopeLang.Proofs.Text.Numeral

namespace ScopeLang

/-!
# Labels show what nodes stand for

The first word of a label tells the kind of its node, what follows it tells the
name, number or operator there, and the parts of a statement or expression
are the trees below, in a fixed order. So a tree belongs to one program only,
and with the trees recovered from a drawing, a drawing does too.
-/

/-! ## Kinds of nodes -/

/-- What a node of a program's tree stands for. -/
inductive NodeKind where
  | ident
  | number
  | bool
  | binary (family : OpFamily)
  | unary (op : UnaryOp)
  | read
  | ret
  | lambda
  | call
  | skip
  | block
  | branch
  | loop
  | declare
  | assign
  | write
  | eval

namespace NodeKind

/-- The word in front of the labels of a kind. -/
def word : NodeKind → String
  | .ident => "Identifier"
  | .number => "Number"
  | .bool => "Boolean"
  | .binary family => family.label
  | .unary .neg => "NegationOp"
  | .unary .not => "NotOp"
  | .read => "Read"
  | .ret => "ReturnExpr"
  | .lambda => "Lambda"
  | .call => "Call"
  | .skip => "EmptyStmt"
  | .block => "Block"
  | .branch => "IfStmt"
  | .loop => "WhileStmt"
  | .declare => "DeclareStmt"
  | .assign => "AssignStmt"
  | .write => "Write"
  | .eval => "ExprStmt"

/-- The kind that a word in front of a label tells. -/
def ofWord? (word : String) : Option NodeKind :=
  [.ident, .number, .bool, .binary .arithmetic, .binary .comparison, .binary .boolean,
    .unary .neg, .unary .not, .read, .ret, .lambda, .call, .skip, .block, .branch, .loop,
    .declare, .assign, .write, .eval].find? fun kind => kind.word == word

/-- A kind of node is found again by its word. -/
theorem ofWord?_word (kind : NodeKind) :
    ofWord? kind.word = some kind := by
  cases kind with
  | binary family =>
      cases family <;> rfl
  | unary op =>
      cases op <;> rfl
  | _ =>
      rfl

/-- Kinds of nodes differ in the word in front. -/
theorem word_injective : Function.Injective word := by
  intro kind other same
  have told := congrArg ofWord? same
  simpa only [ofWord?_word, Option.some.injEq] using told

end NodeKind

/-- The word in front of the label, up to the first space. -/
def Tree.headword (tree : Tree) : String :=
  String.ofList (tree.label.toList.takeWhile (· != ' '))

/-- What the root of an expression's tree stands for. -/
def Expr.kind : Expr → NodeKind
  | .ident _ => .ident
  | .number _ => .number
  | .bool _ => .bool
  | .binary op _ _ => .binary op.family
  | .unary op _ => .unary op
  | .read => .read
  | .ret _ => .ret
  | .lambda _ _ => .lambda
  | .call _ _ => .call

/--
What the root of a statement's tree stands for. An else branch makes no
difference here: it shows below, as one more part.
-/
def Stmt.kind : Stmt → NodeKind
  | .skip => .skip
  | .block _ => .block
  | .ifThen _ _ | .ifElse _ _ _ => .branch
  | .loop _ _ => .loop
  | .declare _ _ => .declare
  | .assign _ _ => .assign
  | .write _ => .write
  | .eval _ => .eval

/-- The tree of an expression begins with the word for its kind. -/
theorem Expr.headword_tree (names : NameTable) (expr : Expr) :
    (expr.tree names).headword = expr.kind.word := by
  rw [Tree.headword, ← String.toList_inj]
  cases expr with
  | ident name =>
      simp [Expr.tree, NameTable.identifierTree, Tree.label, Expr.kind, NodeKind.word]
  | binary op left right =>
      cases op <;>
        simp [Expr.tree, Tree.label, Expr.kind, NodeKind.word, BinaryOp.family, OpFamily.label]
  | unary op operand =>
      cases op <;> simp [Expr.tree, Tree.label, Expr.kind, NodeKind.word]
  | _ =>
      simp [Expr.tree, Tree.label, Expr.kind, NodeKind.word]

/-- The tree of a statement begins with the word for its kind. -/
theorem Stmt.headword_tree (names : NameTable) (statement : Stmt) :
    (statement.tree names).headword = statement.kind.word := by
  rw [Tree.headword, ← String.toList_inj]
  cases statement <;> simp [Stmt.tree, Tree.label, Stmt.kind, NodeKind.word]

/-- A tree tells the kind of its expression. -/
theorem Expr.kind_eq_of_tree_eq
    {names : NameTable}
    {expr other : Expr}
    (same : expr.tree names = other.tree names) :
    expr.kind = other.kind := by
  apply NodeKind.word_injective
  rw [← Expr.headword_tree names, same, Expr.headword_tree]

/-- A tree tells the kind of its statement. -/
theorem Stmt.kind_eq_of_tree_eq
    {names : NameTable}
    {statement other : Stmt}
    (same : statement.tree names = other.tree names) :
    statement.kind = other.kind := by
  apply NodeKind.word_injective
  rw [← Stmt.headword_tree names, same, Stmt.headword_tree]

/-! ## Operators and names in labels -/

/-- An operator is told by its label. -/
theorem BinaryOp.eq_of_label_eq
    {op other : BinaryOp}
    (same :
      op.family.label ++ " `<left> " ++ op.spelling ++ " <right>`" =
        other.family.label ++ " `<left> " ++ other.spelling ++ " <right>`") :
    op = other := by
  cases op <;> cases other <;> first
    | rfl
    | simp [BinaryOp.family, BinaryOp.spelling, OpFamily.label] at same

namespace NameTable

/-- A name that no other name shares its text with. -/
def Tells (names : NameTable) (name : Name) : Prop :=
  ∀ other, names.textOf name = names.textOf other → name = other

/-- In a table of distinct texts, a known text tells its name. -/
theorem Tells.of_textOf_ne_empty
    {names : NameTable}
    (distinct : names.texts.Nodup)
    {name : Name}
    (known : names.textOf name ≠ "") :
    names.Tells name := by
  intro other same
  have otherKnown : names.textOf other ≠ "" := same ▸ known
  have interned := congrArg names.intern same
  rw [intern_textOf distinct known, intern_textOf distinct otherKnown] at interned
  exact congrArg Prod.fst interned

/-- The tree of a name tells the name. -/
theorem Tells.eq_of_identifierTree_eq
    {names : NameTable}
    {name other : Name}
    (tells : names.Tells name)
    (same : names.identifierTree name = names.identifierTree other) :
    name = other := by
  simp only [identifierTree, Tree.node.injEq, String.append_left_inj, String.append_right_inj,
    and_true] at same
  exact tells other same

end NameTable

/-! ## Trees -/

section

variable {names : NameTable}

mutual

/--
An expression is told by its tree. Equal trees have labels of one kind, so only equal
constructors are to be compared.
-/
theorem Expr.eq_of_tree_eq
    {expr other : Expr}
    (same : expr.tree names = other.tree names)
    (tells : ∀ name ∈ expr.names, names.Tells name) :
    expr = other :=
  match expr, other, Expr.kind_eq_of_tree_eq same, same, tells with
  | .ident name, .ident _, _, same, tells => by
      simp only [Expr.tree] at same
      rw [(tells name List.mem_cons_self).eq_of_identifierTree_eq same]
  | .number _, .number _, _, same, _ => by
      simp only [Expr.tree, Tree.node.injEq, String.append_left_inj, String.append_right_inj,
        and_true] at same
      rw [Int32.toInt_inj.mp (Text.Decimal.ofInt_injective same)]
  | .bool value, .bool otherValue, _, same, _ => by
      cases value <;> cases otherValue <;> first
        | rfl
        | simp [Expr.tree] at same
  | .binary _ _ _, .binary _ _ _, _, same, tells => by
      obtain ⟨leftTells, rightTells⟩ := List.forall_mem_append.mp tells
      simp only [Expr.tree, Tree.node.injEq, List.cons.injEq, and_true] at same
      obtain ⟨sameLabel, sameLeft, sameRight⟩ := same
      rw [BinaryOp.eq_of_label_eq sameLabel, Expr.eq_of_tree_eq sameLeft leftTells,
        Expr.eq_of_tree_eq sameRight rightTells]
  | .unary op operand, .unary _ _, sameKind, same, tells => by
      cases sameKind
      have sameOperand := congrArg Tree.children same
      cases op <;>
        simp only [Expr.tree, Tree.children, List.cons.injEq, and_true] at sameOperand <;>
        rw [Expr.eq_of_tree_eq sameOperand tells]
  | .read, .read, _, _, _ =>
      rfl
  | .ret _, .ret _, _, same, tells => by
      simp only [Expr.tree, Tree.node.injEq, List.cons.injEq, true_and, and_true] at same
      rw [Expr.eq_of_tree_eq same tells]
  | .lambda _ _, .lambda _ _, _, same, tells => by
      obtain ⟨paramTells, bodyTells⟩ := List.forall_mem_cons.mp tells
      simp only [Expr.tree, Tree.node.injEq, List.cons.injEq, true_and, and_true] at same
      obtain ⟨sameParam, -, sameBody⟩ := same
      rw [paramTells.eq_of_identifierTree_eq sameParam, Stmt.eq_of_trees_eq sameBody bodyTells]
  | .call _ _, .call _ _, _, same, tells => by
      obtain ⟨calleeTells, argTells⟩ := List.forall_mem_append.mp tells
      simp only [Expr.tree, Tree.node.injEq, List.cons.injEq, true_and, and_true] at same
      obtain ⟨sameCallee, sameArg⟩ := same
      rw [Expr.eq_of_tree_eq sameCallee calleeTells, Expr.eq_of_tree_eq sameArg argTells]

/-- A statement is told by its tree. -/
theorem Stmt.eq_of_tree_eq
    {statement other : Stmt}
    (same : statement.tree names = other.tree names)
    (tells : ∀ name ∈ statement.names, names.Tells name) :
    statement = other :=
  match statement, other, Stmt.kind_eq_of_tree_eq same, same, tells with
  | .skip, .skip, _, _, _ =>
      rfl
  | .block _, .block _, _, same, tells => by
      simp only [Stmt.tree, Tree.node.injEq, List.cons.injEq, true_and, and_true] at same
      rw [Stmt.eq_of_trees_eq same.2 tells]
  | .ifThen _ _, .ifThen _ _, _, same, tells => by
      obtain ⟨conditionTells, thenTells⟩ := List.forall_mem_append.mp tells
      simp only [Stmt.tree, Tree.node.injEq, List.cons.injEq, true_and, and_true] at same
      obtain ⟨sameCondition, -, sameThen⟩ := same
      rw [Expr.eq_of_tree_eq sameCondition conditionTells, Stmt.eq_of_trees_eq sameThen thenTells]
  | .ifThen _ _, .ifElse _ _ _, _, same, _ => by
      simp [Stmt.tree] at same
  | .ifElse _ _ _, .ifThen _ _, _, same, _ => by
      simp [Stmt.tree] at same
  | .ifElse _ _ _, .ifElse _ _ _, _, same, tells => by
      obtain ⟨conditionTells, bodiesTell⟩ := List.forall_mem_append.mp tells
      obtain ⟨thenTells, elseTells⟩ := List.forall_mem_append.mp bodiesTell
      simp only [Stmt.tree, Tree.node.injEq, List.cons.injEq, true_and, and_true] at same
      obtain ⟨sameCondition, ⟨-, sameThen⟩, -, sameElse⟩ := same
      rw [Expr.eq_of_tree_eq sameCondition conditionTells,
        Stmt.eq_of_trees_eq sameThen thenTells, Stmt.eq_of_trees_eq sameElse elseTells]
  | .loop _ _, .loop _ _, _, same, tells => by
      obtain ⟨conditionTells, bodyTells⟩ := List.forall_mem_append.mp tells
      simp only [Stmt.tree, Tree.node.injEq, List.cons.injEq, true_and, and_true] at same
      obtain ⟨sameCondition, -, sameBody⟩ := same
      rw [Expr.eq_of_tree_eq sameCondition conditionTells, Stmt.eq_of_trees_eq sameBody bodyTells]
  | .declare _ _, .declare _ _, _, same, tells => by
      obtain ⟨nameTells, valueTells⟩ := List.forall_mem_cons.mp tells
      simp only [Stmt.tree, Tree.node.injEq, List.cons.injEq, true_and, and_true] at same
      obtain ⟨sameName, sameValue⟩ := same
      rw [nameTells.eq_of_identifierTree_eq sameName, Expr.eq_of_tree_eq sameValue valueTells]
  | .assign _ _, .assign _ _, _, same, tells => by
      obtain ⟨nameTells, valueTells⟩ := List.forall_mem_cons.mp tells
      simp only [Stmt.tree, Tree.node.injEq, List.cons.injEq, true_and, and_true] at same
      obtain ⟨sameName, sameValue⟩ := same
      rw [nameTells.eq_of_identifierTree_eq sameName, Expr.eq_of_tree_eq sameValue valueTells]
  | .write _, .write _, _, same, tells => by
      simp only [Stmt.tree, Tree.node.injEq, List.cons.injEq, true_and, and_true] at same
      rw [Expr.eq_of_tree_eq same tells]
  | .eval _, .eval _, _, same, tells => by
      simp only [Stmt.tree, Tree.node.injEq, List.cons.injEq, true_and, and_true] at same
      rw [Expr.eq_of_tree_eq same tells]

/-- A sequence is told by the trees of its statements. -/
theorem Stmt.eq_of_trees_eq :
    {body other : List Stmt} →
      Stmt.trees names body = Stmt.trees names other →
      (∀ name ∈ Stmt.allNames body, names.Tells name) →
      body = other
  | [], [], _, _ =>
      rfl
  | [], _ :: _, same, _ => by
      simp [Stmt.trees] at same
  | _ :: _, [], same, _ => by
      simp [Stmt.trees] at same
  | _ :: _, _ :: _, same, tells => by
      obtain ⟨firstTells, restTells⟩ := List.forall_mem_append.mp tells
      simp only [Stmt.trees, List.cons.injEq] at same
      obtain ⟨sameFirst, sameRest⟩ := same
      rw [Stmt.eq_of_tree_eq sameFirst firstTells, Stmt.eq_of_trees_eq sameRest restTells]

end

/-! ## Drawings -/

/-- A name whose text is on one line has a tree with labels on one line. -/
theorem NameTable.oneLine_identifierTree
    {name : Name}
    (plain : '\n' ∉ (names.textOf name).toList) :
    (names.identifierTree name).OneLine :=
  .node (by simp [plain]) .nil

/-- The node above a sequence shows its length only. -/
theorem Tree.OneLine.sequence
    {role : String}
    {count : Nat}
    {statements : List Tree}
    (plain : '\n' ∉ role.toList)
    (below : Tree.AllOneLine statements) :
    (Tree.node (sequenceLabel role count) statements).OneLine := by
  refine .node ?_ below
  unfold sequenceLabel
  split <;> simp [plain, Text.Decimal.newline_notMem_ofNat]

mutual

/-- Where the names of an expression have no line break, its labels have none. -/
theorem Expr.oneLine_tree :
    {expr : Expr} →
      (∀ name ∈ expr.names, '\n' ∉ (names.textOf name).toList) →
      (expr.tree names).OneLine
  | .ident name, plain => by
      rw [Expr.tree]
      exact names.oneLine_identifierTree (plain name List.mem_cons_self)
  | .number _, _ => by
      rw [Expr.tree]
      exact .node (by simp [Text.Decimal.newline_notMem_ofInt]) .nil
  | .bool value, _ => by
      rw [Expr.tree]
      exact .node (by cases value <;> simp) .nil
  | .binary op _ _, plain => by
      obtain ⟨leftPlain, rightPlain⟩ := List.forall_mem_append.mp plain
      rw [Expr.tree]
      refine .node ?_ (.cons (Expr.oneLine_tree leftPlain)
        (.cons (Expr.oneLine_tree rightPlain) .nil))
      cases op <;> simp [BinaryOp.family, BinaryOp.spelling, OpFamily.label]
  | .unary op operand, plain => by
      have below := @Expr.oneLine_tree operand plain
      cases op <;> rw [Expr.tree] <;> exact .node (by simp) (.cons below .nil)
  | .read, _ => by
      rw [Expr.tree]
      exact .node (by simp) .nil
  | .ret value, plain => by
      rw [Expr.tree]
      exact .node (by simp) (.cons (@Expr.oneLine_tree value plain) .nil)
  | .lambda _ _, plain => by
      obtain ⟨paramPlain, bodyPlain⟩ := List.forall_mem_cons.mp plain
      rw [Expr.tree]
      exact .node (by simp) (.cons (names.oneLine_identifierTree paramPlain)
        (.cons (.sequence (by simp) (Stmt.oneLine_trees bodyPlain)) .nil))
  | .call _ _, plain => by
      obtain ⟨calleePlain, argPlain⟩ := List.forall_mem_append.mp plain
      rw [Expr.tree]
      exact .node (by simp) (.cons (Expr.oneLine_tree calleePlain)
        (.cons (Expr.oneLine_tree argPlain) .nil))

/-- A statement whose names are on one line has a tree with labels on one line. -/
theorem Stmt.oneLine_tree :
    {statement : Stmt} →
      (∀ name ∈ statement.names, '\n' ∉ (names.textOf name).toList) →
      (statement.tree names).OneLine
  | .skip, _ => by
      rw [Stmt.tree]
      exact .node (by simp) .nil
  | .block body, plain => by
      rw [Stmt.tree]
      exact .node (by simp) (.cons (.sequence (by simp) (@Stmt.oneLine_trees body plain)) .nil)
  | .ifThen _ _, plain => by
      obtain ⟨conditionPlain, thenPlain⟩ := List.forall_mem_append.mp plain
      rw [Stmt.tree]
      exact .node (by simp) (.cons (Expr.oneLine_tree conditionPlain)
        (.cons (.sequence (by simp) (Stmt.oneLine_trees thenPlain)) .nil))
  | .ifElse _ _ _, plain => by
      obtain ⟨conditionPlain, bodiesPlain⟩ := List.forall_mem_append.mp plain
      obtain ⟨thenPlain, elsePlain⟩ := List.forall_mem_append.mp bodiesPlain
      rw [Stmt.tree]
      exact .node (by simp) (.cons (Expr.oneLine_tree conditionPlain)
        (.cons (.sequence (by simp) (Stmt.oneLine_trees thenPlain))
          (.cons (.sequence (by simp) (Stmt.oneLine_trees elsePlain)) .nil)))
  | .loop _ _, plain => by
      obtain ⟨conditionPlain, bodyPlain⟩ := List.forall_mem_append.mp plain
      rw [Stmt.tree]
      exact .node (by simp) (.cons (Expr.oneLine_tree conditionPlain)
        (.cons (.sequence (by simp) (Stmt.oneLine_trees bodyPlain)) .nil))
  | .declare _ _, plain | .assign _ _, plain => by
      obtain ⟨namePlain, valuePlain⟩ := List.forall_mem_cons.mp plain
      rw [Stmt.tree]
      exact .node (by simp) (.cons (names.oneLine_identifierTree namePlain)
        (.cons (Expr.oneLine_tree valuePlain) .nil))
  | .write value, plain | .eval value, plain => by
      rw [Stmt.tree]
      exact .node (by simp) (.cons (@Expr.oneLine_tree value plain) .nil)

/-- A sequence whose names are on one line has trees with labels on one line. -/
theorem Stmt.oneLine_trees :
    {body : List Stmt} →
      (∀ name ∈ Stmt.allNames body, '\n' ∉ (names.textOf name).toList) →
      Tree.AllOneLine (Stmt.trees names body)
  | [], _ => by
      rw [Stmt.trees]
      exact .nil
  | _ :: _, plain => by
      obtain ⟨firstPlain, restPlain⟩ := List.forall_mem_append.mp plain
      rw [Stmt.trees]
      exact .cons (Stmt.oneLine_tree firstPlain) (Stmt.oneLine_trees restPlain)

end

end

/-- A word is on one line. -/
theorem IsWord.newline_notMem
    {text : List Char}
    (isWord : IsWord text) :
    '\n' ∉ text := by
  intro member
  exact absurd (isWord.isWordPart_of_mem member) (by decide)

/--
Programs whose names are words are told apart by their drawings. A name outside the table
has the empty text, which is no word.
-/
theorem Stmt.eq_of_drawProgram_eq
    (texts : List String)
    {program other : List Stmt}
    (words :
      ∀ name ∈ Stmt.allNames program,
        IsWord ((NameTable.initial.internAll texts).textOf name).toList)
    (otherWords :
      ∀ name ∈ Stmt.allNames other,
        IsWord ((NameTable.initial.internAll texts).textOf name).toList)
    (same :
      Stmt.drawProgram (NameTable.initial.internAll texts) program =
        Stmt.drawProgram (NameTable.initial.internAll texts) other) :
    program = other := by
  have distinct : (NameTable.initial.internAll texts).texts.Nodup :=
    NameTable.nodup_internAll (by decide) texts
  have sameTrees :=
    Tree.draw_inj (by simp)
      (Stmt.oneLine_trees fun name member => (words name member).newline_notMem)
      (Stmt.oneLine_trees fun name member => (otherWords name member).newline_notMem)
      same
  exact Stmt.eq_of_trees_eq sameTrees fun name member =>
    .of_textOf_ne_empty distinct (words name member).ne_empty

/-- An `if` on a negative number, and the same with an else branch that is empty. -/
theorem Stmt.eq_of_drawProgram_eq_else_branch :
    let names := NameTable.initial.internAll ["x"]
    let condition (value : Int32) : Expr := .binary .lt (.ident ⟨1⟩) (.number value)
    let program : List Stmt := [.ifThen (condition (-5)) []]
    let wrapped : List Stmt := [.ifThen (condition 4294967291) []]
    let extended : List Stmt := [.ifElse (condition (-5)) [] []]
    (∀ name ∈ Stmt.allNames program, IsWord (names.textOf name).toList) ∧
      (∀ name ∈ Stmt.allNames wrapped, IsWord (names.textOf name).toList) ∧
        (∀ name ∈ Stmt.allNames extended, IsWord (names.textOf name).toList) ∧
          Stmt.drawProgram names program = Stmt.drawProgram names wrapped ∧
            program = wrapped ∧
              Stmt.drawProgram names program ≠ Stmt.drawProgram names extended := by
  intro names condition program wrapped extended
  have named : names.textOf ⟨1⟩ = "x" :=
    rfl
  have isWord : IsWord (names.textOf ⟨1⟩).toList := by
    rw [named]
    exact ⟨rfl, List.all_eq_true.mp rfl⟩
  have different : program ≠ extended := by
    simp [program, extended]
  have words : ∀ name ∈ Stmt.allNames program, IsWord (names.textOf name).toList :=
    List.forall_mem_singleton.mpr isWord
  have wrappedWords : ∀ name ∈ Stmt.allNames wrapped, IsWord (names.textOf name).toList :=
    List.forall_mem_singleton.mpr isWord
  have extendedWords : ∀ name ∈ Stmt.allNames extended, IsWord (names.textOf name).toList :=
    List.forall_mem_singleton.mpr isWord
  have sameDrawing : Stmt.drawProgram names program = Stmt.drawProgram names wrapped := by
    decide +kernel
  exact ⟨words, wrappedWords, extendedWords, sameDrawing,
    Stmt.eq_of_drawProgram_eq ["x"] words wrappedWords sameDrawing,
    fun same => different (Stmt.eq_of_drawProgram_eq ["x"] words extendedWords same)⟩

end ScopeLang
