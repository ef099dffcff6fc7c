import ScopeLang.Ast

namespace ScopeLang

/-!
# Program trees

Every expression and statement has a tree of labels, and a tree is drawn with
one row for each node. A drawing shows structure by the branches in front of
the labels, so it can be read without knowing the language.
-/

/-- A label with the trees below it. -/
inductive Tree where
  | node (label : String) (children : List Tree)

namespace Tree

/-- The label at the root. -/
def label : Tree → String
  | .node label _ => label

/-- The trees directly below the root. -/
def children : Tree → List Tree
  | .node _ children => children

mutual

/-- The rows of a tree that hangs on a margin, as the last of its siblings or not. -/
def rows (margin : String) (last : Bool) : Tree → List String
  | .node label children =>
      (margin ++ (if last then "└── " else "├── ") ++ label) ::
        rowsOfAll (margin ++ (if last then "    " else "│   ")) children

/-- The rows of siblings that hang on one margin. -/
def rowsOfAll (margin : String) : List Tree → List String
  | [] => []
  | tree :: rest => rows margin rest.isEmpty tree ++ rowsOfAll margin rest

end

/-- The drawing of several trees below one heading. -/
def draw (heading : String) (trees : List Tree) : String :=
  String.join ((heading :: rowsOfAll "" trees).map fun row => row ++ "\n")

end Tree

/-- The word for an operator's family in labels. -/
def OpFamily.label : OpFamily → String
  | .arithmetic => "ArithmeticOp"
  | .comparison => "ComparisonOp"
  | .boolean => "BooleanOp"

namespace NameTable

/-- The tree of a name that is used or bound. -/
def identifierTree (names : NameTable) (name : Name) : Tree :=
  .node ("Identifier `" ++ names.textOf name ++ "`") []

end NameTable

/-- The label of a statement sequence, with the part it plays and its length. -/
def sequenceLabel (role : String) (count : Nat) : String :=
  "Sequence `" ++ role ++ "` (" ++ Text.Decimal.ofNat count ++
    (if count == 1 then " statement)" else " statements)")

mutual

/-- The tree of an expression. -/
def Expr.tree (names : NameTable) : Expr → Tree
  | .ident name => names.identifierTree name
  | .number value => .node ("Number `" ++ Text.Decimal.ofInt value.toInt ++ "`") []
  | .bool value => .node ("Boolean `" ++ (if value then "true" else "false") ++ "`") []
  | .binary op left right =>
      .node (op.family.label ++ " `<left> " ++ op.spelling ++ " <right>`")
        [left.tree names, right.tree names]
  | .unary .neg operand => .node "NegationOp `- <expr>`" [operand.tree names]
  | .unary .not operand => .node "NotOp `not <expr>`" [operand.tree names]
  | .read => .node "Read" []
  | .ret value => .node "ReturnExpr `return <expr>`" [value.tree names]
  | .lambda param body =>
      .node "Lambda `lambda <var> \x7b <stmt> \x7d`"
        [names.identifierTree param,
          .node (sequenceLabel "body" body.length) (Stmt.trees names body)]
  | .call callee arg => .node "Call `<fun> @ <arg>`" [callee.tree names, arg.tree names]

/-- The tree of a statement. -/
def Stmt.tree (names : NameTable) : Stmt → Tree
  | .skip => .node "EmptyStmt `;`" []
  | .block body =>
      .node "Block `\x7b <stmt> \x7d`"
        [.node (sequenceLabel "body" body.length) (Stmt.trees names body)]
  | .ifThen condition thenBody =>
      .node "IfStmt `if <expr> \x7b <stmt> \x7d`"
        [condition.tree names,
          .node (sequenceLabel "then" thenBody.length) (Stmt.trees names thenBody)]
  | .ifElse condition thenBody elseBody =>
      .node "IfStmt `if <expr> \x7b <stmt> \x7d else \x7b <stmt> \x7d`"
        [condition.tree names,
          .node (sequenceLabel "then" thenBody.length) (Stmt.trees names thenBody),
          .node (sequenceLabel "else" elseBody.length) (Stmt.trees names elseBody)]
  | .loop condition body =>
      .node "WhileStmt `while <expr> \x7b <stmt> \x7d`"
        [condition.tree names, .node (sequenceLabel "body" body.length) (Stmt.trees names body)]
  | .declare name value =>
      .node "DeclareStmt `new <var> := <expr>`" [names.identifierTree name, value.tree names]
  | .assign name value =>
      .node "AssignStmt `<var> := <expr>`" [names.identifierTree name, value.tree names]
  | .write value => .node "Write `write <expr>`" [value.tree names]
  | .eval value => .node "ExprStmt `<expr>`" [value.tree names]

/-- The trees of the statements of a sequence. -/
def Stmt.trees (names : NameTable) : List Stmt → List Tree
  | [] => []
  | statement :: rest => statement.tree names :: Stmt.trees names rest

end

/-- The drawing of a whole program. -/
def Stmt.drawProgram (names : NameTable) (program : List Stmt) : String :=
  Tree.draw "Program" (Stmt.trees names program)

end ScopeLang
