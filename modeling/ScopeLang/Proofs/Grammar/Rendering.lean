import ScopeLang.Proofs.Grammar.Prediction
import ScopeLang.Proofs.Session.Calls
import ScopeLang.Proofs.Token.Spelling

namespace ScopeLang

/-!
# Programs written out

The source text of a program, with every expression of several parts and every
expression statement in round brackets, bodies in braces, and statements one
after the other without separators. Such a text is read back as the program it
was written for, with the names of the table it was written with.
-/

/-! ## The text of a program -/

/-- Whether an expression is written as one token. -/
def Expr.isAtomic : Expr → Bool
  | .ident _ | .number _ | .bool _ | .read => true
  | _ => false

/-- The text of an expression as a part, from its text without brackets around it. -/
def Expr.enclosed (expr : Expr) (text : String) : String :=
  if expr.isAtomic then text else "(" ++ text ++ ")"

/-- The text of a body, from the text of its statements. -/
def Blank.braced (blank : Blank) (text : String) : String :=
  "\x7b" ++ blank.text ++ text ++ "\x7d"

mutual

/-- The text of an expression without brackets around the whole. -/
def Expr.bareSource (names : NameTable) (blank : Blank) : Expr → String
  | .ident name => names.textOf name
  | .number value => Text.Decimal.ofInt value.toInt
  | .bool true => "true"
  | .bool false => "false"
  | .read => "read"
  | .binary op left right =>
      blank.spread
        [left.enclosed (left.bareSource names blank), op.spelling,
          right.enclosed (right.bareSource names blank)]
  | .unary .neg operand =>
      "-" ++ operand.enclosed (operand.bareSource names blank)
  | .unary .not operand =>
      blank.spread ["not", operand.enclosed (operand.bareSource names blank)]
  | .ret value =>
      blank.spread ["return", value.enclosed (value.bareSource names blank)]
  | .lambda param body =>
      blank.spread
        ["lambda", names.textOf param, blank.braced (Stmt.allSource names blank body)]
  | .call callee arg =>
      blank.spread
        [callee.enclosed (callee.bareSource names blank), "@",
          arg.enclosed (arg.bareSource names blank)]

/-- The text of a statement. -/
def Stmt.source (names : NameTable) (blank : Blank) : Stmt → String
  | .skip => ";"
  | .block body => blank.braced (Stmt.allSource names blank body)
  | .ifThen condition thenBody =>
      blank.spread
        ["if", condition.enclosed (condition.bareSource names blank),
          blank.braced (Stmt.allSource names blank thenBody)]
  | .ifElse condition thenBody elseBody =>
      blank.spread
        ["if", condition.enclosed (condition.bareSource names blank),
          blank.braced (Stmt.allSource names blank thenBody),
          "else", blank.braced (Stmt.allSource names blank elseBody)]
  | .loop condition body =>
      blank.spread
        ["while", condition.enclosed (condition.bareSource names blank),
          blank.braced (Stmt.allSource names blank body)]
  | .declare name value =>
      blank.spread
        ["new", names.textOf name, ":=", value.enclosed (value.bareSource names blank)]
  | .assign name value =>
      blank.spread [names.textOf name, ":=", value.enclosed (value.bareSource names blank)]
  | .write value =>
      blank.spread ["write", value.enclosed (value.bareSource names blank)]
  | .eval value => "(" ++ value.bareSource names blank ++ ")"

/-- The text of statements, with a blank behind each. -/
def Stmt.allSource (names : NameTable) (blank : Blank) : List Stmt → String
  | [] => ""
  | statement :: rest =>
      statement.source names blank ++ blank.text ++ Stmt.allSource names blank rest

end

mutual

/-- The names of an expression can be written, and its numbers are not negative. -/
def Expr.Writable (names : NameTable) : Expr → Prop
  | .ident name => names.Identifies name
  | .number value => 0 ≤ value
  | .bool _ | .read => True
  | .binary _ left right => left.Writable names ∧ right.Writable names
  | .unary _ operand => operand.Writable names
  | .ret value => value.Writable names
  | .lambda param body => names.Identifies param ∧ Stmt.AllWritable names body
  | .call callee arg => callee.Writable names ∧ arg.Writable names

/-- The names of a statement can be written, and its numbers are not negative. -/
def Stmt.Writable (names : NameTable) : Stmt → Prop
  | .skip => True
  | .block body => Stmt.AllWritable names body
  | .ifThen condition thenBody => condition.Writable names ∧ Stmt.AllWritable names thenBody
  | .ifElse condition thenBody elseBody =>
      condition.Writable names ∧
        Stmt.AllWritable names thenBody ∧ Stmt.AllWritable names elseBody
  | .loop condition body => condition.Writable names ∧ Stmt.AllWritable names body
  | .declare name value | .assign name value => names.Identifies name ∧ value.Writable names
  | .write value | .eval value => value.Writable names

/-- The same of every statement of a sequence. -/
def Stmt.AllWritable (names : NameTable) : List Stmt → Prop
  | [] => True
  | statement :: rest => statement.Writable names ∧ Stmt.AllWritable names rest

end

/-! ## Written phrases -/

/-- What a tighter level spells is a single operand of the level above it. -/
theorem Derives.loosen
    {level inner : BinaryLevel}
    {value : Expr}
    {kinds : List TokenKind}
    (joins : level.Joins inner)
    (derivation : Derives (.binary inner value) kinds) :
    Derives (.binary level value) kinds :=
  .single (.tighter joins derivation)

theorem Derives.expression_of_binary
    {level : BinaryLevel}
    {value : Expr}
    {kinds : List TokenKind}
    (derivation : Derives (.binary level value) kinds) :
    Derives (.expression value) kinds := by
  cases level with
  | disjunction =>
      exact .disjunction derivation
  | conjunction =>
      exact .disjunction (.loosen .conjunctions derivation)
  | comparison =>
      exact .disjunction (.loosen .conjunctions (.loosen .comparisons derivation))
  | sum =>
      exact .disjunction
        (.loosen .conjunctions (.loosen .comparisons (.loosen .sums derivation)))
  | product =>
      exact .disjunction
        (.loosen .conjunctions
          (.loosen .comparisons (.loosen .sums (.loosen .products derivation))))

/-- What binds tighter than all binary operators is an operand of every level. -/
theorem Derives.operand_of_unary
    (level : BinaryLevel)
    {value : Expr}
    {kinds : List TokenKind}
    (derivation : Derives (.unary value) kinds) :
    Derives (.operand level value) kinds := by
  have product : Derives (.binary .product value) kinds :=
    .single (.tightest derivation)
  cases level with
  | disjunction =>
      exact .tighter .conjunctions
        (.loosen .comparisons (.loosen .sums (.loosen .products product)))
  | conjunction =>
      exact .tighter .comparisons (.loosen .sums (.loosen .products product))
  | comparison =>
      exact .tighter .sums (.loosen .products product)
  | sum =>
      exact .tighter .products product
  | product =>
      exact .tightest derivation

theorem Derives.expression_of_unary
    {value : Expr}
    {kinds : List TokenKind}
    (derivation : Derives (.unary value) kinds) :
    Derives (.expression value) kinds :=
  .expression_of_binary (.single (.operand_of_unary .product derivation))

/-- Every binary operator is written as a token of its level. -/
theorem BinaryOp.exists_spells (names : NameTable) (op : BinaryOp) :
    ∃ level kind,
      BinaryLevel.Spells level kind op ∧ Spells names SetOff op.spelling [kind] := by
  cases op with
  | add =>
      exact ⟨_, _, .plus, .symbol names .plus⟩
  | sub =>
      exact ⟨_, _, .minus, .symbol names .minus⟩
  | mul =>
      exact ⟨_, _, .star, .symbol names .star⟩
  | div =>
      exact ⟨_, _, .slash, .symbol names .slash⟩
  | eq =>
      exact ⟨_, _, .equalEqual, .symbol names .equalEqual⟩
  | ne =>
      exact ⟨_, _, .bangEqual, .symbol names .bangEqual⟩
  | lt =>
      exact ⟨_, _, .less, .symbol names .less⟩
  | le =>
      exact ⟨_, _, .lessEqual, .symbol names .lessEqual⟩
  | gt =>
      exact ⟨_, _, .greater, .symbol names .greater⟩
  | ge =>
      exact ⟨_, _, .greaterEqual, .symbol names .greaterEqual⟩
  | and =>
      exact ⟨_, _, .andWord, .keyword names .andWord⟩
  | or =>
      exact ⟨_, _, .orWord, .keyword names .orWord⟩

/-- A text is read as tokens that spell a phrase. -/
def Written (names : NameTable) (phrase : Phrase) (text : String) : Prop :=
  ∃ kinds, Spells names SetOff text kinds ∧ Derives phrase kinds

/--
A text is read as tokens that spell a statement, and the first one is no minus sign, so
that the statement does not continue the one in front of it.
-/
def WrittenAfresh (names : NameTable) (statement : Stmt) (text : String) : Prop :=
  ∃ first kinds,
    Spells names SetOff text (first :: kinds) ∧
      Derives (.statement statement) (first :: kinds) ∧ first ≠ .symbol .minus

/-- A text that ends in a blank is read as tokens that spell a sequence. -/
def WrittenInOrder (names : NameTable) (statements : List Stmt) (text : String) : Prop :=
  ∃ kinds,
    Spells names Whatever text kinds ∧
      Derives (.sequence statements) kinds ∧ kinds.head? ≠ some (.symbol .minus)

namespace Written

variable {names : NameTable} {blank : Blank}

theorem parenthesized
    {value : Expr}
    {text : String}
    (written : Written names (.expression value) text) :
    Written names (.primary value) ("(" ++ text ++ ")") := by
  obtain ⟨kinds, spelled, derived⟩ := written
  have opened := (Spells.symbol_in_front names (.inl rfl)).andThen spelled
  exact ⟨_, opened.closed, .parenthesized derived⟩

theorem braced
    (blank : Blank)
    {statements : List Stmt}
    {text : String}
    (written : WrittenInOrder names statements text) :
    Written names (.body statements) (blank.braced text) := by
  obtain ⟨kinds, spelled, derived, -⟩ := written
  have opened := ((Spells.symbol names .leftBrace).spaced blank).andThen spelled
  exact ⟨_, opened.andThen (.symbol names .rightBrace), .body derived⟩

theorem binary
    {op : BinaryOp}
    {left right : Expr}
    {leftText rightText : String}
    (leftWritten : Written names (.primary left) leftText)
    (rightWritten : Written names (.primary right) rightText) :
    Written names (.expression (.binary op left right))
      (blank.spread [leftText, op.spelling, rightText]) := by
  obtain ⟨before, leftSpelled, leftDerived⟩ := leftWritten
  obtain ⟨after, rightSpelled, rightDerived⟩ := rightWritten
  obtain ⟨level, kind, spells, spelled⟩ := op.exists_spells names
  refine ⟨_, leftSpelled.spread blank (.cons spelled (.cons rightSpelled .nil)), ?_⟩
  have leftOperand := Derives.operand_of_unary level (.called (.callee leftDerived))
  have rightOperand := Derives.operand_of_unary level (.called (.callee rightDerived))
  simpa using Derives.expression_of_binary (.extended (.single leftOperand) spells rightOperand)

theorem negation
    {operand : Expr}
    {text : String}
    (written : Written names (.primary operand) text) :
    Written names (.expression (.unary .neg operand)) ("-" ++ text) := by
  obtain ⟨kinds, spelled, derived⟩ := written
  refine ⟨_, (Spells.symbol_in_front names (.inr rfl)).andThen spelled, ?_⟩
  exact .expression_of_unary (.operator .minus (.called (.callee derived)))

theorem complement
    {operand : Expr}
    {text : String}
    (written : Written names (.primary operand) text) :
    Written names (.expression (.unary .not operand)) (blank.spread ["not", text]) := by
  obtain ⟨kinds, spelled, derived⟩ := written
  refine ⟨_, (Spells.keyword names .notWord).spread blank (.cons spelled .nil), ?_⟩
  simpa using Derives.expression_of_unary (.operator .notWord (.called (.callee derived)))

theorem call
    {callee arg : Expr}
    {calleeText argText : String}
    (calleeWritten : Written names (.primary callee) calleeText)
    (argWritten : Written names (.primary arg) argText) :
    Written names (.expression (.call callee arg))
      (blank.spread [calleeText, "@", argText]) := by
  obtain ⟨before, calleeSpelled, calleeDerived⟩ := calleeWritten
  obtain ⟨after, argSpelled, argDerived⟩ := argWritten
  have sign := Spells.symbol names .at
  refine ⟨_, calleeSpelled.spread blank (.cons sign (.cons argSpelled .nil)), ?_⟩
  have applied := Derives.applied (.callee calleeDerived) (.argumentPrimary argDerived)
  simpa using Derives.expression_of_unary (.called applied)

theorem ret
    {value : Expr}
    {text : String}
    (written : Written names (.primary value) text) :
    Written names (.expression (.ret value)) (blank.spread ["return", text]) := by
  obtain ⟨kinds, spelled, derived⟩ := written
  refine ⟨_, (Spells.keyword names .returnWord).spread blank (.cons spelled .nil), ?_⟩
  simpa using Derives.ret (.expression_of_primary derived)

theorem lambda
    (distinct : names.texts.Nodup)
    {param : Name}
    {body : List Stmt}
    {text : String}
    (identifies : names.Identifies param)
    (written : WrittenInOrder names body text) :
    Written names (.expression (.lambda param body))
      (blank.spread ["lambda", names.textOf param, blank.braced text]) := by
  obtain ⟨kinds, spelled, derived⟩ := braced blank written
  have parameter := Spells.ident distinct identifies
  have word := Spells.keyword names .lambda
  refine ⟨_, word.spread blank (.cons parameter (.cons spelled .nil)), ?_⟩
  simpa using Derives.expression_of_primary (.lambda derived)

end Written

namespace WrittenAfresh

variable {names : NameTable} {blank : Blank}

/-- A statement that begins with a token of its own. -/
theorem spread
    {statement : Stmt}
    {first : TokenKind}
    {text : String}
    {texts : List String}
    {kindLists : List (List TokenKind)}
    (spelled : Spells names SetOff text [first])
    (othersSpelled : List.Forall₂ (Spells names SetOff) texts kindLists)
    (derived : Derives (.statement statement) (first :: kindLists.flatten))
    (noMinus : first ≠ .symbol .minus) :
    WrittenAfresh names statement (blank.spread (text :: texts)) :=
  ⟨first, kindLists.flatten, spelled.spread blank othersSpelled, derived, noMinus⟩

theorem block
    {body : List Stmt}
    {text : String}
    (written : Written names (.body body) text) :
    WrittenAfresh names (.block body) text := by
  obtain ⟨kinds, spelled, derived⟩ := written
  cases kinds with
  | nil =>
      cases derived.begins
  | cons first kinds =>
      obtain rfl : first = .symbol .leftBrace := Option.some.inj derived.begins
      exact ⟨_, _, spelled, .block derived, by simp⟩

theorem eval
    {value : Expr}
    {text : String}
    (written : Written names (.primary value) text) :
    WrittenAfresh names (.eval value) text := by
  obtain ⟨kinds, spelled, derived⟩ := written
  obtain ⟨first, rest, rfl, starts, -⟩ := derived.begins
  refine ⟨first, rest, spelled, .eval (.expression_of_primary derived), ?_⟩
  rintro rfl
  cases starts

theorem ifThen
    {condition : Expr}
    {thenBody : List Stmt}
    {conditionText thenText : String}
    (conditionWritten : Written names (.primary condition) conditionText)
    (thenWritten : Written names (.body thenBody) thenText) :
    WrittenAfresh names (.ifThen condition thenBody)
      (blank.spread ["if", conditionText, thenText]) := by
  obtain ⟨before, conditionSpelled, conditionDerived⟩ := conditionWritten
  obtain ⟨after, thenSpelled, thenDerived⟩ := thenWritten
  refine .spread (.keyword names .ifWord) (.cons conditionSpelled (.cons thenSpelled .nil)) ?_
    (by simp)
  simpa using Derives.conditional (.ifThen (.expression_of_primary conditionDerived) thenDerived)

theorem ifElse
    {condition : Expr}
    {thenBody elseBody : List Stmt}
    {conditionText thenText elseText : String}
    (conditionWritten : Written names (.primary condition) conditionText)
    (thenWritten : Written names (.body thenBody) thenText)
    (elseWritten : Written names (.body elseBody) elseText) :
    WrittenAfresh names (.ifElse condition thenBody elseBody)
      (blank.spread ["if", conditionText, thenText, "else", elseText]) := by
  obtain ⟨before, conditionSpelled, conditionDerived⟩ := conditionWritten
  obtain ⟨middle, thenSpelled, thenDerived⟩ := thenWritten
  obtain ⟨after, elseSpelled, elseDerived⟩ := elseWritten
  have word := Spells.keyword names .elseWord
  refine .spread (.keyword names .ifWord)
    (.cons conditionSpelled (.cons thenSpelled (.cons word (.cons elseSpelled .nil)))) ?_
    (by simp)
  have expression := Derives.expression_of_primary conditionDerived
  simpa using Derives.conditional (.ifElse expression thenDerived elseDerived)

theorem loop
    {condition : Expr}
    {body : List Stmt}
    {conditionText bodyText : String}
    (conditionWritten : Written names (.primary condition) conditionText)
    (bodyWritten : Written names (.body body) bodyText) :
    WrittenAfresh names (.loop condition body)
      (blank.spread ["while", conditionText, bodyText]) := by
  obtain ⟨before, conditionSpelled, conditionDerived⟩ := conditionWritten
  obtain ⟨after, bodySpelled, bodyDerived⟩ := bodyWritten
  refine .spread (.keyword names .whileWord) (.cons conditionSpelled (.cons bodySpelled .nil)) ?_
    (by simp)
  simpa using Derives.loop (.expression_of_primary conditionDerived) bodyDerived

theorem declare
    (distinct : names.texts.Nodup)
    {name : Name}
    {value : Expr}
    {text : String}
    (identifies : names.Identifies name)
    (written : Written names (.primary value) text) :
    WrittenAfresh names (.declare name value)
      (blank.spread ["new", names.textOf name, ":=", text]) := by
  obtain ⟨kinds, spelled, derived⟩ := written
  have sign := Spells.symbol names .colonEqual
  refine .spread (.keyword names .declare)
    (.cons (.ident distinct identifies) (.cons sign (.cons spelled .nil))) ?_ (by simp)
  simpa using Derives.declare (.expression_of_primary derived)

theorem assign
    (distinct : names.texts.Nodup)
    {name : Name}
    {value : Expr}
    {text : String}
    (identifies : names.Identifies name)
    (written : Written names (.primary value) text) :
    WrittenAfresh names (.assign name value)
      (blank.spread [names.textOf name, ":=", text]) := by
  obtain ⟨kinds, spelled, derived⟩ := written
  have sign := Spells.symbol names .colonEqual
  refine .spread (.ident distinct identifies) (.cons sign (.cons spelled .nil)) ?_ (by simp)
  simpa using Derives.assign (.expression_of_primary derived)

theorem write
    {value : Expr}
    {text : String}
    (written : Written names (.primary value) text) :
    WrittenAfresh names (.write value) (blank.spread ["write", text]) := by
  obtain ⟨kinds, spelled, derived⟩ := written
  refine .spread (.keyword names .write) (.cons spelled .nil) ?_ (by simp)
  simpa using Derives.write (.expression_of_primary derived)

end WrittenAfresh

namespace WrittenInOrder

variable {names : NameTable}

theorem nil : WrittenInOrder names [] "" :=
  ⟨[], fun _ _ => rfl, .nil, by simp⟩

/-- No statement continues the one in front of it. -/
theorem cons
    {statement : Stmt}
    {rest : List Stmt}
    {text restText : String}
    (blank : Blank)
    (written : WrittenAfresh names statement text)
    (restWritten : WrittenInOrder names rest restText) :
    WrittenInOrder names (statement :: rest) (text ++ blank.text ++ restText) := by
  obtain ⟨first, kinds, spelled, derived, noMinus⟩ := written
  obtain ⟨restKinds, restSpelled, restDerived, restNoMinus⟩ := restWritten
  refine ⟨_, (spelled.spaced blank).andThen restSpelled, ?_, ?_⟩
  · exact .cons derived restDerived fun _ => restNoMinus
  · simpa using noMinus

end WrittenInOrder

/-- The text of an expression, for the expression alone and as a part of another. -/
structure Expr.IsWritten (names : NameTable) (blank : Blank) (expr : Expr) : Prop where
  alone : Written names (.expression expr) (expr.bareSource names blank)
  asPart : Written names (.primary expr) (expr.enclosed (expr.bareSource names blank))

namespace Expr.IsWritten

variable {names : NameTable} {blank : Blank} {expr : Expr}

theorem of_atomic
    (atomic : expr.isAtomic = true)
    (written : Written names (.primary expr) (expr.bareSource names blank)) :
    expr.IsWritten names blank where
  alone := by
    obtain ⟨kinds, spelled, derived⟩ := written
    exact ⟨kinds, spelled, .expression_of_primary derived⟩
  asPart := by
    rw [Expr.enclosed, if_pos atomic]
    exact written

theorem of_parts
    (several : expr.isAtomic = false)
    (written : Written names (.expression expr) (expr.bareSource names blank)) :
    expr.IsWritten names blank where
  alone := written
  asPart := by
    rw [Expr.enclosed, several]
    exact written.parenthesized

end Expr.IsWritten

/-! ## Written programs -/

mutual

theorem Expr.Writable.isWritten
    {names : NameTable}
    (distinct : names.texts.Nodup)
    (blank : Blank) :
    {expr : Expr} →
      expr.Writable names →
      expr.IsWritten names blank
  | .ident _, writable =>
      .of_atomic rfl ⟨_, .ident distinct writable, .ident⟩
  | .number _, writable =>
      .of_atomic rfl ⟨_, .number names writable, .number⟩
  | .bool true, _ =>
      .of_atomic rfl ⟨_, .keyword names .trueWord, .trueWord⟩
  | .bool false, _ =>
      .of_atomic rfl ⟨_, .keyword names .falseWord, .falseWord⟩
  | .read, _ =>
      .of_atomic rfl ⟨_, .keyword names .read, .read⟩
  | .binary _ _ _, ⟨left, right⟩ =>
      .of_parts rfl
        (.binary (left.isWritten distinct blank).asPart (right.isWritten distinct blank).asPart)
  | .unary .neg operand, writable =>
      .of_parts rfl
        (.negation (@Expr.Writable.isWritten _ distinct blank operand writable).asPart)
  | .unary .not operand, writable =>
      .of_parts rfl
        (.complement (@Expr.Writable.isWritten _ distinct blank operand writable).asPart)
  | .ret value, writable =>
      .of_parts rfl (.ret (@Expr.Writable.isWritten _ distinct blank value writable).asPart)
  | .lambda _ _, ⟨param, body⟩ =>
      .of_parts rfl (.lambda distinct param (Stmt.AllWritable.written distinct blank body))
  | .call _ _, ⟨callee, arg⟩ =>
      .of_parts rfl
        (.call (callee.isWritten distinct blank).asPart (arg.isWritten distinct blank).asPart)

theorem Stmt.Writable.written
    {names : NameTable}
    (distinct : names.texts.Nodup)
    (blank : Blank) :
    {statement : Stmt} →
      statement.Writable names →
      WrittenAfresh names statement (statement.source names blank)
  | .skip, _ =>
      ⟨_, _, .symbol names .semicolon, .skip, by simp⟩
  | .block body, writable =>
      .block (.braced blank (@Stmt.AllWritable.written _ distinct blank body writable))
  | .ifThen _ _, ⟨condition, thenBody⟩ =>
      .ifThen (condition.isWritten distinct blank).asPart
        (.braced blank (Stmt.AllWritable.written distinct blank thenBody))
  | .ifElse _ _ _, ⟨condition, thenBody, elseBody⟩ =>
      .ifElse (condition.isWritten distinct blank).asPart
        (.braced blank (Stmt.AllWritable.written distinct blank thenBody))
        (.braced blank (Stmt.AllWritable.written distinct blank elseBody))
  | .loop _ _, ⟨condition, body⟩ =>
      .loop (condition.isWritten distinct blank).asPart
        (.braced blank (Stmt.AllWritable.written distinct blank body))
  | .declare _ _, ⟨name, value⟩ =>
      .declare distinct name (value.isWritten distinct blank).asPart
  | .assign _ _, ⟨name, value⟩ =>
      .assign distinct name (value.isWritten distinct blank).asPart
  | .write value, writable =>
      .write (@Expr.Writable.isWritten _ distinct blank value writable).asPart
  | .eval value, writable =>
      .eval (@Expr.Writable.isWritten _ distinct blank value writable).alone.parenthesized

theorem Stmt.AllWritable.written
    {names : NameTable}
    (distinct : names.texts.Nodup)
    (blank : Blank) :
    {statements : List Stmt} →
      Stmt.AllWritable names statements →
      WrittenInOrder names statements (Stmt.allSource names blank statements)
  | [], _ =>
      .nil
  | _ :: _, ⟨statement, rest⟩ =>
      .cons blank (statement.written distinct blank)
        (Stmt.AllWritable.written distinct blank rest)

end

/--
A program that is written out is read back, statement for statement, with the names of
the table it was written with.
-/
theorem parseProgram_lex_allSource
    (texts : List String)
    (blank : Blank)
    (statements : List Stmt)
    (writable : Stmt.AllWritable (NameTable.initial.internAll texts) statements) :
    let names := NameTable.initial.internAll texts
    let source := Stmt.allSource names blank statements
    parseProgram (Token.lex source names).1 = .ok statements ∧
      (Token.lex source names).2 = names := by
  intro names source
  have distinct : names.texts.Nodup :=
    NameTable.nodup_internAll (by decide) texts
  obtain ⟨kinds, spelled, derived, -⟩ := writable.written distinct blank
  have read := spelled [] trivial
  simp only [List.append_nil, Token.reading, Token.ofCharacters_nil, List.map_nil,
    Prod.mk.injEq] at read
  refine ⟨?_, ?_⟩
  · rw [parseProgram_lex_eq_ok_iff, Token.kinds, read.1]
    exact derived
  · rw [Token.lex_eq, read.2]

/-- A recursive function, a call of it and a statement without effect. -/
theorem parseProgram_lex_allSource_function :
    let names := NameTable.initial.internAll ["f", "n"]
    let f : Name := ⟨1⟩
    let n : Name := ⟨2⟩
    let body : List Stmt :=
      [.ifElse (.binary .lt (.ident n) (.number 1))
        [.eval (.ret (.number 0))]
        [.write (.unary .neg (.call (.ident f) (.binary .sub (.ident n) (.number 1))))]]
    let program : List Stmt :=
      [.declare f (.lambda n body), .eval (.call (.ident f) .read), .eval (.ident n), .skip]
    let source :=
      "new f := (lambda n \x7b if (n < 1) \x7b (return 0) \x7d" ++
        " else \x7b write (-(f @ (n - 1))) \x7d \x7d) (f @ read) (n) ; "
    Stmt.AllWritable names program ∧
      parseProgram (Token.lex source names).1 = .ok program := by
  intro names f n body program source
  have named : names.textOf f = "f" ∧ names.textOf n = "n" :=
    ⟨rfl, rfl⟩
  have function : names.Identifies f := by
    rw [NameTable.Identifies, named.1]
    exact ⟨⟨rfl, List.all_eq_true.mp rfl⟩, fun word => by cases word <;> decide⟩
  have parameter : names.Identifies n := by
    rw [NameTable.Identifies, named.2]
    exact ⟨⟨rfl, List.all_eq_true.mp rfl⟩, fun word => by cases word <;> decide⟩
  have zero : (0 : Int32) ≤ 0 := by decide
  have one : (0 : Int32) ≤ 1 := by decide
  have bodyWritable : Stmt.AllWritable names body :=
    ⟨⟨⟨parameter, one⟩, ⟨zero, trivial⟩, ⟨function, parameter, one⟩, trivial⟩, trivial⟩
  have writable : Stmt.AllWritable names program :=
    ⟨⟨function, parameter, bodyWritable⟩, ⟨function, trivial⟩, parameter, trivial, trivial⟩
  let space : Blank := ⟨" ", by decide, List.all_eq_true.mp rfl⟩
  have written : Stmt.allSource names space program = source := by
    decide +kernel
  have read := parseProgram_lex_allSource ["f", "n"] space program writable
  rw [← written]
  exact ⟨writable, read.1⟩

end ScopeLang
