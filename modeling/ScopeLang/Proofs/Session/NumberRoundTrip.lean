import Mathlib
import ScopeLang.Console.Sink
import ScopeLang.Proofs.Grammar.Rendering
import ScopeLang.Proofs.Machine.Arithmetic
import ScopeLang.Proofs.Text.Numeral

namespace ScopeLang

/-!
# Written numbers read back

The text of a number is read in two ways. An expression that reads takes a line with a
numeral and its sign, whatever blanks are around. The grammar knows no sign: the text of
a negative number is a numeral with an operator in front, and the numeral of the least
number is too large for one.
-/

/-! ## Texts of expressions -/

/-- An expression up to the end mark is read to the end. -/
theorem Parser.soleExpression_eq_done
    {fuel : Nat}
    {cursor last : Cursor}
    {kinds : List TokenKind}
    {value : Expr}
    (enough : 16 * cursor.remaining + 13 ≤ fuel)
    (read : cursor.Reads kinds last)
    (atEnd : last.current.kind = .endOfInput)
    (derived : Derives (.expression value) kinds) :
    soleExpression fuel cursor = .done value last := by
  have agrees : Agrees (expression fuel) cursor value last :=
    recognized derived fuel read (atEnd ▸ .endOfInput)
  have whole : Agrees (soleExpression fuel) cursor value last :=
    agrees.bind (.kind_bind atEnd (.pure value last))
  rcases whole with spent | done
  · exact ((answers_soleExpression fuel cursor enough).ne_exhausted spent).elim
  · exact done

/-- A source is an expression when the kinds of its tokens spell it. -/
theorem parseExpr_lex_eq_ok_of_derives
    {source : String}
    {names : NameTable}
    {value : Expr}
    (derived : Derives (.expression value) (Token.kinds source names)) :
    parseExpr (Token.lex source names).1 = .ok value := by
  have inside :
      ∀ token ∈ (Token.ofCharacters 0 names source.toList).1, token.kind ≠ .endOfInput :=
    fun _ => Token.kind_ne_endOfInput_of_mem_inside
  rw [Token.lex_eq]
  unfold parseExpr
  rw [Parser.answer_eq_ok_iff]
  refine ⟨_, Parser.soleExpression_eq_done ?_ (Cursor.reads_tokens _ inside _) rfl derived⟩
  exact (Nat.add_le_add_left (by decide) _).trans (remaining_le_parseFuel _)

/-- The text of an expression is read back without a new name. -/
theorem Session.readExpr_of_written
    {session : Session}
    {value : Expr}
    {text : String}
    (written : Written session.names (.expression value) text) :
    session.readExpr text = (.ok value, session) := by
  obtain ⟨kinds, spelled, derived⟩ := written
  have nothingBehind : SetOff [] := by
    simp [SetOff]
  have read := spelled [] nothingBehind
  simp only [List.append_nil, Token.reading, Token.ofCharacters_nil, List.map_nil,
    Prod.mk.injEq] at read
  have parsed : parseExpr (Token.lex text session.names).1 = .ok value := by
    apply parseExpr_lex_eq_ok_of_derives
    rw [Token.kinds, read.1]
    exact derived
  have sameNames : (Token.lex text session.names).2 = session.names := by
    rw [Token.lex_eq, read.2]
  unfold readExpr
  dsimp only
  rw [parsed, sameNames]

/-! ## Texts of numbers -/

/-- The text of a negative number is a minus sign and the text of its negation. -/
theorem Value.text_number_of_neg
    {number : Int32}
    (fits : number ≠ .minValue)
    (negative : number < 0) :
    (Value.number number).text = "-" ++ (Value.number (-number)).text := by
  have sign : number.toInt < 0 :=
    Int32.lt_iff_toInt_lt.mp negative
  rw [text, text, toInt_neg_of_ne fits, Text.Decimal.ofInt, if_pos sign, Text.Decimal.ofInt,
    if_neg (by omega), Int.natAbs_neg]

/-- The text of every number but the least one is that of an expression for the number. -/
theorem exists_written_number
    (names : NameTable)
    {number : Int32}
    (fits : number ≠ .minValue) :
    ∃ expr,
      Written names (.expression expr) (Value.number number).text ∧
        ∀ env : Environment, env.Denotes expr number.toInt := by
  have writtenNatural {value : Int32} (natural : 0 ≤ value) :
      Written names (.primary (.number value)) (Value.number value).text :=
    ⟨_, .number names natural, .number⟩
  rcases Int32.le_or_lt 0 number with natural | negative
  · obtain ⟨kinds, spelled, derived⟩ := writtenNatural natural
    exact ⟨_, ⟨kinds, spelled, .expression_of_primary derived⟩, fun _ => .number⟩
  · have natural : 0 ≤ -number := by
      have sign := Int32.lt_iff_toInt_lt.mp negative
      rw [Int32.toInt_zero] at sign
      rw [Int32.le_iff_toInt_le, toInt_neg_of_ne fits, Int32.toInt_zero]
      omega
    have exact : number.toInt = -(-number).toInt := by
      rw [toInt_neg_of_ne fits, neg_neg]
    rw [Value.text_number_of_neg fits negative, exact]
    exact ⟨_, .negation (writtenNatural natural), fun _ => .neg .number⟩

/-! ## Lines with numbers -/

theorem Line.isBlank_of_isTerminator
    (c : Char)
    (ends : isTerminator c = true) :
    Text.isBlank c = true := by
  simp only [isTerminator, Bool.or_eq_true, beq_iff_eq] at ends
  rcases ends with rfl | rfl <;> rfl

namespace Machine

/-- Blanks in a line around the text of a number do not matter. -/
theorem numberIn_of_blanks_around
    (number : Int32)
    {lead trail : String}
    (leadBlank : ∀ c ∈ lead.toList, Text.isBlank c = true)
    (trailBlank : ∀ c ∈ trail.toList, Text.isBlank c = true) :
    numberIn (some (Line.text (lead ++ (Value.number number).text ++ trail)).strip) =
      .number number := by
  have visible : ∀ c ∈ (Value.number number).text.toList, Text.isBlank c = false :=
    fun _ member => Text.Decimal.isBlank_of_mem_ofInt member
  have trimmed :
      Text.trimBlanks (lead ++ (Value.number number).text ++ trail).toList =
        (Value.number number).text.toList := by
    rw [String.toList_append, String.toList_append]
    exact Text.trimBlanks_eq_of_blanks_around leadBlank visible trailBlank
  rw [← Text.trimBlanks_dropEndWhile Line.isBlank_of_isTerminator] at trimmed
  rw [Line.strip, numberIn, Text.Decimal.int32?_of_trimBlanks_eq number]
  rw [String.toList_ofList, trimmed, Value.text]

/-- While the flag is down, a waiting line is taken. -/
theorem eval_read_of_waiting
    (context : Context)
    {machine : Machine}
    (running : machine.failed = false)
    {line : Line}
    {rest : List Line}
    (waiting : machine.console.input = .waiting (line :: rest)) :
    ∃ console,
      console.input = .waiting rest ∧
        ∀ fuel,
          machine.eval context (fuel + 1) .read =
            some (numberIn (some line.strip), { machine with console := console }) := by
  have taken :
      (machine.console.print context.config.readPrompt).readLine =
        (some line.strip,
          ⟨.waiting rest,
            .read (some line.strip) :: .print context.config.readPrompt ::
              machine.console.log⟩) := by
    rw [Console.readLine, Console.print, waiting, Input.next]
  refine ⟨(machine.console.print context.config.readPrompt).readLine.2, ?_, fun fuel => ?_⟩
  · rw [taken]
  · rw [eval, readNumber, running, taken]
    rfl

/-- A statement that writes puts the text of its value on a line of the output. -/
theorem exec_write_of_eval
    {context : Context}
    {fuel : Nat}
    {expr : Expr}
    {value : Value}
    {before after : Machine}
    (running : before.failed = false)
    (evaluated : before.eval context fuel expr = some (value, after))
    (stillRunning : after.failed = false) :
    ∃ last,
      before.exec context (fuel + 1) (.write expr) = some last ∧
        last.console.output = after.console.output ++ (value.text ++ "\n") := by
  refine ⟨after.write value.text, ?_, ?_⟩
  · simp [exec, running, evaluated]
  · simp [write, stillRunning, Console.printLine]

end Machine

/-! ## Numbers in a session -/

namespace Session

variable {session : Session}

/-- An expression that stands for the exact value of a number has the number as its value. -/
theorem evalExpr_of_denotes
    (running : session.machine.failed = false)
    {expr : Expr}
    {number : Int32}
    (denotes : session.machine.env.Denotes expr number.toInt) :
    ∃ least, ∀ fuel, least ≤ fuel →
      session.evalExpr fuel expr = some (.number number, session) := by
  have run : Run session.context (.eval expr) session.machine _ session.machine :=
    .eval_of_denotes running denotes
  rw [Int32.ofInt_toInt] at run
  obtain ⟨least, ends⟩ := run.exists_least_fuel
  refine ⟨least, fun fuel enough => ?_⟩
  have ended :
      session.machine.eval session.context fuel expr = some (.number number, session.machine) :=
    ends fuel enough
  rw [evalExpr, ended]
  rfl

/-- Behind the minus sign of the least number stands no numeral of a number. -/
theorem readExpr_minValue :
    (session.readExpr (Value.number .minValue).text).1 =
      .error ⟨.phrase "expression", ⟨.invalid, ⟨1, 11⟩⟩⟩ := by
  have pieces :
      Piece.all (Value.number .minValue).text.toList =
        [⟨.symbol .minus, ['-']⟩,
          ⟨.number, ['2', '1', '4', '7', '4', '8', '3', '6', '4', '8']⟩] := by
    cbv
  rw [readExpr, Token.lex, pieces]
  rfl

/--
The line that is written for a number is read as this number, with any blanks around its
text. As a source, the text of every number but the least one is an expression with the
number as its value, and neither parsing nor evaluating it changes the session.
-/
theorem written_numbers_read_back (number : Int32) :
    let text := (Value.number number).text
    (∀ (context : Context) (fuel : Nat) (expr : Expr) (before after : Machine),
      before.failed = false →
        before.eval context fuel expr = some (.number number, after) →
          after.failed = false →
            ∃ last,
              before.exec context (fuel + 1) (.write expr) = some last ∧
                last.console.output = after.console.output ++ (text ++ "\n")) ∧
    (∀ (context : Context) (machine : Machine) (lead trail : String) (rest : List Line),
      machine.failed = false →
        (∀ c ∈ lead.toList, Text.isBlank c = true) →
          (∀ c ∈ trail.toList, Text.isBlank c = true) →
            machine.console.input = .waiting (.text (lead ++ text ++ trail) :: rest) →
              ∃ console,
                console.input = .waiting rest ∧
                  ∀ fuel,
                    machine.eval context (fuel + 1) .read =
                      some (.number number, { machine with console := console })) ∧
    (number ≠ .minValue →
      ∀ session : Session,
        session.machine.failed = false →
          ∃ expr,
            session.readExpr text = (.ok expr, session) ∧
              ∃ least, ∀ fuel, least ≤ fuel →
                session.evalExpr fuel expr = some (.number number, session)) ∧
    (number = .minValue →
      ∀ session : Session,
        (session.readExpr text).1 =
          .error ⟨.phrase "expression", ⟨.invalid, ⟨1, 11⟩⟩⟩) := by
  refine ⟨?_, ?_, ?_, ?_⟩
  · intro context fuel expr before after running evaluated stillRunning
    exact Machine.exec_write_of_eval running evaluated stillRunning
  · intro context machine lead trail rest running leadBlank trailBlank waiting
    rw [← Machine.numberIn_of_blanks_around number leadBlank trailBlank]
    exact Machine.eval_read_of_waiting context running waiting
  · intro fits session running
    obtain ⟨expr, written, denotes⟩ := exists_written_number session.names fits
    exact ⟨expr, readExpr_of_written written, evalExpr_of_denotes running (denotes _)⟩
  · rintro rfl session
    exact readExpr_minValue

/-- A negative number, written, read between blanks of several kinds, and parsed. -/
theorem written_numbers_read_back_negative :
    let number : Int32 := -7
    let line : Line := .text "\u00a0-7\t\r\n"
    let session : Session := .initial {} (.ofInput (.waiting [line]))
    let machine : Machine := session.machine
    number ≠ .minValue ∧
      machine.failed = false ∧
        (∃ last,
          machine.exec session.context 2 (.write (.number number)) = some last ∧
            last.console.output = "-7\n") ∧
          (∃ console,
            console.input = .waiting [] ∧
              machine.eval session.context 1 .read =
                some (.number number, { machine with console := console })) ∧
            (∃ expr,
              session.readExpr "-7" = (.ok expr, session) ∧
                ∃ least, ∀ fuel, least ≤ fuel →
                  session.evalExpr fuel expr = some (.number number, session)) ∧
              (session.readExpr "-2147483648").1 =
                .error ⟨.phrase "expression", ⟨.invalid, ⟨1, 11⟩⟩⟩ := by
  intro number line session machine
  have fits : number ≠ .minValue := by
    decide
  have text : (Value.number number).text = "-7" := by
    cbv
  have leastText : (Value.number .minValue).text = "-2147483648" := by
    cbv
  obtain ⟨written, read, parsed, -⟩ := written_numbers_read_back number
  obtain ⟨-, -, -, refused⟩ := written_numbers_read_back .minValue
  rw [text] at written read parsed
  rw [leastText] at refused
  refine ⟨fits, rfl, ?_, ?_, parsed fits session rfl, refused rfl session⟩
  · exact written session.context 1 (.number number) machine machine rfl rfl rfl
  · have leadBlank : ∀ c ∈ "\u00a0".toList, Text.isBlank c = true :=
      List.all_eq_true.mp rfl
    have trailBlank : ∀ c ∈ "\t\r\n".toList, Text.isBlank c = true :=
      List.all_eq_true.mp rfl
    obtain ⟨console, left, taken⟩ :=
      read session.context machine "\u00a0" "\t\r\n" [] rfl leadBlank trailBlank rfl
    exact ⟨console, left, taken 0⟩

end Session

end ScopeLang
