import ScopeLang.Proofs.Grammar.Recognition
import ScopeLang.Proofs.Machine.Run
import ScopeLang.Proofs.Token.Kinds
import ScopeLang.Session

namespace ScopeLang

/-!
# Calls of a session

What a call does with a fragment, without fuel: the kinds of its tokens decide
whether it parses, and a fragment that parses is run to its end. A history is a
list of calls that were made one after the other.
-/

/-- A source parses to a program exactly when the kinds of its tokens spell the program. -/
theorem parseProgram_lex_eq_ok_iff
    {source : String}
    {names : NameTable}
    {statements : List Stmt} :
    parseProgram (Token.lex source names).1 = .ok statements ↔
      Derives (.sequence statements) (Token.kinds source names) := by
  have inside :
      ∀ token ∈ (Token.ofCharacters 0 names source.toList).1, token.kind ≠ .endOfInput :=
    fun _ => Token.kind_ne_endOfInput_of_mem_inside
  rw [Token.lex_eq]
  unfold parseProgram
  rw [Parser.answer_eq_ok_iff]
  exact Parser.program_eq_done_iff (remaining_le_parseFuel _) (Cursor.reads_tokens _ inside _) rfl

namespace Session

/-- The session with the flag lowered, as every call begins. -/
def lowered (session : Session) : Session :=
  { session with machine := session.machine.clearFailure }

/-- A call hands the machine with its flag lowered to the run of its fragment. -/
theorem evalSource_eq (session : Session) (fuel : Nat) (source : String) :
    session.evalSource fuel source =
      let names := Token.tableAfter source session.names
      match parseProgram (Token.lex source session.names).1 with
      | .error error => some (.error error, { session.lowered with names := names })
      | .ok fragment =>
          (session.machine.runFragment ⟨names, session.config⟩ fuel fragment).map
            fun (succeeded, machine) =>
              (.ok succeeded, ⟨names, session.program ++ fragment, machine, session.config⟩) := by
  unfold evalSource readProgram
  dsimp only
  cases parseProgram (Token.lex source session.names).1 with
  | error error =>
      rfl
  | ok fragment =>
      exact (Option.map_eq_bind ..).symm

/-- A call ends with a truth value exactly when its fragment parses and its run ends. -/
theorem exists_evalSource_eq_ok_iff
    {session after : Session}
    {source : String}
    {succeeded : Bool} :
    (∃ fuel, session.evalSource fuel source = some (.ok succeeded, after)) ↔
      ∃ fragment machine,
        Derives (.sequence fragment) (Token.kinds source session.names) ∧
          Run ⟨Token.tableAfter source session.names, session.config⟩ (.execAll fragment)
              session.machine.clearFailure .unset machine ∧
            succeeded = !machine.failed ∧
              after =
                ⟨Token.tableAfter source session.names, session.program ++ fragment, machine,
                  session.config⟩ := by
  simp only [evalSource_eq, ← parseProgram_lex_eq_ok_iff]
  cases parseProgram (Token.lex source session.names).1 with
  | error error =>
      simp
  | ok fragment =>
      simp only [Option.map_eq_some_iff, Prod.exists, Prod.mk.injEq, Except.ok.injEq]
      constructor
      · rintro ⟨fuel, _, machine, ended, rfl, rfl⟩
        obtain ⟨run, rfl⟩ := Machine.exists_runFragment_iff.mp ⟨fuel, ended⟩
        exact ⟨fragment, machine, rfl, run, rfl, rfl⟩
      · rintro ⟨_, machine, rfl, run, rfl, rfl⟩
        obtain ⟨fuel, ended⟩ := Machine.exists_runFragment_iff.mpr ⟨run, rfl⟩
        exact ⟨fuel, _, machine, ended, rfl, rfl⟩

/-- A call ends with a parse error exactly when its fragment does not parse. -/
theorem exists_evalSource_eq_error_iff
    {session after : Session}
    {source : String}
    {error : ParseError} :
    (∃ fuel, session.evalSource fuel source = some (.error error, after)) ↔
      parseProgram (Token.lex source session.names).1 = .error error ∧
        after = { session.lowered with names := Token.tableAfter source session.names } := by
  simp only [evalSource_eq]
  cases parseProgram (Token.lex source session.names).1 with
  | error found =>
      simp [eq_comm]
  | ok fragment =>
      simp

/--
A source that is run to its end is run like a fragment, and where it does not parse the
error is drawn for the user.
-/
theorem exists_runSource_iff
    {session after : Session}
    {source : String}
    {origin : Option String}
    {succeeded : Bool} :
    (∃ fuel, session.runSource fuel source origin = some (succeeded, after)) ↔
      (∃ program machine,
        parseProgram (Token.lex source session.names).1 = .ok program ∧
          Run ⟨Token.tableAfter source session.names, session.config⟩ (.execAll program)
              session.machine.clearFailure .unset machine ∧
            succeeded = !machine.failed ∧
              after =
                ⟨Token.tableAfter source session.names, session.program ++ program, machine,
                  session.config⟩) ∨
        ∃ error,
          parseProgram (Token.lex source session.names).1 = .error error ∧
            succeeded = false ∧
              let unparsed :=
                { session.lowered with names := Token.tableAfter source session.names }
              after = unparsed.diagnose (unparsed.renderError source origin error) := by
  constructor
  · rintro ⟨fuel, ended⟩
    obtain ⟨⟨result, middle⟩, evaluated, ended⟩ := Option.bind_eq_some_iff.mp ended
    cases result with
    | ok answer =>
        cases ended
        obtain ⟨program, machine, derived, run, failed, same⟩ :=
          exists_evalSource_eq_ok_iff.mp ⟨fuel, evaluated⟩
        exact .inl ⟨program, machine, parseProgram_lex_eq_ok_iff.mpr derived, run, failed, same⟩
    | error error =>
        cases ended
        obtain ⟨unparsed, rfl⟩ := exists_evalSource_eq_error_iff.mp ⟨fuel, evaluated⟩
        exact .inr ⟨error, unparsed, rfl, rfl⟩
  · rintro (⟨program, machine, parsed, run, rfl, rfl⟩ | ⟨error, unparsed, rfl, rfl⟩)
    · obtain ⟨fuel, evaluated⟩ : ∃ fuel, session.evalSource fuel source = some (.ok _, _) :=
        exists_evalSource_eq_ok_iff.mpr
          ⟨program, machine, parseProgram_lex_eq_ok_iff.mp parsed, run, rfl, rfl⟩
      exact ⟨fuel, Option.bind_eq_some_iff.mpr ⟨_, evaluated, rfl⟩⟩
    · obtain ⟨fuel, evaluated⟩ :
          ∃ fuel, session.evalSource fuel source = some (.error error, _) :=
        exists_evalSource_eq_error_iff.mpr ⟨unparsed, rfl⟩
      exact ⟨fuel, Option.bind_eq_some_iff.mpr ⟨_, evaluated, rfl⟩⟩

end Session

/-- One call that ended: the fragment that was entered, and what came of it. -/
structure Call where
  source : String
  before : Session
  answer : Except ParseError Bool
  after : Session

namespace Call

/-- The session ran the fragment to its end, with this answer. -/
def Ended (call : Call) : Prop :=
  ∃ fuel, call.before.evalSource fuel call.source = some (call.answer, call.after)

end Call

namespace Session

/-- Calls that lead one after the other from a session to another. -/
def Calls (session : Session) : List Call → Session → Prop
  | [], last => session = last
  | call :: rest, last =>
      call.before = session ∧ call.Ended ∧ call.after.Calls rest last

end Session

end ScopeLang
