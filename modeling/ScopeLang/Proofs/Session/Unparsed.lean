import Mathlib
import ScopeLang.Proofs.Grammar.Renaming
import ScopeLang.Proofs.Machine.Renaming
import ScopeLang.Proofs.Session.Calls

namespace ScopeLang

/-!
# Fragments that do not parse

A fragment that does not parse leaves new texts in the name table, so that all
later names are different from what they would have been without it. Nothing
else of it remains: a session without the calls that did not parse is a renaming
of the session with them, and shows the same.
-/

namespace Call

/-- Whether the fragment of a call parsed. -/
def parsed (call : Call) : Bool :=
  call.answer.isOk

/-- A call that left nothing behind but texts that are new to the name table. -/
structure AddsTextsOnly (call : Call) : Prop where
  program : call.after.program = call.before.program
  env : call.after.machine.env = call.before.machine.env
  returns : call.after.machine.returns = call.before.machine.returns
  console : call.after.machine.console = call.before.machine.console
  names : call.before.names.texts <+: call.after.names.texts
  distinct : call.after.names.texts.Nodup

/-- Calls of one fragment that answer, read and write the same, and show the same program. -/
structure Indistinct (call other : Call) : Prop where
  source : other.source = call.source
  answer : other.answer = call.answer
  consoleBefore : other.before.machine.console = call.before.machine.console
  consoleAfter : other.after.machine.console = call.after.machine.console
  tree : other.after.tree = call.after.tree

namespace Ended

variable {call : Call}

/-- A call that ended has the answer and the session of its evaluation. -/
theorem evalSource_eq
    {answer : Except ParseError Bool}
    (ended : call.Ended)
    (answered : call.answer = answer) :
    ∃ fuel, call.before.evalSource fuel call.source = some (answer, call.after) :=
  answered ▸ ended

/-- Whatever its answer is, a call adds the texts of its fragment to the name table. -/
theorem names_eq
    (ended : call.Ended) :
    call.after.names = call.before.names.internAll (Token.identifiers call.source) := by
  rw [← Token.tableAfter_eq]
  cases answered : call.answer with
  | ok succeeded =>
      obtain ⟨_, _, -, -, -, reached⟩ :=
        Session.exists_evalSource_eq_ok_iff.mp (ended.evalSource_eq answered)
      rw [reached]
  | error error =>
      obtain ⟨-, reached⟩ :=
        Session.exists_evalSource_eq_error_iff.mp (ended.evalSource_eq answered)
      rw [reached]

/-- A call whose source did not parse leaves the session but for texts it interned. -/
theorem addsTextsOnly
    (ended : call.Ended)
    (unparsed : call.parsed = false)
    (distinct : call.before.names.texts.Nodup) :
    call.AddsTextsOnly := by
  have names :
      call.before.names.texts <+: call.after.names.texts ∧ call.after.names.texts.Nodup := by
    rw [ended.names_eq]
    exact ⟨NameTable.prefix_internAll _ _, NameTable.nodup_internAll distinct _⟩
  cases answered : call.answer with
  | ok =>
      simp [parsed, answered, Except.isOk, Except.toBool] at unparsed
  | error error =>
      obtain ⟨-, reached⟩ :=
        Session.exists_evalSource_eq_error_iff.mp (ended.evalSource_eq answered)
      refine ⟨?_, ?_, ?_, ?_, names.1, names.2⟩ <;>
        rw [reached] <;>
          rfl

end Ended

end Call

namespace Session

/-- Over a history of calls, texts are only added at the end. -/
theorem Calls.prefix_names
    {session last : Session}
    {calls : List Call}
    (history : session.Calls calls last) :
    session.names.texts <+: last.names.texts := by
  induction calls generalizing session with
  | nil =>
      obtain rfl : session = last :=
        history
      exact List.prefix_rfl
  | cons call calls inductionHypothesis =>
      obtain ⟨rfl, ended, later⟩ := history
      refine List.IsPrefix.trans ?_ (inductionHypothesis later)
      rw [ended.names_eq]
      exact NameTable.prefix_internAll _ _

theorem Calls.addsTextsOnly
    {session last : Session}
    {calls : List Call}
    (history : session.Calls calls last)
    (distinct : session.names.texts.Nodup) :
    ∀ call ∈ calls, call.parsed = false → call.AddsTextsOnly := by
  induction calls generalizing session with
  | nil =>
      simp
  | cons call calls inductionHypothesis =>
      obtain ⟨rfl, ended, later⟩ := history
      refine List.forall_mem_cons.mpr ⟨?_, inductionHypothesis later ?_⟩
      · exact fun unparsed => ended.addsTextsOnly unparsed distinct
      · rw [ended.names_eq]
        exact NameTable.nodup_internAll distinct _

/-- Sessions that differ in their names only, where the second one may know fewer of them. -/
structure Renamed (session other : Session) : Prop where
  config : other.config = session.config
  names : other.names.Within session.names
  program : Stmt.AllRenamed (session.names.Shares other.names) session.program other.program
  machine :
    Machine.Renamed (session.names.Shares other.names) session.machine.clearFailure
      other.machine.clearFailure

namespace Renamed

variable {session other after : Session} {source : String}

/-- Fresh sessions of one configuration and console have nothing to rename. -/
theorem initial (config : EvalConfig) (console : Console) :
    Renamed (.initial config console) (.initial config console) where
  config := rfl
  names := ⟨List.nodup_singleton _, List.nodup_singleton _, List.Subset.refl _⟩
  program := .nil
  machine := .ofConsole console

/-- Renamed sessions draw the same tree. -/
theorem tree_eq
    (renamed : Renamed session other) :
    other.tree = session.tree := by
  unfold tree Stmt.drawProgram
  rw [renamed.program.trees_eq fun _ _ => NameTable.Shares.textOf_eq]

/-- A call that does not parse may be left out. -/
theorem unparsed
    {error : ParseError}
    (renamed : Renamed session other)
    (ended : ∃ fuel, session.evalSource fuel source = some (.error error, after)) :
    Renamed after other := by
  obtain ⟨-, rfl⟩ := exists_evalSource_eq_error_iff.mp ended
  have included :=
    NameTable.Shares.mono (session.names.prefix_internAll (Token.identifiers source))
      (List.prefix_refl other.names.texts)
  rw [Token.tableAfter_eq]
  exact {
    config := renamed.config
    names := renamed.names.internAll_more _
    program := renamed.program.mono included
    machine := renamed.machine.mono included }

/--
A call that parses has the same answer in the other session. Its fragment reads as a
renaming of itself, which runs as a renaming of the run.
-/
theorem parsed
    {succeeded : Bool}
    (renamed : Renamed session other)
    (ended : ∃ fuel, session.evalSource fuel source = some (.ok succeeded, after))
    (room : after.names.size ≤ UInt32.size) :
    ∃ otherAfter,
      (∃ fuel, other.evalSource fuel source = some (.ok succeeded, otherAfter)) ∧
        Renamed after otherAfter := by
  obtain ⟨fragment, machine, derived, run, rfl, rfl⟩ := exists_evalSource_eq_ok_iff.mp ended
  let table := Token.tableAfter source session.names
  let otherTable := Token.tableAfter source other.names
  have within : otherTable.Within table := by
    simp only [table, otherTable, Token.tableAfter_eq]
    exact renamed.names.internAll _
  have longer (names : NameTable) :
      names.texts <+: (Token.tableAfter source names).texts := by
    rw [Token.tableAfter_eq]
    exact names.prefix_internAll _
  have included := NameTable.Shares.mono (longer session.names) (longer other.names)
  have unique : Relator.BiUnique (table.Shares otherTable) :=
    NameTable.Shares.biUnique within.moreDistinct within.distinct
  obtain ⟨otherFragment, fragmentRenamed, otherDerived⟩ :=
    derived.respelled (Token.kinds_renamed renamed.names room)
  obtain ⟨otherMachine, otherRun, machineRenamed⟩ :=
    run.execAll_simulated
      (Machine.Renamed.simulation session.config unique fun _ _ => NameTable.Shares.textOf_eq)
      fragmentRenamed (renamed.machine.mono included)
  let otherAfter : Session :=
    ⟨otherTable, other.program ++ otherFragment, otherMachine, other.config⟩
  refine ⟨otherAfter, exists_evalSource_eq_ok_iff.mpr ?_, ?_⟩
  · refine ⟨otherFragment, otherMachine, otherDerived, ?_, ?_, rfl⟩
    · rw [renamed.config]
      exact otherRun
    · rw [machineRenamed.failed]
  · exact {
      config := renamed.config
      names := within
      program := (renamed.program.mono included).append fragmentRenamed
      machine := machineRenamed.clearFailure }

/-- The calls that parse go the same way without the calls that do not. -/
theorem calls
    {last : Session}
    {calls : List Call}
    (renamed : Renamed session other)
    (history : session.Calls calls last)
    (room : last.names.size ≤ UInt32.size) :
    ∃ kept lastKept,
      other.Calls kept lastKept ∧
        List.Forall₂ Call.Indistinct (calls.filter Call.parsed) kept := by
  induction calls generalizing session other with
  | nil =>
      exact ⟨[], other, rfl, .nil⟩
  | cons call calls inductionHypothesis =>
      obtain ⟨rfl, ended, later⟩ := history
      cases answered : call.answer with
      | error error =>
          have unparsed : call.parsed = false := by
            rw [Call.parsed, answered]
            rfl
          rw [List.filter_cons_of_neg (by simp [unparsed])]
          exact inductionHypothesis (renamed.unparsed (ended.evalSource_eq answered)) later
      | ok succeeded =>
          have parses : call.parsed = true := by
            rw [Call.parsed, answered]
            rfl
          have roomHere : call.after.names.size ≤ UInt32.size :=
            Nat.le_trans later.prefix_names.length_le room
          obtain ⟨otherAfter, otherEnded, renamedAfter⟩ :=
            renamed.parsed (ended.evalSource_eq answered) roomHere
          obtain ⟨kept, lastKept, keptHistory, indistinct⟩ :=
            inductionHypothesis renamedAfter later
          let otherCall : Call :=
            ⟨call.source, other, .ok succeeded, otherAfter⟩
          rw [List.filter_cons_of_pos parses]
          refine ⟨otherCall :: kept, lastKept, ⟨rfl, otherEnded, keptHistory⟩,
            .cons ?_ indistinct⟩
          exact {
            source := rfl
            answer := answered.symm
            consoleBefore := renamed.machine.console
            consoleAfter := renamedAfter.machine.console
            tree := renamedAfter.tree_eq }

end Renamed

/--
In a session, each call that does not parse leaves nothing behind but new texts in
the name table, and the calls that do parse would have gone the same way without
it.
-/
theorem calls_without_unparsed
    {config : EvalConfig}
    {console : Console}
    {calls : List Call}
    {last : Session}
    (history : (Session.initial config console).Calls calls last)
    (room : last.names.size ≤ UInt32.size) :
    (∀ call ∈ calls, call.parsed = false → call.AddsTextsOnly) ∧
      ∃ kept lastKept,
        (Session.initial config console).Calls kept lastKept ∧
          List.Forall₂ Call.Indistinct (calls.filter Call.parsed) kept :=
  ⟨history.addsTextsOnly (List.nodup_singleton _),
    (Renamed.initial config console).calls history room⟩

/--
A fragment that breaks off leaves a text behind, so that the variable of the next
one, which has no binding, is the second name and not the first.
-/
theorem calls_without_unparsed_unbound_variable :
    let session : Session := .initial {} (.ofInput .closed)
    let error : ParseError := ⟨.phrase "expression", ⟨.endOfInput, ⟨4, 4⟩⟩⟩
    let middle : Session := { session with names := .internAll .initial ["y"] }
    let diagnosis := "ERROR: " ++ (EvalError.unboundVariable "z").message
    let last : Session :=
      ⟨.internAll .initial ["y", "z"], [.write (.ident ⟨2⟩)],
        ⟨.initial, [], true, 0, ⟨.closed, [.diagnose diagnosis]⟩⟩, {}⟩
    let calls : List Call :=
      [⟨"y :=", session, .error error, middle⟩, ⟨"write z", middle, .ok false, last⟩]
    session.Calls calls last ∧
      last.names.size ≤ UInt32.size ∧
        (∀ call ∈ calls, call.parsed = false → call.AddsTextsOnly) ∧
          ∃ kept lastKept,
            session.Calls kept lastKept ∧
              List.Forall₂ Call.Indistinct (calls.filter Call.parsed) kept := by
  intro session error middle diagnosis last calls
  have unparsed : session.evalSource 1 "y :=" = some (.error error, middle) := by
    cbv
  have reported : middle.evalSource 4 "write z" = some (.ok false, last) := by
    have read :
        parseProgram (Token.lex "write z" middle.names).1 = .ok [.write (.ident ⟨2⟩)] := by
      cbv
    have names : Token.tableAfter "write z" middle.names = .internAll .initial ["y", "z"] := by
      cbv
    rw [evalSource_eq, read, names]
    rfl
  have history : session.Calls calls last :=
    ⟨rfl, ⟨1, unparsed⟩, rfl, ⟨4, reported⟩, rfl⟩
  have room : last.names.size ≤ UInt32.size := by
    decide
  exact ⟨history, room, calls_without_unparsed history room⟩

end Session

end ScopeLang
