import Mathlib
import ScopeLang.Proofs.Machine.Unreported
import ScopeLang.Proofs.Session.Calls
import ScopeLang.Proofs.Token.LineBreak

namespace ScopeLang

/-!
# A program in pieces

Fragments that succeed one after the other succeed as one source, with a line
break between any two of them, and leave the session as the fragments did. The
exception is a fragment that begins with a minus sign, which would continue an
expression at the end of the fragment before it.
-/

/-- What the first token is not, the first of the kinds without the end mark is not either. -/
theorem Token.head?_kinds_ne
    {source : String}
    {names : NameTable}
    {kind : TokenKind}
    (different : (lex source names).1.head?.map Token.kind ≠ some kind) :
    (kinds source names).head? ≠ some kind := by
  intro found
  apply different
  rw [← List.head?_map, kinds_lex, List.head?_append, found]
  rfl

/-- Sequences one after the other are a sequence, unless a minus sign would continue the first. -/
theorem Derives.sequence_append
    {statements more : List Stmt}
    {kinds moreKinds : List TokenKind}
    (derivation : Derives (.sequence statements) kinds)
    (moreDerivation : Derives (.sequence more) moreKinds)
    (noMinus : moreKinds.head? ≠ some (.symbol .minus)) :
    Derives (.sequence (statements ++ more)) (kinds ++ moreKinds) := by
  induction statements generalizing kinds with
  | nil =>
      cases derivation
      exact moreDerivation
  | cons first rest inductionHypothesis =>
      cases derivation with
      | @cons _ _ before after firstDerivation restDerivation apart =>
          rw [List.append_assoc]
          refine .cons firstDerivation (inductionHypothesis restDerivation) ?_
          intro endsInExpr
          cases after with
          | nil =>
              exact noMinus
          | cons =>
              exact apart endsInExpr

namespace Session

/-- A source that a session runs to its end, without an error of any kind. -/
def Passes (session : Session) (source : String) (after : Session) : Prop :=
  ∃ fuel, session.evalSource fuel source = some (.ok true, after)

namespace Passes

variable {session middle last : Session} {source next : String}

/-- A source that passes leaves the flag down. -/
theorem failed_eq
    (passes : session.Passes source last) :
    last.machine.failed = false := by
  obtain ⟨fragment, machine, -, -, down, rfl⟩ := exists_evalSource_eq_ok_iff.mp passes
  simpa using down

/-- Behind a source that passes there is no flag to lower. -/
theorem clearFailure_eq
    (passes : session.Passes source last) :
    last.machine.clearFailure = last.machine := by
  rw [Machine.clearFailure, ← passes.failed_eq]

/-- The empty source passes, and leaves the flag down. -/
theorem empty (session : Session) : session.Passes "" session.lowered := by
  have noTokens : Token.ofCharacters 0 session.names "".toList = ([], session.names) :=
    Token.ofCharacters_nil 0 session.names
  apply exists_evalSource_eq_ok_iff.mpr
  refine ⟨[], session.machine.clearFailure, ?_, .nil, rfl, ?_⟩
  · rw [Token.kinds, noTokens]
    exact .nil
  · rw [Token.tableAfter, Token.lex_eq, noTokens, List.append_nil]
    rfl

/-- Two sources that pass one after the other pass as one source. -/
theorem lineBreak
    (passes : session.Passes source middle)
    (nextPasses : middle.Passes next last)
    (noMinus : (Token.kinds next middle.names).head? ≠ some (.symbol .minus)) :
    session.Passes (source ++ "\n" ++ next) last := by
  have passed := passes.failed_eq
  have lowered := passes.clearFailure_eq
  obtain ⟨fragment, machine, derived, run, -, rfl⟩ := exists_evalSource_eq_ok_iff.mp passes
  obtain ⟨nextFragment, nextMachine, nextDerived, nextRun, nextDown, rfl⟩ :=
    exists_evalSource_eq_ok_iff.mp nextPasses
  obtain ⟨sameKinds, sameNames⟩ := Token.lex_lineBreak source next session.names
  apply exists_evalSource_eq_ok_iff.mpr
  refine ⟨fragment ++ nextFragment, nextMachine, ?_, ?_, nextDown, ?_⟩
  · rw [sameKinds]
    exact derived.sequence_append nextDerived noMinus
  · -- The first fragment made no report, so it may as well run with the later name table.
    rw [sameNames]
    rw [lowered] at nextRun
    exact (run.execAll_with_names passed _).execAll_append nextRun
  · rw [sameNames, List.append_assoc]

end Passes

/-- Calls behind a source that passes, all of them put behind it as further lines. -/
theorem Passes.intercalate
    {session middle last : Session}
    {source : String}
    {calls : List Call}
    (passes : session.Passes source middle)
    (history : middle.Calls calls last)
    (passed : ∀ call ∈ calls, call.answer = .ok true)
    (noMinus : ∀ call ∈ calls,
      (Token.kinds call.source call.before.names).head? ≠ some (.symbol .minus)) :
    session.Passes ("\n".intercalate (source :: calls.map Call.source)) last := by
  induction calls generalizing source middle with
  | nil =>
      obtain rfl : middle = last :=
        history
      exact passes
  | cons call calls inductionHypothesis =>
      obtain ⟨rfl, ⟨fuel, ended⟩, later⟩ := history
      obtain ⟨callPassed, othersPassed⟩ := List.forall_mem_cons.mp passed
      obtain ⟨callNoMinus, othersNoMinus⟩ := List.forall_mem_cons.mp noMinus
      rw [callPassed] at ended
      exact inductionHypothesis (passes.lineBreak ⟨fuel, ended⟩ callNoMinus) later
        othersPassed othersNoMinus

/--
Fragments that succeed one after the other also succeed as one source, and leave
the same session behind. Only without any fragment is there a flag to lower.
-/
theorem evalSource_intercalate
    {session last : Session}
    {calls : List Call}
    (history : session.Calls calls last)
    (passed : ∀ call ∈ calls, call.answer = .ok true)
    (noMinus : ∀ call ∈ calls.tail,
      (Token.lex call.source call.before.names).1.head?.map Token.kind ≠
        some (.symbol .minus)) :
    ∃ fuel,
      session.evalSource fuel ("\n".intercalate (calls.map Call.source)) =
        some (.ok true, last.lowered) := by
  cases calls with
  | nil =>
      obtain rfl : session = last :=
        history
      exact Passes.empty session
  | cons call calls =>
      obtain ⟨rfl, ⟨fuel, ended⟩, later⟩ := history
      obtain ⟨callPassed, othersPassed⟩ := List.forall_mem_cons.mp passed
      rw [callPassed] at ended
      have passes :=
        Passes.intercalate ⟨fuel, ended⟩ later othersPassed fun other member =>
          Token.head?_kinds_ne (noMinus other member)
      rw [lowered, passes.clearFailure_eq]
      exact passes

/--
A number is read by the first fragment and written, less one, by the second, which
has a line break and a comment of its own.
-/
theorem evalSource_intercalate_two_fragments :
    let first := "new x := read"
    let second := "write x // less one\n  - 1"
    let declaration : Stmt := .declare ⟨1⟩ .read
    let output : Stmt := .write (.binary .sub (.ident ⟨1⟩) (.number 1))
    let env : Environment := ⟨[(⟨1⟩, [.number 5])], [⟨1⟩], []⟩
    let log : List Action := [.read (some (.text "5")), .print "read> "]
    let session : Session := .initial {} (.ofInput (.waiting [.text "5"]))
    let names := NameTable.initial.internAll ["x"]
    let middle : Session :=
      ⟨names, [declaration], ⟨env, [], false, 0, ⟨.waiting [], log⟩⟩, {}⟩
    let last : Session :=
      ⟨names, [declaration, output],
        ⟨env, [], false, 0, ⟨.waiting [], .print "4\n" :: log⟩⟩, {}⟩
    let calls : List Call :=
      [⟨first, session, .ok true, middle⟩, ⟨second, middle, .ok true, last⟩]
    session.Calls calls last ∧
      (∀ call ∈ calls.tail,
        (Token.lex call.source call.before.names).1.head?.map Token.kind ≠
          some (.symbol .minus)) ∧
        ∃ fuel,
          session.evalSource fuel "new x := read\nwrite x // less one\n  - 1" =
            some (.ok true, last.lowered) := by
  intro first second declaration output env log session names middle last calls
  have firstEnded : session.evalSource 4 first = some (.ok true, middle) := by
    cbv
  have secondEnded : middle.evalSource 4 second = some (.ok true, last) := by
    cbv
  have history : session.Calls calls last :=
    ⟨rfl, ⟨4, firstEnded⟩, rfl, ⟨4, secondEnded⟩, rfl⟩
  have passed : ∀ call ∈ calls, call.answer = .ok true := by
    simp [calls]
  have noMinus :
      ∀ call ∈ calls.tail,
        (Token.lex call.source call.before.names).1.head?.map Token.kind ≠
          some (.symbol .minus) := by
    have firstKind :
        (Token.lex second middle.names).1.head?.map Token.kind = some (.keyword .write) := by
      cbv
    simp only [calls, List.tail_cons, List.forall_mem_singleton, firstKind]
    decide
  have joined :
      "\n".intercalate (calls.map Call.source) =
        "new x := read\nwrite x // less one\n  - 1" := by
    decide
  have whole := evalSource_intercalate history passed noMinus
  rw [joined] at whole
  exact ⟨history, noMinus, whole⟩

end Session

end ScopeLang
