import ScopeLang.Proofs.Machine.Step

namespace ScopeLang

/-!
# One failure, one diagnosis

A fragment that fails is diagnosed once. The evaluator goes on to the end of the
fragment after a failure, but the diagnosis is the last thing that the console
sees of it: nothing is printed behind it, and no line is read.
-/

namespace Action

/-- The line that an action writes to the diagnostics. -/
def diagnosis? : Action → Option String
  | .diagnose text => some text
  | _ => none

/-- The lines that actions write to the diagnostics. -/
def diagnoses (actions : List Action) : List String :=
  actions.filterMap diagnosis?

/-- The error lines of two stretches of actions are those of both, in order. -/
theorem diagnoses_append
    (first second : List Action) :
    diagnoses (first ++ second) = diagnoses first ++ diagnoses second :=
  List.filterMap_append

end Action

namespace Console

/--
The actions that lead from one console to another, in the order in which they
happen. The input moves by reading only.
-/
inductive Performs : Console → List Action → Console → Prop where
  | nothing {console} :
      Performs console [] console
  | print {console after text actions} :
      Performs (console.print text) actions after →
      Performs console (.print text :: actions) after
  | diagnose {console after text actions} :
      Performs (console.diagnose text) actions after →
      Performs console (.diagnose text :: actions) after
  | read {console after actions} :
      Performs console.readLine.2 actions after →
      Performs console (.read console.readLine.1 :: actions) after

/-- Two stretches of actions in a row are one. -/
theorem Performs.trans
    {before middle after : Console}
    {first second : List Action}
    (earlier : Performs before first middle)
    (later : Performs middle second after) :
    Performs before (first ++ second) after := by
  induction earlier with
  | nothing =>
      exact later
  | print _ inductionHypothesis =>
      exact .print (inductionHypothesis later)
  | diagnose _ inductionHypothesis =>
      exact .diagnose (inductionHypothesis later)
  | read _ inductionHypothesis =>
      exact .read (inductionHypothesis later)

end Console

namespace Machine

/--
What the console sees between two moments. With the flag up it sees nothing.
With the flag down it sees no diagnosis, or one that comes last and with which
the flag goes up.
-/
inductive Speaks (before after : Machine) : Prop where
  | silent :
      before.failed = true →
      after.failed = true →
      after.console = before.console →
      Speaks before after
  | well {actions} :
      before.failed = false →
      after.failed = false →
      before.console.Performs actions after.console →
      Action.diagnoses actions = [] →
      Speaks before after
  | failing {actions} (error : EvalError) :
      before.failed = false →
      after.failed = true →
      before.console.Performs
        (actions ++ [.diagnose ("ERROR: " ++ error.message)]) after.console →
      Action.diagnoses actions = [] →
      Speaks before after

namespace Speaks

/-- A step that concerns neither the flag nor the console. -/
theorem of_same
    {before after : Machine}
    (sameFlag : after.failed = before.failed)
    (sameConsole : after.console = before.console) :
    Speaks before after := by
  cases flag : before.failed with
  | true =>
      exact .silent flag (sameFlag.trans flag) sameConsole
  | false =>
      have performs : before.console.Performs [] after.console := by
        rw [sameConsole]
        exact .nothing
      exact .well flag (sameFlag.trans flag) performs rfl

/-- A step with the flag down that leaves it down. -/
theorem of_actions
    {before after : Machine}
    {actions : List Action}
    (running : before.failed = false)
    (sameFlag : after.failed = before.failed)
    (performs : before.console.Performs actions after.console)
    (undiagnosed : Action.diagnoses actions = []) :
    Speaks before after :=
  .well running (sameFlag.trans running) performs undiagnosed

/-- A machine that does nothing says nothing. -/
theorem refl (machine : Machine) : Speaks machine machine :=
  of_same rfl rfl

/-- One error line is all there is over two stretches: after the first the flag is up. -/
theorem trans
    {before middle after : Machine}
    (earlier : Speaks before middle)
    (later : Speaks middle after) :
    Speaks before after := by
  cases earlier with
  | silent up middleUp sameConsole =>
      cases later with
      | silent _ afterUp laterSame =>
          exact .silent up afterUp (laterSame.trans sameConsole)
      | well middleDown | failing _ middleDown =>
          rw [middleUp] at middleDown
          cases middleDown
  | well down middleDown performs undiagnosed =>
      cases later with
      | silent middleUp =>
          rw [middleDown] at middleUp
          cases middleUp
      | well _ afterDown laterPerforms laterUndiagnosed =>
          refine .well down afterDown (performs.trans laterPerforms) ?_
          rw [Action.diagnoses_append, undiagnosed, laterUndiagnosed, List.append_nil]
      | failing error _ afterUp laterPerforms laterUndiagnosed =>
          have whole := performs.trans laterPerforms
          rw [← List.append_assoc] at whole
          refine .failing error down afterUp whole ?_
          rw [Action.diagnoses_append, undiagnosed, laterUndiagnosed, List.append_nil]
  | failing error down middleUp performs undiagnosed =>
      cases later with
      | silent _ afterUp sameConsole =>
          rw [← sameConsole] at performs
          exact .failing error down afterUp performs undiagnosed
      | well middleDown | failing _ middleDown =>
          rw [middleUp] at middleDown
          cases middleDown

/-- A report says one error line, and only when the flag was down. -/
theorem report
    (machine : Machine)
    (error : EvalError) :
    Speaks machine (machine.report error) := by
  unfold Machine.report
  split
  · exact refl machine
  · rename_i running
    have down : machine.failed = false := by
      simpa using running
    have performs :
        machine.console.Performs ([] ++ [.diagnose ("ERROR: " ++ error.message)])
          (machine.console.diagnose ("ERROR: " ++ error.message)) :=
      .diagnose .nothing
    exact .failing error down rfl performs rfl

/-- A prompt is no error line. -/
theorem readNumber
    (machine : Machine)
    (prompt : String) :
    Speaks machine (machine.readNumber prompt).2 := by
  unfold Machine.readNumber
  split
  · exact refl machine
  · rename_i running
    have down : machine.failed = false := by
      simpa using running
    exact of_actions down rfl (.print (.read .nothing)) rfl

/-- A written line is no error line. -/
theorem write
    (machine : Machine)
    (text : String) :
    Speaks machine (machine.write text) := by
  unfold Machine.write
  split
  · exact refl machine
  · rename_i running
    have down : machine.failed = false := by
      simpa using running
    exact of_actions down rfl (.print .nothing) rfl

theorem declare
    (machine : Machine)
    (names : NameTable)
    (name : Name)
    (value : Value) :
    Speaks machine (machine.declare names name value) := by
  unfold Machine.declare
  split
  · exact of_same rfl rfl
  · exact report machine _

theorem assign
    (machine : Machine)
    (names : NameTable)
    (name : Name)
    (value : Value) :
    Speaks machine (machine.assign names name value) := by
  unfold Machine.assign
  split
  · exact of_same rfl rfl
  · exact report machine _

/-- One rule for every elementary step. -/
theorem of_step
    {context : Context}
    {before after : Machine}
    (step : Step context before after) :
    Speaks before after := by
  cases step with
  | report error =>
      exact report before error
  | readNumber =>
      exact readNumber before _
  | pushReturn | openScope | leaveCall =>
      exact of_same rfl rfl
  | closeScope =>
      exact of_same rfl rfl
  | enterCall param arg =>
      let entered : Machine :=
        { before.openScope with activeCalls := before.activeCalls + 1 }
      have opened : Speaks before entered :=
        of_same rfl rfl
      exact opened.trans (declare entered _ param arg)
  | declare name value =>
      exact declare before _ name value
  | assign name value =>
      exact assign before _ name value
  | write text =>
      exact write before text

/-- Every single step speaks at most once, and only in raising the flag. -/
theorem of_steps
    {context : Context}
    {before after : Machine}
    (steps : Steps context before after) :
    Speaks before after := by
  induction steps with
  | refl =>
      exact refl before
  | tail _ step inductionHypothesis =>
      exact inductionHypothesis.trans (of_step step)

end Speaks

/--
Of a fragment that ends, the console sees no diagnosis exactly when the fragment
succeeded, and a single error message exactly when it failed. Behind a diagnosis
it sees nothing more.
-/
theorem runFragment_diagnoses_once
    {context : Context}
    {fuel : Nat}
    {fragment : List Stmt}
    {before after : Machine}
    {succeeded : Bool}
    (ended : runFragment context fuel fragment before = some (succeeded, after)) :
    ∃ actions,
      before.console.Performs actions after.console ∧
        (succeeded = true ↔ Action.diagnoses actions = []) ∧
          (succeeded = false ↔
            ∃ error : EvalError,
              Action.diagnoses actions = ["ERROR: " ++ error.message]) ∧
            ∀ text, .diagnose text ∈ actions →
              actions.getLast? = some (.diagnose text) := by
  obtain ⟨run, rfl⟩ := exists_runFragment_iff.mp ⟨fuel, ended⟩
  cases Speaks.of_steps run.steps with
  | silent up =>
      cases up
  | @well actions _ down performs undiagnosed =>
      refine ⟨actions, performs, by simp [down, undiagnosed], by simp [down, undiagnosed], ?_⟩
      intro text diagnosed
      have written : text ∈ Action.diagnoses actions :=
        List.mem_filterMap.mpr ⟨_, diagnosed, rfl⟩
      rw [undiagnosed] at written
      cases written
  | @failing actions error _ up performs undiagnosed =>
      let diagnosis : Action :=
        .diagnose ("ERROR: " ++ error.message)
      have once :
          Action.diagnoses (actions ++ [diagnosis]) = ["ERROR: " ++ error.message] := by
        rw [Action.diagnoses_append, undiagnosed]
        rfl
      refine ⟨actions ++ [diagnosis], performs, by simp [up, once], ?_, ?_⟩
      · exact iff_of_true (by simp [up]) ⟨error, once⟩
      · intro text diagnosed
        have written : text ∈ Action.diagnoses (actions ++ [diagnosis]) :=
          List.mem_filterMap.mpr ⟨_, diagnosed, rfl⟩
        rw [once, List.mem_singleton] at written
        rw [List.getLast?_concat, written]

/--
A fragment that prints, reads, fails in an operand, and would print and read
again behind the failure.
-/
theorem runFragment_diagnoses_once_division :
    let fragment : List Stmt :=
      [.write (.number 1),
        .write (.binary .add (.binary .div .read (.number 0)) .read),
        .write (.number 2)]
    let before : Machine :=
      .ofConsole (.ofInput (.waiting [.text "7", .text "8"]))
    ∃ after,
      runFragment ⟨.initial, {}⟩ 8 fragment before = some (false, after) ∧
        after.console =
          ⟨.waiting [.text "8"],
            [.diagnose "ERROR: Division by zero!", .read (some (.text "7")),
              .print "read> ", .print "1\n"]⟩ ∧
          ∃ actions,
            before.console.Performs actions after.console ∧
              (false = true ↔ Action.diagnoses actions = []) ∧
                (false = false ↔
                  ∃ error : EvalError,
                    Action.diagnoses actions = ["ERROR: " ++ error.message]) ∧
                  ∀ text, .diagnose text ∈ actions →
                    actions.getLast? = some (.diagnose text) := by
  intro fragment before
  have ended :
      runFragment ⟨.initial, {}⟩ 8 fragment before = some (false, _) :=
    rfl
  exact ⟨_, ended, by decide, runFragment_diagnoses_once ended⟩

end Machine

end ScopeLang
