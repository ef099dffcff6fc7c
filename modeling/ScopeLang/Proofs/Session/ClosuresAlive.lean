import Mathlib
import ScopeLang.Proofs.Machine.Closures
import ScopeLang.Proofs.Session.Calls

namespace ScopeLang

/-!
# Closures of a session come from its program

A session starts without closures, and every closure that a run makes is one of a
lambda that is written in its fragment. Closures travel far from there, through
bindings, arguments and returns that stay pending over many fragments, but each of
them can be found in the program that the session has accumulated. This program
holds the statements of the sources that parsed, and of no others.
-/

/-- A way of handing a source to a session. -/
inductive Entry where
  /-- The source is run. -/
  | eval (source : String)
  /-- The source is run, and an error in its text is drawn for the user. -/
  | run (source : String) (origin : Option String)

namespace Entry

def source : Entry → String
  | .eval source | .run source _ => source

/-- What was entered in the first session has run to its end, which left the second one. -/
def Leads (entry : Entry) (before after : Session) : Prop :=
  match entry with
  | .eval source => ∃ fuel answer, before.evalSource fuel source = some (answer, after)
  | .run source origin =>
      ∃ fuel succeeded, before.runSource fuel source origin = some (succeeded, after)

end Entry

namespace Session

/-- Entries that lead one after the other from a session to another. -/
def Entries (session : Session) : List Entry → Session → Prop
  | [], last => session = last
  | entry :: rest, last => ∃ middle, entry.Leads session middle ∧ middle.Entries rest last

end Session

/--
The fragments that sources parse to, without those that do not parse. Every source is
read with the names that the sources in front of it have left.
-/
def parsedFragments (names : NameTable) : List String → List (List Stmt)
  | [] => []
  | source :: rest =>
      (parseProgram (Token.lex source names).1).toOption.toList ++
        parsedFragments (Token.lex source names).2 rest

/-- What one entry does to the names, the program and the values of a session. -/
inductive Entry.Effect (source : String) (before after : Session) : Prop where
  | unparsed {error : ParseError} :
      parseProgram (Token.lex source before.names).1 = .error error →
      after.names = Token.tableAfter source before.names →
      after.program = before.program →
      after.machine.env = before.machine.env →
      after.machine.returns = before.machine.returns →
      Entry.Effect source before after
  | parsed {context : Context} {fragment : List Stmt} :
      parseProgram (Token.lex source before.names).1 = .ok fragment →
      after.names = Token.tableAfter source before.names →
      after.program = before.program ++ fragment →
      Run context (.execAll fragment) before.machine.clearFailure .unset after.machine →
      Entry.Effect source before after

namespace Entry

/-- Whatever its answer, evaluating a source has one of the effects. -/
theorem Effect.of_evalSource
    {before after : Session}
    {fuel : Nat}
    {source : String}
    {answer : Except ParseError Bool}
    (ended : before.evalSource fuel source = some (answer, after)) :
    Effect source before after := by
  cases answer with
  | error error =>
      obtain ⟨refused, rfl⟩ := Session.exists_evalSource_eq_error_iff.mp ⟨fuel, ended⟩
      exact .unparsed refused rfl rfl rfl rfl
  | ok succeeded =>
      obtain ⟨fragment, machine, derived, run, -, rfl⟩ :=
        Session.exists_evalSource_eq_ok_iff.mp ⟨fuel, ended⟩
      exact .parsed (parseProgram_lex_eq_ok_iff.mpr derived) rfl rfl run

/-- Every entry has the effect of its source. -/
theorem Leads.effect
    {entry : Entry}
    {before after : Session}
    (leads : entry.Leads before after) :
    Effect entry.source before after := by
  cases entry with
  | eval source =>
      obtain ⟨fuel, answer, ended⟩ := leads
      exact .of_evalSource ended
  | run source origin =>
      obtain ⟨fuel, succeeded, ended⟩ := leads
      rcases Session.exists_runSource_iff.mp ⟨fuel, ended⟩ with
          ⟨program, machine, parsed, run, -, rfl⟩ | ⟨error, refused, -, rfl⟩
      · exact .parsed parsed rfl rfl run
      · exact .unparsed refused rfl rfl rfl rfl

end Entry

/-- The closures written in two fragments in a row are those of both. -/
theorem Stmt.allLambdas_append
    (first second : List Stmt) :
    Stmt.allLambdas (first ++ second) = Stmt.allLambdas first ++ Stmt.allLambdas second := by
  induction first with
  | nil =>
      rfl
  | cons statement rest inductionHypothesis =>
      rw [List.cons_append, Stmt.allLambdas, Stmt.allLambdas, inductionHypothesis,
        List.append_assoc]

namespace Session

/-- All lambdas of the values alive are written in the program. -/
def ClosuresWritten (session : Session) : Prop :=
  session.machine.Holds (Value.Every (· ∈ Stmt.allLambdas session.program))

/-- A fresh session has no closures, so none that is not written. -/
theorem closuresWritten_initial
    (config : EvalConfig)
    (console : Console) :
    (Session.initial config console).ClosuresWritten :=
  .ofConsole console

/-- The step lemma: the closures that an entry leaves are in the program that it leaves. -/
theorem ClosuresWritten.effect
    {source : String}
    {before after : Session}
    (written : before.ClosuresWritten)
    (effect : Entry.Effect source before after) :
    after.ClosuresWritten := by
  unfold ClosuresWritten at written ⊢
  cases effect with
  | unparsed _ _ program env returns =>
      rw [program]
      constructor
      · rw [env]
        exact written.bound
      · rw [returns]
        exact written.pending
  | @parsed _ fragment _ _ program run =>
      rw [program, Stmt.allLambdas_append]
      have kept :
          before.machine.Holds
            (Value.Every
              (· ∈ Stmt.allLambdas before.program ++ Stmt.allLambdas fragment)) :=
        written.mono fun _ every lambda member => List.mem_append_left _ (every lambda member)
      have added :
          (Task.execAll fragment).Every
            (· ∈ Stmt.allLambdas before.program ++ Stmt.allLambdas fragment) :=
        fun _ member => List.mem_append_right _ member
      exact (run.every added ⟨kept.bound, kept.pending⟩).2

/-- Entries in a row keep every closure one that is written in the program. -/
theorem Entries.closuresWritten
    {session last : Session}
    {entries : List Entry}
    (history : session.Entries entries last)
    (written : session.ClosuresWritten) :
    last.ClosuresWritten := by
  induction entries generalizing session with
  | nil =>
      obtain rfl : session = last :=
        history
      exact written
  | cons entry rest inductionHypothesis =>
      obtain ⟨middle, leads, later⟩ := history
      exact inductionHypothesis later (written.effect leads.effect)

/-- A history adds the fragments of its sources to the program, in order. -/
theorem Entries.program_eq
    {session last : Session}
    {entries : List Entry}
    (history : session.Entries entries last) :
    last.program =
      session.program ++ (parsedFragments session.names (entries.map Entry.source)).flatten := by
  induction entries generalizing session with
  | nil =>
      obtain rfl : session = last :=
        history
      simp [parsedFragments]
  | cons entry rest inductionHypothesis =>
      obtain ⟨middle, leads, later⟩ := history
      have names : (Token.lex entry.source session.names).2 = middle.names := by
        cases leads.effect with
        | unparsed _ names | parsed _ names =>
            exact names.symm
      rw [inductionHypothesis later, List.map_cons, parsedFragments, names,
        List.flatten_append]
      cases leads.effect with
      | unparsed refused _ program =>
          simp [refused, program, Except.toOption]
      | parsed parsed _ program =>
          simp [parsed, program, Except.toOption]

/--
After any number of sources that were entered in a fresh session, each closure in the
environment and on the return channel has the parameter and the body of a lambda that
is written in the program, and the program is made of the sources that parsed.
-/
theorem closures_come_from_program
    {config : EvalConfig}
    {console : Console}
    {entries : List Entry}
    {last : Session}
    (history : (Session.initial config console).Entries entries last) :
    (last.machine.Holds fun value =>
        ∀ param body,
          value = .closure param body → ⟨param, body⟩ ∈ Stmt.allLambdas last.program) ∧
      last.program = (parsedFragments .initial (entries.map Entry.source)).flatten := by
  have written := history.closuresWritten (closuresWritten_initial config console)
  refine ⟨written.mono ?_, history.program_eq⟩
  rintro _ every param body rfl
  exact every ⟨param, body⟩ List.mem_cons_self

/-- A function, a source that breaks off, and a call of the function with itself. -/
theorem closures_come_from_program_function :
    let session : Session := .initial {} (.ofInput .closed)
    let function : Lambda := ⟨⟨2⟩, [.eval (.ret (.ident ⟨2⟩))]⟩
    let entries : List Entry :=
      [.eval "new f := lambda n \x7b return n \x7d", .eval "f @", .run "return f @ f" none]
    ∃ last,
      session.Entries entries last ∧
        last.machine.returns = [.closure function.param function.body] ∧
          function ∈ Stmt.allLambdas last.program ∧
            last.program = (parsedFragments .initial (entries.map Entry.source)).flatten := by
  intro session function entries
  let declaration : List Stmt := [.declare ⟨1⟩ (.lambda function.param function.body)]
  let names := NameTable.initial.internAll ["f", "n"]
  let declared : Machine :=
    ⟨⟨[(⟨1⟩, [.closure function.param function.body])], [⟨1⟩], []⟩, [], false, 0,
      .ofInput .closed⟩
  let middle : Session := ⟨names, declaration, declared, {}⟩
  let last : Session :=
    ⟨names, declaration ++ [.eval (.ret (.call (.ident ⟨1⟩) (.ident ⟨1⟩)))],
      { declared with returns := [.closure function.param function.body] }, {}⟩
  have first : session.evalSource 4 "new f := lambda n \x7b return n \x7d" =
      some (.ok true, middle) := by
    cbv
  have second : middle.evalSource 1 "f @" =
      some (.error ⟨.phrase "expression", ⟨.endOfInput, ⟨3, 3⟩⟩⟩, middle) := by
    cbv
  have third : middle.runSource 9 "return f @ f" none = some (true, last) := by
    cbv
  have history : session.Entries entries last :=
    ⟨middle, ⟨4, _, first⟩, middle, ⟨1, _, second⟩, last, ⟨9, _, third⟩, rfl⟩
  obtain ⟨alive, program⟩ := closures_come_from_program history
  exact ⟨last, history, rfl, alive.pending _ List.mem_cons_self _ _ rfl, program⟩

end Session

end ScopeLang
