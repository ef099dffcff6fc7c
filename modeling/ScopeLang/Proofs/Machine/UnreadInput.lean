import ScopeLang.Proofs.Machine.Unnoticed

namespace ScopeLang

/-!
# Lines that are not read

Input is read line by line, and a run knows nothing of the lines that it has not read.
So other lines may stand in the place of the last ones, as long as more lines than
these are left over: then the run goes the same way and leaves the other lines behind.
More have to be left over because a run that reads to the end of the input notices it.
-/

namespace Input

/-- What reading makes of an input: it stays closed, or the last lines are left. -/
inductive LeadsTo : Input → Input → Prop where
  | closed :
      LeadsTo .closed .closed
  | waiting {lines rest} :
      rest <:+ lines →
      LeadsTo (.waiting lines) (.waiting rest)

namespace LeadsTo

/-- No reading leads from an input to itself. -/
theorem refl (input : Input) : LeadsTo input input := by
  cases input with
  | closed =>
      exact .closed
  | waiting =>
      exact .waiting List.suffix_rfl

/-- Reading on from what was read leads further down the same input. -/
theorem trans
    {first second third : Input}
    (earlier : LeadsTo first second)
    (later : LeadsTo second third) :
    LeadsTo first third := by
  cases earlier with
  | closed =>
      exact later
  | waiting suffix =>
      cases later with
      | waiting laterSuffix =>
          exact .waiting (laterSuffix.trans suffix)

/-- Reading a line leads to the lines behind it. -/
theorem next (input : Input) : LeadsTo input input.next.2 := by
  match input with
  | .waiting (line :: rest) =>
      exact .waiting (List.suffix_cons line rest)
  | .waiting [] =>
      exact .waiting List.suffix_rfl
  | .closed =>
      exact .closed

/-- Reading leaves no more lines than there were. -/
theorem length_le
    {input rest : Input}
    (leads : LeadsTo input rest) :
    rest.pending.length ≤ input.pending.length := by
  cases leads with
  | closed =>
      exact Nat.le_refl 0
  | waiting suffix =>
      exact suffix.length_le

end LeadsTo

/-- The input with other lines in the place of the last ones, which are so many. -/
def exchange (count : Nat) (others : List Line) : Input → Input
  | .closed => .closed
  | .waiting lines => .waiting (lines.take (lines.length - count) ++ others)

/-- A line in front of the exchanged ones is read as before. -/
theorem next_exchange
    {input : Input}
    {count : Nat}
    (spare : count < input.pending.length)
    (others : List Line) :
    (input.exchange count others).next =
      (input.next.1, input.next.2.exchange count others) := by
  match input with
  | .waiting (line :: rest) =>
      have kept : rest.length + 1 - count = (rest.length - count) + 1 :=
        Nat.succ_sub (Nat.le_of_lt_succ spare)
      simp [exchange, Input.next, kept]
  | .waiting [] | .closed =>
      exact absurd spare (Nat.not_lt_zero count)

end Input

namespace Console

/-- The number of lines not read yet. -/
def unread (console : Console) : Nat :=
  console.input.pending.length

/-- The console with other lines in the place of the last ones. -/
def exchange (console : Console) (count : Nat) (others : List Line) : Console :=
  { console with input := console.input.exchange count others }

/-- A line that is read is the same whatever the lines at the end are exchanged for. -/
theorem readLine_exchange
    {console : Console}
    {count : Nat}
    (spare : count < console.unread)
    (others : List Line) :
    (console.exchange count others).readLine =
      (console.readLine.1, console.readLine.2.exchange count others) := by
  unfold readLine exchange
  rw [Input.next_exchange spare]

/-- What is not read in the end was there in the beginning, behind what was read. -/
theorem Performs.leadsTo
    {before after : Console}
    {actions : List Action}
    (performs : Performs before actions after) :
    before.input.LeadsTo after.input := by
  induction performs with
  | nothing =>
      exact .refl _
  | print _ inductionHypothesis | diagnose _ inductionHypothesis =>
      exact inductionHypothesis
  | @read console _ _ _ inductionHypothesis =>
      exact .trans (.next console.input) inductionHypothesis

end Console

namespace Machine

/-- Every step reads on from where the input stands. -/
theorem Steps.leadsTo
    {context : Context}
    {before after : Machine}
    (steps : Steps context before after) :
    before.console.input.LeadsTo after.console.input := by
  cases Speaks.of_steps steps with
  | silent _ _ same =>
      rw [same]
      exact .refl _
  | well _ _ performs | failing _ _ _ performs =>
      exact performs.leadsTo

/-- The machine with other lines in the place of the last ones. -/
def exchange (machine : Machine) (count : Nat) (others : List Line) : Machine :=
  { machine with console := machine.console.exchange count others }

/-- No step but reading looks at the lines of the input. -/
theorem unnoticed_exchange (count : Nat) (others : List Line) :
    Unnoticed (·.exchange count others) where
  env _ := rfl
  failed _ := rfl
  activeCalls _ := rfl
  withEnv _ _ := rfl
  withCalls _ _ := rfl
  report machine error := by
    unfold report exchange
    split <;> rfl
  write machine text := by
    unfold write exchange
    split <;> rfl
  pushReturn _ _ := rfl

/-- A number is read from a line in front of the exchanged ones. -/
theorem readNumber_exchange
    {machine : Machine}
    {count : Nat}
    (spare : count < machine.console.unread)
    (others : List Line)
    (prompt : String) :
    (machine.exchange count others).readNumber prompt =
      ((machine.readNumber prompt).1, (machine.readNumber prompt).2.exchange count others) := by
  have asked : count < (machine.console.print prompt).unread :=
    spare
  have answered :
      ((machine.exchange count others).console.print prompt).readLine =
        ((machine.console.print prompt).readLine.1,
          (machine.console.print prompt).readLine.2.exchange count others) :=
    Console.readLine_exchange asked others
  unfold readNumber
  rw [answered]
  show (if machine.failed then _ else _) = _
  split <;> rfl

end Machine

/-- A run that leaves lines unread reads nowhere with fewer lines left. -/
theorem Run.meets_unread
    {context : Context}
    {task : Task}
    {before after : Machine}
    {value : Value}
    {count : Nat}
    (run : Run context task before value after)
    (spare : count < after.console.unread) :
    Moment.Meets context (count < ·.console.unread) (fun _ => True) ⟨task, before⟩ := by
  refine ⟨fun place reaches => ?_, fun _ _ _ _ _ _ _ _ => trivial⟩
  obtain ⟨_, _, readRun, toEnd⟩ := run.reached reaches
  have steps : Machine.Steps context place after := readRun.steps.trans toEnd
  exact Nat.lt_of_lt_of_le spare steps.leadsTo.length_le

/--
The run lemma: a run that leaves more lines than the exchanged ones unread goes the same
way with the others in their place.
-/
theorem Run.exchange
    {context : Context}
    {task : Task}
    {before after : Machine}
    {value : Value}
    {count : Nat}
    (run : Run context task before value after)
    (spare : count < after.console.unread)
    (others : List Line) :
    Run context task (before.exchange count others) value (after.exchange count others) := by
  have simulation :=
    (Machine.unnoticed_exchange count others).simulation context
      (fun machine unread =>
        Machine.readNumber_exchange unread others context.config.readPrompt)
      (fun machine (_ : True) => rfl)
  exact run.changed simulation (run.meets_unread spare)

end ScopeLang
