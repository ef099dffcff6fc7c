import Mathlib
import ScopeLang.Console.Sink
import ScopeLang.Proofs.Machine.UnreadInput
import ScopeLang.Proofs.Repl.Loop
import ScopeLang.Proofs.Session.Calls
import ScopeLang.Proofs.Text.Trimming

namespace ScopeLang

/-!
# What follows `quit`

The loop, the continuation of a fragment and every expression that reads take lines from
one input. A loop that ends with the word `quit` has taken the line with this word last,
and before it took this line it always found one. So it cannot tell which lines follow,
nor whether any do.
-/

namespace Console

/-- Nothing is left where the end of the input was read. -/
theorem unread_of_readLine_eq_none
    {console next : Console}
    (read : console.readLine = (none, next)) :
    next.unread = 0 := by
  obtain ⟨input, log⟩ := console
  match input with
  | .waiting (line :: rest) =>
      cases read
  | .waiting [] | .closed =>
      cases read
      rfl

/-- A line that was read in front of the exchanged ones is read as before. -/
theorem readLine_exchange_of_some
    {console next : Console}
    {line : Line}
    {count : Nat}
    (read : console.readLine = (some line, next))
    (spare : count ≤ next.unread)
    (others : List Line) :
    (console.exchange count others).readLine = (some line, next.exchange count others) := by
  have more : count < console.unread :=
    Nat.lt_of_le_of_lt spare (pending_readLine_lt read)
  rw [readLine_exchange more, read]

end Console

namespace Session

/-- Where the lines come from that are still to be read. -/
def input (session : Session) : Input :=
  session.machine.console.input

/-- The session with other input. -/
def withInput (session : Session) (input : Input) : Session :=
  session.withConsole { session.machine.console with input := input }

/-- The session with other lines in the place of the last ones. -/
def exchange (session : Session) (count : Nat) (others : List Line) : Session :=
  session.withInput (session.input.exchange count others)

/-- What a source does not read was there before, behind what it has read. -/
theorem leadsTo_of_runSource
    {session after : Session}
    {fuel : Nat}
    {source : String}
    {origin : Option String}
    {succeeded : Bool}
    (ended : session.runSource fuel source origin = some (succeeded, after)) :
    session.input.LeadsTo after.input := by
  rcases exists_runSource_iff.mp ⟨fuel, ended⟩ with ⟨_, _, -, run, -, rfl⟩ | ⟨_, -, -, rfl⟩
  · exact run.steps.leadsTo
  · exact .refl _

/-- A source that leaves more lines than the exchanged ones unread runs as before. -/
theorem exists_runSource_exchange
    {session after : Session}
    {fuel count : Nat}
    {source : String}
    {origin : Option String}
    {succeeded : Bool}
    (ended : session.runSource fuel source origin = some (succeeded, after))
    (spare : count < after.input.pending.length)
    (others : List Line) :
    ∃ otherFuel,
      (session.exchange count others).runSource otherFuel source origin =
        some (succeeded, after.exchange count others) := by
  rcases exists_runSource_iff.mp ⟨fuel, ended⟩ with
      ⟨program, machine, parsed, run, rfl, rfl⟩ | ⟨error, unparsed, rfl, rfl⟩
  · have otherRun := run.exchange spare others
    exact exists_runSource_iff.mpr (.inl ⟨program, _, parsed, otherRun, rfl, rfl⟩)
  · exact exists_runSource_iff.mpr (.inr ⟨error, unparsed, rfl, rfl⟩)

end Session

namespace Repl

/-- Blanks at the ends of a text count for no brace. -/
theorem braceDepth_trim (text : String) :
    braceDepth (Text.trim text).toList = braceDepth text.toList := by
  rw [Text.trim, String.toList_ofList, braceDepth_eq_bmod, netBraces, Text.count_trimBlanks rfl,
    Text.count_trimBlanks rfl, ← netBraces, braceDepth_eq_bmod]

/-- The word that ends the loop has no braces. -/
theorem braceDepth_of_quit
    {fragment : String}
    (quit : Text.trim fragment = "quit") :
    braceDepth fragment.toList ≤ 0 := by
  rw [← braceDepth_trim, quit]
  decide

namespace Gathers

variable {prompt fragment : String} {console last : Console} {found : Option String}

/-- Gathering a fragment reads on from where the input stands. -/
theorem leadsTo
    (gathers : Gathers prompt fragment console found last) :
    console.input.LeadsTo last.input := by
  have passed {fragment : String} {console next : Console} {line : Option Line}
      (read : (ask prompt fragment console).readLine = (line, next)) :
      console.input.LeadsTo next.input := by
    obtain ⟨-, rfl⟩ := Prod.mk.inj read
    exact .next console.input
  induction gathers with
  | complete read | ended read =>
      exact passed read
  | malformed read =>
      have leads := passed read
      exact leads
  | more read _ _ inductionHypothesis =>
      exact (passed read).trans inductionHypothesis

/-- A fragment is made of one line at least. -/
theorem unread_lt
    {whole : String}
    (gathers : Gathers prompt "" console (some whole) last) :
    last.unread < console.unread := by
  generalize isEmpty : "" = fragment, isWhole : some whole = found at gathers
  cases gathers with
  | complete read =>
      have taken := Console.pending_readLine_lt read
      exact taken
  | malformed read =>
      have taken := Console.pending_readLine_lt read
      exact taken
  | more read _ rest =>
      have taken := Console.pending_readLine_lt read
      exact Nat.lt_of_le_of_lt rest.leadsTo.length_le taken
  | ended =>
      subst isEmpty
      cases isWhole

/--
A fragment is gathered in the same way with other lines in the place of the last ones,
unless these were read or were found to be none. A fragment that was cut off has more
opening braces than closing ones.
-/
theorem exchange
    {count : Nat}
    (gathers : Gathers prompt fragment console found last)
    (started : fragment = "" ∨ 0 < braceDepth fragment.toList)
    (spare : count ≤ last.unread)
    (stopped : last.unread = 0 → ∃ whole, found = some whole ∧ braceDepth whole.toList ≤ 0)
    (others : List Line) :
    Gathers prompt fragment (console.exchange count others) found
      (last.exchange count others) := by
  induction gathers with
  | complete read balanced =>
      exact .complete (Console.readLine_exchange_of_some read spare others) balanced
  | more read unbalanced rest inductionHypothesis =>
      have before := Nat.le_trans spare rest.leadsTo.length_le
      exact .more (Console.readLine_exchange_of_some read before others) unbalanced
        (inductionHypothesis (.inr unbalanced) spare stopped)
  | @malformed fragment console next read =>
      have otherRead :
          (ask prompt fragment (console.exchange count others)).readLine =
            (some .malformed, next.exchange count others) :=
        Console.readLine_exchange_of_some read spare others
      exact .malformed otherRead
  | ended read =>
      obtain ⟨whole, isWhole, balanced⟩ := stopped (Console.unread_of_readLine_eq_none read)
      rcases started with rfl | unbalanced
      · cases isWhole
      · unfold begun at isWhole
        split at isWhole
        · cases isWhole
        · cases isWhole
          exact absurd balanced (Int.not_le.mpr unbalanced)

end Gathers

namespace Acts

variable {session after : Session} {fragment : String}

/-- Acting on a fragment reads on from where the input stands. -/
theorem leadsTo
    (acts : Acts session fragment after) :
    session.input.LeadsTo after.input := by
  cases acts with
  | blank | tree =>
      exact .refl _
  | source _ _ _ ended =>
      exact Session.leadsTo_of_runSource ended

/-- Acting on a fragment goes the same way when lines it leaves unread are exchanged. -/
theorem exchange
    {count : Nat}
    (acts : Acts session fragment after)
    (spare : count < after.input.pending.length)
    (others : List Line) :
    Acts (session.exchange count others) fragment (after.exchange count others) := by
  cases acts with
  | blank blank =>
      exact .blank blank
  | tree tree =>
      exact .tree tree
  | source notBlank notQuit notTree ended =>
      obtain ⟨otherFuel, otherEnded⟩ := Session.exists_runSource_exchange ended spare others
      exact .source notBlank notQuit notTree otherEnded

end Acts

/-- Closing the loop reads nothing. -/
theorem input_close
    (config : ReplConfig)
    (session : Session) :
    (close config session).input = session.input := by
  unfold close
  split <;> rfl

theorem close_exchange
    (config : ReplConfig)
    (session : Session)
    (count : Nat)
    (others : List Line) :
    close config (session.exchange count others) =
      (close config session).exchange count others := by
  unfold close
  split <;> rfl

namespace Loops

variable {config : ReplConfig} {session last : Session} {fragments : List String} {ending : Ending}

/-- A whole loop reads on from where the input stands. -/
theorem leadsTo
    (loops : Loops config session fragments ending last) :
    session.input.LeadsTo last.input := by
  induction loops with
  | nothing gathers | quit gathers =>
      rw [input_close]
      exact gathers.leadsTo
  | again gathers acts _ inductionHypothesis =>
      exact gathers.leadsTo.trans (acts.leadsTo.trans inductionHypothesis)

/-- The line with the word that ends the loop is read. -/
theorem unread_lt
    (loops : Loops config session fragments .quit last) :
    last.input.pending.length < session.input.pending.length := by
  generalize isQuit : Ending.quit = ending at loops
  cases loops with
  | nothing =>
      cases isQuit
  | quit gathers =>
      rw [input_close]
      exact gathers.unread_lt
  | again gathers acts rest =>
      exact Nat.lt_of_le_of_lt (acts.leadsTo.trans rest.leadsTo).length_le gathers.unread_lt

/--
A loop that ends with `quit` goes the same way with other lines behind this word, since the
line with the word is still to be read wherever another fragment is.
-/
theorem exchange
    {count : Nat}
    (loops : Loops config session fragments .quit last)
    (spare : count ≤ last.input.pending.length)
    (others : List Line) :
    Loops config (session.exchange count others) fragments .quit (last.exchange count others) := by
  generalize isQuit : Ending.quit = ending at loops
  induction loops with
  | nothing =>
      cases isQuit
  | quit gathers quit =>
      rw [input_close] at spare
      rw [← close_exchange]
      refine .quit (gathers.exchange (.inl rfl) spare ?_ others) quit
      exact fun _ => ⟨_, rfl, braceDepth_of_quit quit⟩
  | again gathers acts rest inductionHypothesis =>
      subst isQuit
      have afterActs := Nat.lt_of_le_of_lt spare rest.unread_lt
      have afterGathers := Nat.lt_of_lt_of_le afterActs acts.leadsTo.length_le
      refine .again (gathers.exchange (.inl rfl) (Nat.le_of_lt afterGathers) ?_ others)
        (acts.exchange afterActs others) (inductionHypothesis spare rfl)
      intro ended
      exact absurd ended (Nat.ne_zero_of_lt afterGathers)

end Loops

/--
A loop that ends with `quit` on an input of some lines has consumed the first ones. On the
same lines with any others behind them it takes the same fragments, ends with `quit`, and
leaves the same session, except that the others are unread.
-/
theorem lines_behind_quit_never_matter
    (config : ReplConfig)
    (session last : Session)
    (fragments : List String)
    (lines : List Line)
    (scripted : session.input = .waiting lines)
    (quits : Loops config session fragments .quit last) :
    ∃ consumed unread,
      lines = consumed ++ unread ∧
        last.input = .waiting unread ∧
          ∀ others,
            let other := session.withInput (.waiting (consumed ++ others))
            let otherLast := last.withInput (.waiting others)
            Loops config other fragments .quit otherLast ∧
              ∃ fuel, run config fuel other = some otherLast := by
  have leads := quits.leadsTo
  rw [scripted] at leads
  generalize left : last.input = rest at leads
  cases leads with
  | @waiting _ unread suffix =>
      obtain ⟨consumed, rfl⟩ := suffix
      refine ⟨consumed, unread, rfl, rfl, ?_⟩
      intro others other otherLast
      have exchanged :=
        quits.exchange (Nat.le_of_eq (by rw [left]; rfl : unread.length = _)) others
      have sameStart : session.exchange unread.length others = other := by
        simp [Session.exchange, scripted, Input.exchange, other]
      have sameEnd : last.exchange unread.length others = otherLast := by
        simp [Session.exchange, left, Input.exchange, otherLast]
      rw [sameStart, sameEnd] at exchanged
      exact ⟨exchanged, exists_run_iff.mpr ⟨fragments, .quit, exchanged⟩⟩

/--
The first fragment goes on to the second line and reads the word `quit` as its input, and
the next line ends the loop. What follows may as well be missing.
-/
theorem lines_behind_quit_never_matter_word_as_input :
    let lines : List Line :=
      [.text "\x7b write read", .text "\x7d", .text "quit", .text "quit"]
    let session : Session := .initial {} (.ofInput (.waiting (lines ++ [.text "write 9"])))
    let fragments := ["\x7b write read\n\x7d\n", "quit\n"]
    ∃ last,
      session.input = .waiting (lines ++ [.text "write 9"]) ∧
        Loops {} session fragments .quit last ∧
          last.input = .waiting [.text "write 9"] ∧
            last.machine.console.output =
                "brain> ... read> Unset value!\nbrain> Good bye!\n" ∧
              ∃ fuel,
                run {} fuel (.initial {} (.ofInput (.waiting lines))) =
                  some (last.withInput (.waiting [])) := by
  intro lines session fragments
  let gathered : Console :=
    ⟨.waiting [.text "quit", .text "quit", .text "write 9"],
      [.read (some (.text "\x7d")), .print "... ", .read (some (.text "\x7b write read")),
        .print "brain> "]⟩
  let written : Console :=
    ⟨.waiting [.text "quit", .text "write 9"],
      .print "Unset value!\n" :: .read (some (.text "quit")) :: .print "read> " ::
        gathered.log⟩
  let quitted : Console :=
    ⟨.waiting [.text "write 9"], .read (some (.text "quit")) :: .print "brain> " :: written.log⟩
  let middle : Session :=
    ⟨.initial, [.block [.write .read]], .ofConsole written, {}⟩
  have firstGathers : Gathers "brain> " "" session.machine.console (some _) gathered :=
    .more rfl (by decide) (.complete rfl (by decide))
  have ran : (session.withConsole gathered).runSource 6 "\x7b write read\n\x7d\n" none =
      some (true, middle) := by
    cbv
  have secondRead : (ask "brain> " "" written).readLine = (some (.text "quit"), quitted) :=
    rfl
  have secondGathers : Gathers "brain> " "" written (some ("" ++ "quit" ++ "\n")) quitted :=
    .complete secondRead (by decide)
  have loops : Loops {} session fragments .quit _ :=
    .again firstGathers (.source (by decide) (by decide) (by decide) ran)
      (.quit secondGathers (by decide))
  obtain ⟨consumed, unread, split, left, alike⟩ :=
    lines_behind_quit_never_matter {} session _ fragments _ rfl loops
  cases left
  obtain rfl := List.append_cancel_right split
  exact ⟨_, rfl, loops, rfl, by decide, (alike []).2⟩

end Repl

end ScopeLang
