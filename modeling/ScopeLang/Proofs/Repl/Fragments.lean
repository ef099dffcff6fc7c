import Mathlib
import ScopeLang.Proofs.Machine.Reading
import ScopeLang.Proofs.Repl.Quit

namespace ScopeLang

/-!
# Fragments and lines

When no program of a loop reads, every line goes into a fragment. The fragments, one after
the other, are the lines as they were entered: none is lost, none comes twice, and their
order is kept. A fragment goes on as long as its braces are open, the loop goes on up to
the word that ends it, and since every fragment takes a line it comes to an end.
-/

/-! ## Lines of text -/

namespace Line

/-- A text without the line terminators at its end. -/
def chomp (content : String) : String :=
  String.ofList (Text.dropEndWhile isTerminator content.toList)

end Line

namespace Console

/-- From lines of text the first one is read, without terminators. -/
theorem readLine_of_text
    {console next : Console}
    {lines : List String}
    {line : Option Line}
    (read : console.readLine = (line, next))
    (scripted : console.input.pending = lines.map .text) :
    (lines = [] ∧ line = none ∧ next.input.pending = []) ∨
      ∃ first rest,
        lines = first :: rest ∧
          line = some (.text (Line.chomp first)) ∧
            next.input.pending = rest.map .text := by
  obtain ⟨input, log⟩ := console
  cases lines with
  | nil =>
      match input with
      | .waiting [] | .closed =>
          cases read
          exact .inl ⟨rfl, rfl, rfl⟩
      | .waiting (_ :: _) =>
          cases scripted
  | cons first rest =>
      match input with
      | .waiting [] | .closed =>
          cases scripted
      | .waiting (_ :: _) =>
          cases scripted
          cases read
          exact .inr ⟨first, rest, rfl, rfl, rfl⟩

end Console

namespace Repl

/-- Lines as they are entered: each without its terminators, and with one line break. -/
def entered (lines : List String) : String :=
  String.join (lines.map fun line => Line.chomp line ++ "\n")

/-- No lines make the empty text. -/
theorem entered_nil :
    entered [] = "" :=
  rfl

/-- Lines entered in two goes make their texts joined. -/
theorem entered_append (earlier later : List String) :
    entered (earlier ++ later) = entered earlier ++ entered later := by
  simp [entered]

/-- The last line ends the text, with one line break of its own. -/
theorem entered_concat (lines : List String) (line : String) :
    entered (lines ++ [line]) = entered lines ++ Line.chomp line ++ "\n" := by
  simp [entered, String.append_assoc]

/-- Chunks of lines entered one after the other make their texts joined. -/
theorem entered_flatten (chunks : List (List String)) :
    entered chunks.flatten = String.join (chunks.map entered) := by
  induction chunks with
  | nil =>
      rfl
  | cons chunk rest inductionHypothesis =>
      rw [List.flatten_cons, entered_append, inductionHypothesis, List.map_cons, String.join_cons]

/-- A fragment that a line was added to has been begun. -/
theorem begun_concat (fragment content : String) :
    begun (fragment ++ content ++ "\n") = some (fragment ++ content ++ "\n") := by
  simp [begun]

/-- The braces of lines are open until the last one. -/
def OpenBefore (lines : List String) : Prop :=
  ∀ part, part <+: lines → part ≠ [] → part ≠ lines → 0 < braceDepth (entered part).toList

/-- Without lines there is none whose braces could have closed too early. -/
theorem openBefore_nil :
    OpenBefore [] :=
  fun _ begins nonempty _ => (nonempty (List.prefix_nil.mp begins)).elim

/-- A line more may follow where the braces are open. -/
theorem OpenBefore.concat
    {lines : List String}
    (opened : OpenBefore lines)
    (started : lines = [] ∨ 0 < braceDepth (entered lines).toList)
    (line : String) :
    OpenBefore (lines ++ [line]) := by
  intro part begins nonempty proper
  rcases List.prefix_concat_iff.mp begins with whole | earlier
  · exact (proper whole).elim
  · by_cases same : part = lines
    · subst same
      exact started.resolve_left nonempty
    · exact opened part earlier nonempty same

/--
The lines gathered behind others, up to the one that balances the braces, or all that there
are. With every line that is taken, the lines before grow by it, and their braces are still
open.
-/
theorem Gathers.exists_taken
    {prompt fragment : String}
    {console last : Console}
    {found : Option String}
    {before lines : List String}
    (gathers : Gathers prompt fragment console found last)
    (scripted : console.input.pending = lines.map .text)
    (isEntered : fragment = entered before)
    (started : before = [] ∨ 0 < braceDepth fragment.toList)
    (opened : OpenBefore before) :
    ∃ taken rest,
      lines = taken ++ rest ∧
        last.input.pending = rest.map .text ∧
          found = begun (entered (before ++ taken)) ∧
            OpenBefore (before ++ taken) ∧
              (taken ≠ [] ∧ braceDepth (entered (before ++ taken)).toList ≤ 0 ∨ rest = []) := by
  induction gathers generalizing before lines with
  | @complete fragment console content next read balanced =>
      obtain ⟨-, noLine, -⟩ | ⟨first, rest, rfl, found, left⟩ :=
        Console.readLine_of_text read scripted
      · cases noLine
      · cases found
        subst isEntered
        rw [← entered_concat] at balanced
        refine ⟨[first], rest, rfl, left, ?_, opened.concat started first,
          .inl ⟨List.cons_ne_nil _ _, balanced⟩⟩
        rw [entered_concat, begun_concat]
  | @more fragment console content next found last read unbalanced _ inductionHypothesis =>
      obtain ⟨-, noLine, -⟩ | ⟨first, rest, rfl, isFirst, left⟩ :=
        Console.readLine_of_text read scripted
      · cases noLine
      · cases isFirst
        subst isEntered
        obtain ⟨taken, unread, rfl, leftOver, whole, stillOpened, ending⟩ :=
          inductionHypothesis left (entered_concat before first).symm (.inr unbalanced)
            (opened.concat started first)
        rw [List.append_assoc] at whole stillOpened ending
        refine ⟨first :: taken, unread, rfl, leftOver, whole, stillOpened, ?_⟩
        exact ending.imp_left fun balanced => ⟨List.cons_ne_nil _ _, balanced.2⟩
  | malformed read =>
      obtain ⟨-, noLine, -⟩ | ⟨first, rest, -, isText, -⟩ :=
        Console.readLine_of_text read scripted
      · cases noLine
      · cases isText
  | ended read =>
      obtain ⟨rfl, -, left⟩ | ⟨first, rest, -, isText, -⟩ :=
        Console.readLine_of_text read scripted
      · subst isEntered
        refine ⟨[], [], rfl, left, ?_, ?_, .inr rfl⟩
        · rw [List.append_nil]
        · rwa [List.append_nil]
      · cases isText

/-- A fragment is made of the first lines, and where there is none there are no lines. -/
theorem Gathers.taken_cases
    {prompt : String}
    {console last : Console}
    {found : Option String}
    {lines : List String}
    (gathers : Gathers prompt "" console found last)
    (scripted : console.input.pending = lines.map .text) :
    (found = none ∧ lines = [] ∧ last.input.pending = []) ∨
      ∃ chunk rest,
        found = some (entered chunk) ∧
          lines = chunk ++ rest ∧
            last.input.pending = rest.map .text ∧
              chunk ≠ [] ∧
                OpenBefore chunk ∧
                  (braceDepth (entered chunk).toList ≤ 0 ∨ rest = []) := by
  obtain ⟨taken, rest, rfl, left, whole, opened, ending⟩ :=
    gathers.exists_taken scripted entered_nil.symm (.inl rfl) openBefore_nil
  rw [List.nil_append] at whole opened ending
  by_cases nothing : taken = []
  · subst nothing
    obtain rfl := ending.resolve_left fun balanced => balanced.1 rfl
    exact .inl ⟨whole, rfl, left⟩
  · have nonempty : (entered taken).isEmpty = false := by
      obtain ⟨first, others, rfl⟩ := List.exists_cons_of_ne_nil nothing
      simp [entered]
    rw [begun, nonempty] at whole
    exact .inr ⟨taken, rest, whole, rfl, left, nothing, opened, ending.imp_left And.right⟩

/-! ## Dividing lines -/

/--
A division of lines into the chunks of which a loop makes its fragments, and those that it
leaves unread. Every chunk has a line. Its braces are open before its last line and not
behind it, unless it is cut off by the end of the lines. The loop ends at the first chunk
with the word for this, or else with the lines.
-/
structure Divides
    (lines : List String)
    (chunks : List (List String))
    (ending : Ending)
    (unread : List String) : Prop where
  whole : lines = chunks.flatten ++ unread
  nonempty : ∀ chunk ∈ chunks, chunk ≠ []
  opened : ∀ chunk ∈ chunks, OpenBefore chunk
  balanced : ∀ before chunk after,
    chunks = before ++ chunk :: after →
      braceDepth (entered chunk).toList ≤ 0 ∨ (after = [] ∧ ending = .nothing ∧ unread = [])
  quits : ∀ before chunk after,
    chunks = before ++ chunk :: after →
      (Text.trim (entered chunk) = "quit" ↔ after = [] ∧ ending = .quit)
  quitted : ending = .quit → chunks ≠ []
  exhausted : ending = .nothing → unread = []

namespace Divides

variable {chunk rest unread : List String} {chunks : List (List String)} {ending : Ending}

theorem nothing : Divides [] [] .nothing [] where
  whole := rfl
  nonempty := List.forall_mem_nil _
  opened := List.forall_mem_nil _
  balanced before chunk after shape := by simp at shape
  quits before chunk after shape := by simp at shape
  quitted isQuit := nomatch isQuit
  exhausted _ := rfl

/-- The chunk with the word that ends the loop is the last one. -/
theorem quit
    (nonempty : chunk ≠ [])
    (opened : OpenBefore chunk)
    (quits : Text.trim (entered chunk) = "quit")
    (rest : List String) :
    Divides (chunk ++ rest) [chunk] .quit rest := by
  have only {before after : List (List String)} {other : List String}
      (shape : [chunk] = before ++ other :: after) : other = chunk ∧ after = [] := by
    rcases List.append_eq_singleton_iff.mp shape.symm with ⟨-, here⟩ | ⟨-, nowhere⟩
    · exact List.cons.inj here
    · cases nowhere
  refine ⟨?_, List.forall_mem_singleton.mpr nonempty, List.forall_mem_singleton.mpr opened,
    ?_, ?_, fun _ => List.cons_ne_nil _ _, nofun⟩
  · rw [List.flatten_singleton]
  · intro before other after shape
    obtain ⟨rfl, rfl⟩ := only shape
    exact .inl (braceDepth_of_quit quits)
  · intro before other after shape
    obtain ⟨rfl, rfl⟩ := only shape
    exact iff_of_true quits ⟨rfl, rfl⟩

/-- Lines that are none are divided in one way only. -/
theorem of_nil
    (divides : Divides [] chunks ending unread) :
    chunks = [] ∧ ending = .nothing ∧ unread = [] := by
  obtain ⟨noneTaken, noneLeft⟩ := List.append_eq_nil_iff.mp divides.whole.symm
  have noChunk : chunks = [] := by
    refine List.eq_nil_iff_forall_not_mem.mpr fun chunk member => ?_
    exact divides.nonempty chunk member (List.flatten_eq_nil_iff.mp noneTaken chunk member)
  refine ⟨noChunk, ?_, noneLeft⟩
  cases ending with
  | quit =>
      exact (divides.quitted rfl noChunk).elim
  | nothing =>
      rfl

/--
A chunk in front of what is divided, where the loop goes on. A chunk that is cut off has no
lines behind it, and so no chunks either.
-/
theorem cons
    (nonempty : chunk ≠ [])
    (opened : OpenBefore chunk)
    (balanced : braceDepth (entered chunk).toList ≤ 0 ∨ rest = [])
    (goesOn : Text.trim (entered chunk) ≠ "quit")
    (later : Divides rest chunks ending unread) :
    Divides (chunk ++ rest) (chunk :: chunks) ending unread where
  whole := by rw [List.flatten_cons, List.append_assoc, ← later.whole]
  nonempty := List.forall_mem_cons.mpr ⟨nonempty, later.nonempty⟩
  opened := List.forall_mem_cons.mpr ⟨opened, later.opened⟩
  balanced before other after shape := by
    rcases List.cons_eq_append_iff.mp shape with ⟨-, here⟩ | ⟨earlier, -, behind⟩
    · obtain ⟨rfl, rfl⟩ := List.cons.inj here
      exact balanced.imp_right fun noLines => (noLines ▸ later).of_nil
    · exact later.balanced earlier other after behind
  quits before other after shape := by
    rcases List.cons_eq_append_iff.mp shape with ⟨-, here⟩ | ⟨earlier, -, behind⟩
    · obtain ⟨rfl, rfl⟩ := List.cons.inj here
      refine iff_of_false goesOn ?_
      rintro ⟨rfl, isQuit⟩
      exact later.quitted isQuit rfl
    · exact later.quits earlier other after behind
  quitted _ := List.cons_ne_nil _ _
  exhausted := later.exhausted

end Divides

end Repl

/-! ## Programs that end and read nothing -/

namespace Session

/-- The program in a source, if the source is one, ends and reads nothing. -/
def EndsUnread (session : Session) (source : String) : Prop :=
  ∀ program,
    parseProgram (Token.lex source session.names).1 = .ok program →
      let context : Context := ⟨Token.tableAfter source session.names, session.config⟩
      let moment : Moment := ⟨.execAll program, session.machine.clearFailure⟩
      (∃ after, Run context moment.task moment.machine .unset after) ∧
        NeverReads context moment

variable {session : Session} {source : String}

/-- A source that ends without reading is run to its end. -/
theorem exists_runSource
    (unread : session.EndsUnread source)
    (origin : Option String) :
    ∃ fuel succeeded after, session.runSource fuel source origin = some (succeeded, after) := by
  cases parsed : parseProgram (Token.lex source session.names).1 with
  | ok program =>
      obtain ⟨⟨machine, run⟩, -⟩ := unread program parsed
      obtain ⟨fuel, ended⟩ :=
        exists_runSource_iff.mpr (.inl ⟨program, machine, parsed, run, rfl, rfl⟩)
      exact ⟨fuel, _, _, ended⟩
  | error error =>
      obtain ⟨fuel, ended⟩ := exists_runSource_iff.mpr (.inr ⟨error, parsed, rfl, rfl⟩)
      exact ⟨fuel, _, _, ended⟩

/-- A source that ends without reading leaves the input as it was. -/
theorem input_of_runSource
    {after : Session}
    {fuel : Nat}
    {origin : Option String}
    {succeeded : Bool}
    (unread : session.EndsUnread source)
    (ended : session.runSource fuel source origin = some (succeeded, after)) :
    after.input = session.input := by
  rcases exists_runSource_iff.mp ⟨fuel, ended⟩ with
      ⟨program, machine, parsed, run, -, rfl⟩ | ⟨error, -, -, rfl⟩
  · obtain ⟨-, never⟩ := unread program parsed
    exact run.input_eq never
  · rfl

end Session

namespace Repl

/-- Whether a fragment is run, rather than passed over or taken as a word of the loop. -/
def IsSource (fragment : String) : Prop :=
  Text.trim fragment ≠ "" ∧ Text.trim fragment ≠ "quit" ∧ Text.trim fragment ≠ "tree"

section

variable {session after : Session} {fragment : String}

/-- A fragment other than the word to quit is acted on. -/
theorem exists_acts
    (goesOn : Text.trim fragment ≠ "quit")
    (unread : IsSource fragment → session.EndsUnread fragment) :
    ∃ after, Acts session fragment after := by
  by_cases blank : Text.trim fragment = ""
  · exact ⟨_, .blank blank⟩
  · by_cases tree : Text.trim fragment = "tree"
    · exact ⟨_, .tree tree⟩
    · obtain ⟨fuel, succeeded, after, ended⟩ :=
        Session.exists_runSource (unread ⟨blank, goesOn, tree⟩) none
      exact ⟨after, .source blank goesOn tree ended⟩

/-- Acting on a fragment that does not read leaves the input as it was. -/
theorem Acts.input_eq
    (acts : Acts session fragment after)
    (unread : IsSource fragment → session.EndsUnread fragment) :
    after.input = session.input := by
  cases acts with
  | blank | tree =>
      rfl
  | source notBlank notQuit notTree ended =>
      exact Session.input_of_runSource (unread ⟨notBlank, notQuit, notTree⟩) ended

/-- A fragment acted on is not the word to quit. -/
theorem Acts.goesOn
    (acts : Acts session fragment after) :
    Text.trim fragment ≠ "quit" := by
  intro isQuit
  cases acts with
  | blank blank =>
      exact absurd (blank.symm.trans isQuit) (by decide)
  | tree tree =>
      exact absurd (tree.symm.trans isQuit) (by decide)
  | source _ notQuit =>
      exact notQuit isQuit

end

/-- One turn of the loop leads from the first session to the second one. -/
def Turns (config : ReplConfig) (session after : Session) : Prop :=
  ∃ fuel, turn config fuel session = some (true, after)

/-- Every program that the loop comes to ends and reads nothing. -/
def ProgramsEndUnread (config : ReplConfig) (start : Session) : Prop :=
  ∀ session fragment console,
    Relation.ReflTransGen (Turns config) start session →
      readFragment config.prompt "" session.machine.console = (some fragment, console) →
        IsSource fragment →
          (session.withConsole console).EndsUnread fragment

section

variable {config : ReplConfig} {session after : Session}

/-- A turn gathers a fragment and acts on it. -/
theorem turns_iff :
    Turns config session after ↔
      ∃ fragment console,
        Gathers config.prompt "" session.machine.console (some fragment) console ∧
          Acts (session.withConsole console) fragment after := by
  constructor
  · rintro ⟨fuel, turned⟩
    obtain ⟨found, console, gathers, ⟨stopped, -⟩ | ⟨fragment, rfl, ⟨stopped, -⟩ | ⟨-, acts⟩⟩⟩ :=
      turn_cases turned
    · cases stopped
    · cases stopped
    · exact ⟨fragment, console, gathers, acts⟩
  · rintro ⟨fragment, console, gathers, acts⟩
    obtain ⟨least, turned⟩ := exists_turn_of_acts gathers acts
    exact ⟨least, turned least (Nat.le_refl least)⟩

/-- A turn acts on the fragment that is gathered first. -/
theorem Turns.acts
    {fragment : String}
    {console : Console}
    (turns : Turns config session after)
    (gathers : Gathers config.prompt "" session.machine.console (some fragment) console) :
    Acts (session.withConsole console) fragment after := by
  obtain ⟨taken, takenConsole, takes, acts⟩ := turns_iff.mp turns
  obtain ⟨same, rfl⟩ := gathers.unique takes
  cases same
  exact acts

/-- What holds of all programs of a loop holds of those behind a turn. -/
theorem ProgramsEndUnread.turn
    (unread : ProgramsEndUnread config session)
    (turns : Turns config session after) :
    ProgramsEndUnread config after :=
  fun later fragment console arrives => unread later fragment console (arrives.head turns)

/-- The program of the first fragment ends and reads nothing. -/
theorem ProgramsEndUnread.first
    {fragment : String}
    {console : Console}
    (unread : ProgramsEndUnread config session)
    (gathers : Gathers config.prompt "" session.machine.console (some fragment) console) :
    IsSource fragment → (session.withConsole console).EndsUnread fragment :=
  unread session fragment console .refl (readFragment_eq_iff.mpr gathers)

/-- Programs are checked turn by turn. -/
theorem ProgramsEndUnread.of_turn
    {fragment : String}
    {console : Console}
    (gathers : Gathers config.prompt "" session.machine.console (some fragment) console)
    (unread : IsSource fragment → (session.withConsole console).EndsUnread fragment)
    (acts : Acts (session.withConsole console) fragment after)
    (later : ProgramsEndUnread config after) :
    ProgramsEndUnread config session := by
  intro reached other otherConsole arrives read isSource
  rcases arrives.cases_head with rfl | ⟨middle, turned, arrives⟩
  · obtain ⟨same, rfl⟩ := gathers.unique (readFragment_eq_iff.mp read)
    cases same
    exact unread isSource
  · obtain rfl := acts.unique (turned.acts gathers)
    exact later reached other otherConsole arrives read isSource

/-- Behind the word that ends the loop there is no program. -/
theorem ProgramsEndUnread.of_quit
    {fragment : String}
    {console : Console}
    (gathers : Gathers config.prompt "" session.machine.console (some fragment) console)
    (quit : Text.trim fragment = "quit") :
    ProgramsEndUnread config session := by
  intro reached other otherConsole arrives read isSource
  rcases arrives.cases_head with rfl | ⟨middle, turned, -⟩
  · obtain ⟨same, -⟩ := gathers.unique (readFragment_eq_iff.mp read)
    cases same
    exact (isSource.2.1 quit).elim
  · exact ((turned.acts gathers).goesOn quit).elim

/-- Every turn takes a line, so the loop ends. -/
theorem exists_loops
    (unread : ProgramsEndUnread config session) :
    ∃ fragments ending last, Loops config session fragments ending last := by
  generalize waiting : session.machine.console.unread = count
  induction count using Nat.strong_induction_on generalizing session with
  | h count inductionHypothesis =>
      have gathers := gathers_readFragment config.prompt "" session.machine.console
      generalize readFragment config.prompt "" session.machine.console = read at gathers
      obtain ⟨found, console⟩ := read
      cases found with
      | none =>
          exact ⟨[], .nothing, _, .nothing gathers⟩
      | some fragment =>
          by_cases quit : Text.trim fragment = "quit"
          · exact ⟨[fragment], .quit, _, .quit gathers quit⟩
          · have sourceUnread := unread.first gathers
            obtain ⟨middle, acts⟩ := exists_acts quit sourceUnread
            have sameInput : middle.machine.console.input = console.input :=
              acts.input_eq sourceUnread
            have fewer : middle.machine.console.unread < count := by
              rw [← waiting, Console.unread, sameInput]
              exact gathers.unread_lt
            obtain ⟨fragments, ending, last, loops⟩ :=
              inductionHypothesis _ fewer (unread.turn (turns_iff.mpr ⟨_, _, gathers, acts⟩)) rfl
            exact ⟨fragment :: fragments, ending, last, .again gathers acts loops⟩

/-- The loop divides the lines: its fragments are the chunks as they were entered. -/
theorem Loops.divides
    {last : Session}
    {fragments : List String}
    {ending : Ending}
    {lines : List String}
    (loops : Loops config session fragments ending last)
    (unread : ProgramsEndUnread config session)
    (scripted : session.input.pending = lines.map .text) :
    ∃ chunks rest,
      fragments = chunks.map entered ∧
        last.input.pending = rest.map .text ∧ Divides lines chunks ending rest := by
  induction loops generalizing lines with
  | nothing gathers =>
      obtain ⟨-, rfl, left⟩ | ⟨_, _, found, _⟩ := gathers.taken_cases scripted
      · refine ⟨[], [], rfl, ?_, .nothing⟩
        rw [input_close]
        exact left
      · cases found
  | quit gathers quit =>
      obtain ⟨nowhere, -⟩ | ⟨chunk, rest, found, rfl, left, nonempty, opened, -⟩ :=
        gathers.taken_cases scripted
      · cases nowhere
      · cases found
        refine ⟨[chunk], rest, rfl, ?_, .quit nonempty opened quit rest⟩
        rw [input_close]
        exact left
  | @again session fragment console middle _ _ _ gathers acts _ inductionHypothesis =>
      have sourceUnread := unread.first gathers
      obtain ⟨nowhere, -⟩ | ⟨chunk, rest, found, rfl, left, nonempty, opened, balanced⟩ :=
        gathers.taken_cases scripted
      · cases nowhere
      · cases found
        have stillLeft : middle.input.pending = rest.map .text := by
          rw [acts.input_eq sourceUnread]
          exact left
        obtain ⟨chunks, rest, rfl, lastLeft, divides⟩ :=
          inductionHypothesis (unread.turn (turns_iff.mpr ⟨_, _, gathers, acts⟩)) stillLeft
        exact ⟨chunk :: chunks, rest, rfl, lastLeft,
          divides.cons nonempty opened balanced acts.goesOn⟩

/--
Where every program that the loop comes to ends and reads nothing, the loop ends. With any
fuel with which it ends, it divides the lines of its input, and the fragments that it takes
are the chunks, each with its lines as they were entered. So the fragments one after the
other are the lines that were consumed, and the lines behind them are left unread.
-/
theorem fragments_partition_lines
    (config : ReplConfig)
    (session : Session)
    (lines : List String)
    (scripted : session.input.pending = lines.map .text)
    (unread : ProgramsEndUnread config session) :
    (∃ fuel last, run config fuel session = some last) ∧
      ∀ fuel last,
        run config fuel session = some last →
          ∃ chunks ending rest,
            fragments config fuel session = chunks.map entered ∧
              String.join (fragments config fuel session) = entered chunks.flatten ∧
                last.input.pending = rest.map .text ∧ Divides lines chunks ending rest := by
  constructor
  · obtain ⟨taken, ending, last, loops⟩ := exists_loops unread
    obtain ⟨fuel, ended⟩ := exists_run_iff.mpr ⟨taken, ending, loops⟩
    exact ⟨fuel, last, ended⟩
  · intro fuel last ended
    obtain ⟨ending, loops⟩ := Loops.of_run ended
    obtain ⟨chunks, rest, same, left, divides⟩ := loops.divides unread scripted
    have joined : String.join (fragments config fuel session) = entered chunks.flatten := by
      rw [same, entered_flatten]
    exact ⟨chunks, ending, rest, same, joined, left, divides⟩

end

/--
A block on two lines, with a closing brace too many in a comment, and the word that ends
the loop. The line behind it would read.
-/
theorem fragments_partition_lines_closing_brace :
    let lines := ["\x7b write 7", "\x7d # \x7d", "quit\r\n", "write read"]
    let taken := ["\x7b write 7\n\x7d # \x7d\n", "quit\n"]
    let session : Session := .initial {} (.ofInput (.waiting (lines.map .text)))
    session.input.pending = lines.map .text ∧
      ProgramsEndUnread {} session ∧
        ∃ fuel last chunks,
          run {} fuel session = some last ∧
            last.input.pending = [.text "write read"] ∧
              fragments {} fuel session = taken ∧
                chunks.map entered = taken ∧ Divides lines chunks .quit ["write read"] := by
  intro lines taken session
  let gathered : Console :=
    ⟨.waiting [.text "quit\r\n", .text "write read"],
      [.read (some (.text "\x7d # \x7d")), .print "... ", .read (some (.text "\x7b write 7")),
        .print "brain> "]⟩
  let written : Console :=
    { gathered with log := .print "7\n" :: gathered.log }
  let quitted : Console :=
    ⟨.waiting [.text "write read"],
      .read (some (.text "quit")) :: .print "brain> " :: written.log⟩
  let program : List Stmt :=
    [.block [.write (.number 7)]]
  let middle : Session :=
    ⟨.initial, program, .ofConsole written, {}⟩
  have gathers : Gathers "brain> " "" session.machine.console (some _) gathered :=
    .more rfl (by decide) (.complete rfl (by decide))
  have quits : Gathers "brain> " "" written (some ("" ++ "quit" ++ "\n")) quitted :=
    .complete rfl (by decide)
  have parsed :
      parseProgram (Token.lex "\x7b write 7\n\x7d # \x7d\n" .initial).1 = .ok program := by
    cbv
  have ran :
      (session.withConsole gathered).runSource 6 "\x7b write 7\n\x7d # \x7d\n" none =
        some (true, middle) := by
    cbv
  have acts : Acts (session.withConsole gathered) _ middle :=
    .source (by decide) (by decide) (by decide) ran
  have endsUnread :
      (session.withConsole gathered).EndsUnread "\x7b write 7\n\x7d # \x7d\n" := by
    intro other otherParsed
    obtain rfl := Except.ok.inj (parsed.symm.trans otherParsed)
    refine ⟨⟨_, .cons (.execBlock (.block (.cons (.write rfl .number) .nil))) .nil⟩, ?_⟩
    refine .of_readFree ⟨⟨True.intro, True.intro⟩, True.intro⟩ ⟨List.forall_mem_nil _, ?_⟩
    exact Machine.Holds.ofConsole gathered
  have unread : ProgramsEndUnread {} session :=
    .of_turn gathers (fun _ => endsUnread) acts (.of_quit quits (by decide))
  have loops : Loops {} session taken .quit _ :=
    .again gathers acts (.quit quits (by decide))
  obtain ⟨fuel, enough⟩ := loops.exists_least_fuel
  obtain ⟨ended, sameFragments⟩ := enough fuel (Nat.le_refl fuel)
  obtain ⟨-, divided⟩ := fragments_partition_lines {} session lines rfl unread
  obtain ⟨chunks, ending, rest, sameChunks, -, left, divides⟩ := divided fuel _ ended
  obtain rfl : ["write read"] = rest :=
    List.map_injective_iff.mpr (fun _ _ => Line.text.inj) left
  have quit : ending = .quit := by
    cases ending with
    | quit =>
        rfl
    | nothing =>
        cases divides.exhausted rfl
  rw [quit] at divides
  exact ⟨rfl, unread, fuel, _, chunks, ended, rfl, sameFragments,
    sameChunks.symm.trans sameFragments, divides⟩

end Repl

end ScopeLang
