import ScopeLang.Proofs.Machine.Run
import ScopeLang.Repl

namespace ScopeLang

/-!
# The interactive loop, turn by turn

What the loop does, without fuel: it gathers the lines of a fragment, acts on the
fragment, and goes on with what that has left. The derivations are exactly the loops
that end with some fuel.
-/

namespace Repl

/-! ## Braces -/

/-- Opening braces less closing braces, however many there are. -/
def netBraces (text : List Char) : Int :=
  text.count '\x7b' - text.count '\x7d'

/-- The braces of two texts in a row add up. -/
theorem netBraces_append (before after : List Char) :
    netBraces (before ++ after) = netBraces before + netBraces after := by
  simp only [netBraces, List.count_append]
  omega

/-- A character is counted as the brace that it is, if it is one. -/
theorem countBrace_eq (depth : Int32) (c : Char) :
    countBrace depth c = depth + Int32.ofInt (netBraces [c]) := by
  unfold countBrace
  split
  · rfl
  · exact Int32.sub_eq_add_neg depth 1
  · rename_i noOpening noClosing
    have noBrace : netBraces [c] = 0 := by
      rw [netBraces, List.count_cons_of_ne noOpening, List.count_cons_of_ne noClosing]
      rfl
    rw [noBrace]
    exact (Int32.add_zero depth).symm

/-- The braces of a text are counted on from any depth. -/
theorem foldl_countBrace (text : List Char) (depth : Int32) :
    text.foldl countBrace depth = depth + Int32.ofInt (netBraces text) := by
  induction text generalizing depth with
  | nil =>
      exact (Int32.add_zero depth).symm
  | cons c rest inductionHypothesis =>
      rw [List.foldl_cons, inductionHypothesis, countBrace_eq, Int32.add_assoc,
        ← Int32.ofInt_add, ← netBraces_append, List.singleton_append]

/-- The depth of braces is the net count, as 32 bits hold it. -/
theorem braceDepth_eq_bmod (text : List Char) :
    braceDepth text = (netBraces text).bmod Int32.size := by
  rw [braceDepth, foldl_countBrace, Int32.zero_add, Int32.toInt_ofInt]

/-- The depth of braces is the net count where there is room for as many braces. -/
theorem braceDepth_eq_netBraces
    {text : List Char}
    (short : text.length ≤ Int32.maxValue.toInt) :
    braceDepth text = netBraces text := by
  have opening : text.count '\x7b' ≤ text.length := List.count_le_length
  have closing : text.count '\x7d' ≤ text.length := List.count_le_length
  have largest : Int32.maxValue.toInt = 2147483647 := rfl
  rw [braceDepth_eq_bmod]
  exact Int.bmod_eq_of_le (by simp [netBraces]; omega) (by simp [netBraces]; omega)

/-! ## Gathering a fragment -/

/-- The console behind the prompt for the next line of a fragment. -/
def ask (prompt fragment : String) (console : Console) : Console :=
  console.print (if fragment.isEmpty then prompt else continuationPrompt)

/-- How lines are gathered behind what was gathered before, and what comes of it. -/
inductive Gathers (prompt : String) : String → Console → Option String → Console → Prop where
  | complete {fragment console content next} :
      (ask prompt fragment console).readLine = (some (.text content), next) →
      braceDepth (fragment ++ content ++ "\n").toList ≤ 0 →
      Gathers prompt fragment console (some (fragment ++ content ++ "\n")) next
  | more {fragment console content next found last} :
      (ask prompt fragment console).readLine = (some (.text content), next) →
      0 < braceDepth (fragment ++ content ++ "\n").toList →
      Gathers prompt (fragment ++ content ++ "\n") next found last →
      Gathers prompt fragment console found last
  | malformed {fragment console next} :
      (ask prompt fragment console).readLine = (some .malformed, next) →
      Gathers prompt fragment console (begun fragment) (next.diagnose malformedLineMessage)
  | ended {fragment console next} :
      (ask prompt fragment console).readLine = (none, next) →
      Gathers prompt fragment console (begun fragment) next

/-- What the reader of fragments returns is what is gathered. -/
theorem gathers_readFragment
    (prompt fragment : String)
    (console : Console) :
    Gathers prompt fragment console (readFragment prompt fragment console).1
      (readFragment prompt fragment console).2 := by
  fun_induction readFragment prompt fragment console with
  | case1 fragment console asked content next read longer balanced =>
      exact .complete read balanced
  | case2 fragment console asked content next read longer unbalanced inductionHypothesis =>
      exact .more read (Int.not_le.mp unbalanced) inductionHypothesis
  | case3 fragment console asked next read =>
      exact .malformed read
  | case4 fragment console asked next read =>
      exact .ended read

/-- Gathering goes one way only. -/
theorem Gathers.unique
    {prompt fragment : String}
    {console last otherLast : Console}
    {found otherFound : Option String}
    (gathers : Gathers prompt fragment console found last)
    (other : Gathers prompt fragment console otherFound otherLast) :
    found = otherFound ∧ last = otherLast := by
  induction gathers with
  | complete read balanced =>
      cases other with
      | complete otherRead =>
          cases read.symm.trans otherRead
          exact ⟨rfl, rfl⟩
      | more otherRead unbalanced =>
          cases read.symm.trans otherRead
          exact absurd balanced (Int.not_le.mpr unbalanced)
      | malformed otherRead | ended otherRead =>
          cases read.symm.trans otherRead
  | more read unbalanced _ inductionHypothesis =>
      cases other with
      | complete otherRead balanced =>
          cases read.symm.trans otherRead
          exact absurd balanced (Int.not_le.mpr unbalanced)
      | more otherRead _ otherRest =>
          cases read.symm.trans otherRead
          exact inductionHypothesis otherRest
      | malformed otherRead | ended otherRead =>
          cases read.symm.trans otherRead
  | malformed read =>
      cases other with
      | malformed otherRead =>
          cases read.symm.trans otherRead
          exact ⟨rfl, rfl⟩
      | complete otherRead | more otherRead | ended otherRead =>
          cases read.symm.trans otherRead
  | ended read =>
      cases other with
      | ended otherRead =>
          cases read.symm.trans otherRead
          exact ⟨rfl, rfl⟩
      | complete otherRead | more otherRead | malformed otherRead =>
          cases read.symm.trans otherRead

/-- The derivations are what the loop gathers. -/
theorem readFragment_eq_iff
    {prompt fragment : String}
    {console last : Console}
    {found : Option String} :
    readFragment prompt fragment console = (found, last) ↔
      Gathers prompt fragment console found last := by
  have gathered := gathers_readFragment prompt fragment console
  constructor
  · intro read
    rwa [read] at gathered
  · intro gathers
    obtain ⟨sameFound, sameLast⟩ := gathered.unique gathers
    exact Prod.ext sameFound sameLast

/-- What the loop does with a fragment other than the word that ends it. -/
inductive Acts (session : Session) (fragment : String) : Session → Prop where
  | blank :
      Text.trim fragment = "" →
      Acts session fragment session
  | tree :
      Text.trim fragment = "tree" →
      Acts session fragment (session.print session.tree)
  | source {fuel succeeded after} :
      Text.trim fragment ≠ "" →
      Text.trim fragment ≠ "quit" →
      Text.trim fragment ≠ "tree" →
      session.runSource fuel fragment none = some (succeeded, after) →
      Acts session fragment after

/-- Why the loop ends: the word for it was entered, or nothing was. -/
inductive Ending where
  | quit
  | nothing
  deriving DecidableEq

/-- The loops that end, each with its fragments, the reason why it ends, and what it leaves. -/
inductive Loops (config : ReplConfig) : Session → List String → Ending → Session → Prop where
  | nothing {session console} :
      Gathers config.prompt "" session.machine.console none console →
      Loops config session [] .nothing (close config (session.withConsole console))
  | quit {session fragment console} :
      Gathers config.prompt "" session.machine.console (some fragment) console →
      Text.trim fragment = "quit" →
      Loops config session [fragment] .quit (close config (session.withConsole console))
  | again {session fragment console middle fragments ending last} :
      Gathers config.prompt "" session.machine.console (some fragment) console →
      Acts (session.withConsole console) fragment middle →
      Loops config middle fragments ending last →
      Loops config session (fragment :: fragments) ending last

end Repl

/-! ## Fuel -/

/-- More fuel runs a fragment to the same end. -/
theorem Machine.runFragment_mono
    {context : Context}
    {less more : Nat}
    {fragment : List Stmt}
    {machine : Machine}
    {result : Bool × Machine}
    (order : less ≤ more)
    (ended : machine.runFragment context less fragment = some result) :
    machine.runFragment context more fragment = some result := by
  obtain ⟨after, ran, same⟩ := Option.bind_eq_some_iff.mp ended
  exact Option.bind_eq_some_iff.mpr ⟨after, execAll_mono order ran, same⟩

namespace Session

variable {session : Session} {less more : Nat} {source : String}

/-- More fuel evaluates a source to the same answer. -/
theorem evalSource_mono
    {result : Except ParseError Bool × Session}
    (order : less ≤ more)
    (ended : session.evalSource less source = some result) :
    session.evalSource more source = some result := by
  unfold evalSource at ended ⊢
  split at ended
  · exact ended
  · obtain ⟨after, ran, same⟩ := Option.bind_eq_some_iff.mp ended
    exact Option.bind_eq_some_iff.mpr ⟨after, Machine.runFragment_mono order ran, same⟩

/-- More fuel runs a source, with its reports, to the same end. -/
theorem runSource_mono
    {origin : Option String}
    {result : Bool × Session}
    (order : less ≤ more)
    (ended : session.runSource less source origin = some result) :
    session.runSource more source origin = some result := by
  obtain ⟨after, ran, same⟩ := Option.bind_eq_some_iff.mp ended
  exact Option.bind_eq_some_iff.mpr ⟨after, evalSource_mono order ran, same⟩

/-- A source ends in one way at most. -/
theorem runSource_unique
    {otherFuel : Nat}
    {origin : Option String}
    {result otherResult : Bool × Session}
    (ended : session.runSource less source origin = some result)
    (otherEnded : session.runSource otherFuel source origin = some otherResult) :
    result = otherResult := by
  have more := runSource_mono (Nat.le_max_left less otherFuel) ended
  have otherMore := runSource_mono (Nat.le_max_right less otherFuel) otherEnded
  exact Option.some.inj (more.symm.trans otherMore)

end Session

namespace Repl

variable {config : ReplConfig} {session last : Session}

/-- The loop acts on a fragment in one way only. -/
theorem Acts.unique
    {fragment : String}
    {after other : Session}
    (acts : Acts session fragment after)
    (otherActs : Acts session fragment other) :
    after = other := by
  cases acts with
  | blank blank =>
      cases otherActs with
      | blank =>
          rfl
      | tree tree =>
          exact absurd (blank.symm.trans tree) (by decide)
      | source notBlank =>
          exact absurd blank notBlank
  | tree tree =>
      cases otherActs with
      | blank blank =>
          exact absurd (blank.symm.trans tree) (by decide)
      | tree =>
          rfl
      | source _ _ notTree =>
          exact absurd tree notTree
  | source notBlank _ notTree ended =>
      cases otherActs with
      | blank blank =>
          exact absurd blank notBlank
      | tree tree =>
          exact absurd tree notTree
      | source _ _ _ otherEnded =>
          exact (Prod.mk.inj (Session.runSource_unique ended otherEnded)).2

/-- A turn gathers a fragment and acts on it, or it is the last one. -/
theorem turn_cases
    {fuel : Nat}
    {goOn : Bool}
    {after : Session}
    (ended : turn config fuel session = some (goOn, after)) :
    ∃ found console,
      Gathers config.prompt "" session.machine.console found console ∧
        ((goOn = false ∧ found = none ∧ after = session.withConsole console) ∨
          ∃ fragment,
            found = some fragment ∧
              ((goOn = false ∧ Text.trim fragment = "quit" ∧
                  after = session.withConsole console) ∨
                (goOn = true ∧ Acts (session.withConsole console) fragment after))) := by
  unfold turn at ended
  refine ⟨_, _, gathers_readFragment config.prompt "" session.machine.console, ?_⟩
  split at ended
  · rename_i console gathered
    rw [gathered]
    cases ended
    exact .inl ⟨rfl, rfl, rfl⟩
  · rename_i fragment console gathered
    rw [gathered]
    refine .inr ⟨fragment, rfl, ?_⟩
    dsimp only at ended
    split at ended
    · rename_i blank
      cases ended
      exact .inr ⟨rfl, .blank blank⟩
    · rename_i quit
      cases ended
      exact .inl ⟨rfl, quit, rfl⟩
    · rename_i tree
      cases ended
      exact .inr ⟨rfl, .tree tree⟩
    · rename_i notBlank notQuit notTree
      obtain ⟨⟨succeeded, ran⟩, sourceEnded, same⟩ := Option.bind_eq_some_iff.mp ended
      cases same
      exact .inr ⟨rfl, .source notBlank notQuit notTree sourceEnded⟩

/-- With enough fuel a turn acts on the fragment that was gathered. -/
theorem exists_turn_of_acts
    {fragment : String}
    {console : Console}
    {after : Session}
    (gathers : Gathers config.prompt "" session.machine.console (some fragment) console)
    (acts : Acts (session.withConsole console) fragment after) :
    ∃ least, ∀ fuel, least ≤ fuel → turn config fuel session = some (true, after) := by
  have gathered := readFragment_eq_iff.mpr gathers
  cases acts with
  | blank blank =>
      exact ⟨0, fun fuel _ => by simp [turn, gathered, blank]⟩
  | tree tree =>
      exact ⟨0, fun fuel _ => by simp [turn, gathered, tree]⟩
  | @source least _ _ notBlank notQuit notTree ended =>
      refine ⟨least, fun fuel enough => ?_⟩
      have ran := Session.runSource_mono enough ended
      simp [turn, gathered, ran]

/-- The fragments that the loop takes with some fuel, each as it was gathered. -/
def fragments (config : ReplConfig) : Nat → Session → List String
  | 0, _ => []
  | fuel + 1, session =>
      match (readFragment config.prompt "" session.machine.console).1 with
      | none => []
      | some fragment =>
          match turn config fuel session with
          | some (true, next) => fragment :: fragments config fuel next
          | _ => [fragment]

/-- A loop that ends with some fuel has a derivation with the fragments that it takes. -/
theorem Loops.of_run
    {fuel : Nat}
    (ended : run config fuel session = some last) :
    ∃ ending, Loops config session (fragments config fuel session) ending last := by
  induction fuel generalizing session with
  | zero =>
      cases ended
  | succ fuel inductionHypothesis =>
      obtain ⟨⟨goOn, middle⟩, turned, ended⟩ := Option.bind_eq_some_iff.mp ended
      obtain ⟨found, console, gathers, ⟨rfl, rfl, rfl⟩ | ⟨fragment, rfl, acted⟩⟩ :=
        turn_cases turned
      · cases ended
        rw [fragments, readFragment_eq_iff.mpr gathers]
        exact ⟨.nothing, .nothing gathers⟩
      · rw [fragments, readFragment_eq_iff.mpr gathers, turned]
        rcases acted with ⟨rfl, quit, rfl⟩ | ⟨rfl, acts⟩
        · cases ended
          exact ⟨.quit, .quit gathers quit⟩
        · obtain ⟨ending, loops⟩ := inductionHypothesis ended
          exact ⟨ending, .again gathers acts loops⟩

/-- From some amount of fuel on, the loop goes as the derivation says. -/
theorem Loops.exists_least_fuel
    {taken : List String}
    {ending : Ending}
    (loops : Loops config session taken ending last) :
    ∃ least, ∀ fuel, least ≤ fuel →
      run config fuel session = some last ∧ fragments config fuel session = taken := by
  induction loops with
  | nothing gathers =>
      have gathered := readFragment_eq_iff.mpr gathers
      refine ⟨1, fun fuel enough => ?_⟩
      obtain ⟨fuel, rfl⟩ := Nat.exists_eq_succ_of_ne_zero (Nat.ne_of_gt enough)
      simp [run, fragments, turn, gathered]
  | quit gathers quit =>
      have gathered := readFragment_eq_iff.mpr gathers
      refine ⟨1, fun fuel enough => ?_⟩
      obtain ⟨fuel, rfl⟩ := Nat.exists_eq_succ_of_ne_zero (Nat.ne_of_gt enough)
      simp [run, fragments, turn, gathered, quit]
  | again gathers acts _ inductionHypothesis =>
      have gathered := readFragment_eq_iff.mpr gathers
      obtain ⟨turnFuel, turned⟩ := exists_turn_of_acts gathers acts
      obtain ⟨loopFuel, ended⟩ := inductionHypothesis
      refine ⟨max turnFuel loopFuel + 1, fun fuel enough => ?_⟩
      obtain ⟨fuel, rfl⟩ := Nat.exists_eq_succ_of_ne_zero (Nat.ne_zero_of_lt enough)
      have spare := Nat.le_of_succ_le_succ enough
      have turnedHere := turned fuel (Nat.le_trans (Nat.le_max_left _ _) spare)
      have endedHere := ended fuel (Nat.le_trans (Nat.le_max_right _ _) spare)
      simp [run, fragments, gathered, turnedHere, endedHere]

/-- The derivations are exactly the loops that end. -/
theorem exists_run_iff :
    (∃ fuel, run config fuel session = some last) ↔
      ∃ fragments ending, Loops config session fragments ending last := by
  constructor
  · rintro ⟨fuel, ended⟩
    exact ⟨_, Loops.of_run ended⟩
  · rintro ⟨fragments, ending, loops⟩
    obtain ⟨least, ended⟩ := loops.exists_least_fuel
    exact ⟨least, (ended least (Nat.le_refl least)).1⟩

end Repl

end ScopeLang
