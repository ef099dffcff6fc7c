import ScopeLang.Session

namespace ScopeLang

/-!
# The interactive loop

Lines are gathered into a fragment until its braces balance, the fragment is
run, and so on until the word `quit` or the end of the input. The word `tree`
draws the program so far. Expressions that read take their lines from the same
input.
-/

/-- What can be chosen about the interactive loop. -/
structure ReplConfig where
  prompt : String := "brain> "
  /-- Whether to say good bye. -/
  farewell : Bool := true
  eval : EvalConfig := {}
  deriving Repr, DecidableEq, Inhabited

namespace Repl

/-- The count of braces behind one more character. It has 32 bits and wraps around. -/
def countBrace (depth : Int32) : Char → Int32
  | '\x7b' => depth + 1
  | '\x7d' => depth - 1
  | _ => depth

/-- Opening braces less closing braces, as far as 32 bits tell. -/
def braceDepth (text : List Char) : Int :=
  (text.foldl countBrace 0).toInt

/-- The prompt for the lines of a fragment after its first. -/
def continuationPrompt : String :=
  "... "

/-- What to tell about a line that is not text. -/
def malformedLineMessage : String :=
  "error reading input: stream did not contain valid UTF-8"

/-- The last words of the loop. -/
def farewellMessage : String :=
  "Good bye!"

/-- A fragment that was begun, if any. -/
def begun (fragment : String) : Option String :=
  if fragment.isEmpty then none else some fragment

/--
Gather lines until the braces of the fragment balance. At the end of the input,
and at a line that is not text, what was gathered is all there is.
-/
def readFragment (prompt fragment : String) (console : Console) : Option String × Console :=
  let asked := console.print (if fragment.isEmpty then prompt else continuationPrompt)
  match _ : asked.readLine with
  | (some (.text content), next) =>
      let longer := fragment ++ content ++ "\n"
      if braceDepth longer.toList ≤ 0 then
        (some longer, next)
      else
        readFragment prompt longer next
  | (some .malformed, next) => (begun fragment, next.diagnose malformedLineMessage)
  | (none, next) => (begun fragment, next)
termination_by console.input.pending.length
decreasing_by
  have shorter := Console.pending_readLine_lt ‹asked.readLine = _›
  exact shorter

/-- Take one fragment and act on it; also tells whether to go on. -/
def turn (config : ReplConfig) (fuel : Nat) (session : Session) : Option (Bool × Session) :=
  match readFragment config.prompt "" session.machine.console with
  | (none, console) => some (false, session.withConsole console)
  | (some fragment, console) =>
      let session := session.withConsole console
      match Text.trim fragment with
      | "" => some (true, session)
      | "quit" => some (false, session)
      | "tree" => some (true, session.print session.tree)
      | _ => do
          let (_, session) ← session.runSource fuel fragment none
          return (true, session)

/-- Say good bye, if that is wanted. -/
def close (config : ReplConfig) (session : Session) : Session :=
  if config.farewell then session.print (farewellMessage ++ "\n") else session

/-- Take fragments until the loop ends. -/
def run (config : ReplConfig) : Nat → Session → Option Session
  | 0, _ => none
  | fuel + 1, session => do
      let (goOn, session) ← turn config fuel session
      if goOn then run config fuel session else return close config session

end Repl

end ScopeLang
