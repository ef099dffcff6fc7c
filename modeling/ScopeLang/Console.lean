import ScopeLang.Text

namespace ScopeLang

/-!
# Consoles

Everything that a run reads and writes passes through a console: lines wait in
its input, and a log keeps every action in the order in which it happened.
-/

/-- A line of input. -/
inductive Line where
  | text (content : String)
  /-- A line whose bytes are not text. -/
  | malformed
  deriving Repr, DecidableEq, Inhabited

namespace Line

/-- The characters that end a line. -/
def isTerminator (c : Char) : Bool :=
  c == '\n' || c == '\r'

/-- A line without the terminators at its end. -/
def strip : Line → Line
  | .text content => .text (String.ofList (Text.dropEndWhile isTerminator content.toList))
  | .malformed => .malformed

end Line

/-- Where lines come from. -/
inductive Input where
  /-- Always at its end. -/
  | closed
  /-- Lines that wait to be read. -/
  | waiting (lines : List Line)
  deriving Repr, DecidableEq, Inhabited

namespace Input

/-- The lines not read yet. -/
def pending : Input → List Line
  | .closed => []
  | .waiting lines => lines

/-- The input with a line more at its end; a closed input ignores it. -/
def push (line : Line) : Input → Input
  | .closed => .closed
  | .waiting lines => .waiting (lines ++ [line])

/-- The next line, if there is one, without its terminators, and the input after it. -/
def next : Input → Option Line × Input
  | .waiting (line :: rest) => (some line.strip, .waiting rest)
  | .waiting [] => (none, .waiting [])
  | .closed => (none, .closed)

/-- A line that is read waits no longer. -/
theorem pending_next_lt
    {input rest : Input}
    {line : Line}
    (read : input.next = (some line, rest)) :
    rest.pending.length < input.pending.length := by
  match input with
  | .waiting (first :: others) =>
      simp only [next, Prod.mk.injEq] at read
      simp [pending, ← read.2]
  | .waiting [] => simp [next] at read
  | .closed => simp [next] at read

end Input

/-- One thing that was read or written. -/
inductive Action where
  /-- Text written to the output. -/
  | print (text : String)
  /-- A line written to the diagnostics. -/
  | diagnose (text : String)
  /-- A line taken from the input, or its end. -/
  | read (line : Option Line)
  deriving Repr, DecidableEq, Inhabited

/-- The input of a run and the log of its actions, the latest first. -/
structure Console where
  input : Input
  log : List Action
  deriving Repr, DecidableEq, Inhabited

namespace Console

/-- A console with nothing done yet. -/
def ofInput (input : Input) : Console :=
  ⟨input, []⟩

/-- Write text to the output. -/
def print (console : Console) (text : String) : Console :=
  { console with log := .print text :: console.log }

/-- Write a line to the output. -/
def printLine (console : Console) (text : String) : Console :=
  console.print (text ++ "\n")

/-- Write a line to the diagnostics. -/
def diagnose (console : Console) (text : String) : Console :=
  { console with log := .diagnose text :: console.log }

/-- Read a line. -/
def readLine (console : Console) : Option Line × Console :=
  let (line, rest) := console.input.next
  (line, ⟨rest, .read line :: console.log⟩)

/-- A line that is read waits no longer. -/
theorem pending_readLine_lt
    {console rest : Console}
    {line : Line}
    (read : console.readLine = (some line, rest)) :
    rest.input.pending.length < console.input.pending.length := by
  simp only [readLine, Prod.mk.injEq] at read
  obtain ⟨found, rfl⟩ := read
  exact Input.pending_next_lt (Prod.ext found rfl)

end Console

end ScopeLang
