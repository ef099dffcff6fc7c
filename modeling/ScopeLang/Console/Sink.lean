import ScopeLang.Console

namespace ScopeLang

/-!
# What is written

What a run has written to the output and to the diagnostics are two views of the log of
its console. Outside of a console, written text ends up in a sink.
-/

/-! ## Views of the log -/

namespace Action

/-- What an action adds to the output. -/
def output : Action → String
  | .print text => text
  | _ => ""

/-- What an action adds to the diagnostics. -/
def diagnostics : Action → String
  | .diagnose text => text ++ "\n"
  | _ => ""

end Action

namespace Console

/-- All text written to the output. -/
def output (console : Console) : String :=
  String.join (console.log.reverse.map Action.output)

/-- All text written to the diagnostics. -/
def diagnostics (console : Console) : String :=
  String.join (console.log.reverse.map Action.diagnostics)

/-- The console with its log forgotten. -/
def clearLog (console : Console) : Console :=
  { console with log := [] }

/-- Printed text comes at the end of the output. -/
@[simp] theorem output_print (console : Console) (text : String) :
    (console.print text).output = console.output ++ text := by
  simp [output, print, Action.output]

end Console

/-! ## Sinks -/

/-- A destination of written text. -/
inductive Sink where
  | buffer (text : String)
  | stream
  deriving Repr, DecidableEq, Inhabited

namespace Sink

/-- Write text. -/
def print (text : String) : Sink → Sink
  | .buffer captured => .buffer (captured ++ text)
  | .stream => .stream

/-- Write a line. -/
def printLine (text : String) (sink : Sink) : Sink :=
  sink.print (text ++ "\n")

/-- The text captured so far. -/
def captured : Sink → String
  | .buffer text => text
  | .stream => ""

/-- The text captured so far, and the sink without it. -/
def take : Sink → String × Sink
  | .buffer text => (text, .buffer "")
  | .stream => ("", .stream)

end Sink

end ScopeLang
