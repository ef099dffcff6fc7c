import ScopeLang.Console
import ScopeLang.Value.Operator

namespace ScopeLang

/-!
# The machine

The state that evaluation changes, and its elementary steps. A failure does
not unwind: it is reported once, a flag goes up, and as long as the flag is up
no further effect takes place.
-/

/-! ## The return channel -/

/--
Pending values, the latest first. A `return` hands its value to the channel, and every call
takes at most one value from it once its body has run. Nothing ties a value to the call that
handed it in.
-/
abbrev ReturnChannel := List Value

namespace ReturnChannel

/-- Hand in a value. -/
def push (channel : ReturnChannel) (value : Value) : ReturnChannel :=
  value :: channel

/-- Take the latest value, which is unset when none is pending. -/
def pop : ReturnChannel → Value × ReturnChannel
  | [] => (.unset, [])
  | value :: rest => (value, rest)

end ReturnChannel

/-! ## Machines -/

/-- What can be chosen about evaluation. -/
structure EvalConfig where
  /-- Written before a line is read. -/
  readPrompt : String := "read> "
  /-- How many calls may be active at once; without a limit, any number. -/
  maxDepth : Option Nat := none
  deriving Repr, DecidableEq, Inhabited

/-- What evaluation consults and never changes. -/
structure Context where
  names : NameTable
  config : EvalConfig
  deriving Repr, DecidableEq, Inhabited

/-- The state that evaluation changes. -/
structure Machine where
  env : Environment
  returns : ReturnChannel
  failed : Bool
  /-- The number of calls being executed. -/
  activeCalls : Nat
  console : Console

namespace Machine

/-- A machine before anything was evaluated. -/
def ofConsole (console : Console) : Machine where
  env := .initial
  returns := []
  failed := false
  activeCalls := 0
  console := console

/-- Report an error and raise the flag, unless the flag is up already. -/
def report (machine : Machine) (error : EvalError) : Machine :=
  if machine.failed then
    machine
  else
    { machine with
      failed := true
      console := machine.console.diagnose ("ERROR: " ++ error.message) }

/-- Raise the flag without a report; also tells whether the flag was down. -/
def raise (machine : Machine) : Bool × Machine :=
  (!machine.failed, { machine with failed := true })

/-- Lower the flag. -/
def clearFailure (machine : Machine) : Machine :=
  { machine with failed := false }

/-- The value of a computation: unset once the flag is up, and for an error, which is reported. -/
def settle (machine : Machine) (result : Except EvalError Value) : Value × Machine :=
  if machine.failed then
    (.unset, machine)
  else
    match result with
    | .ok value => (value, machine)
    | .error error => (.unset, machine.report error)

/-- The truth value of a condition; anything else is reported. -/
def decideCondition (machine : Machine) (value : Value) : Option Bool × Machine :=
  if machine.failed then
    (none, machine)
  else
    match value with
    | .bool truth => (some truth, machine)
    | other => (none, machine.report (.notBoolean other))

/-- Hand a value to the return channel. -/
def pushReturn (machine : Machine) (value : Value) : Machine :=
  { machine with returns := machine.returns.push value }

/-- Take a value from the return channel. -/
def popReturn (machine : Machine) : Value × Machine :=
  (machine.returns.pop.1, { machine with returns := machine.returns.pop.2 })

/-- Open a scope. -/
def openScope (machine : Machine) : Machine :=
  { machine with env := machine.env.openScope }

/-- Close the innermost scope. -/
def closeScope (machine : Machine) : Machine :=
  { machine with env := machine.env.closeScope }

/-- Declare a name, or report why that is refused. -/
def declare (machine : Machine) (names : NameTable) (name : Name) (value : Value) : Machine :=
  match machine.env.bind name value with
  | .ok env => { machine with env := env }
  | .error error => machine.report (.ofScope names error)

/-- Assign to a name, or report why that is refused. -/
def assign (machine : Machine) (names : NameTable) (name : Name) (value : Value) : Machine :=
  match machine.env.rebind name value with
  | .ok env => { machine with env := env }
  | .error error => machine.report (.ofRebind names error)

/-- Write a line to the output, unless the flag is up. -/
def write (machine : Machine) (text : String) : Machine :=
  if machine.failed then
    machine
  else
    { machine with console := machine.console.printLine text }

/-- The number in a line of input; the end of the input and any other line give none. -/
def numberIn : Option Line → Value
  | some (.text content) =>
      match Text.Decimal.int32? content with
      | some value => .number value
      | none => .unset
  | _ => .unset

/-- Ask for a line of input and read a number from it, unless the flag is up. -/
def readNumber (machine : Machine) (prompt : String) : Value × Machine :=
  if machine.failed then
    (.unset, machine)
  else
    let (line, console) := (machine.console.print prompt).readLine
    (numberIn line, { machine with console := console })

/-- The limit on active calls that one more call would break. -/
def brokenLimit? (machine : Machine) (config : EvalConfig) : Option Nat :=
  match config.maxDepth with
  | some limit => if limit ≤ machine.activeCalls then some limit else none
  | none => none

/-- Begin a call: a scope for the parameter, and one more active call. -/
def enterCall (machine : Machine) (names : NameTable) (param : Name) (arg : Value) : Machine :=
  { machine.openScope with activeCalls := machine.activeCalls + 1 }.declare names param arg

/-- End a call: its value comes from the return channel, then its scope is closed. -/
def leaveCall (machine : Machine) : Value × Machine :=
  let (value, machine) := machine.popReturn
  (value, { machine.closeScope with activeCalls := machine.activeCalls - 1 })

end Machine

end ScopeLang
