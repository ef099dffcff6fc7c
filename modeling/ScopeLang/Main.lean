import ScopeLang.CommandLine
import ScopeLang.Console.Bytes

namespace ScopeLang.Main

/-!
# The executable

Commands are functions of their input, and a user types the input while they
run. So a command is run on the lines typed so far, up to the place where it
asks for one more; then that line is read and the command is run again. What
was shown before is not shown twice. The interactive loop does so for each
fragment on its own.
-/

/-- More fuel than a run can use up. -/
def fuel : Nat :=
  1000000000000000000

/-- The bytes of standard input up to the next line feed. -/
partial def readBytes (input : IO.FS.Stream) (read : ByteArray) : IO ByteArray := do
  let next ← input.read 1
  if next.isEmpty then
    return read
  else if next.toList == [lineFeed] then
    return read ++ next
  else
    readBytes input (read ++ next)

/-- The next line of standard input, if there is one. -/
def readLine? : IO (Option Line) := do
  let bytes ← readBytes (← IO.getStdin) .empty
  return if bytes.isEmpty then none else some (.ofBytes bytes)

/-- Show what an action wrote. -/
def showAction : Action → IO Unit
  | .print text => do
      let output ← IO.getStdout
      output.putStr text
      output.flush
  | .diagnose text => do
      let output ← IO.getStderr
      output.putStr (text ++ "\n")
      output.flush
  | .read _ => return ()

/-- Run a step on the lines typed so far, and again whenever one more line was typed. -/
partial def interact
    (step : Console → Option (α × Console))
    (lines : List Line)
    (shown : Nat) :
    IO (Option α) := do
  match step (.ofInput (.waiting lines)) with
  | none => return none
  | some (result, console) =>
      let fresh := console.log.reverse.drop shown
      let known := fresh.takeWhile (· != .read none)
      known.forM showAction
      if known.length == fresh.length then
        return some result
      else
        match ← readLine? with
        | some line => interact step (lines ++ [line]) (shown + known.length)
        | none =>
            (fresh.drop known.length).forM showAction
            return some result

/-- Take fragments until the loop ends. -/
partial def runRepl (config : ReplConfig) (session : Session) : IO Unit := do
  let turn (console : Console) : Option ((Bool × Session) × Console) := do
    let (goOn, session) ← Repl.turn config fuel (session.withConsole console)
    return ((goOn, session), session.machine.console)
  match ← interact turn [] 0 with
  | some (true, session) => runRepl config session
  | some (false, session) =>
      let closed := Repl.close config (session.withConsole (.ofInput .closed))
      closed.machine.console.log.reverse.forM showAction
  | none => return ()

/-- Read a file. -/
def readFile (path : String) : IO FileContent := do
  try
    return .ofBytes (← IO.FS.readBinFile path)
  catch error =>
    match error with
    | .noFileOrDirectory .. => return .missing
    | .permissionDenied .. => return .forbidden
    | .inappropriateType none .. => return .folder
    | .inappropriateType (some _) .. => return .insideFile
    | .invalidArgument (some _) .. => return .nameTooLong
    | other => return .unreadable (toString other)

/-- Carry out a command that is not the interactive loop. -/
def runCommand (lookup : String → Option String) (command : Command) : IO UInt32 := do
  let content ←
    match command.file? lookup with
    | some path => readFile path
    | none => pure .missing
  let step (console : Console) : Option (Nat × Console) := do
    let outcome ← CommandLine.execute lookup (fun _ => content) fuel console command
    return (outcome.status, outcome.console)
  return match ← interact step [] 0 with
    | some status => UInt32.ofNat status
    | none => 1

/-- Carry out the command that arguments and environment variables ask for. -/
def run (arguments : List String) : IO UInt32 := do
  let prompt ← IO.getEnv "BRAIN_PROMPT"
  let maxDepth ← IO.getEnv "BRAIN_MAX_DEPTH"
  let lookup (key : String) : Option String :=
    [("BRAIN_PROMPT", prompt), ("BRAIN_MAX_DEPTH", maxDepth)].lookup key |>.join
  let command := Command.ofArguments arguments
  match command with
  | .repl options =>
      match ReplConfig.ofSources options lookup with
      | .ok (config, _) =>
          runRepl config (.initial config.eval (.ofInput .closed))
          return 0
      | .error _ => runCommand lookup command
  | _ => runCommand lookup command

end ScopeLang.Main

/-- The entry point of the executable. -/
def main (arguments : List String) : IO UInt32 :=
  ScopeLang.Main.run arguments
