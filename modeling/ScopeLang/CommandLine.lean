import ScopeLang.Options
import ScopeLang.SourceFile

namespace ScopeLang

/-!
# The command line

The commands, and what each of them writes. Files and environment variables
are given as functions, so that a command is a function of what it is given.
-/

/-- What the command line asks for. -/
inductive Command where
  /-- The interactive loop. -/
  | repl (options : List String)
  /-- Run the first file named among options. -/
  | run (options : List String)
  /-- Run a file that is named in place of a command. -/
  | runFile (path : String) (options : List String)
  /-- Draw the program in a file. -/
  | parse (path : Option String)
  /-- List the tokens in a file. -/
  | lex (path : Option String)
  | help
  | version
  | unknown (word : String)
  deriving Repr, DecidableEq, Inhabited

namespace Command

/-- The command that the arguments ask for; without arguments it is the interactive loop. -/
def ofArguments : List String → Command
  | [] => .repl []
  | word :: rest =>
      match word with
      | "repl" => .repl rest
      | "run" => .run rest
      | "parse" => .parse rest.head?
      | "lex" => .lex rest.head?
      | "help" | "--help" | "-h" => .help
      | "version" | "--version" | "-v" => .version
      | _ =>
          if word.toList.head? == some '-' then
            .repl (word :: rest)
          else if SourceFile.isSource word then
            .runFile word rest
          else
            .unknown word

/-- The file that a command reads, if it reads one. -/
def file? (lookup : String → Option String) : Command → Option String
  | .run options =>
      match ReplConfig.ofSources options lookup with
      | .ok (_, path :: _) => some path
      | _ => none
  | .runFile path _ => some path
  | .parse path => path
  | .lex path => path
  | _ => none

end Command

/-- How a command ends: its exit status and what it read and wrote. -/
structure Outcome where
  status : Nat
  console : Console
  deriving Repr, DecidableEq, Inhabited

namespace Outcome

/-- The end of a command in which nothing went wrong. -/
def success (console : Console) : Outcome :=
  ⟨0, console⟩

/-- The end of a command with some lines of diagnostics. -/
def failure (messages : List String) (console : Console) : Outcome :=
  ⟨1, messages.foldl Console.diagnose console⟩

end Outcome

namespace CommandLine

/-- The overview of all commands and options. -/
def usage : List String :=
  ["brain: an interpreter for a small imperative language with closures",
    "",
    "Usage: brain [command] [options]",
    "",
    "Commands:",
    "  repl                 Start the interactive loop (default)",
    "  run <file.brain>     Evaluate a program",
    "  parse <file.brain>   Print the parse tree",
    "  lex <file.brain>     Print the token stream",
    "  help                 Show this message",
    "  version              Show version information",
    "",
    "Options:",
    "  --max-depth=<n>      Limit closure call depth (env BRAIN_MAX_DEPTH)",
    "  --prompt=<text>      REPL prompt (env BRAIN_PROMPT)",
    "  -q, --quiet          Do not print the farewell line",
    "",
    "Logging is off unless BRAIN_LOG or RUST_LOG is set;",
    "BRAIN_LOG_TREE=1 switches to indented span trees."]

/-- Write the overview. -/
def printUsage (console : Console) : Console :=
  usage.foldl Console.printLine console

/-- The program in a source, drawn as a tree, or its parse error, drawn against the source. -/
def parseSource (source : String) (origin : Option String) : Except String String :=
  let (tokens, names) := Token.lex source .initial
  match parseProgram tokens with
  | .ok program => .ok (Stmt.drawProgram names program)
  | .error error => .error (Diagnostic.render source origin (error.message names) error.span)

/-- The tokens of a source, one in a line. -/
def lexSource (source : String) : String :=
  Token.listing (Token.lex source .initial).1

/-- The heading above the tokens of a file. -/
def lexHeading (path : String) (source : String) : String :=
  "Tokens for '" ++ path ++ "' (" ++
    Text.Decimal.ofNat (Token.lex source .initial).1.length ++ " tokens):"

/-- Go on with a configuration, or report what is wrong with the options. -/
def withConfig
    (options : List String)
    (lookup : String → Option String)
    (console : Console)
    (next : ReplConfig → List String → Option Outcome) :
    Option Outcome :=
  match ReplConfig.ofSources options lookup with
  | .ok (config, words) => next config words
  | .error error => some (.failure ["error: " ++ error.message] console)

/-- Go on with the text of a file, or report why there is none. -/
def withFile
    (path : String)
    (files : String → FileContent)
    (console : Console)
    (next : String → Option Outcome) :
    Option Outcome :=
  match (files path).textOrMessage path with
  | .ok source => next source
  | .error message => some (.failure [message] console)

/-- Run the interactive loop. -/
def runRepl (config : ReplConfig) (fuel : Nat) (console : Console) : Option Outcome := do
  let session ← Repl.run config fuel (.initial config.eval console)
  return .success session.machine.console

/-- Run the program in a file. -/
def runFile
    (path : String)
    (config : EvalConfig)
    (files : String → FileContent)
    (fuel : Nat)
    (console : Console) :
    Option Outcome :=
  withFile path files console fun source => do
    let (succeeded, session) ←
      (Session.initial config console).runSource fuel source (some path)
    return ⟨if succeeded then 0 else 1, session.machine.console⟩

/-- Carry out a command. -/
def execute
    (lookup : String → Option String)
    (files : String → FileContent)
    (fuel : Nat)
    (console : Console) :
    Command → Option Outcome
  | .repl options =>
      withConfig options lookup console fun config _ => runRepl config fuel console
  | .run options =>
      withConfig options lookup console fun config words =>
        match words with
        | [] =>
            some (.failure
              ["error: missing file path", "Usage: brain run <file.brain> [--max-depth=<n>]"]
              console)
        | path :: _ => runFile path config.eval files fuel console
  | .runFile path options =>
      withConfig options lookup console fun config _ =>
        runFile path config.eval files fuel console
  | .parse none => some (.failure ["Usage: brain parse <file.brain>"] console)
  | .parse (some path) =>
      withFile path files console fun source =>
        match parseSource source (some path) with
        | .ok drawing => some (.success (console.print drawing))
        | .error message => some (.failure [message] console)
  | .lex none => some (.failure ["Usage: brain lex <file.brain>"] console)
  | .lex (some path) =>
      withFile path files console fun source =>
        some (.success ((console.printLine (lexHeading path source)).print (lexSource source)))
  | .help => some (.success (printUsage console))
  | .version => some (.success (console.printLine "brain 0.1.0"))
  | .unknown word =>
      let told := (console.diagnose ("Unknown command: " ++ word)).diagnose ""
      some ⟨1, printUsage told⟩

end CommandLine

end ScopeLang
