import ScopeLang.Repl

namespace ScopeLang

/-!
# Options

The configuration that the command line and the environment variables ask for.
Options win over variables, and variables win over defaults.
-/

/-- Why the options are refused. -/
inductive ConfigError where
  | invalidMaxDepth (text : String)
  | unknownFlag (text : String)
  deriving Repr, DecidableEq, Inhabited

namespace ConfigError

/-- What the user is told. -/
def message : ConfigError → String
  | .invalidMaxDepth text =>
      "invalid maximum call depth `" ++ text ++ "`: expected a non-negative integer"
  | .unknownFlag text => "unknown option `" ++ text ++ "`"

end ConfigError

namespace Text

/-- What follows the beginning of some text, if the text begins so. -/
def after? (beginning text : String) : Option String :=
  if beginning.toList.isPrefixOf text.toList then
    some (String.ofList (text.toList.drop beginning.length))
  else
    none

end Text

/-- What an argument on the command line asks for. -/
inductive Argument where
  | maxDepth (text : String)
  | prompt (text : String)
  | quiet
  | unknownFlag (text : String)
  | positional (text : String)
  deriving Repr, DecidableEq, Inhabited

namespace Argument

/-- Whether an argument looks like an option: a dash and something behind it. -/
def isFlag (text : String) : Bool :=
  match text.toList with
  | '-' :: _ :: _ => true
  | _ => false

/-- Tell options and other arguments apart. -/
def ofText (text : String) : Argument :=
  match Text.after? "--max-depth=" text with
  | some value => .maxDepth value
  | none =>
      match Text.after? "--prompt=" text with
      | some value => .prompt value
      | none =>
          if text == "--quiet" || text == "-q" then
            .quiet
          else if isFlag text then
            .unknownFlag text
          else
            .positional text

end Argument

namespace ReplConfig

/-- The configuration with a limit on active calls, given as text. -/
def setMaxDepth (config : ReplConfig) (text : String) : Except ConfigError ReplConfig :=
  match Text.Decimal.count? text with
  | some limit => .ok { config with eval := { config.eval with maxDepth := some limit } }
  | none => .error (.invalidMaxDepth text)

/-- The configuration that environment variables ask for. -/
def ofVariables (lookup : String → Option String) : Except ConfigError ReplConfig :=
  let config : ReplConfig :=
    match lookup "BRAIN_PROMPT" with
    | some prompt => { prompt := prompt }
    | none => {}
  match lookup "BRAIN_MAX_DEPTH" with
  | some limit => config.setMaxDepth limit
  | none => .ok config

/-- The configuration after some arguments, and the arguments that are not options. -/
def applyArguments : ReplConfig → List String → Except ConfigError (ReplConfig × List String)
  | config, [] => .ok (config, [])
  | config, text :: rest =>
      match Argument.ofText text with
      | .maxDepth limit => do
          let config ← config.setMaxDepth limit
          applyArguments config rest
      | .prompt prompt => applyArguments { config with prompt := prompt } rest
      | .quiet => applyArguments { config with farewell := false } rest
      | .unknownFlag flag => .error (.unknownFlag flag)
      | .positional word => do
          let (config, words) ← applyArguments config rest
          return (config, word :: words)

/-- The configuration that variables and arguments ask for, and the other arguments. -/
def ofSources (arguments : List String) (lookup : String → Option String) :
    Except ConfigError (ReplConfig × List String) := do
  let config ← ofVariables lookup
  config.applyArguments arguments

end ReplConfig

end ScopeLang
