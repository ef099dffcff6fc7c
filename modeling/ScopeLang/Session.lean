import ScopeLang.Ast.Tree
import ScopeLang.Diagnostic
import ScopeLang.Machine.Eval
import ScopeLang.Parse
import ScopeLang.Token.Lexer

namespace ScopeLang

/-!
# Sessions

A session takes source fragments one after another. Names, the program so far
and the state of the machine live on from fragment to fragment. A fragment that
does not parse changes nothing but the name table and the flag.
-/

/-- Everything that lives on from fragment to fragment. -/
structure Session where
  names : NameTable
  /-- All statements of the fragments that were run. -/
  program : List Stmt
  machine : Machine
  config : EvalConfig

namespace Session

/-- A session in which nothing was entered yet. -/
def initial (config : EvalConfig) (console : Console) : Session where
  names := .initial
  program := []
  machine := .ofConsole console
  config := config

/-- What evaluation consults. -/
def context (session : Session) : Context :=
  ⟨session.names, session.config⟩

/-- The session with another console. -/
def withConsole (session : Session) (console : Console) : Session :=
  { session with machine := { session.machine with console := console } }

/-- Write text to the output. -/
def print (session : Session) (text : String) : Session :=
  session.withConsole (session.machine.console.print text)

/-- Write a line to the diagnostics. -/
def diagnose (session : Session) (text : String) : Session :=
  session.withConsole (session.machine.console.diagnose text)

/-- The name of a text. -/
def intern (session : Session) (text : String) : Name × Session :=
  let (name, names) := session.names.intern text
  (name, { session with names := names })

/-- The program so far, drawn as a tree. -/
def tree (session : Session) : String :=
  Stmt.drawProgram session.names session.program

/-- Read a fragment as statements; its names enter the table in any case. -/
def readProgram (session : Session) (source : String) :
    Except ParseError (List Stmt) × Session :=
  let (tokens, names) := Token.lex source session.names
  (parseProgram tokens, { session with names := names })

/-- Read a fragment as one expression; its names enter the table in any case. -/
def readExpr (session : Session) (source : String) : Except ParseError Expr × Session :=
  let (tokens, names) := Token.lex source session.names
  (parseExpr tokens, { session with names := names })

/-- Lower the flag, read a fragment, add it to the program and run it. -/
def evalSource (session : Session) (fuel : Nat) (source : String) :
    Option (Except ParseError Bool × Session) :=
  match { session with machine := session.machine.clearFailure }.readProgram source with
  | (.error error, session) => some (.error error, session)
  | (.ok fragment, session) => do
      let (succeeded, machine) ←
        session.machine.runFragment session.context fuel fragment
      return (.ok succeeded,
        { session with program := session.program ++ fragment, machine := machine })

/-- A parse error drawn against its source. -/
def renderError (session : Session) (source : String) (origin : Option String)
    (error : ParseError) : String :=
  Diagnostic.render source origin (error.message session.names) error.span

/-- Run a source, with errors drawn for the user, and tell whether all went well. -/
def runSource (session : Session) (fuel : Nat) (source : String) (origin : Option String) :
    Option (Bool × Session) := do
  let (result, session) ← session.evalSource fuel source
  match result with
  | .ok succeeded => return (succeeded, session)
  | .error error => return (false, session.diagnose (session.renderError source origin error))

/-- Run statements that do not join the program, with the flag lowered first. -/
def runStatements (session : Session) (fuel : Nat) (statements : List Stmt) :
    Option (Bool × Session) := do
  let (succeeded, machine) ← session.machine.runFragment session.context fuel statements
  return (succeeded, { session with machine := machine })

/-- Execute statements that do not join the program, with the flag as it is. -/
def execStatements (session : Session) (fuel : Nat) (statements : List Stmt) :
    Option Session := do
  let machine ← session.machine.execAll session.context fuel statements
  return { session with machine := machine }

/-- Evaluate an expression, with the flag as it is. -/
def evalExpr (session : Session) (fuel : Nat) (expr : Expr) : Option (Value × Session) := do
  let (value, machine) ← session.machine.eval session.context fuel expr
  return (value, { session with machine := machine })

/-- Call a closure, with the flag as it is. -/
def applyClosure (session : Session) (fuel : Nat) (param : Name) (body : List Stmt)
    (arg : Value) : Option (Value × Session) := do
  let (value, machine) ← session.machine.apply session.context fuel param body arg
  return (value, { session with machine := machine })

end Session

end ScopeLang
