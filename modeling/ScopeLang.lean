import ScopeLang.Text
import ScopeLang.Name
import ScopeLang.Span
import ScopeLang.Token
import ScopeLang.Token.Lexer
import ScopeLang.Ast
import ScopeLang.Ast.Tree
import ScopeLang.Parse.Error
import ScopeLang.Parse.Cursor
import ScopeLang.Parse.Descent
import ScopeLang.Parse.Progress
import ScopeLang.Parse
import ScopeLang.Value
import ScopeLang.Scope.Environment
import ScopeLang.EvalError
import ScopeLang.Value.Operator
import ScopeLang.Console
import ScopeLang.Console.Sink
import ScopeLang.Machine
import ScopeLang.Machine.Eval
import ScopeLang.Machine.Fuel
import ScopeLang.Diagnostic
import ScopeLang.Session
import ScopeLang.Repl
import ScopeLang.Options
import ScopeLang.Console.Bytes
import ScopeLang.SourceFile
import ScopeLang.SourceFile.WorkingFolder
import ScopeLang.CommandLine
import ScopeLang.Main
import ScopeLang.Proofs.Scope.OpenScopes
import ScopeLang.Proofs.Scope.Chain
import ScopeLang.Proofs.Scope.Growth
import ScopeLang.Proofs.Machine.Run
import ScopeLang.Proofs.Machine.ScopeDiscipline
import ScopeLang.Proofs.Machine.Quiescence
import ScopeLang.Proofs.Grammar
import ScopeLang.Proofs.Grammar.Reading
import ScopeLang.Proofs.Grammar.Soundness
import ScopeLang.Proofs.Grammar.Recognition
import ScopeLang.Proofs.Machine.Step
import ScopeLang.Proofs.Machine.Diagnosis
import ScopeLang.Proofs.Ast.Renaming
import ScopeLang.Proofs.Machine.Simulation
import ScopeLang.Proofs.Machine.Unnoticed
import ScopeLang.Proofs.Scope.Reachable
import ScopeLang.Proofs.Machine.EmptyScope
import ScopeLang.Proofs.Machine.LambdaCall
import ScopeLang.Proofs.Token.Kinds
import ScopeLang.Proofs.Token.LineBreak
import ScopeLang.Proofs.Machine.Unreported
import ScopeLang.Proofs.Session.Calls
import ScopeLang.Proofs.Session.Piecewise
import ScopeLang.Proofs.Name.Sharing
import ScopeLang.Proofs.Token.Renaming
import ScopeLang.Proofs.Grammar.Renaming
import ScopeLang.Proofs.Scope.Renaming
import ScopeLang.Proofs.Machine.AlikeEnvironments
import ScopeLang.Proofs.Machine.Renaming
import ScopeLang.Proofs.Session.Unparsed
import ScopeLang.Proofs.Machine.Closures
import ScopeLang.Proofs.Machine.Termination
import ScopeLang.Proofs.Machine.FailedValue
import ScopeLang.Proofs.Machine.Moments
import ScopeLang.Proofs.Machine.ReturnDiscipline
import ScopeLang.Proofs.Grammar.Prediction
import ScopeLang.Proofs.Grammar.Blame
import ScopeLang.Proofs.Grammar.EndMark
import ScopeLang.Proofs.Machine.CallLimit
import ScopeLang.Proofs.Machine.Reports
import ScopeLang.Proofs.Machine.OlderReturns
import ScopeLang.Proofs.Token.LongestMatch
import ScopeLang.Proofs.Token.Tiling
import ScopeLang.Proofs.Token.Spelling
import ScopeLang.Proofs.Grammar.Rendering
import ScopeLang.Proofs.Session.ClosuresAlive
import ScopeLang.Proofs.Scope.Standing
import ScopeLang.Proofs.Machine.Unmentioned
import ScopeLang.Proofs.Ast.Drawing
import ScopeLang.Proofs.Ast.Labels
import ScopeLang.Proofs.Machine.UnreadInput
import ScopeLang.Proofs.Repl.Loop
import ScopeLang.Proofs.Repl.Quit
import ScopeLang.Proofs.Token.Respacing
import ScopeLang.Proofs.Token.Shifted
import ScopeLang.Proofs.Repl.Braces
import ScopeLang.Proofs.Machine.Reading
import ScopeLang.Proofs.Repl.Fragments
import ScopeLang.Proofs.Text.Trimming
import ScopeLang.Proofs.Text.Numeral
import ScopeLang.Proofs.Machine.Arithmetic
import ScopeLang.Proofs.Session.NumberRoundTrip
import ScopeLang.Proofs.Name.Histories
import ScopeLang.Proofs.Diagnostic.Lines
import ScopeLang.Proofs.Diagnostic.Place
import ScopeLang.Proofs.Diagnostic.Carets
import ScopeLang.Proofs.Diagnostic.Positions
import ScopeLang.Proofs.Options.Precedence
