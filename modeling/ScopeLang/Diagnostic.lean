import ScopeLang.Span

namespace ScopeLang

/-!
# Diagnostics drawn against the source

A message about a part of a source is shown with the line it concerns and with
carets under the offending characters.
-/

namespace Text

/-- The first line of some text; a carriage return before the line break is left out. -/
def firstLine (text : List Char) : List Char :=
  let line := text.takeWhile (· != '\n')
  if '\n' ∈ text then
    match line.getLast? with
    | some '\r' => line.dropLast
    | _ => line
  else
    line

/-- The text after the first line break. -/
def afterFirstLine (text : List Char) : List Char :=
  (text.dropWhile (· != '\n')).tail

/-- The line with so many lines before it; there is nothing in a line beyond the last. -/
def lineAt : Nat → List Char → List Char
  | 0, text => firstLine text
  | before + 1, text => lineAt before (afterFirstLine text)

/-- A character over and over. -/
def repeated (count : Nat) (c : Char) : String :=
  String.ofList (List.replicate count c)

end Text

namespace Diagnostic

/--
The number of carets under a span: one for every byte, at least one, and none
beyond the last character of the line.
-/
def caretCount (span : Span) (column lineLength : Nat) : Nat :=
  min (max span.length 1) (max (lineLength - (column - 1)) 1)

/-- The place of a message: the file, if there is one, then line and column. -/
def place (origin : Option String) (position : Position) : String :=
  let numbers := Text.Decimal.ofNat position.line ++ ":" ++ Text.Decimal.ofNat position.column
  match origin with
  | some path => path ++ ":" ++ numbers
  | none => numbers

/-- A message about a span of a source, drawn in five rows. -/
def render (source : String) (origin : Option String) (message : String) (span : Span) : String :=
  let position := span.position source.toList
  let line := Text.lineAt (position.line - 1) source.toList
  let number := Text.Decimal.ofNat position.line
  let gutter := Text.repeated number.length ' '
  "error: " ++ message ++ "\n" ++
    gutter ++ "--> " ++ place origin position ++ "\n" ++
    gutter ++ " |\n" ++
    number ++ " | " ++ String.ofList line ++ "\n" ++
    gutter ++ " | " ++ Text.repeated (position.column - 1) ' ' ++
      Text.repeated (caretCount span position.column line.length) '^'

end Diagnostic

end ScopeLang
