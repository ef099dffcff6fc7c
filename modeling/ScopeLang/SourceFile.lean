namespace ScopeLang

/-!
# Source files

What reading a file can give, what the user is told when it gives no text, and
which paths name source files.
-/

/-- The result of reading a file. -/
inductive FileContent where
  | text (content : String)
  /-- The bytes are not text. -/
  | malformed
  | missing
  | forbidden
  /-- The path leads to a folder. -/
  | folder
  /-- The path goes on behind a file. -/
  | insideFile
  /-- The path, or a name in it, is longer than paths and names can be. -/
  | nameTooLong
  /-- Any other failure, with the reason that the system gives. -/
  | unreadable (reason : String)
  deriving Repr, DecidableEq, Inhabited

namespace FileContent

/-- The content of a file with these bytes. -/
def ofBytes (bytes : ByteArray) : FileContent :=
  match String.fromUTF8? bytes with
  | some content => .text content
  | none => .malformed

/-- What the user is told about a path that cannot be read for some reason. -/
def unreadableMessage (path reason : String) : String :=
  "error reading '" ++ path ++ "': " ++ reason

/-- The text of the file at a path, or what the user is told. -/
def textOrMessage (path : String) : FileContent → Except String String
  | .text content => .ok content
  | .malformed => .error ("'" ++ path ++ "' contains invalid UTF-8 data")
  | .missing => .error ("cannot find file '" ++ path ++ "'")
  | .forbidden => .error ("permission denied reading '" ++ path ++ "'")
  | .folder => .error (unreadableMessage path "Is a directory (os error 21)")
  | .insideFile => .error (unreadableMessage path "Not a directory (os error 20)")
  | .nameTooLong => .error (unreadableMessage path "File name too long (os error 36)")
  | .unreadable reason => .error (unreadableMessage path reason)

end FileContent

namespace SourceFile

/-- The parts of a path between slashes that name something. -/
def components (path : String) : List String :=
  (path.splitOn "/").filter fun part => part != "" && part != "."

/-- The name of the file that a path leads to. -/
def fileName? (path : String) : Option String :=
  match (components path).getLast? with
  | some ".." => none
  | name => name

/-- What follows the last dot of a file name, unless nothing stands before that dot. -/
def extension? (name : String) : Option String :=
  let backward := name.toList.reverse
  match backward.dropWhile (· != '.') with
  | _ :: _ :: _ => some (String.ofList (backward.takeWhile (· != '.')).reverse)
  | _ => none

/-- Whether a path names a source file of the language, whatever the case of its extension. -/
def isSource (path : String) : Bool :=
  match (fileName? path).bind extension? with
  | some extension => extension.toList.map Char.toLower == "brain".toList
  | none => false

end SourceFile

end ScopeLang
