import ScopeLang.SourceFile

namespace ScopeLang

/-!
# Working folders

A folder with its files, given as data, and what reading a path in it gives. A
path is walked name by name from the working folder, and the first name that
cannot be taken decides what goes wrong. Of the folders above the working
folder nothing is known but that they are folders.
-/

/-- What stands under a name in a folder. -/
inductive FolderEntry where
  | file (bytes : ByteArray)
  | folder
  deriving Inhabited

/-- Where a walk along a path has come to. -/
inductive Place where
  /-- Somewhere above the working folder. -/
  | above
  /-- The working folder, or what the names lead to from there, the last name first. -/
  | within (names : List String)
  deriving Repr, DecidableEq, Inhabited

namespace Place

/-- The place where the walk along a path begins. -/
def start (path : String) : Place :=
  if path.toList.head? == some '/' then .above else .within []

/-- The folder that holds a place. -/
def parent : Place → Place
  | .above => .above
  | .within [] => .above
  | .within (_ :: names) => .within names

/-- The place under a name, as far as places are known. -/
def child? (name : String) : Place → Option Place
  | .above => none
  | .within names => some (.within (name :: names))

end Place

/-- The entries below a working folder, each with the names that lead to it, the last name first. -/
structure WorkingFolder where
  entries : List (List String × FolderEntry)
  deriving Inhabited

namespace WorkingFolder

/-- The most bytes that a name can have. -/
def maxNameBytes : Nat :=
  255

/-- The most bytes that a path can have. -/
def maxPathBytes : Nat :=
  4095

/-- The working folder with these files, each under its path; a path without bytes is a folder. -/
def ofFiles (files : List (String × Option ByteArray)) : WorkingFolder where
  entries := files.map fun (path, bytes) =>
    ((SourceFile.components path).reverse, (bytes.map FolderEntry.file).getD .folder)

/-- What stands at a place; names on the way to an entry stand for folders. -/
def entryAt? (folder : WorkingFolder) : Place → Option FolderEntry
  | .above => some .folder
  | .within [] => some .folder
  | .within names =>
      match folder.entries.lookup names with
      | some entry => some entry
      | none =>
          if folder.entries.any fun entry => names.isSuffixOf entry.1 then some .folder else none

/-- Take a name from a place. The empty name and a dot stay where they are, and two dots lead up. -/
def step (folder : WorkingFolder) (place : Place) (name : String) : Except FileContent Place :=
  match folder.entryAt? place with
  | none => .error .missing
  | some (.file _) => .error .insideFile
  | some .folder =>
      if name == "" || name == "." then
        .ok place
      else if name == ".." then
        .ok place.parent
      else if maxNameBytes < name.utf8ByteSize then
        .error .nameTooLong
      else
        match place.child? name with
        | none => .error .missing
        | some next => if (folder.entryAt? next).isSome then .ok next else .error .missing

/-- What the place that a walk has come to gives when it is read. -/
def contentAt (folder : WorkingFolder) (place : Place) : FileContent :=
  match folder.entryAt? place with
  | none => .missing
  | some (.file bytes) => .ofBytes bytes
  | some .folder => .folder

/-- Read the file at a path. The empty path leads nowhere. -/
def read (folder : WorkingFolder) (path : String) : FileContent :=
  if path.isEmpty then
    .missing
  else if maxPathBytes < path.utf8ByteSize then
    .nameTooLong
  else
    match (path.splitOn "/").foldlM folder.step (Place.start path) with
    | .ok place => folder.contentAt place
    | .error content => content

end WorkingFolder

end ScopeLang
