import TestDeclaration.CommandLine

/-!
# File trees

A directory with its files and directories, as a value. A path is walked from the top, name by
name; a name can be looked up in a directory only.
-/

namespace TestDeclaration.CommandLine

/-- What stands under a name. -/
inductive Entry where
  | file (content : ByteArray)
  | directory

/-- A directory: its path, and the entries below it, each under its names from there. -/
structure FileTree where
  top : String
  entries : List (List String × Entry)

namespace FileTree

/-- The parts of a path between its slashes. -/
def components (path : String) : List String := path.splitOn "/"

/-- Whether a part of a path leads nowhere else. -/
def staysHere (name : String) : Bool := name.isEmpty || name == "."

/-- The tree with some entries, each under its path from the top. -/
def ofPaths (top : String) (entries : List (String × Entry)) : FileTree :=
  ⟨top, entries.map fun (path, entry) ↦ ((components path).filter (!staysHere ·), entry)⟩

/-- The longest name that a directory can hold, in bytes. -/
def maxNameLength : Nat := 255

/-- The longest path that can be followed, in bytes. -/
def maxPathLength : Nat := 4095

/-- Where a walk stands: at a path below the top, or in some directory above it, of which nothing
more is known. -/
inductive Place where
  | below (path : List String)
  | above
  deriving DecidableEq, Repr

/-- What stands at a place. Above an entry there are directories only. -/
def entry? (t : FileTree) : Place → Option Entry
  | .above | .below [] => some .directory
  | .below path =>
    match t.entries.lookup path with
    | some entry => some entry
    | none => if t.entries.any (path.isPrefixOf ·.1) then some .directory else none

/-- The place of a name in the directory at a place. No name is known above the top. -/
def child? (t : FileTree) (name : String) : Place → Option Place
  | .above => none
  | .below path =>
    let next := Place.below (path ++ [name])
    if (t.entry? next).isSome then some next else none

/-- The directory around a place. -/
def Place.parent : Place → Place
  | .above | .below [] => .above
  | .below path => .below path.dropLast

/-- Walk along names from the directory or file at a place. -/
def walk (t : FileTree) (here : Place) : List String → Except ReadError Place
  | [] => .ok here
  | name :: rest =>
    match t.entry? here with
    | some .directory =>
      if staysHere name then walk t here rest
      else if name = ".." then walk t here.parent rest
      else if maxNameLength < name.utf8ByteSize then .error .unreadable
      else match t.child? name here with
        | some next => walk t next rest
        | none => .error .notFound
    | some (.file _) => .error .unreadable
    | none => .error .notFound

/-- Where to start on a path, and the names to follow from there: below the top if the path starts
with that of the top, else from above. -/
def route (t : FileTree) (path : String) : Place × List String :=
  let names := components path
  let top := components t.top
  if top.isPrefixOf names then (.below [], names.drop top.length) else (.above, names)

/-- The text of the file at a path. The length of the path is checked before it is followed. -/
def read (t : FileTree) (path : String) : Except ReadError String := do
  if maxPathLength < path.utf8ByteSize then throw .unreadable
  let (start, names) := t.route path
  let place ← t.walk start names
  match t.entry? place with
  | none => throw .notFound
  | some .directory => throw .unreadable
  | some (.file content) =>
    match String.fromUTF8? content with
    | some text => return text
    | none => throw .unreadable

end FileTree

end TestDeclaration.CommandLine
