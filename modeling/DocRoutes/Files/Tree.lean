import DocRoutes.Files.Basic
import DocRoutes.Text.Blank

/-!
# File trees

A tree holds files and directories under the components of their paths from its root. Paths are
relative to the root and are walked component by component: a name needs the directory that it is
in, `.` and the empty component stay where they are, and `..` goes up. The directories above the
root exist, and nothing else is known of them.
-/

namespace DocRoutes

open Text

inductive FileTree.Entry where
  | file (content : Bytes)
  | directory
  deriving DecidableEq, Repr

structure FileTree where
  /-- The entries by their components; an earlier one hides a later one. -/
  entries : List (List String × FileTree.Entry) := []

namespace FileTree

/-- Where a walk has come to. -/
inductive Place where
  | at (components : List String)
  /-- A directory above the root, or beside those. -/
  | above
  deriving DecidableEq, Repr

/-- The entry at a place. The root and what lies above it are directories. -/
def entry? (t : FileTree) : Place → Option Entry
  | .above => some .directory
  | .at [] => some .directory
  | .at components => (t.entries.find? (·.1 = components)).map (·.2)

/-- Longest name of an entry, in bytes. -/
def maxName : Nat := 255

/-- Longest path, in bytes. -/
def maxPath : Nat := 4095

/-- One step from a directory. No directory has an entry of too long a name, known or not. -/
def enter (place : Place) (name : String) : Except ReadFault Place :=
  if name = "" ∨ name = "." then .ok place
  else if name = ".." then
    match place with
    | .above | .at [] => .ok .above
    | .at components => .ok (.at components.dropLast)
  else if maxName < name.utf8ByteSize then .error .nameTooLong
  else match place with
    | .above => .error .noEntry
    | .at components => .ok (.at (components ++ [name]))

/-- Walk on from a place; only a directory can be left. -/
def walk (t : FileTree) (place : Place) : List String → Except ReadFault Place
  | [] => .ok place
  | name :: rest =>
    match t.entry? place with
    | none => .error .noEntry
    | some (.file _) => .error .notDirectory
    | some .directory =>
      match enter place name with
      | .error fault => .error fault
      | .ok next => t.walk next rest

def components (path : String) : List String := (splitAt '/' path.toList).map String.ofList

/-- The entry that a path leads to. -/
def find (t : FileTree) (path : String) : Except ReadFault Entry :=
  if path.toList.contains '\x00' then .error .nulInName
  else if path = "" then .error .noEntry
  else if maxPath < path.utf8ByteSize then .error .nameTooLong
  else
    let start := if path.toList.head? = some '/' then .above else .at []
    match t.walk start (components path) with
    | .error fault => .error fault
    | .ok place =>
      match t.entry? place with
      | none => .error .noEntry
      | some entry => .ok entry

/-- The files that the tree offers. -/
def files (t : FileTree) : Files where
  isFile path := match t.find path with
    | .ok (.file _) => true
    | _ => false
  read path := match t.find path with
    | .ok (.file content) => .ok content
    | .ok .directory => .error .isDirectory
    | .error fault => .error fault

/-! ## Building trees -/

/-- The places below the root that a path visits, the last one being its own. -/
def visited (place : List String) : List String → List (List String)
  | [] => []
  | name :: rest =>
    if name = "" ∨ name = "." then visited place rest
    else
      let next := if name = ".." then place.dropLast else place ++ [name]
      next :: visited next rest

/-- Put an entry at a path; the directories on the way to it come with it. -/
def put (t : FileTree) (path : String) (entry : Entry) : FileTree :=
  let places := visited [] (components path)
  let parents := places.dropLast.map fun place => (place, Entry.directory)
  ⟨(places.getLast?.toList.map fun place => (place, entry)) ++ parents ++ t.entries⟩

def putFile (t : FileTree) (path : String) (content : Bytes) : FileTree :=
  t.put path (.file content)

def putDirectory (t : FileTree) (path : String) : FileTree := t.put path .directory

end FileTree

end DocRoutes
