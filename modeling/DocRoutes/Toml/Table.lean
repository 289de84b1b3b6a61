/-!
# TOML tables

A document is one table. Each line of it adds to the table: a header opens a table, an assignment
sets a key in the table opened last. Both may name a path, and the tables on the way come into
being. What may be added later depends on how a table came into being: a table is opened by a
header once, dotted keys reach only into tables that dotted keys have made, and what braces or
brackets enclose is closed.
-/

namespace DocRoutes.Toml

/-! ## Values -/

/-- How a table came into being. -/
inductive Origin where
  /-- On the way to a table that a header opens. -/
  | implied
  /-- Opened by a header of its own. -/
  | opened
  /-- Made by a dotted key. -/
  | dotted
  /-- Written in braces. -/
  | braced
  deriving DecidableEq, Repr

inductive Value where
  | string (s : String)
  /-- A number, a truth value or a date, as it is written. -/
  | literal (spelling : String)
  | array (items : List Value)
  | table (origin : Origin) (entries : List (String × Value))
  /-- The tables opened by headers in double brackets under one name, and the last of them. -/
  | tables (earlier : List (List (String × Value))) (last : List (String × Value))
  deriving Inhabited

abbrev Entries := List (String × Value)

def Entries.get? (entries : Entries) (key : String) : Option Value :=
  (entries.find? (·.1 = key)).map (·.2)

/-- Change the value under a key, which is there. -/
def Entries.replace (entries : Entries) (key : String) (value : Value) : Entries :=
  entries.map fun e => if e.1 = key then (key, value) else e

def Entries.push (entries : Entries) (key : String) (value : Value) : Entries :=
  entries ++ [(key, value)]

/-! ## Headers -/

inductive HeaderKind where
  | single
  | element
  deriving DecidableEq, Repr

/-- Open a table under a key. -/
def openKey (kind : HeaderKind) (entries : Entries) (key : String) : Option Entries :=
  match kind, entries.get? key with
  | .single, none => some (entries.push key (.table .opened []))
  | .single, some (.table .implied inner) => some (entries.replace key (.table .opened inner))
  | .element, none => some (entries.push key (.tables [] []))
  | .element, some (.tables earlier last) =>
    some (entries.replace key (.tables (earlier ++ [last]) []))
  | _, _ => none

/-- Open a table under a path. The tables on the way are implied unless they are there already; of
an array of tables the last one is meant. -/
def openPath (kind : HeaderKind) (entries : Entries) : List String → Option Entries
  | [] => none
  | [key] => openKey kind entries key
  | key :: rest =>
    match entries.get? key with
    | none => (openPath kind [] rest).map fun inner => entries.push key (.table .implied inner)
    | some (.table origin inner) =>
      if origin = .braced then none
      else (openPath kind inner rest).map fun inner => entries.replace key (.table origin inner)
    | some (.tables earlier last) =>
      (openPath kind last rest).map fun last => entries.replace key (.tables earlier last)
    | some _ => none

/-! ## Assignments -/

/-- Set a key, which must be new. -/
def setKey (entries : Entries) (key : String) (value : Value) : Option Entries :=
  if (entries.get? key).isSome then none else some (entries.push key value)

/-- Set a dotted key, `path` being what stands before the last dot. -/
def setPath (entries : Entries) (path : List String) (key : String) (value : Value) :
    Option Entries :=
  match path with
  | [] => setKey entries key value
  | name :: rest =>
    match entries.get? name with
    | none => (setPath [] rest key value).map fun inner => entries.push name (.table .dotted inner)
    | some (.table origin inner) =>
      if origin = .dotted ∨ (origin = .implied ∧ rest ≠ []) then
        (setPath inner rest key value).map fun inner => entries.replace name (.table origin inner)
      else none
    | some (.tables earlier last) =>
      if rest = [] then none
      else (setPath last rest key value).map fun last => entries.replace name (.tables earlier last)
    | some _ => none

/-- Change the table that was opened under a path. -/
def updateAt (change : Entries → Option Entries) (entries : Entries) : List String → Option Entries
  | [] => change entries
  | key :: rest =>
    match entries.get? key with
    | some (.table origin inner) =>
      (updateAt change inner rest).map fun inner => entries.replace key (.table origin inner)
    | some (.tables earlier last) =>
      (updateAt change last rest).map fun last => entries.replace key (.tables earlier last)
    | _ => none

/-! ## Documents -/

/-- A dotted key: what stands before the last dot, and the last part. -/
structure Key where
  path : List String
  last : String

inductive Line where
  | blank
  | header (kind : HeaderKind) (path : List String)
  | assignment (key : Key) (value : Value)

/-- A document up to some line. -/
structure Document where
  root : Entries := []
  /-- The table opened last. -/
  opened : List String := []

def Document.add (d : Document) : Line → Option Document
  | .blank => some d
  | .header kind path => (openPath kind d.root path).map fun root => ⟨root, path⟩
  | .assignment key value =>
    (updateAt (fun entries => setPath entries key.path key.last value) d.root d.opened).map
      fun root => { d with root }

def Document.ofLines (lines : List Line) : Option Document := lines.foldlM Document.add {}

end DocRoutes.Toml
