import DocRoutes.Controller.Resolver
import DocRoutes.Doc.Unit
import DocRoutes.Files.Basic
import DocRoutes.Pending

/-!
# Loading a unit

A load locates the file of a unit, reads it, reads the unit in it, and resolves the controller
that the unit documents. A path without a file is no failure: there is nothing to load.
-/

namespace DocRoutes

/-! ## Outcomes -/

inductive LoadError where
  | read (path : String) (fault : ReadFault)
  | parse (path : String) (error : UnitError)
  | resolve (path : String) (error : ResolveError)
  /-- The load broke off; here the path is the requested one. -/
  | aborted (path : String) (reason : String)
  deriving DecidableEq, Repr

def LoadError.message : LoadError → String
  | .read path fault => "Failed to read " ++ path ++ ": " ++ fault.message
  | .parse path error => "Failed to parse " ++ path ++ ": " ++ error.message
  | .resolve path error => "Failed to resolve controller for " ++ path ++ ": " ++ error.message
  | .aborted path reason => "Load of " ++ path ++ " aborted: " ++ reason

structure LoadedUnit where
  /-- The path of the file. -/
  path : String
  doc : ControllerDoc
  controller : Controller

/-- A unit, nothing, or a failure. -/
abbrev LoadOutcome := Except LoadError (Option LoadedUnit)

/-- How a load ends. -/
inductive LoadEnd where
  | finished (outcome : LoadOutcome)
  | crashed (reason : String)

/-- The outcome of a load that was requested for a path: one that crashed is aborted. -/
def LoadEnd.outcome (path : String) : LoadEnd → LoadOutcome
  | .finished outcome => outcome
  | .crashed reason => .error (.aborted path reason)

/-! ## The loader -/

structure Loader where
  extractor : Extractor := .comments
  resolver : Resolver
  /-- What is appended to a path that is not the path of a file. -/
  suffix : String := ".rs"

namespace Loader

def endsWith (text ending : String) : Bool := ending.toList.isSuffixOf text.toList

/-- The file for a path: the path itself, or the path with the suffix unless it ends in the suffix
already. -/
def locate (l : Loader) (files : Files) (path : String) : Option String :=
  if files.isFile path then some path
  else if l.suffix.isEmpty || endsWith path l.suffix then none
  else if files.isFile (path ++ l.suffix) then some (path ++ l.suffix)
  else none

/-- Load the unit in a file. -/
def loadFile (l : Loader) (files : Files) (path : String) (args : List Json) : LoadEnd :=
  match files.readText path with
  | .error fault => .finished (.error (.read path fault))
  | .ok source =>
    match (readUnit l.extractor source).1 with
    | .error error => .finished (.error (.parse path error))
    | .ok doc =>
      match l.resolver.resolve doc.name path args with
      | .refused error => .finished (.error (.resolve path error))
      | .crashed reason => .crashed reason
      | .resolved controller => .finished (.ok (some ⟨path, doc, controller⟩))

def load (l : Loader) (files : Files) (path : String) (args : List Json) : LoadEnd :=
  match l.locate files path with
  | none => .finished (.ok none)
  | some found => l.loadFile files found args

/-- The load as a computation that suspends while it waits for the file system. -/
def task (l : Loader) (files : Files) (path : String) (args : List Json) : Pending LoadEnd :=
  .suspended (.done (l.load files path args))

end Loader

end DocRoutes
