import DocRoutes.Json.Writer
import DocRoutes.Listing.Table
import DocRoutes.Route.Describe

/-!
# Listings of routes

The routes of documented controllers as a table for readers, as JSON with everything that the
documentation says, or quietly as one line for each route with its verb and path. Colours are the
control sequences of terminals.
-/

namespace DocRoutes

open Text

/-! ## Colours -/

inductive Colour where
  | green
  | yellow
  deriving DecidableEq, Repr

namespace Colour

def start : Colour → List Char
  | .green => ['\x1b', '[', '3', '2', 'm']
  | .yellow => ['\x1b', '[', '3', '3', 'm']

def reset : List Char := ['\x1b', '[', '0', 'm']

/-- Begin the colour again after each reset in a text. -/
def resume (c : Colour) : List Char → List Char
  | [] => []
  | ch :: rest =>
    if reset.isPrefixOf (ch :: rest) then
      reset ++ c.start ++ resume c (rest.drop (reset.length - 1))
    else ch :: resume c rest
  termination_by s => s.length

/-- A text in a colour. -/
def paint (c : Colour) (s : String) : String :=
  .ofList (c.start ++ c.resume s.toList ++ reset)

end Colour

/-! ## Formats -/

inductive ListingFormat where
  | table
  | json
  | quiet
  deriving DecidableEq, Repr

/-- How routes are listed. -/
structure Listing where
  format : ListingFormat := .table
  colours : Bool := false

namespace Listing

def painted (l : Listing) (c : Colour) (s : String) : String := if l.colours then c.paint s else s

def warning (l : Listing) (message : String) : String := l.painted .yellow ("⚠ " ++ message)

def verb (l : Listing) (v : Verb) : String :=
  match v with
  | .get => l.painted .green v.capitals
  | .post => l.painted .yellow v.capitals

/-- All routes with the names of their controllers. -/
def routes (docs : List ControllerDoc) : List (String × Route) :=
  docs.flatMap fun d => d.routes.map fun r => (d.name, r)

def cells (l : Listing) (controller : String) (r : Route) : List String :=
  [l.verb r.verb, r.path, controller ++ "." ++ r.name, r.signature, r.returns.type]

def table (l : Listing) (docs : List ControllerDoc) : String :=
  match routes docs with
  | [] => l.warning "No routes found."
  | routes =>
    Table.render {
      header := ["Verb", "Path", "Handler", "Params", "Returns"]
      rows := routes.map fun (controller, r) => l.cells controller r }

def json (docs : List ControllerDoc) : String := (Json.arr (docs.map (·.toJson))).pretty

/-- The line of a route in a quiet listing. -/
def quietLine (r : Route) : String := r.verb.capitals ++ " " ++ r.path

def quiet (docs : List ControllerDoc) : String :=
  "\n".intercalate ((routes docs).map fun r => quietLine r.2)

def render (l : Listing) (docs : List ControllerDoc) : String :=
  match l.format with
  | .table => l.table docs
  | .json => json docs
  | .quiet => quiet docs

end Listing

end DocRoutes
