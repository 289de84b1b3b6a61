import DocRoutes.Assembly

/-!
# Inspecting units

The documentation of units without their controllers: each unit is loaded with an empty controller
in its place, since its routes are only looked at. The documentation can be narrowed to the units
of one controller, of which there must be one.
-/

namespace DocRoutes

/-- Every controller resolves to an empty one. -/
def Resolver.empty : Resolver := ⟨fun _ _ _ => .resolved ∅⟩

inductive InspectError where
  | assembly (error : AssemblyError)
  | config (error : ConfigError)
  /-- No unit documents the controller asked for. -/
  | noSuchController (name : String)
  deriving DecidableEq, Repr

namespace InspectError

/-- What an error says, and after it what its causes say, each in its own words. -/
def chain : InspectError → List String
  | .assembly error => ["Bridge error: " ++ error.message, error.message]
  | .config error =>
    let causes := match error with
      | .file fault => [fault.message]
      | _ => []
    ["Configuration error: " ++ error.message, error.message] ++ causes
  | .noSuchController name => ["Invalid input: No controller named " ++ name]

def message (e : InspectError) : String := e.chain.head?.getD ""

end InspectError

/-- The documentation of one controller. -/
def narrow (docs : List ControllerDoc) (controller : Option String) :
    Except InspectError (List ControllerDoc) :=
  match controller with
  | none => .ok docs
  | some name =>
    match docs.filter (·.name = name) with
    | [] => .error (.noSuchController name)
    | docs => .ok docs

/-- The documentation in the files of some paths, and what was reported. -/
def inspect (files : Files) (config : Configuration) (paths : List String)
    (controller : Option String) :
    Except InspectError (List ControllerDoc) × List AssemblyEvent :=
  let assembly := Assembly.withConfiguration { loader := { resolver := .empty } } config
  let (assembly, addition) := assembly.addUnits files paths []
  match addition.wait with
  | .error error => (.error (.assembly error), [])
  | .ok _ =>
    let reply := assembly.mapping
    match reply.result with
    | .error error => (.error (.assembly error), reply.events)
    | .ok docs => (narrow docs controller, reply.events)

end DocRoutes
