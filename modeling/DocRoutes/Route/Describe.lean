import DocRoutes.Json.Basic
import DocRoutes.Route.Basic

/-!
# Routes as JSON

The members of each object come in a fixed order, the order in which a listing shows them. A
description of a parameter that is missing and an empty list of types are left out.
-/

namespace DocRoutes

def Param.toJson (p : Param) : Json :=
  .obj <| [("name", .str p.name), ("source", .str p.source.name), ("optional", .bool p.optional)] ++
    (p.description.map fun d => ("description", Json.str d)).toList ++
    (if p.types.isEmpty then [] else [("types", .arr (p.types.map .str))])

def Returns.toJson (r : Returns) : Json :=
  .obj [("type_name", .str r.type), ("description", .str r.description)]

def Route.toJson (r : Route) : Json :=
  .obj [("name", .str r.name), ("description", .str r.description), ("verb", .str r.verb.name),
    ("path", .str r.path), ("params", .arr (r.params.map (·.toJson))),
    ("returns", r.returns.toJson)]

def ControllerDoc.toJson (c : ControllerDoc) : Json :=
  .obj [("name", .str c.name), ("description", .str c.description),
    ("methods", .arr (c.routes.map (·.toJson)))]

end DocRoutes
