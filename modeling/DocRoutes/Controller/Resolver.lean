import DocRoutes.Controller.Basic

/-!
# Resolvers

A resolver finds the live controller for a unit: from the name that the unit documents, the path
of its file and the arguments of the load. It may break off instead of answering.
-/

namespace DocRoutes

inductive ResolveError where
  /-- Nothing is known under the name. -/
  | unknown (name : String)
  | factory (name reason : String)
  deriving DecidableEq, Repr

def ResolveError.message : ResolveError → String
  | .unknown name => "No implementation registered for controller " ++ name
  | .factory name reason => "Failed to instantiate controller " ++ name ++ ": " ++ reason

inductive Resolution where
  | resolved (controller : Controller)
  | refused (error : ResolveError)
  /-- The resolver broke off. -/
  | crashed (reason : String)

structure Resolver where
  resolve : (name path : String) → (args : List Json) → Resolution

namespace Resolver

abbrev Factory := List Json → Resolution

/-- A table of factories by controller names. -/
def table (factories : Dict Factory) : Resolver :=
  ⟨fun name _ args =>
    match factories.get? name with
    | some factory => factory args
    | none => .refused (.unknown name)⟩

/-- A table of factories by the stems of the files that hold the units. -/
def byStem (stem : String → String) (factories : Dict Factory) : Resolver :=
  ⟨fun name path args =>
    match factories.get? (stem path) with
    | some factory => factory args
    | none => .refused (.unknown name)⟩

end Resolver

end DocRoutes
