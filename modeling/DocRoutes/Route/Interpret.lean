import DocRoutes.Doc.Record
import DocRoutes.Route.Classify
import DocRoutes.Route.Declaration
import DocRoutes.Text.Quoted

/-!
# From records to routes

A record declares a route if it has a route tag and a returns tag, both well-formed, and documents
an item with a name. The first tag of each kind counts. The parameters are the parameter tags in
their order.
-/

namespace DocRoutes

/-- Why a record declares no route. The first cause in this order is the one given. -/
inductive Rejection where
  | missingRoute
  | missingReturns
  | malformedRoute (payload : String)
  | malformedReturns (payload : String)
  | missingContext
  deriving DecidableEq, Repr

def Rejection.message : Rejection → String
  | .missingRoute => "no @" ++ Tag.routeKind ++ " tag"
  | .missingReturns => "no @" ++ Tag.returnsKind ++ " tag"
  | .malformedRoute payload => "malformed @" ++ Tag.routeKind ++ ": " ++ Text.quoted payload
  | .malformedReturns payload => "malformed @" ++ Tag.returnsKind ++ ": " ++ Text.quoted payload
  | .missingContext => "record has no context name"

/-- The name that a parameter tag gives: its name, or else the first word of its payload. -/
def Tag.rawName (tag : Tag) : String :=
  match tag.name with
  | some name => name
  | none => .ofList (Text.firstWord tag.payload.toList)

/-- The parameter that a tag declares. Description and types come from the tag. -/
def Tag.toParam (tag : Tag) (verb : Verb) (path : String) : Param :=
  { classify tag.rawName verb path with description := tag.description, types := tag.types }

def DocRecord.toRoute (r : DocRecord) : Except Rejection Route := do
  let some routeTag := r.firstTag? Tag.routeKind | throw .missingRoute
  let some returnsTag := r.firstTag? Tag.returnsKind | throw .missingReturns
  let some (verb, path) := parseRoute routeTag.payload | throw (.malformedRoute routeTag.payload)
  let some returns := parseReturns returnsTag.payload | throw (.malformedReturns returnsTag.payload)
  let some name := r.context | throw .missingContext
  return {
    name, verb, path, returns
    description := r.description
    params := (r.tagsOf Tag.paramKind).map (·.toParam verb path) }

end DocRoutes
