import DocRoutes.Http.Status
import DocRoutes.Json.Writer
import DocRoutes.Route.Basic

/-!
# Requests and responses

A request as handlers see it has a field map for each source of parameters. The local fields come
from middleware alone: nothing that a client sends is in them when the request arrives.
-/

namespace DocRoutes

/-! ## Requests -/

structure Request where
  /-- The path as received. -/
  path : String := "/"
  headers : List (String × String) := []
  body : Dict Json := ∅
  query : Dict Json := ∅
  params : Dict Json := ∅
  locals : Dict Json := ∅

namespace Request

def fields (r : Request) : Source → Dict Json
  | .body => r.body
  | .query => r.query
  | .path => r.params
  | .local => r.locals

/-- The value of a field; null if there is none. -/
def field (r : Request) (source : Source) (name : String) : Json :=
  ((r.fields source).get? name).getD .null

def setLocal (r : Request) (name : String) (value : Json) : Request :=
  { r with locals := r.locals.insert name value }

/-- The first value of a header. Case does not matter in header names. -/
def header? (r : Request) (name : String) : Option String :=
  (r.headers.find? fun h => h.1.toLower = name.toLower).map (·.2)

theorem field_setLocal (r : Request) (name : String) (value : Json) (source : Source)
    (other : String) :
    (r.setLocal name value).field source other =
      if source = .local ∧ name = other then value else r.field source other := by
  cases source
  case «local» => by_cases h : name = other <;> simp [field, fields, setLocal, h]
  all_goals simp [field, fields, setLocal]

end Request

/-! ## Responses -/

inductive Body where
  | json (value : Json)
  /-- A text as it is. -/
  | raw (text : String)
  | empty

structure Response where
  status : Status
  body : Body

namespace Response

def json (status : Status) (value : Json) : Response := ⟨status, .json value⟩

/-- A value outside JSON: a string as it is, null as nothing, anything else as its text. -/
def raw (status : Status) (value : Json) : Response :=
  match value with
  | .null => ⟨status, .empty⟩
  | .str s => ⟨status, .raw s⟩
  | v => ⟨status, .raw v.compact⟩

def bare (status : Status) : Response := ⟨status, .empty⟩

end Response

end DocRoutes
