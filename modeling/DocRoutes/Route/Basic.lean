import DocRoutes.Text.Blank

/-!
# Routes

A route binds an HTTP verb and a path to a method of a controller. It says for each parameter of
the method where in a request its value stands, and how the method's result is sent. The routes of
one source unit, in the order of its documentation, make up the description of a controller.
-/

namespace DocRoutes

/-! ## Verbs -/

inductive Verb where
  | get
  | post
  deriving DecidableEq, Repr

namespace Verb

def name : Verb → String
  | .get => "get"
  | .post => "post"

/-- The name in capitals. -/
def capitals : Verb → String
  | .get => "GET"
  | .post => "POST"

/-- An ASCII letter or another character in its lower case; only ASCII letters have one. No
character outside ASCII has a lower case within the names of the verbs. -/
def ofName? (s : String) : Option Verb :=
  let lower := s.toList.map Char.toLower
  if lower = ['g', 'e', 't'] then some .get
  else if lower = ['p', 'o', 's', 't'] then some .post
  else none

end Verb

/-- A name that is no verb. -/
structure InvalidVerb where
  text : String

def InvalidVerb.message (e : InvalidVerb) : String := "Invalid verb: " ++ e.text

def Verb.parse (s : String) : Except InvalidVerb Verb :=
  match Verb.ofName? s with
  | some v => .ok v
  | none => .error ⟨s⟩

/-! ## Parameters -/

/-- Where in a request the value of a parameter stands. -/
inductive Source where
  | path
  | query
  | body
  /-- A property that middleware attaches; a client has no way to set it. -/
  | «local»
  deriving DecidableEq, Repr

def Source.name : Source → String
  | .path => "path"
  | .query => "query"
  | .body => "body"
  | .local => "local"

structure Param where
  name : String
  source : Source
  optional : Bool := false
  description : Option String := none
  types : List String := []
  deriving DecidableEq, Repr

/-- Whether a client may supply the parameter. -/
def Param.isPublic (p : Param) : Bool := p.source != .local

/-! ## Results -/

structure Returns where
  type : String
  description : String := ""
  deriving DecidableEq, Repr

/-- Objects and arrays are sent as JSON, everything else as it is. -/
def Returns.isStructured (r : Returns) : Bool := r.type = "Object" || r.type = "Array"

/-! ## Routes and controllers -/

structure Route where
  /-- The method of the controller. -/
  name : String
  description : String
  verb : Verb
  path : String
  params : List Param
  returns : Returns
  deriving DecidableEq, Repr

namespace Route

/-- The parameters in short, `path:id, body:email`. -/
def signature (r : Route) : String :=
  ", ".intercalate (r.params.map fun p => p.source.name ++ ":" ++ p.name)

/-- Verb and path, `get /users/:id`. -/
def line (r : Route) : String := r.verb.name ++ " " ++ r.path

def publicNames (r : Route) : List String := (r.params.filter (·.isPublic)).map (·.name)

end Route

/-- A named group of routes. -/
structure ControllerDoc where
  name : String
  description : String
  routes : List Route
  deriving DecidableEq, Repr

/-- The first route of a method. -/
def ControllerDoc.route? (c : ControllerDoc) (method : String) : Option Route :=
  c.routes.find? (·.name = method)

end DocRoutes
