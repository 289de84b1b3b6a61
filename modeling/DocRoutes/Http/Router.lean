import DocRoutes.Http.Form
import DocRoutes.Http.Pattern
import DocRoutes.Http.Sink
import DocRoutes.Http.Target
import DocRoutes.Json.Reader

/-!
# The HTTP router

The router holds one entry for each path pattern, with the chains that serve its verbs. A request
is matched by its path alone; then the method selects the chain. `HEAD` runs the chain of `GET`
and drops the body. The chain sees the body as the fields of a JSON object, the query as a form,
and the texts that the wildcards of the pattern stand for, decoded; it starts without local fields.
-/

namespace DocRoutes

open Text

/-! ## Registration -/

structure RouterEntry where
  path : String
  pattern : Pattern
  /-- The verbs in the order of registration. -/
  chains : List (Verb × Chain)

structure Router where
  entries : List RouterEntry := []

inductive RouterError where
  | pattern (cause : PatternError)
  | taken (existing : String)

def RouterError.message : RouterError → String
  | .pattern cause => cause.message
  | .taken existing => "it collides with " ++ existing

namespace Router

/-- Add a chain to the entry of a path. -/
def join (path : String) (verb : Verb) (chain : Chain) (e : RouterEntry) : RouterEntry :=
  if e.path = path then { e with chains := e.chains ++ [(verb, chain)] } else e

/-- Add a route: to the entry of its path, or as a new entry if its pattern fits in. -/
def insert (r : Router) (verb : Verb) (path : String) (chain : Chain) :
    Except RouterError Router :=
  if r.entries.any (·.path = path) then .ok ⟨r.entries.map (join path verb chain)⟩
  else match Pattern.parse path with
    | .error cause => .error (.pattern cause)
    | .ok pattern =>
      match r.entries.find? (·.pattern.conflict pattern) with
      | some e => .error (.taken e.path)
      | none => .ok ⟨r.entries ++ [⟨path, pattern, [(verb, chain)]⟩]⟩

end Router

/-- A table of routes in front of an HTTP router. -/
abbrev HttpTable := SinkTable Router

namespace HttpTable

def empty : HttpTable := { router := {} }

/-- The sink that builds the table. -/
def sink : Sink HttpTable where
  register t verb path chain :=
    t.register (fun r v p c => (r.insert v p c).mapError (·.message)) verb path chain

end HttpTable

/-! ## Requests on the wire -/

structure WireRequest where
  method : String
  target : Target
  headers : List (String × String) := []
  body : Bytes := []

structure WireResponse where
  status : Status
  contentType : Option String := none
  /-- The methods allowed, where another was asked for. -/
  allow : Option String := none
  body : String := ""

namespace WireResponse

def ofResponse (r : Response) : WireResponse :=
  match r.body with
  | .json v => { status := r.status, contentType := some "application/json", body := v.compact }
  | .raw t => { status := r.status, contentType := some "text/plain; charset=utf-8", body := t }
  | .empty => { status := r.status }

def dropBody (r : WireResponse) : WireResponse := { r with body := "" }

end WireResponse

/-! ## Bodies -/

inductive BodyError where
  | notJson
  | notObject
  deriving DecidableEq, Repr

def BodyError.message : BodyError → String
  | .notJson => "Invalid JSON body: expected one JSON value in UTF-8"
  | .notObject => "Request body must be a JSON object"

def BodyError.response (e : BodyError) : Response :=
  .json .badRequest (.obj [("message", .str e.message)])

def isBlankByte (b : UInt8) : Bool := b = 0x20 || b = 0x09 || b = 0x0A || b = 0x0C || b = 0x0D

/-- The fields of a body. A body of blanks alone has none. -/
def bodyFields (body : Bytes) : Except BodyError (Dict Json) :=
  if body.all isBlankByte then .ok ∅
  else match Json.readBytes? body with
    | some (.obj fields) => .ok (Dict.ofList fields)
    | some _ => .error .notObject
    | none => .error .notJson

/-! ## Serving -/

/-- Fields with texts as values; of equal names the last wins. -/
def textFields (fields : List (String × String)) : Dict Json :=
  Dict.ofList (fields.map fun (name, value) => (name, .str value))

/-- The values of wildcards. If one of them is not UTF-8 once it is decoded, there are none. -/
def wildcardFields (names texts : List (List Char)) : Dict Json :=
  match (texts.map percentDecode).mapM utf8Text? with
  | some values => textFields ((names.map String.ofList).zip values)
  | none => ∅

/-- The request that the chain of an entry gets. -/
def RouterEntry.request (e : RouterEntry) (texts : List (List Char)) (w : WireRequest)
    (body : Dict Json) : Request where
  path := .ofList w.target.path
  headers := w.headers
  body := body
  query := textFields (formFields w.target.query)
  params := wildcardFields e.pattern.names texts

/-- Run a chain if the body is fit for it. -/
def RouterEntry.serve (e : RouterEntry) (chain : Chain) (texts : List (List Char))
    (w : WireRequest) : WireResponse × List Note :=
  match bodyFields w.body with
  | .error cause => (.ofResponse cause.response, [])
  | .ok body =>
    let served := chain.run (e.request texts w body)
    (.ofResponse served.response, served.notes)

def RouterEntry.chain? (e : RouterEntry) (verb : Verb) : Option Chain :=
  (e.chains.find? (·.1 = verb)).map (·.2)

/-- The methods that an entry allows. -/
def RouterEntry.allow (e : RouterEntry) : String :=
  ",".intercalate (e.chains.map fun c =>
    match c.1 with
    | .get => "GET,HEAD"
    | .post => "POST")

def isTokenChar (c : Char) : Bool := c.isAlphanum || "!#$%&'*+-.^_\x60|~".toList.contains c

/-- Read the first line of a request; `none` if its method is no token or its target is refused. -/
def WireRequest.parse? (method target : String) (headers : List (String × String)) (body : Bytes) :
    Option WireRequest :=
  if !method.isEmpty && method.toList.all isTokenChar then
    (Target.parse? target).map fun target => { method, target, headers, body }
  else none

/-- The verb whose chain answers a method. Method names are in capitals. -/
def verbOfMethod? (method : String) : Option Verb :=
  if method = "GET" ∨ method = "HEAD" then some .get
  else if method = "POST" then some .post
  else none

def RouterEntry.answer (e : RouterEntry) (texts : List (List Char)) (w : WireRequest) :
    WireResponse × List Note :=
  match (verbOfMethod? w.method).bind e.chain? with
  | some chain => e.serve chain texts w
  | none => ({ status := .methodNotAllowed, allow := some e.allow }, [])

/-- The entry that a path matches, with the texts of its wildcards. -/
def Router.lookup? (r : Router) (path : List Char) : Option (RouterEntry × List (List Char)) :=
  Candidates.find (r.entries.map fun e => (e.pattern, e)) path

def Router.answer (r : Router) (w : WireRequest) : WireResponse × List Note :=
  let (response, notes) := match r.lookup? w.target.path with
    | some (e, texts) => e.answer texts w
    | none => ({ status := .notFound }, [])
  (if w.method = "HEAD" then response.dropBody else response, notes)

end DocRoutes
