import DocRoutes.Handler.Chain
import DocRoutes.Text.Quoted

/-!
# Sinks for routes

A sink takes routes one after the other: a verb, a path and the chain that serves it. The sink
here keeps a table of what it has taken and hands each route on to a router, whatever kind of
router that is. It refuses a path that does not begin with a slash, a verb and path that it has
taken already, a path that names a parameter differently from an earlier path with the same
segments before it, and a path that the router refuses, in this order. What it refuses leaves it
as it was. A sink that breaks off while it takes a route is not covered.
-/

namespace DocRoutes

open Text

/-! ## Errors -/

inductive SinkError where
  | relativePath (path : String)
  | duplicate (verb : Verb) (path : String)
  | conflict (path existing : String)
  | rejected (path reason : String)
  deriving DecidableEq, Repr

def SinkError.message : SinkError → String
  | .relativePath path => "Route path " ++ quoted path ++ " must start with '/'"
  | .duplicate verb path => "Route " ++ verb.name ++ " " ++ path ++ " is already registered"
  | .conflict path existing => "Route path " ++ path ++ " conflicts with " ++ existing
  | .rejected path reason => "Route path " ++ path ++ " rejected: " ++ reason

/-! ## Sinks -/

/-- A sink as its users see it: a state, and a way to register a route. -/
structure Sink (σ : Type) where
  register : σ → Verb → String → Chain → Except SinkError σ

/-- A sink that writes down what it takes, with the lengths of the chains. It refuses some paths,
as if they were relative. -/
def Sink.recording (refused : List String) : Sink (List (Verb × String × Nat)) where
  register taken verb path chain :=
    if path ∈ refused then .error (.relativePath path)
    else .ok (taken ++ [(verb, path, chain.length)])

/-! ## Differing names of parameters -/

def segments (path : String) : List (List Char) := splitAt '/' path.toList

def isParamSegment (segment : List Char) : Bool := segment.head? = some ':'

/-- Whether the segments differ first at a place where both are parameters. -/
def paramsDiffer : List (List Char) → List (List Char) → Bool
  | a :: as, b :: bs =>
    if a = b then paramsDiffer as bs else isParamSegment a && isParamSegment b
  | _, _ => false

theorem paramsDiffer_comm (as bs : List (List Char)) : paramsDiffer as bs = paramsDiffer bs as := by
  induction as generalizing bs with
  | nil => cases bs <;> rfl
  | cons a as ih =>
    cases bs with
    | nil => rfl
    | cons b bs =>
      by_cases h : a = b
      · subst h; simp [paramsDiffer, ih bs]
      · simp [paramsDiffer, h, Ne.symm h, Bool.and_comm]

/-! ## The table in front of a router -/

structure SinkTable (ρ : Type) where
  router : ρ
  /-- The routes taken, as a set. -/
  seen : List (Verb × String) := []
  /-- The routes taken, in order. -/
  routes : List (Verb × String) := []

namespace SinkTable

variable {ρ : Type}

/-- The first path taken that names a parameter differently. -/
def conflicting? (t : SinkTable ρ) (path : String) : Option String :=
  (t.routes.find? fun r => paramsDiffer (segments r.2) (segments path)).map (·.2)

/-- Take a route, where `insert` adds it to the router or gives the reason not to. What the table
has become by the time of an error stays. -/
def registerM (insert : ρ → Verb → String → Chain → Except String ρ) (verb : Verb) (path : String)
    (chain : Chain) : ExceptT SinkError (StateM (SinkTable ρ)) Unit := do
  if path.toList.head? ≠ some '/' then throw (.relativePath path)
  let t ← get
  if (verb, path) ∈ t.seen then throw (.duplicate verb path)
  if let some existing := t.conflicting? path then throw (.conflict path existing)
  match insert t.router verb path chain with
  | .error reason => throw (.rejected path reason)
  | .ok router => modify ({ · with router })
  modify fun t => { t with seen := t.seen.insert (verb, path) }
  modify fun t => { t with routes := t.routes ++ [(verb, path)] }

/-- The table with one more route. -/
def register (insert : ρ → Verb → String → Chain → Except String ρ) (t : SinkTable ρ) (verb : Verb)
    (path : String) (chain : Chain) : Except SinkError (SinkTable ρ) :=
  match (registerM insert verb path chain).run t with
  | (.ok (), t) => .ok t
  | (.error e, _) => .error e

end SinkTable

end DocRoutes
