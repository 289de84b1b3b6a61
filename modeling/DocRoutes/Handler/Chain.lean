import DocRoutes.Http.Message
import DocRoutes.Log

/-!
# Handlers and chains

A handler answers a request itself, or it passes a request on and afterwards makes a response of
what comes back. So a handler passes on at most once. On the way it may leave notes.

To pass on is to call `next` and to await what it gives back. That is lazy: nothing behind the handler
runs before it is awaited, so that a handler which drops it answers by itself. A handler that awaits
it awaits it to the end; handlers that stop at a deadline, or leave the rest running while they
answer, are not covered.

A chain runs its handlers in order. When the last one passes the request on too, the answer is
404 without a body.

Main results: a chain is the nesting of its handlers (`run_append`), and a chain whose handlers all
answer themselves runs its first one alone (`run_cons_of_answer`).
-/

namespace DocRoutes

/-! ## Notes -/

/-- A method that failed while it served a request. -/
structure MethodFailed where
  controller : String
  method : String
  message : String
  status : Status
  trace : Option String
  /-- The failure as JSON text. -/
  details : String

def MethodFailed.toLog (e : MethodFailed) : Log.Event :=
  ⟨.error, "Controller method failed: " ++ e.message,
    [("controller", e.controller), ("method", e.method), ("status", toString e.status.code),
      ("trace", Log.orNone e.trace), ("details", e.details)]⟩

/-- What handlers leave behind besides the response. -/
inductive Note where
  | mark (label : String)
  | methodFailed (event : MethodFailed)

def Note.mark? : Note → Option String
  | .mark label => some label
  | _ => none

def Note.event? : Note → Option MethodFailed
  | .methodFailed event => some event
  | _ => none

/-! ## Handlers -/

/-- A response and the notes left on the way to it, in order. -/
structure Served where
  response : Response
  notes : List Note := []

inductive Action where
  /-- Answer without a call of `next`. -/
  | answer (response : Response)
  /-- Pass a request on; `finish` makes a response of the one that comes back. -/
  | pass (request : Request) (finish : Response → Served)
  /-- Call `next` with a request, drop what it gives back without awaiting it, and answer. -/
  | drop (request : Request) (response : Response)

structure Handler where
  /-- What to do with a request, and the notes left before doing it. -/
  handle : Request → Action × List Note

/-! ## Chains -/

abbrev Chain := List Handler

namespace Chain

def fallThrough : Served := ⟨.bare .notFound, []⟩

/-- Run the handlers, then `last` on the request that the last handler passes on. -/
def runThen (last : Request → Served) : Chain → Request → Served
  | [], request => last request
  | h :: rest, request =>
    let (action, before) := h.handle request
    match action with
    | .answer response | .drop _ response => ⟨response, before⟩
    | .pass request finish =>
      let inner := runThen last rest request
      let outer := finish inner.response
      ⟨outer.response, before ++ inner.notes ++ outer.notes⟩

def run (c : Chain) (request : Request) : Served := c.runThen (fun _ => fallThrough) request

theorem runThen_append (last : Request → Served) (c d : Chain) (request : Request) :
    (c ++ d).runThen last request = c.runThen (d.runThen last) request := by
  induction c generalizing request with
  | nil => rfl
  | cons h c ih =>
    simp only [List.cons_append, runThen]
    cases h.handle request with
    | mk action before => cases action <;> simp [ih]

theorem run_append (c d : Chain) (request : Request) :
    run (c ++ d) request = c.runThen (run d) request :=
  runThen_append _ c d request

theorem run_cons_of_answer {h : Handler} {request : Request} {response : Response}
    {notes : List Note} (hh : h.handle request = (.answer response, notes)) (rest : Chain) :
    run (h :: rest) request = ⟨response, notes⟩ := by
  simp [run, runThen, hh]

end Chain

end DocRoutes
