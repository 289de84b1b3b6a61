import DocRoutes.Controller.Basic
import DocRoutes.Handler.Chain

/-!
# Dispatch

The last handler of a route takes the arguments from the request, calls the method, and encodes
what comes out: a value as the declared result type says, a failure under the failure policy. A
failure leaves a note for the log.
-/

namespace DocRoutes

/-- How a failure is reported to clients. -/
structure FailurePolicy where
  /-- The property that holds the status. -/
  statusProperty : String := Failure.defaultStatusProperty
  /-- What is sent of a failure. A filter that breaks off is not covered. -/
  filter : Failure → Json := Failure.toJson

/-- The arguments for a route, one for each parameter. -/
def Route.arguments (r : Route) (request : Request) : List Json :=
  r.params.map fun p => request.field p.source p.name

def Route.success (r : Route) (value : Json) : Response :=
  if r.returns.isStructured then .json .ok value else .raw .ok value

def FailurePolicy.response (policy : FailurePolicy) (f : Failure) : Response :=
  .json (f.status policy.statusProperty) (policy.filter f)

/-- A route of a controller with the method that it calls. -/
structure Endpoint where
  controller : String
  route : Route
  method : Option Method
  policy : FailurePolicy

namespace Endpoint

def missing (e : Endpoint) : Failure :=
  { message := "Controller " ++ e.controller ++ " has no method " ++ e.route.name }

/-- Call the method. A method that is missing is a failure of each call. -/
def result (e : Endpoint) (request : Request) : Except Failure Json :=
  match e.method with
  | some m => m.invoke (e.route.arguments request)
  | none => .error e.missing

def failedEvent (e : Endpoint) (f : Failure) : MethodFailed where
  controller := e.controller
  method := e.route.name
  message := f.message
  status := (e.policy.response f).status
  trace := f.trace
  details := f.toJson.compact

def dispatch (e : Endpoint) (request : Request) : Served :=
  match e.result request with
  | .ok value => ⟨e.route.success value, []⟩
  | .error f => ⟨e.policy.response f, [.methodFailed (e.failedEvent f)]⟩

/-- The endpoint as the last handler of a chain: it always answers. -/
def toHandler (e : Endpoint) : Handler where
  handle request :=
    let served := e.dispatch request
    (.answer served.response, served.notes)

theorem run_toHandler (e : Endpoint) (rest : Chain) (request : Request) :
    Chain.run (e.toHandler :: rest) request = e.dispatch request :=
  Chain.run_cons_of_answer rfl rest

end Endpoint

end DocRoutes
