import DocRoutes.Configuration
import DocRoutes.Controller.Registry
import DocRoutes.Handler.Dispatch
import DocRoutes.Handler.Index
import DocRoutes.Http.Router
import DocRoutes.Load.Queue

/-!
# Assembling an application

An assembly gathers what makes up an application: the queue of loads, the registry of loaded
controllers, middleware and settings. Units are added at any time. Whoever asks for the
documentation, the controllers or the routes first settles the assembly: it waits for all loads
and enters those not entered before into the registry, in the order of the queue. If a load has
failed, every such request answers with the first failure, and nothing is mounted.

Main results: the settled registry holds the documentation of exactly the units loaded
(`docs_replayAll`), and settling enters every queued load once (`replayed_settle`).
-/

namespace DocRoutes

/-! ## Errors and events -/

inductive AssemblyError where
  /-- Routes were asked for before any load was requested. -/
  | nothingIncluded
  | load (error : LoadError)
  | config (error : ConfigError)
  deriving DecidableEq, Repr

def AssemblyError.message : AssemblyError → String
  | .nothingIncluded =>
    "No controller units included; call include() before registering routes"
  | .load error => error.message
  | .config error => "Configuration error: " ++ error.message

/-- What an assembly reports. -/
inductive AssemblyEvent where
  | merged (event : Merged)
  | loadFailed (error : LoadError)
  /-- A route is about to be registered. -/
  | offered (controller : String) (route : Route)
  /-- The sink refused a route. -/
  | skipped (controller method : String) (error : SinkError)
  | mounted (routes controllers : Nat)

def AssemblyEvent.toLog : AssemblyEvent → Log.Event
  | .merged event => event.toLog
  | .loadFailed error => ⟨.error, "Controller unit failed to load", [("error", error.message)]⟩
  | .offered controller route =>
    ⟨.debug, route.verb.capitals ++ " " ++ route.path ++ " => " ++ controller ++ "." ++ route.name ++
      " (" ++ route.signature ++ ")", []⟩
  | .skipped controller method error =>
    ⟨.warn, "Skipping route: " ++ error.message,
      [("controller", controller), ("method", method)]⟩
  | .mounted routes controllers =>
    ⟨.info, "Routes registered",
      [("routes", toString routes), ("controllers", toString controllers)]⟩

/-! ## Adding units -/

/-- How many of the added units were loaded, and how many had no file. -/
structure LoadSummary where
  loaded : Nat := 0
  skipped : Nat := 0
  deriving DecidableEq, Repr

/-- The summary of outcomes, or the first failure among them. -/
def LoadSummary.ofOutcomes : List LoadOutcome → Except LoadError LoadSummary
  | [] => .ok {}
  | .error e :: _ => .error e
  | .ok unit :: rest =>
    (ofOutcomes rest).map fun s =>
      if unit.isSome then { s with loaded := s.loaded + 1 } else { s with skipped := s.skipped + 1 }

structure Assembly where
  loader : Loader
  policy : FailurePolicy := {}
  middleware : MiddlewareIndex := {}
  queue : LoadQueue := {}
  registry : Registry := {}
  /-- How many units of the queue were entered into the registry. -/
  replayed : Nat := 0
  /-- The failures among those, in order. -/
  failures : List LoadError := []

namespace Assembly

def withConfiguration (a : Assembly) (c : Configuration) : Assembly :=
  { a with
    loader := { a.loader with suffix := c.sourceSuffix }
    policy := { a.policy with statusProperty := c.statusProperty } }

/-- Queue the loads of some paths; the handles come in their order. -/
def enqueueAll (loader : Loader) (files : Files) (args : List Json) (queue : LoadQueue) :
    List String → LoadQueue × List (Pending LoadOutcome)
  | [] => (queue, [])
  | path :: rest =>
    let (queue, handle) := queue.enqueue path (loader.task files path args)
    let (queue, handles) := enqueueAll loader files args queue rest
    (queue, handle :: handles)

/-- What comes of adding units, once all their loads have ended. -/
abbrev Addition := Pending (Except AssemblyError LoadSummary)

/-- Request the loads of some paths, with arguments for the resolver. -/
def addUnits (a : Assembly) (files : Files) (paths : List String) (args : List Json) :
    Assembly × Addition :=
  let (queue, handles) := enqueueAll a.loader files args a.queue.request paths
  ({ a with queue },
    (Pending.all handles).map fun outcomes =>
      (LoadSummary.ofOutcomes outcomes).mapError .load)

/-! ## Settling -/

/-- Enter the outcome of one load. -/
def replay (a : Assembly) (outcome : LoadOutcome) : Assembly × List AssemblyEvent :=
  let a := { a with replayed := a.replayed + 1 }
  match outcome with
  | .ok (some unit) =>
    let (registry, merged) := a.registry.register unit.doc unit.controller
    ({ a with registry }, (merged.map .merged).toList)
  | .ok none => (a, [])
  | .error e => ({ a with failures := a.failures ++ [e] }, [.loadFailed e])

def replayAll (a : Assembly) : List LoadOutcome → Assembly × List AssemblyEvent
  | [] => (a, [])
  | outcome :: rest =>
    let (a, events) := a.replay outcome
    let (a, more) := a.replayAll rest
    (a, events ++ more)

/-- Wait for all loads and enter those that were not entered before. -/
def settle (a : Assembly) : Assembly × List AssemblyEvent :=
  a.replayAll (a.queue.settledFrom a.replayed).wait

/-- What an assembly answers, with the state that it is in afterwards. -/
structure Reply (α : Type) where
  assembly : Assembly
  events : List AssemblyEvent
  result : Except AssemblyError α

/-- Settle and then answer, unless a load has failed. -/
def afterSettling {α : Type} (a : Assembly) (answer : Assembly → List AssemblyEvent × α) :
    Reply α :=
  let (a, events) := a.settle
  match a.failures with
  | e :: _ => ⟨a, events, .error (.load e)⟩
  | [] =>
    let (more, value) := answer a
    ⟨a, events ++ more, .ok value⟩

/-- The documentation of all units. -/
def mapping (a : Assembly) : Reply (List ControllerDoc) :=
  a.afterSettling fun a => ([], a.registry.docs)

/-- The live controllers. -/
def api (a : Assembly) : Reply Registry := a.afterSettling fun a => ([], a.registry)

/-! ## Mounting -/

/-- The chain that serves a route: middleware, and then the method. -/
def chainFor (a : Assembly) (controller : String) (route : Route) : Chain :=
  let endpoint : Endpoint :=
    { controller, route, method := a.registry.method? controller route.name, policy := a.policy }
  a.middleware.chainFor controller route.name ++ [endpoint.toHandler]

/-- A sink while routes are registered with it. -/
structure Mounting (σ : Type) where
  state : σ
  count : Nat := 0
  events : List AssemblyEvent := []

/-- Offer one route to a sink. A route that the sink refuses is skipped. -/
def offer {σ : Type} (a : Assembly) (sink : Sink σ) (m : Mounting σ) (controller : String)
    (route : Route) : Mounting σ :=
  let offered := AssemblyEvent.offered controller route
  match sink.register m.state route.verb route.path (a.chainFor controller route) with
  | .ok state => ⟨state, m.count + 1, m.events ++ [offered]⟩
  | .error e => { m with events := m.events ++ [offered, .skipped controller route.name e] }

/-- Offer all routes, unit by unit. -/
def offerAll {σ : Type} (a : Assembly) (sink : Sink σ) (state : σ) : Mounting σ :=
  a.registry.docs.foldl (fun m doc => doc.routes.foldl (fun m route => a.offer sink m doc.name route) m)
    { state }

/-- What a mount answers, the number of routes that the sink took, with the state that the sink is in
afterwards. -/
structure MountReply (σ : Type) extends Reply Nat where
  sink : σ

/-- Register all routes with a sink. Nothing is offered to it if units have failed to load, or if
none were ever requested. -/
def mount {σ : Type} (a : Assembly) (sink : Sink σ) (state : σ) : MountReply σ :=
  if a.queue.wasRequested then
    let reply := a.afterSettling fun a =>
      let m := a.offerAll sink state
      (m.events ++ [.mounted m.count a.registry.controllers.size], m)
    { assembly := reply.assembly
      events := reply.events
      result := reply.result.map (·.count)
      sink := match reply.result with
        | .ok m => m.state
        | .error _ => state }
  else ⟨⟨a, [], .error .nothingIncluded⟩, state⟩

/-- The HTTP router with all routes. -/
def router (a : Assembly) : Reply Router :=
  let reply := a.mount HttpTable.sink HttpTable.empty
  ⟨reply.assembly, reply.events, reply.result.map fun _ => reply.sink.router⟩

/-! ## Laws -/

@[simp] theorem replayed_replay (a : Assembly) (outcome : LoadOutcome) :
    (a.replay outcome).1.replayed = a.replayed + 1 := by
  match outcome with
  | .ok (some _) => rfl
  | .ok none => rfl
  | .error _ => rfl

@[simp] theorem queue_replay (a : Assembly) (outcome : LoadOutcome) :
    (a.replay outcome).1.queue = a.queue := by
  match outcome with
  | .ok (some _) => rfl
  | .ok none => rfl
  | .error _ => rfl

/-- The documentation that an outcome adds. -/
def docOf : LoadOutcome → Option ControllerDoc
  | .ok unit => unit.map (·.doc)
  | .error _ => none

@[simp] theorem docs_replay (a : Assembly) (outcome : LoadOutcome) :
    (a.replay outcome).1.registry.docs = a.registry.docs ++ (docOf outcome).toList := by
  match outcome with
  | .ok (some _) => simp [replay, docOf]
  | .ok none => simp [replay, docOf]
  | .error _ => simp [replay, docOf]

@[simp] theorem replayed_replayAll (a : Assembly) (outcomes : List LoadOutcome) :
    (a.replayAll outcomes).1.replayed = a.replayed + outcomes.length := by
  induction outcomes generalizing a with
  | nil => rfl
  | cons o rest ih => simp [replayAll, ih]; omega

theorem docs_replayAll (a : Assembly) (outcomes : List LoadOutcome) :
    (a.replayAll outcomes).1.registry.docs = a.registry.docs ++ outcomes.filterMap docOf := by
  induction outcomes generalizing a with
  | nil => simp [replayAll]
  | cons o rest ih =>
    simp only [replayAll, ih, docs_replay]
    cases h : docOf o <;> simp [h]

/-- Settling enters every queued load, if no more were entered before than are queued. -/
theorem replayed_settle (a : Assembly) (h : a.replayed ≤ a.queue.size) :
    a.settle.1.replayed = a.queue.size := by
  simp only [LoadQueue.size] at h ⊢
  simp [settle, LoadQueue.wait_settledFrom, Nat.add_sub_cancel' h]

theorem afterSettling_of_failure {α : Type} {a : Assembly} {e : LoadError} {rest : List LoadError}
    (h : a.settle.1.failures = e :: rest) (answer : Assembly → List AssemblyEvent × α) :
    a.afterSettling answer = ⟨a.settle.1, a.settle.2, .error (.load e)⟩ := by
  simp [afterSettling, h]

theorem afterSettling_of_loaded {α : Type} {a : Assembly} (h : a.settle.1.failures = [])
    (answer : Assembly → List AssemblyEvent × α) :
    a.afterSettling answer =
      ⟨a.settle.1, a.settle.2 ++ (answer a.settle.1).1, .ok (answer a.settle.1).2⟩ := by
  simp [afterSettling, h]

/-- Before any request a mount settles nothing. -/
theorem mount_of_not_requested {σ : Type} {a : Assembly}
    (h : a.queue.wasRequested = false) (sink : Sink σ) (state : σ) :
    a.mount sink state = ⟨⟨a, [], .error .nothingIncluded⟩, state⟩ := by
  simp [mount, h]

theorem mount_of_failure {σ : Type} {a : Assembly} (hrequested : a.queue.wasRequested = true)
    {e : LoadError} {rest : List LoadError} (hfailures : a.settle.1.failures = e :: rest)
    (sink : Sink σ) (state : σ) :
    a.mount sink state = ⟨⟨a.settle.1, a.settle.2, .error (.load e)⟩, state⟩ := by
  rw [mount, if_pos hrequested, afterSettling_of_failure hfailures]
  rfl

/-- What a mount of loaded units replies. -/
theorem mount_of_requested {σ : Type} {a : Assembly} (hrequested : a.queue.wasRequested = true)
    (hloaded : a.settle.1.failures = []) (sink : Sink σ) (state : σ) :
    a.mount sink state =
      let m := a.settle.1.offerAll sink state
      ⟨⟨a.settle.1, a.settle.2 ++ (m.events ++
        [.mounted m.count a.settle.1.registry.controllers.size]), .ok m.count⟩, m.state⟩ := by
  rw [mount, if_pos hrequested, afterSettling_of_loaded hloaded]
  rfl

/-- A mount that fails leaves the sink as it was. -/
theorem sink_mount_of_error {σ : Type} {a : Assembly} {sink : Sink σ} {state : σ}
    {e : AssemblyError} (h : (a.mount sink state).result = .error e) :
    (a.mount sink state).sink = state := by
  cases hrequested : a.queue.wasRequested with
  | false => rw [mount_of_not_requested hrequested]
  | true =>
    cases hfailures : a.settle.1.failures with
    | cons e rest => rw [mount_of_failure hrequested hfailures]
    | nil =>
      rw [mount_of_requested hrequested hfailures] at h
      cases h

end Assembly

end DocRoutes
