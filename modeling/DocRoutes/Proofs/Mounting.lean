import DocRoutes.Controller.Stock
import DocRoutes.Handler.Stock
import DocRoutes.Proofs.Merging

/-!
# Mounting the routes of all units

A mount offers the routes of an assembly to a sink, one after the other. The sink takes a route or
refuses it, and a sink that refuses a route stays as it was.

**The assembly** (`Assembly.Reachable`). Units are added, loads go on, middleware and settings are
changed, and inquiries are answered, in any order.

**What is offered** (`Assembly.offers`). The routes of the loaded units in the order of the queue,
those of one unit in the order of its documentation, each with its chain. This does not depend on
the sink.

**What the sink does** (`Sink.Transcript`). The offers with the answers of the sink. Without the
offers that were refused the sink ends in the same state (`Transcript.accepted`).

**What a route serves.** Its chain is the middleware of the route and a last handler, which answers
with what a direct call of the method comes to (`Endpoint.dispatch_of_method`). The method is that
of the last unit of the controller's name that has it (`Registry.method?_registerAll`).

Main result: `mount_of_loaded`.
-/

namespace DocRoutes

/-! ## Assemblies -/

/-- The assemblies that can come about. -/
inductive Assembly.Reachable : Assembly → Prop
  | fresh (loader : Loader) (policy : FailurePolicy) (middleware : MiddlewareIndex) :
      Reachable { loader, policy, middleware }
  | addUnits {a : Assembly} (files : Files) (paths : List String) (args : List Json) :
      Reachable a → Reachable (a.addUnits files paths args).1
  /-- One load goes on. -/
  | advance {a : Assembly} (index : Nat) : Reachable a → Reachable (a.advance index)
  /-- An inquiry is answered, once all loads have ended. -/
  | ask {a : Assembly} (inquiry : Inquiry) :
      Reachable a → a.ready → Reachable (inquiry.serve a)
  | configure {a : Assembly} (loader : Loader) (policy : FailurePolicy)
      (middleware : MiddlewareIndex) :
      Reachable a → Reachable { a with loader, policy, middleware }

theorem Assembly.Reachable.entered {a : Assembly} (h : a.Reachable) : a.Entered := by
  induction h with
  | fresh loader policy middleware => exact entered_fresh loader policy middleware
  | addUnits files paths args _ ih => exact ih.addUnits files paths args
  | advance index _ ih => exact ih.advance index
  | ask inquiry _ hready ih =>
    rw [inquiry.serve_eq_settle ih]
    exact ih.settle hready
  | configure loader policy middleware _ ih =>
    exact {
      idle := ih.idle
      le := ih.le
      ended := ih.ended
      registry := ih.registry
      failures := ih.failures }

/-! ## Offers -/

/-- A route of a controller that is offered to a sink, with the chain that serves it. -/
structure Offer where
  controller : String
  route : Route
  chain : Chain

/-- What is reported of an offer and of the answer to it. -/
def Offer.report (o : Offer) : Option SinkError → List AssemblyEvent
  | none => [.offered o.controller o.route]
  | some e => [.offered o.controller o.route, .skipped o.controller o.route.name e]

namespace Sink

variable {σ : Type} {sink : Sink σ}

/-- The sink is asked to take what is offered. -/
def answer (sink : Sink σ) (state : σ) (o : Offer) : Except SinkError σ :=
  sink.register state o.route.verb o.route.path o.chain

/-- Offers made to a sink one after the other, each with the error if the sink refuses it. What the
sink refuses leaves it as it was. -/
inductive Transcript (sink : Sink σ) : σ → List (Offer × Option SinkError) → σ → Prop
  | nil (state : σ) : Transcript sink state [] state
  | taken {state next final : σ} {o : Offer} {rest : List (Offer × Option SinkError)} :
      sink.answer state o = .ok next → Transcript sink next rest final →
      Transcript sink state ((o, none) :: rest) final
  | refused {state final : σ} {o : Offer} {e : SinkError}
      {rest : List (Offer × Option SinkError)} :
      sink.answer state o = .error e → Transcript sink state rest final →
      Transcript sink state ((o, some e) :: rest) final

/-- The offers that were taken. -/
def accepted (transcript : List (Offer × Option SinkError)) : List (Offer × Option SinkError) :=
  transcript.filter (·.2.isNone)

/-- Without the offers that it refused, the sink ends in the same state. -/
theorem Transcript.accepted {transcript : List (Offer × Option SinkError)} {state final : σ}
    (h : sink.Transcript state transcript final) :
    sink.Transcript state (accepted transcript) final := by
  induction h with
  | nil state => exact .nil state
  | taken hanswer _ ih => exact .taken hanswer ih
  | refused _ _ ih => exact ih

end Sink

namespace Assembly

/-- One offer within a mount. -/
def Mounting.offer {σ : Type} (sink : Sink σ) (m : Mounting σ) (o : Offer) : Mounting σ :=
  match sink.answer m.state o with
  | .ok state => ⟨state, m.count + 1, m.events ++ o.report none⟩
  | .error e => { m with events := m.events ++ o.report (some e) }

/-- What a mount does to a sink is told by a transcript of the offers. -/
theorem Mounting.exists_transcript {σ : Type} (sink : Sink σ) (m : Mounting σ)
    (offers : List Offer) :
    ∃ transcript, transcript.map (·.1) = offers ∧
      sink.Transcript m.state transcript (offers.foldl (Mounting.offer sink) m).state ∧
      (offers.foldl (Mounting.offer sink) m).count =
        m.count + (Sink.accepted transcript).length ∧
      (offers.foldl (Mounting.offer sink) m).events =
        m.events ++ transcript.flatMap fun t => t.1.report t.2 := by
  induction offers generalizing m with
  | nil => exact ⟨[], rfl, .nil m.state, rfl, (List.append_nil _).symm⟩
  | cons o rest ih =>
    obtain ⟨transcript, hoffers, htranscript, hcount, hevents⟩ := ih (m.offer sink o)
    rw [List.foldl_cons]
    cases hanswer : sink.answer m.state o with
    | ok state =>
      have hoffer : m.offer sink o = ⟨state, m.count + 1, m.events ++ o.report none⟩ := by
        simp [Mounting.offer, hanswer]
      rw [hoffer] at htranscript hcount hevents ⊢
      refine ⟨(o, none) :: transcript, ?_, .taken hanswer htranscript, ?_, ?_⟩
      · rw [List.map_cons, hoffers]
      · rw [hcount]
        show m.count + 1 + (Sink.accepted transcript).length =
          m.count + ((Sink.accepted transcript).length + 1)
        omega
      · rw [hevents, List.flatMap_cons, List.append_assoc]
    | error e =>
      have hoffer : m.offer sink o = { m with events := m.events ++ o.report (some e) } := by
        simp [Mounting.offer, hanswer]
      rw [hoffer] at htranscript hcount hevents ⊢
      refine ⟨(o, some e) :: transcript, ?_, .refused hanswer htranscript, ?_, ?_⟩
      · rw [List.map_cons, hoffers]
      · rw [hcount]
        rfl
      · rw [hevents, List.flatMap_cons, List.append_assoc]

/-- What is offered of some documentation: the routes in order, each with its chain. -/
def offers (a : Assembly) (docs : List ControllerDoc) : List Offer :=
  docs.flatMap fun doc => doc.routes.map fun route =>
    ⟨doc.name, route, a.chainFor doc.name route⟩

theorem offerAll_eq_foldl {σ : Type} (a : Assembly) (sink : Sink σ) (state : σ) :
    a.offerAll sink state = (a.offers a.registry.docs).foldl (Mounting.offer sink) { state } := by
  have hoffer (m : Mounting σ) (doc : ControllerDoc) (route : Route) :
      a.offer sink m doc.name route =
        m.offer sink ⟨doc.name, route, a.chainFor doc.name route⟩ := rfl
  simp only [offerAll, offers, List.foldl_flatMap, List.foldl_map, hoffer]

/-- Settling leaves middleware and policy alone. -/
theorem settings_replayAll (a : Assembly) (outcomes : List LoadOutcome) :
    (a.replayAll outcomes).1.middleware = a.middleware ∧
      (a.replayAll outcomes).1.policy = a.policy := by
  induction outcomes generalizing a with
  | nil => exact ⟨rfl, rfl⟩
  | cons o rest ih =>
    rw [replayAll_cons]
    match o with
    | .ok (some unit) => exact ih _
    | .ok none => exact ih _
    | .error e => exact ih _

/-- A mount of loaded units is told by a transcript of the offers of all their routes. -/
theorem Entered.exists_transcript {σ : Type} {a : Assembly} (h : a.Entered)
    (hloaded : loadFailures a.outcomes = []) (sink : Sink σ) (state : σ) :
    ∃ transcript final,
      transcript.map (·.1) = a.settle.1.offers ((loadedUnits a.outcomes).map (·.doc)) ∧
      sink.Transcript state transcript final ∧
      (a.mount sink state).sink = final ∧
      (a.mount sink state).result = (if a.queue.wasRequested then
        .ok (Sink.accepted transcript).length else .error .nothingIncluded) ∧
      (a.mount sink state).events = (if a.queue.wasRequested then
        a.settle.2 ++ ((transcript.flatMap fun t => t.1.report t.2) ++
          [.mounted (Sink.accepted transcript).length a.settle.1.registry.controllers.size])
        else []) := by
  cases hrequested : a.queue.wasRequested with
  | true =>
    have hfailures : a.settle.1.failures = [] := h.failures_settle.trans hloaded
    have hdocs : a.settle.1.registry.docs = (loadedUnits a.outcomes).map (·.doc) := by
      rw [h.registry_settle, Registry.docs_registerAll]
      exact List.nil_append _
    obtain ⟨transcript, hoffers, htranscript, hcount, hevents⟩ :=
      Mounting.exists_transcript sink { state } (a.settle.1.offers a.settle.1.registry.docs)
    rw [← offerAll_eq_foldl] at htranscript hcount hevents
    rw [hdocs] at hoffers
    refine ⟨transcript, _, hoffers, htranscript, ?_, ?_, ?_⟩
    · rw [mount_of_requested hrequested hfailures]
    · simp [mount_of_requested hrequested hfailures, hcount]
    · simp [mount_of_requested hrequested hfailures, hcount, hevents]
  | false =>
    refine ⟨[], state, ?_, .nil state, ?_, ?_, ?_⟩
    · simp [outcomes, h.idle hrequested, loadedUnits, offers]
    · rw [mount_of_not_requested hrequested]
    · simp [mount_of_not_requested hrequested]
    · simp [mount_of_not_requested hrequested]

end Assembly

/-! ## What a route serves -/

/-- A result as a client gets it. -/
def Route.encode (route : Route) (policy : FailurePolicy) : Except Failure Json → Response
  | .ok value => route.success value
  | .error f => policy.response f

namespace Endpoint

theorem response_dispatch (e : Endpoint) (request : Request) :
    (e.dispatch request).response = e.route.encode e.policy (e.result request) := by
  unfold dispatch
  split
  · next h => rw [h]; rfl
  · next h => rw [h]; rfl

/-- A route without a method fails with status 500, whatever the policy. -/
theorem status_dispatch_of_missing {e : Endpoint} (h : e.method = none) (request : Request) :
    (e.dispatch request).response.status = .internalError := by
  have hresult : e.result request = .error e.missing := by simp [result, h]
  rw [response_dispatch, hresult]
  rfl

/-- A route answers with what a direct call comes to. -/
theorem dispatch_of_method {e : Endpoint} {r : Registry} {m : Method}
    (h : r.method? e.controller e.route.name = some m) (hmethod : e.method = some m)
    (request : Request) :
    (e.dispatch request).response = e.route.encode e.policy
      (r.call e.controller e.route.name (e.route.arguments request)) := by
  rw [response_dispatch, Registry.call_of_method? h]
  simp [result, hmethod]

end Endpoint

/-- The chain of a route is its middleware and a last handler that answers every request: with what
a direct call of the method comes to, and with status 500 if there is no such method. -/
theorem Assembly.chainFor_answers (a : Assembly) (controller : String) (route : Route) :
    ∃ last : Handler,
      a.chainFor controller route = a.middleware.chainFor controller route.name ++ [last] ∧
      ∀ request, ∃ response notes, last.handle request = (.answer response, notes) ∧
        (a.registry.method? controller route.name ≠ none → response = route.encode a.policy
          (a.registry.call controller route.name (route.arguments request))) ∧
        (a.registry.method? controller route.name = none →
          response.status = .internalError) := by
  let e : Endpoint :=
    { controller, route, method := a.registry.method? controller route.name, policy := a.policy }
  refine ⟨e.toHandler, rfl, fun request => ⟨_, _, rfl, ?_, ?_⟩⟩
  · intro hmethod
    obtain ⟨m, hm⟩ := Option.ne_none_iff_exists'.1 hmethod
    exact Endpoint.dispatch_of_method (e := e) hm hm request
  · intro hmissing
    exact Endpoint.status_dispatch_of_missing (e := e) hmissing request

/-! ## Main result -/

/-- **A mount of loaded units.** Every route of every loaded unit is offered to the sink once, in
order, whatever the sink answers; the result counts the offers that it took, and those that it
refused leave no trace in it. The chain of a route is its middleware and one last handler. If the
controller has the method, the handler answers with what a direct call of it comes to, and the
method is that of the last unit that has it; if not, the handler answers with status 500. -/
theorem mount_of_loaded {a : Assembly} (h : a.Reachable) (hloaded : loadFailures a.outcomes = [])
    {σ : Type} (sink : Sink σ) (state : σ) :
    let units := loadedUnits a.outcomes
    let registry := ({} : Registry).registerAll units
    let reply := a.mount sink state
    (∃ transcript final,
      transcript.map (·.1) = reply.assembly.offers (units.map (·.doc)) ∧
      sink.Transcript state transcript final ∧
      sink.Transcript state (Sink.accepted transcript) final ∧
      reply.sink = final ∧
      reply.result = (if a.queue.wasRequested then
        .ok (Sink.accepted transcript).length else .error .nothingIncluded) ∧
      reply.events = (if a.queue.wasRequested then
        a.settle.2 ++ ((transcript.flatMap fun t => t.1.report t.2) ++
          [.mounted (Sink.accepted transcript).length registry.controllers.size]) else [])) ∧
    reply.assembly.api.result = .ok registry ∧
    ∀ controller (route : Route),
      registry.method? controller route.name = (units.reverse.findSome? fun unit =>
        if unit.doc.name = controller then unit.controller.get? route.name else none) ∧
      ∃ last : Handler,
        reply.assembly.chainFor controller route =
          a.middleware.chainFor controller route.name ++ [last] ∧
        ∀ request, ∃ response notes, last.handle request = (.answer response, notes) ∧
          (registry.method? controller route.name ≠ none → response = route.encode a.policy
            (registry.call controller route.name (route.arguments request))) ∧
          (registry.method? controller route.name = none → response.status = .internalError) := by
  have hentered : a.Entered := h.entered
  have hregistry := hentered.registry_settle
  have hassembly := Assembly.assembly_mount hentered sink state
  obtain ⟨hmiddleware, hpolicy⟩ := a.settings_replayAll (a.outcomes.drop a.replayed)
  rw [← Assembly.settle_eq] at hmiddleware hpolicy
  obtain ⟨transcript, final, hoffers, htranscript, hsink, hresult, hevents⟩ :=
    hentered.exists_transcript hloaded sink state
  intro units registry reply
  refine ⟨⟨transcript, final, ?_, htranscript, htranscript.accepted, hsink, hresult, ?_⟩, ?_,
    fun controller route => ⟨?_, ?_⟩⟩
  · rw [hassembly]
    exact hoffers
  · rw [hregistry] at hevents
    exact hevents
  · have hsettled := Assembly.settle_settle hentered.le
    have hfailures : a.settle.1.settle.1.failures = [] := by
      rw [hsettled, hentered.failures_settle, hloaded]
    rw [hassembly, Assembly.api, Assembly.afterSettling_of_loaded hfailures, hsettled, hregistry]
  · rw [Registry.method?_registerAll]
    exact Option.or_none
  · rw [hassembly]
    have hanswers := a.settle.1.chainFor_answers controller route
    rw [hmiddleware, hpolicy, hregistry] at hanswers
    exact hanswers

/-- The records of a unit that documents the methods `show` and `gone` of a controller `A`. The first
one has a parameter of the query. -/
def recordsOfA : List DocRecord :=
  let method (name payload : String) (params : List Tag) : DocRecord :=
    ({ description := "", context := some name } : DocRecord).addTags
      (⟨Tag.routeKind, payload, none, none, []⟩ ::
        ⟨Tag.returnsKind, "{Object} r", none, none, []⟩ :: params)
  [({ description := "" } : DocRecord).addTag ⟨Tag.moduleKind, "A", none, none, []⟩,
    method "show" "get /show" [.param "name" ""], method "gone" "get /gone" []]

/-- Two units document the same controller, and the second defines `show` again. All four routes are
offered, the sink refuses `/gone`, and `show` answers with its arguments, as the second unit has it,
and not with the first unit's `null`. -/
theorem mount_of_two_units :
    let controller (path : String) : Controller :=
      (∅ : Controller).insert "show" (.stock (if path = "first" then .value .null else .echo) false)
    let loader : Loader :=
      { extractor := ⟨fun _ => .ok (recordsOfA, [])⟩
        resolver := ⟨fun _ path _ => .resolved (controller path)⟩ }
    let files : Files := ⟨fun _ => true, fun _ => .ok []⟩
    let log := Handler.stock "log" .pass
    let a := (({ loader, middleware := ({} : MiddlewareIndex).add "" log } : Assembly).addUnits
      files ["first", "second"] []).1
    let reply := a.mount (Sink.recording ["/gone"]) []
    let shown : Route :=
      ⟨"show", "", .get, "/show", [{ name := "name", source := .query }], ⟨"Object", "r"⟩⟩
    let gone : Route := ⟨"gone", "", .get, "/gone", [], ⟨"Object", "r"⟩⟩
    loadFailures a.outcomes = [] ∧
      reply.result = .ok 2 ∧ reply.sink = [(.get, "/show", 2), (.get, "/show", 2)] ∧
      (∃ transcript : List (Offer × Option SinkError),
        transcript.map (fun t => (t.1.controller, t.1.route)) =
          [("A", shown), ("A", gone), ("A", shown), ("A", gone)] ∧
        (Sink.accepted transcript).length = 2) ∧
      (∃ last, reply.assembly.chainFor "A" shown = [log, last] ∧
        ∀ request, ∃ response notes, last.handle request = (.answer response, notes) ∧
          response = .json .ok (.arr [request.field .query "name"])) ∧
      ∃ last, reply.assembly.chainFor "A" gone = [log, last] ∧
        ∀ request, ∃ response notes, last.handle request = (.answer response, notes) ∧
          response.status = .internalError := by
  intro controller loader files log a reply shown gone
  have hreachable : a.Reachable := .addUnits files ["first", "second"] [] (.fresh loader {} _)
  have hloaded : loadFailures a.outcomes = [] := rfl
  have hreply : reply.result = .ok 2 := rfl
  have hsink : reply.sink = [(.get, "/show", 2), (.get, "/show", 2)] := rfl
  obtain ⟨⟨transcript, final, hoffers, -, -, -, hresult, -⟩, -, hroutes⟩ :=
    mount_of_loaded hreachable hloaded (Sink.recording ["/gone"]) []
  refine ⟨hloaded, hreply, hsink, ⟨transcript, ?_, ?_⟩, ?_, ?_⟩
  · have hmap := congrArg (List.map fun o : Offer => (o.controller, o.route)) hoffers
    rw [List.map_map] at hmap
    exact hmap
  · rw [show (a.mount (Sink.recording ["/gone"]) []).result = reply.result from rfl, hreply]
      at hresult
    exact (Except.ok.inj hresult).symm
  · obtain ⟨-, last, hchain, hlast⟩ := hroutes "A" shown
    refine ⟨last, hchain, fun request => ?_⟩
    obtain ⟨response, notes, hanswer, hmethod, -⟩ := hlast request
    exact ⟨response, notes, hanswer, hmethod (Option.some_ne_none _)⟩
  · obtain ⟨-, last, hchain, hlast⟩ := hroutes "A" gone
    refine ⟨last, hchain, fun request => ?_⟩
    obtain ⟨response, notes, hanswer, -, hmissing⟩ := hlast request
    exact ⟨response, notes, hanswer, hmissing rfl⟩

end DocRoutes
