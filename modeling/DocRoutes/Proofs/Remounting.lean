import DocRoutes.Proofs.Mounting
import DocRoutes.Proofs.PathArguments

/-!
# Mounting the same routes again

An assembly is mounted on a table of routes, and then once more. The second time every route finds
the table larger than it was the first time, for routes that came after it are now present.

**Refused for good** (`SinkTable.Persistent`). The router refuses a path again that it has refused,
when more routes are present. The routers of the library do so (`Router.persistent_insertOrReason`).

**The second answer** (`SinkError.Repeats`). A table only grows at its end. So a relative path stays
relative, a route that was taken is now a duplicate, a duplicate stays one, and the earliest path in
conflict with a route is the same as before. A path that the router refused is refused again; if a
route taken later names a parameter differently, the reason is now a conflict.

**Theorem (`mount_again`).** A second mount on the same table registers nothing and leaves the table
as it was. It makes no difference either if the same units are added a second time, before the first
mount or after it.
-/

namespace DocRoutes

/-- What may be said of a route that is offered again, after what was said the first time; no error
means that it was taken. -/
def SinkError.Repeats (verb : Verb) (path : String) : Option SinkError → SinkError → Prop
  | none, e => e = .duplicate verb path
  | some (.rejected _ _), e =>
    (∃ existing, e = .conflict path existing) ∨ ∃ reason, e = .rejected path reason
  | some first, e => e = first

namespace SinkTable

variable {ρ : Type}

/-! ## Routers that refuse for good -/

section Persistent

variable (insert : ρ → Verb → String → Chain → Except String ρ)

/-- The router refuses a path, now and after any further insertions. -/
def Barred (router : ρ) (verb : Verb) (path : String) : Prop :=
  ∀ calls router' chain, insertAll insert router calls = .ok router' →
    ∃ reason, insert router' verb path chain = .error reason

/-- What the router has refused, it refuses when more routes are present. -/
def Persistent : Prop :=
  ∀ router verb path chain reason, insert router verb path chain = .error reason →
    Barred insert router verb path

/-- A table as a sink. -/
def sink : Sink (SinkTable ρ) where
  register t verb path chain := t.register insert verb path chain

end Persistent

variable {insert : ρ → Verb → String → Chain → Except String ρ} {t : SinkTable ρ}

theorem Barred.of_insert {router router' : ρ} {verb : Verb} {path : String}
    (h : Barred insert router verb path) {c : Call}
    (hinsert : insert router c.verb c.path c.chain = .ok router') :
    Barred insert router' verb path := by
  intro calls router'' chain hcalls
  refine h (c :: calls) router'' chain ?_
  rw [insertAll, List.foldlM_cons, hinsert]
  exact hcalls

theorem Barred.perform (h : t.WF) {c : Call} (hbarred : Barred insert t.router c.verb c.path)
    (hkey : c.key ∉ t.routes) (d : Call) :
    Barred insert (t.perform insert d).2.router c.verb c.path ∧
      c.key ∉ (t.perform insert d).2.routes := by
  rcases perform_cases h d with ⟨e, -, heq⟩ | ⟨router, -, hinsert, heq⟩
  · rw [heq]
    exact ⟨hbarred, hkey⟩
  · rw [heq]
    refine ⟨hbarred.of_insert hinsert, fun hmem => ?_⟩
    rcases List.mem_append.1 hmem with hmem | hmem
    · exact hkey hmem
    · -- The call that was taken would be one for the barred path.
      obtain ⟨hverb, hpath⟩ := Prod.mk.inj (List.mem_singleton.1 hmem)
      obtain ⟨reason, hreason⟩ := hbarred [] t.router d.chain rfl
      rw [hverb, hpath, hinsert] at hreason
      cases hreason

theorem Barred.afterCalls (h : t.WF) {c : Call} (hbarred : Barred insert t.router c.verb c.path)
    (hkey : c.key ∉ t.routes) (calls : List Call) :
    Barred insert (t.afterCalls insert calls).router c.verb c.path ∧
      c.key ∉ (t.afterCalls insert calls).routes := by
  induction calls generalizing t with
  | nil => exact ⟨hbarred, hkey⟩
  | cons d rest ih =>
    obtain ⟨hbarred', hkey'⟩ := hbarred.perform h hkey d
    exact ih (h.perform d) hbarred' hkey'

/-! ## The second answer -/

theorem mem_routes_afterCalls (h : t.WF) (calls : List Call) {r : Verb × String}
    (hr : r ∈ t.routes) : r ∈ (t.afterCalls insert calls).routes := by
  rw [routes_afterCalls h]
  exact List.mem_append_left _ hr

/-- A route that was taken is a duplicate from then on. -/
theorem refused_of_taken (h : t.WF) {c : Call} (hslash : Absolute c.path) (hkey : c.key ∈ t.routes)
    (calls : List Call) (chain : Chain) :
    Refused insert (t.afterCalls insert calls) { c with chain } (.duplicate c.verb c.path) :=
  .duplicate hslash (mem_routes_afterCalls h calls hkey)

/-- **A route that was refused is refused again**, whatever calls come in between. -/
theorem refused_of_refused (h : t.WF) (hpersistent : Persistent insert) {c : Call} {e : SinkError}
    (hrefused : Refused insert t c e) (calls : List Call) (chain : Chain) :
    ∃ e', Refused insert (t.afterCalls insert calls) { c with chain } e' ∧
      SinkError.Repeats c.verb c.path (some e) e' := by
  have hwf : (t.afterCalls insert calls).WF := h.afterCalls calls
  cases hrefused with
  | relativePath hslash => exact ⟨_, .relativePath hslash, rfl⟩
  | duplicate hslash hkey => exact ⟨_, refused_of_taken h hslash hkey calls chain, rfl⟩
  | @conflict before after verb existing hslash hkey hroutes hdiff hbefore =>
    have hlater : (t.afterCalls insert calls).routes =
        t.routes ++ (t.takenCalls insert calls).map Call.key := routes_afterCalls h calls
    rw [hroutes, List.append_assoc, List.cons_append] at hlater
    have hmem : (verb, existing) ∈ (t.afterCalls insert calls).routes := by
      rw [hlater]
      exact List.mem_append_right _ List.mem_cons_self
    -- The route cannot have been taken since, for the path in conflict with it is still there.
    have hnew : c.key ∉ (t.afterCalls insert calls).routes := fun hkey' =>
      hwf.names _ hmem _ hkey' hdiff
    exact ⟨_, .conflict hslash hnew hlater hdiff hbefore, rfl⟩
  | @rejected reason hfits hinsert =>
    have hbarred : Barred insert t.router c.verb c.path := hpersistent _ _ _ _ _ hinsert
    obtain ⟨hbarred', hnew⟩ := hbarred.afterCalls h hfits.new calls
    obtain ⟨reason', hreason⟩ := hbarred' [] _ chain rfl
    rcases refused_or_fits insert (t.afterCalls insert calls) { c with chain } with
      ⟨e', he'⟩ | ⟨-, router, hrouter⟩
    · refine ⟨e', he', ?_⟩
      cases he' with
      | relativePath hslash => exact absurd hfits.absolute hslash
      | duplicate _ hkey => exact absurd hkey hnew
      | conflict => exact .inl ⟨_, rfl⟩
      | rejected => exact .inr ⟨_, rfl⟩
    · rw [hreason] at hrouter
      cases hrouter

end SinkTable

/-! ## Offers -/

def Offer.call (o : Offer) : SinkTable.Call := ⟨o.route.verb, o.route.path, o.chain⟩

namespace SinkTable

variable {ρ : Type} {insert : ρ → Verb → String → Chain → Except String ρ} {t t' : SinkTable ρ}
  {transcript : List (Offer × Option SinkError)}

theorem answer_eq (t : SinkTable ρ) (o : Offer) :
    (sink insert).answer t o = match t.perform insert o.call with
      | (.ok (), t) => .ok t
      | (.error e, _) => .error e := rfl

theorem answer_of_refused (h : t.WF) {o : Offer} {e : SinkError} (he : Refused insert t o.call e) :
    (sink insert).answer t o = .error e := by
  rw [answer_eq, perform_of_refused h he]

/-- An offer that was taken has its route in the table. -/
theorem perform_of_answer_eq_ok (h : t.WF) {o : Offer}
    (hanswer : (sink insert).answer t o = .ok t') :
    (t.perform insert o.call).2 = t' ∧ Absolute o.call.path ∧ o.call.key ∈ t'.routes := by
  rw [answer_eq] at hanswer
  rcases perform_cases h o.call with ⟨e, -, heq⟩ | ⟨router, hfits, -, heq⟩
  · rw [heq] at hanswer
    cases hanswer
  · rw [heq] at hanswer ⊢
    obtain rfl : t.extend o.call router = t' := Except.ok.inj hanswer
    exact ⟨rfl, hfits.absolute, List.mem_append_right _ List.mem_cons_self⟩

/-- An offer that was refused was so for the first cause that applies, and left no trace. -/
theorem refused_of_answer_eq_error (h : t.WF) {o : Offer} {e : SinkError}
    (hanswer : (sink insert).answer t o = .error e) :
    Refused insert t o.call e ∧ (t.perform insert o.call).2 = t := by
  rw [answer_eq] at hanswer
  rcases perform_cases h o.call with ⟨e', he', heq⟩ | ⟨router, -, -, heq⟩
  · rw [heq] at hanswer
    obtain rfl : e' = e := Except.error.inj hanswer
    exact ⟨he', by rw [heq]⟩
  · rw [heq] at hanswer
    cases hanswer

/-- A table after the offers of a transcript is one after calls. -/
theorem afterCalls_of_transcript (h : t.WF) (htranscript : (sink insert).Transcript t transcript t') :
    t' = t.afterCalls insert (transcript.map (·.1.call)) := by
  induction htranscript with
  | nil t => rfl
  | taken hanswer _ ih =>
    obtain ⟨hnext, -, -⟩ := perform_of_answer_eq_ok h hanswer
    rw [List.map_cons, afterCalls_cons, hnext]
    exact ih (hnext ▸ h.perform _)
  | refused hanswer _ ih =>
    obtain ⟨-, hsame⟩ := refused_of_answer_eq_error h hanswer
    rw [List.map_cons, afterCalls_cons, hsame]
    exact ih h

/-- The same route is offered, perhaps with another chain. -/
def SameRoute (o o' : Offer) : Prop := o'.controller = o.controller ∧ o'.route = o.route

/-- The same route is offered, and it is refused as the first answer has it. -/
def RefusedAgain (first again : Offer × Option SinkError) : Prop :=
  SameRoute first.1 again.1 ∧ ∃ e, again.2 = some e ∧
    SinkError.Repeats first.1.route.verb first.1.route.path first.2 e

theorem SameRoute.call {o o' : Offer} (h : SameRoute o o') :
    o'.call = { o.call with chain := o'.chain } := by
  rw [Offer.call, h.2]
  rfl

/-- **Every route of a transcript is refused where the transcript ends.** -/
theorem refused_of_transcript (h : t.WF) (hpersistent : Persistent insert)
    (htranscript : (sink insert).Transcript t transcript t') :
    ∀ p ∈ transcript, ∀ o, SameRoute p.1 o → ∃ e, (sink insert).answer t' o = .error e ∧
      SinkError.Repeats p.1.route.verb p.1.route.path p.2 e := by
  induction htranscript with
  | nil t => exact nofun
  | @taken t next final o rest hanswer hrest ih =>
    obtain ⟨hnext, hslash, hkey⟩ := perform_of_answer_eq_ok h hanswer
    have hwf : next.WF := hnext ▸ h.perform _
    rw [List.forall_mem_cons]
    refine ⟨fun o' hsame => ⟨_, ?_, rfl⟩, ih hwf⟩
    refine answer_of_refused (afterCalls_of_transcript hwf hrest ▸ hwf.afterCalls _) ?_
    rw [hsame.call, afterCalls_of_transcript hwf hrest]
    exact refused_of_taken hwf hslash hkey _ _
  | @refused t final o e rest hanswer hrest ih =>
    obtain ⟨hrefused, -⟩ := refused_of_answer_eq_error h hanswer
    rw [List.forall_mem_cons]
    refine ⟨fun o' hsame => ?_, ih h⟩
    obtain ⟨e', he', hrepeats⟩ := refused_of_refused h hpersistent hrefused
      (rest.map (·.1.call)) o'.chain
    refine ⟨e', ?_, hrepeats⟩
    refine answer_of_refused (afterCalls_of_transcript h hrest ▸ h.afterCalls _) ?_
    rw [hsame.call, afterCalls_of_transcript h hrest]
    exact he'

end SinkTable

namespace Sink

variable {σ : Type} {sink : Sink σ} {state middle final final' : σ}
  {transcript transcript' : List (Offer × Option SinkError)}

/-- The same offers get the same answers. -/
theorem Transcript.unique (h : sink.Transcript state transcript final)
    (h' : sink.Transcript state transcript' final')
    (hoffers : transcript'.map (·.1) = transcript.map (·.1)) :
    transcript' = transcript ∧ final' = final := by
  induction h generalizing transcript' with
  | nil state =>
    obtain rfl := List.map_eq_nil_iff.1 hoffers
    cases h'
    exact ⟨rfl, rfl⟩
  | taken hanswer _ ih =>
    cases h' with
    | nil => cases hoffers
    | taken hanswer' hrest' =>
      obtain ⟨rfl, hrest⟩ := List.cons.inj hoffers
      rw [hanswer] at hanswer'
      cases hanswer'
      obtain ⟨rfl, rfl⟩ := ih hrest' hrest
      exact ⟨rfl, rfl⟩
    | refused hanswer' _ =>
      obtain ⟨rfl, -⟩ := List.cons.inj hoffers
      rw [hanswer] at hanswer'
      cases hanswer'
  | refused hanswer _ ih =>
    cases h' with
    | nil => cases hoffers
    | taken hanswer' _ =>
      obtain ⟨rfl, -⟩ := List.cons.inj hoffers
      rw [hanswer] at hanswer'
      cases hanswer'
    | refused hanswer' hrest' =>
      obtain ⟨rfl, hrest⟩ := List.cons.inj hoffers
      rw [hanswer] at hanswer'
      cases hanswer'
      obtain ⟨rfl, rfl⟩ := ih hrest' hrest
      exact ⟨rfl, rfl⟩

theorem Transcript.append (h : sink.Transcript state transcript middle)
    (h' : sink.Transcript middle transcript' final) :
    sink.Transcript state (transcript ++ transcript') final := by
  induction h with
  | nil state => exact h'
  | taken hanswer _ ih => exact .taken hanswer (ih h')
  | refused hanswer _ ih => exact .refused hanswer (ih h')

/-- Offers that are all refused leave no trace. -/
theorem exists_transcript_of_refused {α : Type} {R : α → Offer × Option SinkError → Prop}
    {xs : List α} {offers : List Offer}
    (h : List.Forall₂ (fun x o => ∃ e, sink.answer state o = .error e ∧ R x (o, some e)) xs offers) :
    ∃ transcript, transcript.map (·.1) = offers ∧ sink.Transcript state transcript state ∧
      accepted transcript = [] ∧ List.Forall₂ R xs transcript := by
  induction h with
  | nil => exact ⟨[], rfl, .nil state, rfl, .nil⟩
  | @cons x o xs offers hhead _ ih =>
    obtain ⟨e, hanswer, hR⟩ := hhead
    obtain ⟨transcript, rfl, htranscript, haccepted, hall⟩ := ih
    exact ⟨(o, some e) :: transcript, rfl, .refused hanswer htranscript, haccepted, .cons hR hall⟩

end Sink

namespace Assembly

variable {a b : Assembly}

/-! ## Mounts -/

/-- What a mount of loaded units comes to: it is refused if nothing was requested. -/
def mountResult {α : Type} (a : Assembly) (value : α) : Except AssemblyError α :=
  if a.queue.wasRequested then .ok value else .error .nothingIncluded

theorem mem_offers {docs : List ControllerDoc} {o : Offer} :
    o ∈ a.offers docs ↔
      ∃ doc ∈ docs, ∃ route ∈ doc.routes, ⟨doc.name, route, a.chainFor doc.name route⟩ = o := by
  simp only [offers, List.mem_flatMap, List.mem_map]

/-- Which routes are offered does not depend on the assembly. -/
theorem forall₂_offers (a b : Assembly) (docs : List ControllerDoc) :
    List.Forall₂ SinkTable.SameRoute (a.offers docs) (b.offers docs) := by
  have hroutes (a : Assembly) : (a.offers docs).map (fun o => (o.controller, o.route)) =
      docs.flatMap fun doc => doc.routes.map fun route => (doc.name, route) := by
    simp [offers, List.map_flatMap, Function.comp_def]
  have heq := (hroutes b).trans (hroutes a).symm
  rw [← List.forall₂_eq_eq_eq, List.forall₂_map_left_iff, List.forall₂_map_right_iff] at heq
  exact heq.flip.imp fun o o' h => Prod.mk.inj h

/-- A chain is made of middleware, policy and the method in the registry. -/
theorem chainFor_congr {controller : String} {route : Route} (hmiddleware : b.middleware = a.middleware)
    (hpolicy : b.policy = a.policy) (hmethod : b.registry.method? controller route.name =
      a.registry.method? controller route.name) :
    b.chainFor controller route = a.chainFor controller route := by
  rw [chainFor, chainFor, hmiddleware, hpolicy, hmethod]

/-- A mount that is refused every route. -/
theorem Entered.mount_of_refused (h : b.Entered) (hloaded : loadFailures b.outcomes = [])
    {σ α : Type} {sink : Sink σ} {state : σ} {R : α → Offer × Option SinkError → Prop} {xs : List α}
    (hall : List.Forall₂ (fun x o => ∃ e, sink.answer state o = .error e ∧ R x (o, some e)) xs
      (b.settle.1.offers ((loadedUnits b.outcomes).map (·.doc)))) :
    ∃ transcript,
      transcript.map (·.1) = b.settle.1.offers ((loadedUnits b.outcomes).map (·.doc)) ∧
      sink.Transcript state transcript state ∧ Sink.accepted transcript = [] ∧
      List.Forall₂ R xs transcript ∧
      (b.mount sink state).result = b.mountResult 0 ∧ (b.mount sink state).sink = state := by
  obtain ⟨transcript, hoffers, htranscript, haccepted, hanswers⟩ :=
    Sink.exists_transcript_of_refused hall
  obtain ⟨transcript', final, hoffers', htranscript', hsink, hresult, -⟩ :=
    h.exists_transcript hloaded sink state
  obtain ⟨hsame, hfinal⟩ := htranscript.unique htranscript' (hoffers'.trans hoffers.symm)
  refine ⟨transcript, hoffers, htranscript, haccepted, hanswers, ?_, hsink.trans hfinal⟩
  rw [hresult, hsame, haccepted]
  rfl

/-- Once the loads have been entered, a mount comes to the same as before. -/
theorem Entered.mount_settle (h : a.Entered) (hloaded : loadFailures a.outcomes = [])
    {σ : Type} (sink : Sink σ) (state : σ) :
    (a.settle.1.mount sink state).result = (a.mount sink state).result ∧
      (a.settle.1.mount sink state).sink = (a.mount sink state).sink := by
  have hqueue : a.settle.1.queue = a.queue := queue_replayAll ..
  have hsettled := settle_settle h.le
  have hfailures : a.settle.1.failures = [] := h.failures_settle.trans hloaded
  cases hrequested : a.queue.wasRequested with
  | true =>
    have hagain : a.settle.1.settle.1.failures = [] := by rw [hsettled, hfailures]
    rw [mount_of_requested hrequested hfailures,
      mount_of_requested (by rw [hqueue, hrequested]) hagain, hsettled]
    exact ⟨rfl, rfl⟩
  | false =>
    rw [mount_of_not_requested hrequested, mount_of_not_requested (by rw [hqueue, hrequested])]
    exact ⟨rfl, rfl⟩

/-- Units that come twice leave the methods that they leave when they come once. -/
theorem method?_registerAll_twice (units : List LoadedUnit) (controller method : String) :
    (({} : Registry).registerAll (units ++ units)).method? controller method =
      (({} : Registry).registerAll units).method? controller method := by
  rw [Registry.method?_registerAll, Registry.method?_registerAll, List.reverse_append,
    List.findSome?_append, Option.or_self]

/-- If the same units come twice, the same routes are offered twice, with the same chains. -/
theorem Entered.offers_of_twice (ha : a.Entered) (hb : b.Entered)
    (hmiddleware : b.middleware = a.middleware) (hpolicy : b.policy = a.policy)
    (hunits : loadedUnits b.outcomes = loadedUnits a.outcomes ++ loadedUnits a.outcomes) :
    b.settle.1.offers ((loadedUnits b.outcomes).map (·.doc)) =
      a.settle.1.offers ((loadedUnits a.outcomes).map (·.doc)) ++
        a.settle.1.offers ((loadedUnits a.outcomes).map (·.doc)) := by
  obtain ⟨hmiddlewareA, hpolicyA⟩ := a.settings_replayAll (a.outcomes.drop a.replayed)
  obtain ⟨hmiddlewareB, hpolicyB⟩ := b.settings_replayAll (b.outcomes.drop b.replayed)
  rw [← settle_eq] at hmiddlewareA hpolicyA hmiddlewareB hpolicyB
  have hchain (controller : String) (route : Route) :
      b.settle.1.chainFor controller route = a.settle.1.chainFor controller route := by
    refine chainFor_congr ?_ ?_ ?_
    · rw [hmiddlewareA, hmiddlewareB, hmiddleware]
    · rw [hpolicyA, hpolicyB, hpolicy]
    · rw [ha.registry_settle, hb.registry_settle, hunits, method?_registerAll_twice]
  simp only [offers, hunits, hchain, List.map_append, List.flatMap_append]

end Assembly

/-! ## Main result -/

section Again

open SinkTable

variable {a : Assembly} {ρ : Type} {insert : ρ → Verb → String → Chain → Except String ρ}
  {t t' : SinkTable ρ} {transcript : List (Offer × Option SinkError)}

/-- A second mount on the table that a first one has left, with the same loads. -/
theorem Assembly.Entered.mount_again_of_transcript {b : Assembly} (h : b.Entered)
    (hloaded : loadFailures b.outcomes = []) (hwf : t.WF) (hpersistent : Persistent insert)
    (htranscript : (sink insert).Transcript t transcript t')
    (hoffers : transcript.map (·.1) = a.offers ((loadedUnits b.outcomes).map (·.doc))) :
    ∃ again, again.map (·.1) = b.settle.1.offers ((loadedUnits b.outcomes).map (·.doc)) ∧
      (sink insert).Transcript t' again t' ∧ Sink.accepted again = [] ∧
      List.Forall₂ RefusedAgain transcript again ∧
      (b.mount (sink insert) t').result = b.mountResult 0 ∧
      (b.mount (sink insert) t').sink = t' := by
  have hsame := a.forall₂_offers b.settle.1 ((loadedUnits b.outcomes).map (·.doc))
  rw [← hoffers, List.forall₂_map_left_iff] at hsame
  have hrefused := refused_of_transcript hwf hpersistent htranscript
  refine h.mount_of_refused hloaded ?_
  refine ((List.forall₂_and_left _ _).2 ⟨hrefused, hsame⟩).imp fun p o ⟨hall, hroute⟩ => ?_
  obtain ⟨e, hanswer, hrepeats⟩ := hall o hroute
  exact ⟨e, hanswer, hroute, e, rfl, hrepeats⟩

/-- A mount on the table that a first one has left, if all its units were among those mounted. -/
theorem Assembly.Entered.mount_of_known_units {b : Assembly} (h : b.Entered)
    (hloaded : loadFailures b.outcomes = []) (hwf : t.WF) (hpersistent : Persistent insert)
    (htranscript : (sink insert).Transcript t transcript t') {docs : List ControllerDoc}
    (hoffers : transcript.map (·.1) = a.offers docs)
    (hknown : ∀ unit ∈ loadedUnits b.outcomes, unit.doc ∈ docs) :
    (b.mount (sink insert) t').result = b.mountResult 0 ∧
      (b.mount (sink insert) t').sink = t' := by
  have hrefused := refused_of_transcript hwf hpersistent htranscript
  have hall : ∀ o ∈ b.settle.1.offers ((loadedUnits b.outcomes).map (·.doc)),
      ∃ e, (sink insert).answer t' o = .error e ∧ True := by
    intro o ho
    obtain ⟨doc, hdoc, route, hroute, rfl⟩ := mem_offers.1 ho
    obtain ⟨unit, hunit, rfl⟩ := List.mem_map.1 hdoc
    have hfirst : ⟨unit.doc.name, route, a.chainFor unit.doc.name route⟩ ∈ transcript.map (·.1) :=
      hoffers ▸ mem_offers.2 ⟨unit.doc, hknown unit hunit, route, hroute, rfl⟩
    obtain ⟨p, hp, hpoffer⟩ := List.mem_map.1 hfirst
    obtain ⟨e, hanswer, -⟩ := hrefused p hp
      ⟨unit.doc.name, route, b.settle.1.chainFor unit.doc.name route⟩ (hpoffer ▸ ⟨rfl, rfl⟩)
    exact ⟨e, hanswer, trivial⟩
  obtain ⟨-, -, -, -, -, hresult⟩ := h.mount_of_refused hloaded
    (R := fun _ _ => True) (List.forall₂_same.2 hall)
  exact hresult

/-- **Mounting again registers nothing.** Whatever a table has taken before, and whatever the units
of an assembly are: after a mount, a second one on the same table registers no route and leaves the
table as it was, at any later time if no units were added, and each route is refused as its first
answer has it. It registers nothing either if units that were mounted before have been added again;
and a mount of the units that come twice ends in the table that they leave when they come once. -/
theorem mount_again (h : a.Reachable) (hloaded : loadFailures a.outcomes = [])
    (hpersistent : Persistent insert) (router : ρ) (calls : List SinkTable.Call) :
    let t : SinkTable ρ := afterCalls insert { router } calls
    let units := loadedUnits a.outcomes
    let first := a.mount (sink insert) t
    ∃ transcript t',
      transcript.map (·.1) = first.assembly.offers (units.map (·.doc)) ∧
      (sink insert).Transcript t transcript t' ∧
      first.result = a.mountResult (Sink.accepted transcript).length ∧ first.sink = t' ∧
      (first.assembly.mount (sink insert) t').result = a.mountResult 0 ∧
      (first.assembly.mount (sink insert) t').sink = t' ∧
      (∀ b : Assembly, b.Reachable → b.outcomes = a.outcomes →
        (b.mount (sink insert) t').result = b.mountResult 0 ∧
        (b.mount (sink insert) t').sink = t' ∧
        ∃ again, again.map (·.1) = b.settle.1.offers (units.map (·.doc)) ∧
          (sink insert).Transcript t' again t' ∧
          List.Forall₂ RefusedAgain transcript again) ∧
      (∀ b : Assembly, b.Reachable → loadFailures b.outcomes = [] →
        (∀ unit ∈ loadedUnits b.outcomes, unit.doc ∈ units.map (·.doc)) →
        (b.mount (sink insert) t').result = b.mountResult 0 ∧
          (b.mount (sink insert) t').sink = t') ∧
      ∀ b : Assembly, b.Reachable → loadFailures b.outcomes = [] →
        b.middleware = a.middleware → b.policy = a.policy →
        loadedUnits b.outcomes = units ++ units →
        (b.mount (sink insert) t).result = b.mountResult (Sink.accepted transcript).length ∧
          (b.mount (sink insert) t).sink = t' := by
  intro t units first
  have hentered : a.Entered := h.entered
  have hwf : t.WF := (wf_fresh router).afterCalls calls
  have hassembly : first.assembly = a.settle.1 := Assembly.assembly_mount hentered _ _
  obtain ⟨transcript, t', hoffers, htranscript, hsink, hresult, -⟩ :=
    hentered.exists_transcript hloaded (sink insert) t
  obtain ⟨again, hoffers', htranscript', haccepted, -, hagain, hsink'⟩ :=
    hentered.mount_again_of_transcript hloaded hwf hpersistent htranscript hoffers
  obtain ⟨hsettled, hsettled'⟩ := hentered.mount_settle hloaded (sink insert) t'
  rw [← hassembly] at hsettled hsettled'
  refine ⟨transcript, t', hassembly ▸ hoffers, htranscript, hresult, hsink,
    hsettled.trans hagain, hsettled'.trans hsink', ?_, ?_, ?_⟩
  · intro b hb houtcomes
    rw [← houtcomes] at hloaded hoffers
    obtain ⟨again, hoffers', htranscript', -, hanswers, hagain, hsink'⟩ :=
      hb.entered.mount_again_of_transcript hloaded hwf hpersistent htranscript hoffers
    rw [houtcomes] at hoffers'
    exact ⟨hagain, hsink', again, hoffers', htranscript', hanswers⟩
  · intro b hb hloaded' hknown
    exact hb.entered.mount_of_known_units hloaded' hwf hpersistent htranscript hoffers hknown
  · intro b hb hloaded' hmiddleware hpolicy hunits
    obtain ⟨twice, final, hoffersB, htranscriptB, hsinkB, hresultB, -⟩ :=
      hb.entered.exists_transcript hloaded' (sink insert) t
    -- The second half of the offers is refused where the first half ends.
    have htwice : twice.map (·.1) = (transcript ++ again).map (·.1) := by
      rw [hoffersB, hentered.offers_of_twice hb.entered hmiddleware hpolicy hunits, List.map_append,
        hoffers, hoffers']
    obtain ⟨hsame, hfinal⟩ := (htranscript.append htranscript').unique htranscriptB htwice
    have hcount : Sink.accepted twice = Sink.accepted transcript := by
      rw [hsame, Sink.accepted, List.filter_append, ← Sink.accepted, ← Sink.accepted, haccepted,
        List.append_nil]
    rw [hresultB, hsinkB, hfinal, hcount]
    exact ⟨rfl, rfl⟩

end Again

/-! ## A table in front of the HTTP router -/

namespace Router

/-- The router has no entry for a path, and its pattern does not fit in. -/
def NoRoom (r : Router) (path : String) : Prop :=
  (∀ e ∈ r.entries, e.path ≠ path) ∧ ((∃ cause, Pattern.parse path = .error cause) ∨
    ∃ pattern, Pattern.parse path = .ok pattern ∧ ∃ e ∈ r.entries, e.pattern.conflict pattern)

theorem noRoom_iff {r : Router} {verb : Verb} {path : String} {chain : Chain} :
    (∃ reason, r.insertOrReason verb path chain = .error reason) ↔ r.NoRoom path := by
  unfold insertOrReason insert NoRoom
  by_cases hany : r.entries.any (·.path = path)
  · have hentry : ∃ e ∈ r.entries, e.path = path := by simpa using hany
    obtain ⟨e, he, hpath⟩ := hentry
    rw [if_pos hany]
    exact ⟨nofun, fun ⟨hnone, _⟩ => absurd hpath (hnone e he)⟩
  · have hnone : ∀ e ∈ r.entries, e.path ≠ path := by simpa using hany
    rw [if_neg hany]
    cases hparse : Pattern.parse path with
    | error cause => exact ⟨fun _ => ⟨hnone, .inl ⟨cause, rfl⟩⟩, fun _ => ⟨_, rfl⟩⟩
    | ok pattern =>
      cases hfind : r.entries.find? (·.pattern.conflict pattern) with
      | some e =>
        have hconflict : e.pattern.conflict pattern = true := by simpa using List.find?_some hfind
        have he : e ∈ r.entries := List.mem_of_find?_eq_some hfind
        constructor
        · intro _
          exact ⟨hnone, .inr ⟨pattern, rfl, e, he, hconflict⟩⟩
        · intro _
          simp only [hfind]
          exact ⟨_, rfl⟩
      | none =>
        simp only [hfind]
        constructor
        · rintro ⟨_, hreason⟩
          cases hreason
        · rintro ⟨-, ⟨_, hcause⟩ | ⟨_, hok, e, he, hconflict⟩⟩
          · cases hcause
          · cases hok
            exact absurd hconflict (List.find?_eq_none.1 hfind e he)

/-- There is no room for a path among more entries either. -/
theorem NoRoom.insert {r r' : Router} {path : String} (h : r.NoRoom path) {c : SinkTable.Call}
    (hinsert : r.insertOrReason c.verb c.path c.chain = .ok r') : r'.NoRoom path := by
  have hother : c.path ≠ path := by
    rintro rfl
    obtain ⟨reason, hreason⟩ := noRoom_iff.2 h
    rw [hinsert] at hreason
    cases hreason
  obtain ⟨hnone, hfull⟩ := h
  rcases insert_cases hinsert with ⟨-, rfl⟩ | ⟨pattern, -, rfl⟩
  · refine ⟨fun e' he' => ?_, hfull.imp_right fun ⟨pattern, hparse, e, he, hconflict⟩ => ?_⟩
    · obtain ⟨e, he, rfl⟩ := List.mem_map.1 he'
      rw [path_join]
      exact hnone e he
    · exact ⟨pattern, hparse, _, List.mem_map_of_mem he, by rwa [pattern_join]⟩
  · refine ⟨fun e he => ?_, hfull.imp_right fun ⟨pattern, hparse, e, he, hconflict⟩ => ?_⟩
    · rcases List.mem_append.1 he with he | he
      · exact hnone e he
      · rw [List.mem_singleton.1 he]
        exact hother
    · exact ⟨pattern, hparse, e, List.mem_append_left _ he, hconflict⟩

/-- **The HTTP router refuses for good.** -/
theorem persistent_insertOrReason : SinkTable.Persistent insertOrReason := by
  intro r verb path chain reason hrefused calls
  have hroom : r.NoRoom path := noRoom_iff.1 ⟨reason, hrefused⟩
  clear hrefused
  induction calls generalizing r with
  | nil =>
    rintro r' chain' ⟨⟩
    exact noRoom_iff.2 hroom
  | cons c rest ih =>
    intro r' chain' hcalls
    rw [SinkTable.insertAll, List.foldlM_cons] at hcalls
    cases hinsert : r.insertOrReason c.verb c.path c.chain with
    | error reason' =>
      rw [hinsert] at hcalls
      cases hcalls
    | ok next =>
      rw [hinsert] at hcalls
      exact ih next (hroom.insert hinsert) r' chain' hcalls

end Router

/-- The records of a unit with a method `show`, and three methods whose routes are refused after it:
one names the parameter differently, one is relative, and the router takes no pattern as the last. -/
def recordsOfUsers : List DocRecord :=
  let method (name payload : String) : DocRecord :=
    ({ description := "", context := some name } : DocRecord).addTags
      [⟨Tag.routeKind, payload, none, none, []⟩, ⟨Tag.returnsKind, "{Object} r", none, none, []⟩]
  [({ description := "" } : DocRecord).addTag ⟨Tag.moduleKind, "A", none, none, []⟩,
    method "show" "get /users/:id", method "find" "get /users/:name", method "list" "get users",
    method "load" "get /files/*"]

/-- An assembly to which that unit has been added. -/
def assemblyOfUsers : Assembly :=
  let loader : Loader :=
    { extractor := ⟨fun _ => .ok (recordsOfUsers, [])⟩
      resolver := ⟨fun _ _ _ => .resolved ∅⟩ }
  (({ loader } : Assembly).addUnits ⟨fun _ => true, fun _ => .ok []⟩ ["a"] []).1

theorem mount_assemblyOfUsers :
    let first := assemblyOfUsers.mount HttpTable.sink HttpTable.empty
    first.result = .ok 1 ∧ first.sink.routes = [(.get, "/users/:id")] := by
  decide +kernel

/-- The HTTP table takes one of the four routes at the first mount, and none at the second. -/
theorem mount_again_of_users :
    let first := assemblyOfUsers.mount HttpTable.sink HttpTable.empty
    let second := first.assembly.mount HttpTable.sink first.sink
    assemblyOfUsers.Reachable ∧ loadFailures assemblyOfUsers.outcomes = [] ∧
      SinkTable.Persistent Router.insertOrReason ∧
      first.result = .ok 1 ∧ first.sink.routes = [(.get, "/users/:id")] ∧
      second.result = .ok 0 ∧ second.sink = first.sink := by
  intro first second
  have hreachable : assemblyOfUsers.Reachable := .addUnits _ ["a"] [] (.fresh _ {} _)
  have hloaded : loadFailures assemblyOfUsers.outcomes = [] := rfl
  obtain ⟨hfirst, hroutes⟩ := mount_assemblyOfUsers
  obtain ⟨transcript, t', -, -, -, hsink, hagain, hagain', -⟩ :=
    mount_again hreachable hloaded Router.persistent_insertOrReason {} []
  obtain rfl : first.sink = t' := hsink
  exact ⟨hreachable, hloaded, Router.persistent_insertOrReason, hfirst, hroutes, hagain, hagain'⟩

end DocRoutes
