import DocRoutes.Assembly

/-!
# Entering loads in the order of the queue

An assembly in use is a session: units are added, the loads go on in any order, and now and then
someone makes an inquiry (for the documentation, the controllers, a mount or the router), which
waits until all loads have ended and is then answered. Whoever waits may also give up.

**Theorem (`replay_in_queue_order`).** In every state of a session, what has been entered is an
initial part of the queue, each load once and in the order of the queue, and the registry and the
failures are what comes of exactly these loads. An answer leaves nothing to enter. So the registry
depends on the outcomes alone, and these on what was added: not on the order in which the loads
ended, nor on the inquiries in between, whether answered or given up.

The invariant is `Assembly.Entered`. Loads that have been entered have ended, so that they stay as
they are while the others go on; this is what keeps the invariant under `LoadQueue.advance`.
-/

namespace DocRoutes

/-! ## Outcomes and what they leave behind -/

/-- The units among some outcomes. -/
def loadedUnits (outcomes : List LoadOutcome) : List LoadedUnit :=
  outcomes.filterMap fun
    | .ok unit => unit
    | .error _ => none

/-- The failures among some outcomes. -/
def loadFailures (outcomes : List LoadOutcome) : List LoadError :=
  outcomes.filterMap fun
    | .ok _ => none
    | .error e => some e

/-- Register units one after the other. -/
def Registry.registerAll (r : Registry) (units : List LoadedUnit) : Registry :=
  units.foldl (fun r unit => (r.register unit.doc unit.controller).1) r

theorem Registry.registerAll_append (r : Registry) (units more : List LoadedUnit) :
    r.registerAll (units ++ more) = (r.registerAll units).registerAll more :=
  List.foldl_append

theorem Registry.docs_registerAll (r : Registry) (units : List LoadedUnit) :
    (r.registerAll units).docs = r.docs ++ units.map (·.doc) := by
  induction units generalizing r with
  | nil => exact (List.append_nil _).symm
  | cons unit rest ih =>
    rw [List.map_cons, show r.registerAll (unit :: rest) =
      ((r.register unit.doc unit.controller).1).registerAll rest from rfl, ih, docs_register,
      List.append_assoc, List.singleton_append]

theorem loadedUnits_append (outcomes more : List LoadOutcome) :
    loadedUnits (outcomes ++ more) = loadedUnits outcomes ++ loadedUnits more :=
  List.filterMap_append

theorem loadFailures_append (outcomes more : List LoadOutcome) :
    loadFailures (outcomes ++ more) = loadFailures outcomes ++ loadFailures more :=
  List.filterMap_append

namespace Assembly

theorem replayAll_cons (a : Assembly) (o : LoadOutcome) (rest : List LoadOutcome) :
    (a.replayAll (o :: rest)).1 = ((a.replay o).1.replayAll rest).1 := rfl

theorem registry_replayAll (a : Assembly) (outcomes : List LoadOutcome) :
    (a.replayAll outcomes).1.registry = a.registry.registerAll (loadedUnits outcomes) := by
  induction outcomes generalizing a with
  | nil => rfl
  | cons o rest ih =>
    rw [replayAll_cons, ih]
    match o with
    | .ok (some unit) => rfl
    | .ok none => rfl
    | .error e => rfl

theorem failures_replayAll (a : Assembly) (outcomes : List LoadOutcome) :
    (a.replayAll outcomes).1.failures = a.failures ++ loadFailures outcomes := by
  induction outcomes generalizing a with
  | nil => exact (List.append_nil _).symm
  | cons o rest ih =>
    rw [replayAll_cons, ih]
    match o with
    | .ok (some unit) => rfl
    | .ok none => rfl
    | .error e => exact List.append_assoc ..

theorem queue_replayAll (a : Assembly) (outcomes : List LoadOutcome) :
    (a.replayAll outcomes).1.queue = a.queue := by
  induction outcomes generalizing a with
  | nil => rfl
  | cons o rest ih =>
    rw [replayAll_cons, ih, queue_replay]

theorem loader_replayAll (a : Assembly) (outcomes : List LoadOutcome) :
    (a.replayAll outcomes).1.loader = a.loader := by
  induction outcomes generalizing a with
  | nil => rfl
  | cons o rest ih =>
    rw [replayAll_cons, ih]
    match o with
    | .ok (some unit) => rfl
    | .ok none => rfl
    | .error e => rfl

/-! ## Units of the queue -/

/-- The outcomes of all loads, whether they have ended yet or not. -/
def outcomes (a : Assembly) : List LoadOutcome := a.queue.units.map Pending.wait

/-- The outcomes of the loads that have been entered. -/
def entered (a : Assembly) : List LoadOutcome := a.outcomes.take a.replayed

/-- Every load that is still to be entered has ended. -/
def ready (a : Assembly) : Bool := (a.queue.units.drop a.replayed).all (·.result?.isSome)

/-- One load goes on up to its next suspension. -/
def advance (a : Assembly) (index : Nat) : Assembly := { a with queue := a.queue.advance index }

theorem length_outcomes (a : Assembly) : a.outcomes.length = a.queue.size := List.length_map _

theorem outcomes_advance (a : Assembly) (index : Nat) :
    (a.advance index).outcomes = a.outcomes := Pending.map_wait_modify ..

theorem units_enqueueAll (loader : Loader) (files : Files) (args : List Json) (q : LoadQueue)
    (paths : List String) :
    (enqueueAll loader files args q paths).1.units =
      q.units ++ paths.map fun path => (loader.task files path args).map (·.outcome path) := by
  induction paths generalizing q with
  | nil => exact (List.append_nil _).symm
  | cons path rest ih =>
    refine (ih (q.enqueue path (loader.task files path args)).1).trans ?_
    exact List.append_assoc ..

/-- The outcome of the load of one path. -/
def loadOutcome (loader : Loader) (files : Files) (args : List Json) (path : String) :
    LoadOutcome :=
  (loader.load files path args).outcome path

theorem units_addUnits (a : Assembly) (files : Files) (paths : List String) (args : List Json) :
    (a.addUnits files paths args).1.queue.units = a.queue.units ++
      paths.map fun path => (a.loader.task files path args).map (·.outcome path) :=
  units_enqueueAll a.loader files args a.queue.request paths

theorem requests_enqueueAll (loader : Loader) (files : Files) (args : List Json) (q : LoadQueue)
    (paths : List String) : (enqueueAll loader files args q paths).1.requests = q.requests := by
  induction paths generalizing q with
  | nil => rfl
  | cons path rest ih => exact ih _

theorem wasRequested_addUnits (a : Assembly) (files : Files) (paths : List String)
    (args : List Json) : (a.addUnits files paths args).1.queue.wasRequested = true := by
  show decide (0 < (enqueueAll a.loader files args a.queue.request paths).1.requests) = true
  rw [requests_enqueueAll]
  exact decide_eq_true (Nat.succ_pos _)

theorem outcomes_addUnits (a : Assembly) (files : Files) (paths : List String) (args : List Json) :
    (a.addUnits files paths args).1.outcomes =
      a.outcomes ++ paths.map (loadOutcome a.loader files args) := by
  rw [outcomes, units_addUnits, List.map_append, List.map_map]
  rfl

theorem outcomes_settle (a : Assembly) : a.settle.1.outcomes = a.outcomes := by
  rw [outcomes, settle, queue_replayAll, outcomes]

/-! ## The invariant -/

/-- What has been entered is the beginning of the queue, and the registry and the failures are made
of that alone. -/
structure Entered (a : Assembly) : Prop where
  /-- Without a request nothing is queued. -/
  idle : a.queue.wasRequested = false → a.queue.units = []
  le : a.replayed ≤ a.queue.size
  /-- The loads that were entered have ended. -/
  ended : ∀ unit ∈ a.queue.units.take a.replayed, ∃ outcome, unit = .done outcome
  registry : a.registry = ({} : Registry).registerAll (loadedUnits a.entered)
  failures : a.failures = loadFailures a.entered

theorem entered_fresh (loader : Loader) (policy : FailurePolicy) (middleware : MiddlewareIndex) :
    Entered { loader, policy, middleware } where
  idle _ := rfl
  le := Nat.le_refl 0
  ended := by simp
  registry := rfl
  failures := rfl

theorem Entered.addUnits {a : Assembly} (h : a.Entered) (files : Files) (paths : List String)
    (args : List Json) : (a.addUnits files paths args).1.Entered := by
  have hle : a.replayed ≤ a.queue.units.length := h.le
  have hentered : (a.addUnits files paths args).1.entered = a.entered := by
    rw [entered, outcomes_addUnits, entered]
    exact List.take_append_of_le_length (by rw [length_outcomes]; exact hle)
  exact {
    idle := fun hidle => by
      rw [wasRequested_addUnits] at hidle
      cases hidle
    le := by
      rw [LoadQueue.size, units_addUnits, List.length_append]
      exact Nat.le_add_right_of_le hle
    ended := by
      rw [units_addUnits]
      show ∀ unit ∈ List.take a.replayed _, _
      rw [List.take_append_of_le_length hle]
      exact h.ended
    registry := by rw [hentered]; exact h.registry
    failures := by rw [hentered]; exact h.failures }

theorem modify_eq_self_of_forall {α : Type} {f : α → α} {l : List α} (h : ∀ x ∈ l, f x = x)
    (i : Nat) : l.modify i f = l := by
  induction l generalizing i with
  | nil => simp
  | cons x l ih =>
    cases i with
    | zero => rw [List.modify_zero_cons, h x List.mem_cons_self]
    | succ i => rw [List.modify_succ_cons, ih fun y hy => h y (List.mem_cons_of_mem _ hy)]

theorem Entered.advance {a : Assembly} (h : a.Entered) (index : Nat) :
    (a.advance index).Entered := by
  have hentered : (a.advance index).entered = a.entered := by
    rw [entered, outcomes_advance]
    rfl
  -- A load that has ended stays as it is.
  have htake : (a.advance index).queue.units.take a.replayed = a.queue.units.take a.replayed := by
    show (a.queue.units.modify index Pending.resume).take a.replayed = _
    rw [List.take_modify]
    refine modify_eq_self_of_forall (fun unit hunit => ?_) index
    obtain ⟨outcome, rfl⟩ := h.ended unit hunit
    rfl
  exact {
    idle := fun hidle => by
      show a.queue.units.modify index Pending.resume = []
      rw [h.idle hidle, List.modify_nil]
    le := by
      show a.replayed ≤ (a.queue.units.modify index Pending.resume).length
      rw [List.length_modify]
      exact h.le
    ended := by
      show ∀ unit ∈ (a.advance index).queue.units.take a.replayed, _
      rw [htake]
      exact h.ended
    registry := by rw [hentered]; exact h.registry
    failures := by rw [hentered]; exact h.failures }

/-- The outcomes that settling enters are those that have not been entered. -/
theorem settle_eq (a : Assembly) : a.settle = a.replayAll (a.outcomes.drop a.replayed) := by
  rw [settle, LoadQueue.wait_settledFrom, outcomes, List.map_drop]

theorem entered_settle {a : Assembly} (h : a.replayed ≤ a.queue.size) :
    a.settle.1.entered = a.outcomes := by
  rw [entered, outcomes_settle, replayed_settle a h, ← length_outcomes, List.take_length]

/-- What has been entered, and what has not, make up the queue. -/
theorem entered_append_drop (a : Assembly) :
    a.entered ++ a.outcomes.drop a.replayed = a.outcomes := List.take_append_drop ..

/-- Settling registers the units of all loads. -/
theorem Entered.registry_settle {a : Assembly} (h : a.Entered) :
    a.settle.1.registry = ({} : Registry).registerAll (loadedUnits a.outcomes) := by
  rw [settle_eq, registry_replayAll, h.registry, ← Registry.registerAll_append,
    ← loadedUnits_append, entered_append_drop]

/-- Settling gathers the failures of all loads. -/
theorem Entered.failures_settle {a : Assembly} (h : a.Entered) :
    a.settle.1.failures = loadFailures a.outcomes := by
  rw [settle_eq, failures_replayAll, h.failures, ← loadFailures_append, entered_append_drop]

/-- Settling once more changes nothing. -/
theorem settle_settle {a : Assembly} (h : a.replayed ≤ a.queue.size) :
    a.settle.1.settle = (a.settle.1, []) := by
  rw [settle_eq a.settle.1, outcomes_settle, replayed_settle a h, ← length_outcomes,
    List.drop_length]
  rfl

theorem Entered.settle {a : Assembly} (h : a.Entered) (hready : a.ready) : a.settle.1.Entered := by
  have hqueue : a.settle.1.queue = a.queue := queue_replayAll ..
  exact {
    idle := by
      rw [hqueue]
      exact h.idle
    le := by
      have hsize : a.settle.1.replayed = a.settle.1.queue.size := by
        rw [replayed_settle a h.le, hqueue]
      exact Nat.le_of_eq hsize
    ended := by
      rw [replayed_settle a h.le, hqueue, LoadQueue.size, List.take_length]
      intro unit hunit
      rw [← List.take_append_drop a.replayed a.queue.units] at hunit
      rcases List.mem_append.1 hunit with hunit | hunit
      · exact h.ended unit hunit
      · have hsome := List.all_eq_true.1 hready unit hunit
        cases unit with
        | done outcome => exact ⟨outcome, rfl⟩
        | suspended rest => cases hsome
    registry := by rw [entered_settle h.le, h.registry_settle]
    failures := by rw [entered_settle h.le, h.failures_settle] }

end Assembly

/-! ## Sessions -/

/-- What someone may ask of an assembly. -/
inductive Inquiry : Type 1 where
  | mapping
  | api
  | mount {σ : Type} (sink : Sink σ) (state : σ)
  | router

/-- The assembly once the answer has been given. -/
def Inquiry.serve (a : Assembly) : Inquiry → Assembly
  | .mapping => a.mapping.assembly
  | .api => a.api.assembly
  | .mount sink state => (a.mount sink state).assembly
  | .router => a.router.assembly

theorem Assembly.assembly_afterSettling {α : Type} (a : Assembly)
    (answer : Assembly → List AssemblyEvent × α) :
    (a.afterSettling answer).assembly = a.settle.1 := by
  simp only [afterSettling]
  split <;> rfl

theorem Assembly.assembly_mount {σ : Type} {a : Assembly} (h : a.Entered) (sink : Sink σ)
    (state : σ) : (a.mount sink state).assembly = a.settle.1 := by
  unfold mount
  cases hrequested : a.queue.wasRequested with
  | true =>
    rw [if_pos rfl]
    exact a.assembly_afterSettling _
  | false =>
    -- Nothing is queued, so that settling would change nothing.
    show a = a.settle.1
    rw [settle_eq, outcomes, h.idle hrequested, List.map_nil, List.drop_nil]
    rfl

/-- Whatever the inquiry, what it does to the assembly is to settle it. -/
theorem Inquiry.serve_eq_settle {a : Assembly} (h : a.Entered) (inquiry : Inquiry) :
    inquiry.serve a = a.settle.1 := by
  cases inquiry with
  | mapping => exact a.assembly_afterSettling _
  | api => exact a.assembly_afterSettling _
  | mount sink state => exact Assembly.assembly_mount h sink state
  | router => exact Assembly.assembly_mount h _ _

/-- An assembly in use, perhaps with an inquiry that waits. -/
structure Session where
  assembly : Assembly
  waiting : Option Inquiry := none

inductive Event : Type 1 where
  | add (files : Files) (paths : List String) (args : List Json)
  /-- One load goes on. -/
  | advance (index : Nat)
  | ask (inquiry : Inquiry)
  /-- Whoever waits gives up. -/
  | giveUp
  | answer

/-- The outcomes of the loads that an event adds. -/
def Event.outcomes (loader : Loader) : Event → List LoadOutcome
  | .add files paths args => paths.map (Assembly.loadOutcome loader files args)
  | _ => []

namespace Session

/-- A session at its start. -/
def fresh (loader : Loader) (policy : FailurePolicy := {}) (middleware : MiddlewareIndex := {}) :
    Session :=
  ⟨{ loader, policy, middleware }, none⟩

/-- What an event makes of a session. While an inquiry waits, the assembly is lent to it and
nothing can be added, but the loads go on. It is answered only when they have ended. -/
inductive Step : Session → Event → Session → Prop
  | add (a : Assembly) (files : Files) (paths : List String) (args : List Json) :
      Step ⟨a, none⟩ (.add files paths args) ⟨(a.addUnits files paths args).1, none⟩
  | advance (a : Assembly) (waiting : Option Inquiry) (index : Nat) :
      Step ⟨a, waiting⟩ (.advance index) ⟨a.advance index, waiting⟩
  | ask (a : Assembly) (inquiry : Inquiry) : Step ⟨a, none⟩ (.ask inquiry) ⟨a, some inquiry⟩
  | giveUp (a : Assembly) (inquiry : Inquiry) : Step ⟨a, some inquiry⟩ .giveUp ⟨a, none⟩
  | answer (a : Assembly) (inquiry : Inquiry) :
      a.ready → Step ⟨a, some inquiry⟩ .answer ⟨inquiry.serve a, none⟩

inductive Run : Session → List Event → Session → Prop
  | nil (s : Session) : Run s [] s
  | cons {s t u : Session} {e : Event} {events : List Event} :
      Step s e t → Run t events u → Run s (e :: events) u

variable {s t u : Session} {e : Event} {events : List Event}

theorem run_append {more : List Event} :
    Run s (events ++ more) u ↔ ∃ t, Run s events t ∧ Run t more u := by
  constructor
  · intro h
    induction events generalizing s with
    | nil => exact ⟨s, .nil s, h⟩
    | cons e events ih =>
      cases h with
      | cons hstep hrun =>
        obtain ⟨t, hfirst, hmore⟩ := ih hrun
        exact ⟨t, .cons hstep hfirst, hmore⟩
  · rintro ⟨t, hfirst, hmore⟩
    induction hfirst with
    | nil s => exact hmore
    | cons hstep _ ih => exact .cons hstep (ih hmore)

/-! ## What every session keeps -/

theorem entered_step (h : s.assembly.Entered) (hstep : Step s e t) : t.assembly.Entered := by
  cases hstep with
  | add a files paths args => exact h.addUnits files paths args
  | advance a waiting index => exact h.advance index
  | ask a inquiry => exact h
  | giveUp a inquiry => exact h
  | answer a inquiry hready =>
    show (inquiry.serve a).Entered
    rw [inquiry.serve_eq_settle h]
    exact h.settle hready

theorem entered_run (h : s.assembly.Entered) (hrun : Run s events t) : t.assembly.Entered := by
  induction hrun with
  | nil s => exact h
  | cons hstep _ ih => exact ih (entered_step h hstep)

/-- An answer leaves nothing to enter. -/
theorem replayed_of_answer (h : s.assembly.Entered) (hstep : Step s .answer t) :
    t.assembly.replayed = t.assembly.queue.size := by
  cases hstep with
  | answer a inquiry hready =>
    show (inquiry.serve a).replayed = (inquiry.serve a).queue.size
    rw [inquiry.serve_eq_settle h, Assembly.replayed_settle a h.le, Assembly.settle,
      Assembly.queue_replayAll]

theorem loader_step (h : s.assembly.Entered) (hstep : Step s e t) :
    t.assembly.loader = s.assembly.loader := by
  cases hstep with
  | answer a inquiry hready =>
    show (inquiry.serve a).loader = a.loader
    rw [inquiry.serve_eq_settle h]
    exact Assembly.loader_replayAll ..
  | _ => rfl

theorem outcomes_step (h : s.assembly.Entered) (hstep : Step s e t) :
    t.assembly.outcomes = s.assembly.outcomes ++ e.outcomes s.assembly.loader := by
  cases hstep with
  | add a files paths args => exact a.outcomes_addUnits files paths args
  | advance a waiting index =>
    exact (a.outcomes_advance index).trans (List.append_nil _).symm
  | ask a inquiry => exact (List.append_nil _).symm
  | giveUp a inquiry => exact (List.append_nil _).symm
  | answer a inquiry hready =>
    show (inquiry.serve a).outcomes = a.outcomes ++ []
    rw [inquiry.serve_eq_settle h, a.outcomes_settle, List.append_nil]

/-- The outcomes depend on what is added alone. -/
theorem outcomes_run (h : s.assembly.Entered) (hrun : Run s events t) :
    t.assembly.outcomes =
      s.assembly.outcomes ++ events.flatMap (Event.outcomes s.assembly.loader) := by
  induction hrun with
  | nil s => exact (List.append_nil _).symm
  | cons hstep _ ih =>
    rw [ih (entered_step h hstep), loader_step h hstep, outcomes_step h hstep, List.append_assoc,
      List.flatMap_cons]

/-! ## Giving up -/

/-- While an inquiry waits, the loads go on as they would without it. -/
theorem run_of_waiting {a : Assembly} {inquiry : Inquiry}
    (hwaits : ∀ e ∈ events, e ≠ .giveUp ∧ e ≠ .answer) (hrun : Run ⟨a, some inquiry⟩ events t) :
    t.waiting = some inquiry ∧ Run ⟨a, none⟩ events ⟨t.assembly, none⟩ := by
  induction events generalizing a with
  | nil =>
    cases hrun
    exact ⟨rfl, .nil _⟩
  | cons e events ih =>
    obtain ⟨⟨hgiveUp, hanswer⟩, hrest⟩ := List.forall_mem_cons.1 hwaits
    cases hrun with
    | cons hstep hrun =>
      cases hstep with
      | advance _ _ index =>
        obtain ⟨hwaiting, hrun'⟩ := ih hrest hrun
        exact ⟨hwaiting, .cons (.advance a none index) hrun'⟩
      | giveUp => exact absurd rfl hgiveUp
      | answer => exact absurd rfl hanswer

/-- An inquiry that is given up might as well not have been made. -/
theorem run_without_inquiry {before waits after : List Event} {inquiry : Inquiry}
    (hwaits : ∀ e ∈ waits, e ≠ .giveUp ∧ e ≠ .answer)
    (hrun : Run s (before ++ .ask inquiry :: (waits ++ .giveUp :: after)) u) :
    Run s (before ++ (waits ++ after)) u := by
  obtain ⟨t, hbefore, hrun⟩ := run_append.1 hrun
  refine run_append.2 ⟨t, hbefore, ?_⟩
  cases hrun with
  | cons hask hrun =>
    cases hask with
    | ask a =>
      obtain ⟨v, hwaiting, hrun⟩ := run_append.1 hrun
      obtain ⟨-, hwaiting⟩ := run_of_waiting hwaits hwaiting
      cases hrun with
      | cons hgiveUp hafter =>
        cases hgiveUp with
        | giveUp b => exact run_append.2 ⟨_, hwaiting, hafter⟩

/-! ## Main result -/

/-- After an answer, all that the registry and the failures depend on are the outcomes. -/
theorem same_of_answers {s' t' : Session} (h : s.assembly.Entered) (h' : s'.assembly.Entered)
    (hstep : Step s .answer t) (hstep' : Step s' .answer t')
    (houtcomes : s.assembly.outcomes = s'.assembly.outcomes) :
    t.assembly.registry = t'.assembly.registry ∧ t.assembly.failures = t'.assembly.failures := by
  cases hstep with
  | answer a inquiry hready =>
    cases hstep' with
    | answer a' inquiry' hready' =>
      have hall := Assembly.entered_settle h.le
      have hall' := Assembly.entered_settle h'.le
      show (inquiry.serve a).registry = (inquiry'.serve a').registry ∧
        (inquiry.serve a).failures = (inquiry'.serve a').failures
      rw [inquiry.serve_eq_settle h, inquiry'.serve_eq_settle h',
        (h.settle hready).registry, (h'.settle hready').registry, (h.settle hready).failures,
        (h'.settle hready').failures, hall, hall']
      exact ⟨by rw [houtcomes], by rw [houtcomes]⟩

/-- **Loads are entered in the order of the queue, each once, however they are scheduled.** -/
theorem replay_in_queue_order {loader : Loader} {policy : FailurePolicy}
    {middleware : MiddlewareIndex} (h : Run (fresh loader policy middleware) events s) :
    s.assembly.Entered ∧
      s.assembly.registry.docs = (loadedUnits s.assembly.entered).map (·.doc) ∧
      s.assembly.outcomes = events.flatMap (Event.outcomes loader) ∧
      (∀ t, Step s .answer t → t.assembly.replayed = t.assembly.queue.size) ∧
      (∀ loader' policy' middleware' events' s' t t',
        Run (fresh loader' policy' middleware') events' s' → Step s .answer t →
          Step s' .answer t' → s.assembly.outcomes = s'.assembly.outcomes →
          t.assembly.registry = t'.assembly.registry ∧
            t.assembly.failures = t'.assembly.failures) ∧
      ∀ before inquiry waits after,
        events = before ++ .ask inquiry :: (waits ++ .giveUp :: after) →
        (∀ e ∈ waits, e ≠ .giveUp ∧ e ≠ .answer) →
        Run (fresh loader policy middleware) (before ++ (waits ++ after)) s := by
  have hfresh : ∀ loader policy middleware, (fresh loader policy middleware).assembly.Entered :=
    fun loader policy middleware => Assembly.entered_fresh loader policy middleware
  have hs : s.assembly.Entered := entered_run (hfresh ..) h
  refine ⟨hs, ?_, ?_, fun t => replayed_of_answer hs, ?_, ?_⟩
  · rw [hs.registry, Registry.docs_registerAll]
    exact List.nil_append _
  · rw [outcomes_run (hfresh ..) h]
    exact List.nil_append _
  · intro loader' policy' middleware' events' s' t t' hrun' hstep hstep' houtcomes
    exact same_of_answers hs (entered_run (hfresh ..) hrun') hstep hstep' houtcomes
  · intro before inquiry waits after hevents hwaits
    rw [hevents] at h
    exact run_without_inquiry hwaits h

/-- Of two loads the second ends first, and the first inquiry is given up. -/
theorem replay_of_two_loads :
    let module : DocRecord :=
      ({ description := "" } : DocRecord).addTag ⟨"module", "B", none, none, []⟩
    let loader : Loader :=
      { extractor := ⟨fun _ => .ok ([module], [])⟩, resolver := ⟨fun _ _ _ => .resolved ∅⟩ }
    let files : Files := ⟨fun path => path = "b.rs", fun _ => .ok []⟩
    let events : List Event := [.add files ["a"] [], .add files ["b"] [], .ask .mapping, .advance 1,
      .giveUp, .advance 0, .ask .api, .answer]
    ∃ s, Run (fresh loader) events s ∧ s.assembly.Entered ∧
      s.assembly.registry.docs = [⟨"B", "", []⟩] ∧
      Run (fresh loader) [.add files ["a"] [], .add files ["b"] [], .advance 1, .advance 0,
        .ask .api, .answer] s := by
  intro module loader files events
  have hrun : Run (fresh loader) events _ :=
    .cons (.add _ files ["a"] []) <| .cons (.add _ files ["b"] []) <| .cons (.ask _ .mapping) <|
      .cons (.advance _ _ 1) <| .cons (.giveUp _ _) <| .cons (.advance _ _ 0) <|
      .cons (.ask _ .api) <| .cons (.answer _ .api rfl) <| .nil _
  obtain ⟨hentered, -, -, -, -, hgiveUp⟩ := replay_in_queue_order hrun
  refine ⟨_, hrun, hentered, by decide, ?_⟩
  exact hgiveUp [.add files ["a"] [], .add files ["b"] []] .mapping [.advance 1]
    [.advance 0, .ask .api, .answer] rfl (by simp)

end Session

end DocRoutes
