import Mathlib.Algebra.GroupWithZero.Nat
import DocRoutes.Proofs.Replay

/-!
# Reports of failed loads

Two parties learn that a load has failed: whoever added its unit, and whoever asks the assembly
anything afterwards. Both read the same outcomes, at times of their own.

**The first failure** (`FirstFailure`). Of the loads in a list, the first that failed, with nothing
but units and skipped paths before it. Further loads behind it do not change it, which is why an
assembly that has failed keeps failing with the same error.

**Additions** (`Loader.wait_addition`). What comes of adding units is the first failure among their own
loads, or the counts of the units loaded and skipped.

**Inquiries** (`Inquiry.reply_of_failure`, `Inquiry.result_reply_of_loaded`). The reply to an
inquiry is the first failure in the whole queue, and then nothing else happens: no route is offered
to a sink. Without a failure only a mount or a router before the first request is refused.

Main result: `Session.failures_reported`, for every session.
-/

namespace DocRoutes

/-! ## Failures among outcomes -/

/-- The first load that failed did so with `e`. -/
def FirstFailure (e : LoadError) (outcomes : List LoadOutcome) : Prop :=
  ∃ before after, outcomes = before ++ .error e :: after ∧ ∀ o ∈ before, ∃ unit, o = .ok unit

theorem loadFailures_cons_ok (unit : Option LoadedUnit) (outcomes : List LoadOutcome) :
    loadFailures (.ok unit :: outcomes) = loadFailures outcomes := rfl

theorem loadFailures_cons_error (e : LoadError) (outcomes : List LoadOutcome) :
    loadFailures (.error e :: outcomes) = e :: loadFailures outcomes := rfl

theorem loadFailures_eq_nil_iff {outcomes : List LoadOutcome} :
    loadFailures outcomes = [] ↔ ∀ o ∈ outcomes, ∃ unit, o = .ok unit := by
  induction outcomes with
  | nil => simp [loadFailures]
  | cons o rest ih =>
    cases o with
    | ok unit => simp [loadFailures_cons_ok, ih]
    | error e => simp [loadFailures_cons_error]

theorem head?_loadFailures_eq_some_iff {outcomes : List LoadOutcome} {e : LoadError} :
    (loadFailures outcomes).head? = some e ↔ FirstFailure e outcomes := by
  constructor
  · intro h
    induction outcomes with
    | nil => simp [loadFailures] at h
    | cons o rest ih =>
      cases o with
      | ok unit =>
        obtain ⟨before, after, rfl, hbefore⟩ := ih h
        refine ⟨.ok unit :: before, after, rfl, ?_⟩
        simpa using hbefore
      | error e' =>
        rw [loadFailures_cons_error, List.head?_cons, Option.some.injEq] at h
        subst h
        exact ⟨[], rest, rfl, by simp⟩
  · rintro ⟨before, after, rfl, hbefore⟩
    rw [loadFailures_append, loadFailures_eq_nil_iff.2 hbefore]
    rfl

/-- Some load failed exactly if there is a first one. -/
theorem exists_firstFailure_iff {outcomes : List LoadOutcome} :
    (∃ e, FirstFailure e outcomes) ↔ ∃ e, .error e ∈ outcomes := by
  constructor
  · rintro ⟨e, before, after, rfl, -⟩
    exact ⟨e, List.mem_append_right _ List.mem_cons_self⟩
  · rintro ⟨e, he⟩
    cases hfailures : loadFailures outcomes with
    | nil =>
      obtain ⟨unit, hunit⟩ := loadFailures_eq_nil_iff.1 hfailures _ he
      cases hunit
    | cons first rest => exact ⟨first, head?_loadFailures_eq_some_iff.1 (by rw [hfailures]; rfl)⟩

theorem FirstFailure.append {e : LoadError} {outcomes : List LoadOutcome}
    (h : FirstFailure e outcomes) (more : List LoadOutcome) :
    FirstFailure e (outcomes ++ more) := by
  obtain ⟨before, after, rfl, hbefore⟩ := h
  exact ⟨before, after ++ more, by simp, hbefore⟩

namespace LoadSummary

theorem ofOutcomes_eq_error_iff {outcomes : List LoadOutcome} {e : LoadError} :
    ofOutcomes outcomes = .error e ↔ FirstFailure e outcomes := by
  rw [← head?_loadFailures_eq_some_iff]
  induction outcomes with
  | nil => simp [ofOutcomes, loadFailures]
  | cons o rest ih =>
    cases o with
    | ok unit =>
      rw [loadFailures_cons_ok, ← ih, ofOutcomes]
      cases ofOutcomes rest <;> simp [Except.map]
    | error e' => simp [ofOutcomes, loadFailures_cons_error]

/-- The counts of a summary: every load is counted once. -/
theorem counts_of_ofOutcomes {outcomes : List LoadOutcome} {s : LoadSummary}
    (h : ofOutcomes outcomes = .ok s) :
    s.loaded = (loadedUnits outcomes).length ∧ s.loaded + s.skipped = outcomes.length := by
  induction outcomes generalizing s with
  | nil =>
    cases h
    exact ⟨rfl, rfl⟩
  | cons o rest ih =>
    cases o with
    | error e => cases h
    | ok unit =>
      simp only [ofOutcomes] at h
      cases hrest : ofOutcomes rest with
      | error e => simp [hrest, Except.map] at h
      | ok s' =>
        obtain ⟨hloaded, hcount⟩ := ih hrest
        simp only [hrest, Except.map, Except.ok.injEq] at h
        subst h
        cases unit with
        | none =>
          refine ⟨hloaded, ?_⟩
          show s'.loaded + (s'.skipped + 1) = rest.length + 1
          omega
        | some unit =>
          refine ⟨?_, ?_⟩
          · simp [hloaded, loadedUnits]
          · show s'.loaded + 1 + s'.skipped = rest.length + 1
            omega

end LoadSummary

/-! ## Additions -/

namespace Loader

variable {loader : Loader} {files : Files} {paths : List String} {args : List Json}

/-- What comes of adding units with a loader, once all their loads have ended. -/
def addition (loader : Loader) (files : Files) (paths : List String) (args : List Json) :
    Assembly.Addition :=
  (Pending.all (paths.map fun path => (loader.task files path args).map (·.outcome path))).map
    fun outcomes => (LoadSummary.ofOutcomes outcomes).mapError .load

theorem wait_addition : (loader.addition files paths args).wait =
    (LoadSummary.ofOutcomes (paths.map (Assembly.loadOutcome loader files args))).mapError
      .load := by
  rw [addition, Pending.wait_map, Pending.wait_all, List.map_map]
  rfl

/-- An addition fails with the first failure among its own loads. -/
theorem wait_addition_eq_error_iff {err : AssemblyError} :
    (loader.addition files paths args).wait = .error err ↔
      ∃ e, err = .load e ∧ FirstFailure e (paths.map (Assembly.loadOutcome loader files args)) := by
  rw [wait_addition]
  simp only [← LoadSummary.ofOutcomes_eq_error_iff]
  cases LoadSummary.ofOutcomes (paths.map (Assembly.loadOutcome loader files args)) with
  | ok summary =>
    constructor
    · exact nofun
    · rintro ⟨e, -, h⟩
      cases h
  | error e =>
    constructor
    · intro h
      exact ⟨e, (Except.error.inj h).symm, rfl⟩
    · rintro ⟨e', rfl, h⟩
      cases h
      rfl

theorem exists_wait_addition_eq_error_iff :
    (∃ err, (loader.addition files paths args).wait = .error err) ↔
      ∃ e, .error e ∈ paths.map (Assembly.loadOutcome loader files args) := by
  rw [← exists_firstFailure_iff]
  constructor
  · rintro ⟨err, herr⟩
    obtain ⟨e, -, hfail⟩ := wait_addition_eq_error_iff.1 herr
    exact ⟨e, hfail⟩
  · rintro ⟨e, hfail⟩
    exact ⟨.load e, wait_addition_eq_error_iff.2 ⟨e, rfl, hfail⟩⟩

/-- The counts of an addition that has succeeded: every path is counted once. -/
theorem counts_of_wait_addition {summary : LoadSummary}
    (h : (loader.addition files paths args).wait = .ok summary) :
    summary.loaded =
        (loadedUnits (paths.map (Assembly.loadOutcome loader files args))).length ∧
      summary.loaded + summary.skipped = paths.length := by
  rw [wait_addition] at h
  cases hown : LoadSummary.ofOutcomes (paths.map (Assembly.loadOutcome loader files args)) with
  | error e =>
    rw [hown] at h
    cases h
  | ok own =>
    rw [hown] at h
    cases h
    have hcounts := LoadSummary.counts_of_ofOutcomes hown
    rwa [List.length_map] at hcounts

end Loader

namespace Assembly

theorem handles_enqueueAll (loader : Loader) (files : Files) (args : List Json) (q : LoadQueue)
    (paths : List String) :
    (enqueueAll loader files args q paths).2 =
      paths.map fun path => (loader.task files path args).map (·.outcome path) := by
  induction paths generalizing q with
  | nil => rfl
  | cons path rest ih =>
    rw [List.map_cons, ← ih (q.enqueue path (loader.task files path args)).1]
    rfl

theorem addition_addUnits (a : Assembly) (files : Files) (paths : List String)
    (args : List Json) : (a.addUnits files paths args).2 = a.loader.addition files paths args := by
  rw [Loader.addition, ← handles_enqueueAll a.loader files args a.queue.request paths]
  rfl

/-! ## Replies -/

/-- A reply without its value. -/
def Reply.erase {α : Type} (r : Reply α) : Reply Unit :=
  ⟨r.assembly, r.events, r.result.map fun _ => ()⟩

end Assembly

/-- The reply to an inquiry, without its value. -/
def Inquiry.reply (a : Assembly) : Inquiry → Assembly.Reply Unit
  | .mapping => a.mapping.erase
  | .api => a.api.erase
  | .mount sink state => (a.mount sink state).erase
  | .router => a.router.erase

/-- Whether an inquiry asks for the routes to be mounted. -/
def Inquiry.mounts : Inquiry → Bool
  | .mapping => false
  | .api => false
  | .mount _ _ => true
  | .router => true

/-- A route is offered to a sink. No sink is asked to take a route without this event. -/
def AssemblyEvent.isOffer : AssemblyEvent → Bool
  | .offered _ _ => true
  | _ => false

namespace Inquiry

theorem assembly_reply (a : Assembly) (inquiry : Inquiry) :
    (inquiry.reply a).assembly = inquiry.serve a := by
  cases inquiry <;> rfl

end Inquiry

namespace Assembly

variable {a : Assembly} {e : LoadError}

/-- Settling offers nothing. -/
theorem not_isOffer_replayAll (a : Assembly) (outcomes : List LoadOutcome) :
    ∀ event ∈ (a.replayAll outcomes).2, event.isOffer = false := by
  induction outcomes generalizing a with
  | nil => simp [replayAll]
  | cons o rest ih =>
    intro event hevent
    rcases List.mem_append.1 hevent with hevent | hevent
    · rcases o with e | _ | unit
      · rw [List.mem_singleton.1 hevent]
        rfl
      · cases hevent
      · simp only [Option.mem_toList, Option.map_eq_some_iff] at hevent
        obtain ⟨merged, -, rfl⟩ := hevent
        rfl
    · exact ih _ event hevent

theorem Entered.wasRequested_of_failure (h : a.Entered) (hfail : FirstFailure e a.outcomes) :
    a.queue.wasRequested = true := by
  cases hrequested : a.queue.wasRequested with
  | true => rfl
  | false =>
    obtain ⟨before, after, houtcomes, -⟩ := hfail
    simp [outcomes, h.idle hrequested] at houtcomes

theorem Entered.failures_settle_of_failure (h : a.Entered) (hfail : FirstFailure e a.outcomes) :
    ∃ rest, a.settle.1.failures = e :: rest := by
  rw [h.failures_settle]
  exact List.head?_eq_some_iff.1 (head?_loadFailures_eq_some_iff.2 hfail)

end Assembly

namespace Inquiry

variable {a : Assembly} {e : LoadError}

/-- After a failure every inquiry gets the same reply, and no sink is asked anything. -/
theorem reply_of_failure (h : a.Entered) (hfail : FirstFailure e a.outcomes) (inquiry : Inquiry) :
    inquiry.reply a = ⟨a.settle.1, a.settle.2, .error (.load e)⟩ := by
  obtain ⟨rest, hfailures⟩ := h.failures_settle_of_failure hfail
  have hrequested := h.wasRequested_of_failure hfail
  cases inquiry with
  | mapping =>
    rw [reply, Assembly.mapping, Assembly.afterSettling_of_failure hfailures]
    rfl
  | api =>
    rw [reply, Assembly.api, Assembly.afterSettling_of_failure hfailures]
    rfl
  | mount sink state =>
    rw [reply, Assembly.mount_of_failure hrequested hfailures]
    rfl
  | router =>
    rw [reply, Assembly.router, Assembly.mount_of_failure hrequested hfailures]
    rfl

/-- Without a failure, routes are refused before the first request, and nothing else is. -/
theorem result_reply_of_loaded (h : a.Entered) (hloaded : loadFailures a.outcomes = [])
    (inquiry : Inquiry) : (inquiry.reply a).result =
      if inquiry.mounts ∧ a.queue.wasRequested = false then .error .nothingIncluded
      else .ok () := by
  have hfailures : a.settle.1.failures = [] := h.failures_settle.trans hloaded
  cases inquiry with
  | mapping =>
    rw [reply, Assembly.mapping, Assembly.afterSettling_of_loaded hfailures]
    rfl
  | api =>
    rw [reply, Assembly.api, Assembly.afterSettling_of_loaded hfailures]
    rfl
  | mount sink state =>
    cases hrequested : a.queue.wasRequested with
    | true =>
      rw [reply, Assembly.mount_of_requested hrequested hfailures]
      rfl
    | false =>
      rw [reply, Assembly.mount_of_not_requested hrequested]
      rfl
  | router =>
    cases hrequested : a.queue.wasRequested with
    | true =>
      rw [reply, Assembly.router, Assembly.mount_of_requested hrequested hfailures]
      rfl
    | false =>
      rw [reply, Assembly.router, Assembly.mount_of_not_requested hrequested]
      rfl

/-- The reply to an inquiry is an error of loading exactly if a load has failed, and then it is the
first one that has. -/
theorem result_reply_eq_load_iff (h : a.Entered) (inquiry : Inquiry) (e : LoadError) :
    (inquiry.reply a).result = .error (.load e) ↔ FirstFailure e a.outcomes := by
  constructor
  · intro hresult
    cases hfailures : loadFailures a.outcomes with
    | nil =>
      rw [result_reply_of_loaded h hfailures] at hresult
      split at hresult <;> cases hresult
    | cons first rest =>
      have hfirst : FirstFailure first a.outcomes :=
        head?_loadFailures_eq_some_iff.1 (by rw [hfailures]; rfl)
      rw [reply_of_failure h hfirst] at hresult
      cases hresult
      exact hfirst
  · intro hfail
    rw [reply_of_failure h hfail]

/-- Routes are refused as too early exactly if nothing was requested. -/
theorem result_reply_eq_nothingIncluded_iff (h : a.Entered) (inquiry : Inquiry) :
    (inquiry.reply a).result = .error .nothingIncluded ↔
      inquiry.mounts ∧ a.queue.wasRequested = false := by
  cases hfailures : loadFailures a.outcomes with
  | nil =>
    rw [result_reply_of_loaded h hfailures]
    by_cases hearly : inquiry.mounts ∧ a.queue.wasRequested = false
    · simp [hearly]
    · simp [hearly]
  | cons first rest =>
    have hfirst : FirstFailure first a.outcomes :=
      head?_loadFailures_eq_some_iff.1 (by rw [hfailures]; rfl)
    rw [reply_of_failure h hfirst, h.wasRequested_of_failure hfirst]
    simp

end Inquiry

/-! ## Sessions -/

/-- What comes of the units that an event adds. -/
def Event.addition? (loader : Loader) : Event → Option Assembly.Addition
  | .add files paths args => some (loader.addition files paths args)
  | _ => none

/-- What comes of the units that some events add, one result for each time. -/
def Event.additions (loader : Loader) (events : List Event) : List Assembly.Addition :=
  events.filterMap (addition? loader)

/-- If every addition was a success, their counts make up all the units loaded. -/
theorem Event.length_loadedUnits_of_additions {loader : Loader} {events : List Event}
    {summaries : List LoadSummary}
    (h : (additions loader events).map Pending.wait = summaries.map .ok) :
    (loadedUnits (events.flatMap (outcomes loader))).length = (summaries.map (·.loaded)).sum := by
  induction events generalizing summaries with
  | nil =>
    have hnone : summaries = [] := List.map_eq_nil_iff.1 h.symm
    rw [hnone]
    rfl
  | cons event rest ih =>
    match event with
    | .add files paths args =>
      match summaries with
      | [] => cases h
      | summary :: summaries =>
        obtain ⟨hhead, htail⟩ := List.cons.inj h
        rw [List.flatMap_cons, loadedUnits_append, List.length_append, ih htail, List.map_cons,
          List.sum_cons, (Loader.counts_of_wait_addition hhead).1]
        rfl
    | .advance _ => exact ih h
    | .ask _ => exact ih h
    | .giveUp => exact ih h
    | .answer => exact ih h

namespace Session

variable {s t u : Session} {event : Event} {events : List Event}

/-- An inquiry that waits in `s` is answered, which leaves the session in `t`. -/
def Answers (s : Session) (inquiry : Inquiry) (t : Session) : Prop :=
  s.waiting = some inquiry ∧ Step s .answer t

theorem Answers.assembly {inquiry : Inquiry} (h : s.Answers inquiry t) :
    t.assembly = (inquiry.reply s.assembly).assembly := by
  obtain ⟨hwaiting, hstep⟩ := h
  cases hstep with
  | answer a inquiry' hready =>
    cases hwaiting
    exact (inquiry.assembly_reply a).symm

theorem wasRequested_step (h : s.assembly.Entered) (hstep : Step s event t) :
    t.assembly.queue.wasRequested = false ↔ s.assembly.queue.wasRequested = false ∧
      event.addition? s.assembly.loader = none := by
  cases hstep with
  | add a files paths args => simp [Assembly.wasRequested_addUnits, Event.addition?]
  | advance a waiting index =>
    show a.queue.wasRequested = false ↔ _
    simp [Event.addition?]
  | ask a inquiry => simp [Event.addition?]
  | giveUp a inquiry => simp [Event.addition?]
  | answer a inquiry hready =>
    show (inquiry.serve a).queue.wasRequested = false ↔ _
    rw [inquiry.serve_eq_settle h, Assembly.settle, Assembly.queue_replayAll]
    simp [Event.addition?]

theorem wasRequested_run (h : s.assembly.Entered) (hrun : Run s events t) :
    t.assembly.queue.wasRequested = false ↔ s.assembly.queue.wasRequested = false ∧
      Event.additions s.assembly.loader events = [] := by
  induction hrun with
  | nil s => simp [Event.additions]
  | cons hstep _ ih =>
    rw [ih (entered_step h hstep), wasRequested_step h hstep, loader_step h hstep, and_assoc]
    simp [Event.additions]

theorem loader_run (h : s.assembly.Entered) (hrun : Run s events t) :
    t.assembly.loader = s.assembly.loader := by
  induction hrun with
  | nil s => rfl
  | cons hstep _ ih => rw [ih (entered_step h hstep), loader_step h hstep]

/-- What was added in one step comes to the same outcomes when it is read from the queue, at any
time after all of it has ended. -/
theorem own_of_run {files : Files} {paths : List String} {args : List Json}
    {results : List LoadOutcome} (h : s.assembly.Entered)
    (hstep : Step s (.add files paths args) t) (hrun : Run t events u)
    (hended : (u.assembly.queue.units.drop s.assembly.queue.size).take paths.length =
      results.map .done) :
    results = paths.map (Assembly.loadOutcome s.assembly.loader files args) := by
  have houtcomes : u.assembly.outcomes =
      s.assembly.outcomes ++ paths.map (Assembly.loadOutcome s.assembly.loader files args) ++
        events.flatMap (Event.outcomes t.assembly.loader) := by
    rw [outcomes_run (entered_step h hstep) hrun, outcomes_step h hstep]
    rfl
  have hresults : (u.assembly.outcomes.drop s.assembly.queue.size).take paths.length =
      results := by
    rw [Assembly.outcomes, ← List.map_drop, ← List.map_take, hended, List.map_map]
    exact List.map_id _
  rw [← hresults, houtcomes, ← s.assembly.length_outcomes, List.append_assoc, List.drop_left]
  exact List.take_left' (List.length_map _)

/-- A failure stays the first one, whatever is added behind it. -/
theorem firstFailure_run {e : LoadError} (h : s.assembly.Entered) (hrun : Run s events t)
    (hfail : FirstFailure e s.assembly.outcomes) : FirstFailure e t.assembly.outcomes := by
  rw [outcomes_run h hrun]
  exact hfail.append _

/-- After a failed load every inquiry gets the same error. -/
theorem result_reply_run {e : LoadError} (h : s.assembly.Entered) (hrun : Run s events t)
    (hfail : FirstFailure e s.assembly.outcomes) (inquiry : Inquiry) :
    (inquiry.reply t.assembly).result = .error (.load e) :=
  (inquiry.result_reply_eq_load_iff (entered_run h hrun) e).2 (firstFailure_run h hrun hfail)

/-- After an addition that fails every inquiry fails, if perhaps with an earlier failure. -/
theorem exists_result_reply_of_added {files : Files} {paths : List String} {args : List Json}
    (h : s.assembly.Entered) (hstep : Step s (.add files paths args) t)
    (hfailed : ∃ e, .error e ∈ paths.map (Assembly.loadOutcome s.assembly.loader files args))
    (hrun : Run t events u) (inquiry : Inquiry) :
    ∃ e, (inquiry.reply u.assembly).result = .error (.load e) := by
  have ht : t.assembly.Entered := entered_step h hstep
  have hmem : ∃ e, .error e ∈ t.assembly.outcomes := by
    obtain ⟨e, he⟩ := hfailed
    refine ⟨e, ?_⟩
    rw [outcomes_step h hstep]
    exact List.mem_append_right _ he
  obtain ⟨first, hfirst⟩ := exists_firstFailure_iff.2 hmem
  exact ⟨first, result_reply_run ht hrun hfirst inquiry⟩

section Fresh

variable {loader : Loader} {policy : FailurePolicy} {middleware : MiddlewareIndex}

theorem entered_of_fresh (h : Run (fresh loader policy middleware) events s) :
    s.assembly.Entered :=
  entered_run (Assembly.entered_fresh loader policy middleware) h

theorem outcomes_of_fresh (h : Run (fresh loader policy middleware) events s) :
    s.assembly.outcomes = events.flatMap (Event.outcomes loader) :=
  (outcomes_run (Assembly.entered_fresh loader policy middleware) h).trans (List.nil_append _)

theorem loader_of_fresh (h : Run (fresh loader policy middleware) events s) :
    s.assembly.loader = loader :=
  loader_run (Assembly.entered_fresh loader policy middleware) h

/-- Loads have been requested exactly if units were added, even if there were none to add. -/
theorem wasRequested_of_fresh (h : Run (fresh loader policy middleware) events s) :
    s.assembly.queue.wasRequested = false ↔ Event.additions loader events = [] := by
  rw [wasRequested_run (Assembly.entered_fresh loader policy middleware) h]
  simp [fresh, LoadQueue.wasRequested]

/-- The units in the registry once it is settled, if every addition was a success. -/
theorem length_docs_settle {summaries : List LoadSummary}
    (h : Run (fresh loader policy middleware) events s)
    (hsummaries : (Event.additions loader events).map Pending.wait = summaries.map .ok) :
    s.assembly.settle.1.registry.docs.length = (summaries.map (·.loaded)).sum := by
  rw [(entered_of_fresh h).registry_settle, Registry.docs_registerAll, outcomes_of_fresh h,
    ← Event.length_loadedUnits_of_additions hsummaries]
  simp

end Fresh

/-! ## Main result -/

/-- **Everyone is told of failed loads alike.** If a load has failed, an inquiry is answered with the
first failure in the order of the queue, no sink is offered a route, and every later inquiry gets the
same error; a mount that fails leaves the state of its sink as it was. Whoever adds units is told of
the first failure among their own loads, at whatever time these are read from the queue, and every
later inquiry fails; without a failure each path is counted once. If all additions succeed, the
registry holds the units that they counted. Routes are refused as too early exactly if nothing was
ever added, be it no units at all. -/
theorem failures_reported {loader : Loader} {policy : FailurePolicy}
    {middleware : MiddlewareIndex} (h : Run (fresh loader policy middleware) events s) :
    let outcomes := events.flatMap (Event.outcomes loader)
    let additions := Event.additions loader events
    (∀ inquiry t, s.Answers inquiry t →
      let reply := inquiry.reply s.assembly
      t.assembly = reply.assembly ∧
      (∀ e, reply.result = .error (.load e) ↔ FirstFailure e outcomes) ∧
      ((∃ e, reply.result = .error (.load e)) ↔ ∃ e, .error e ∈ outcomes) ∧
      (reply.result = .error .nothingIncluded ↔ inquiry.mounts ∧ additions = []) ∧
      (∀ e, reply.result = .error (.load e) →
        reply = Inquiry.mapping.reply s.assembly ∧
        (∀ event ∈ reply.events, event.isOffer = false) ∧
        ∀ later u (inquiry' : Inquiry), Run t later u →
          (inquiry'.reply u.assembly).result = .error (.load e)) ∧
      ∀ summaries : List LoadSummary, additions.map Pending.wait = summaries.map .ok →
        reply.assembly.registry.docs.length = (summaries.map (·.loaded)).sum) ∧
    (∀ (σ : Type) (sink : Sink σ) (state : σ) e, (s.assembly.mount sink state).result = .error e →
      (s.assembly.mount sink state).sink = state) ∧
    ∀ files paths args t, Step s (.add files paths args) t →
      let addition := (s.assembly.addUnits files paths args).2
      let own := paths.map (Assembly.loadOutcome loader files args)
      Event.addition? loader (.add files paths args) = some addition ∧
      (∀ err, addition.wait = .error err ↔ ∃ e, err = .load e ∧ FirstFailure e own) ∧
      ((∃ err, addition.wait = .error err) ↔ ∃ e, .error e ∈ own) ∧
      (∀ summary, addition.wait = .ok summary →
        summary.loaded + summary.skipped = paths.length) ∧
      ∀ later u, Run t later u →
        (∀ results,
          (u.assembly.queue.units.drop s.assembly.queue.size).take paths.length =
            results.map .done →
          addition.wait = (LoadSummary.ofOutcomes results).mapError .load) ∧
        ∀ err (inquiry : Inquiry), addition.wait = .error err →
          ∃ e, (inquiry.reply u.assembly).result = .error (.load e) := by
  have hs : s.assembly.Entered := entered_of_fresh h
  have hloader : s.assembly.loader = loader := loader_of_fresh h
  intro outcomes additions
  refine ⟨?_, fun σ sink state e => Assembly.sink_mount_of_error, ?_⟩
  · intro inquiry t hanswers reply
    have hreply : ∀ e, reply.result = .error (.load e) ↔ FirstFailure e outcomes := by
      intro e
      rw [inquiry.result_reply_eq_load_iff hs, outcomes_of_fresh h]
    refine ⟨hanswers.assembly, hreply, ?_, ?_, ?_, ?_⟩
    · simp only [hreply, exists_firstFailure_iff]
    · rw [inquiry.result_reply_eq_nothingIncluded_iff hs, wasRequested_of_fresh h]
    · intro e hresult
      have hfail : FirstFailure e s.assembly.outcomes :=
        (inquiry.result_reply_eq_load_iff hs e).1 hresult
      have heq : reply = ⟨s.assembly.settle.1, s.assembly.settle.2, .error (.load e)⟩ :=
        Inquiry.reply_of_failure hs hfail inquiry
      refine ⟨heq.trans (Inquiry.reply_of_failure hs hfail .mapping).symm, ?_, ?_⟩
      · rw [heq, Assembly.settle_eq]
        exact Assembly.not_isOffer_replayAll _ _
      · intro later u inquiry' hlater
        exact result_reply_run hs (.cons hanswers.2 hlater) hfail inquiry'
    · intro summaries hsummaries
      have hassembly : reply.assembly = s.assembly.settle.1 :=
        (inquiry.assembly_reply _).trans (inquiry.serve_eq_settle hs)
      rw [hassembly]
      exact length_docs_settle h hsummaries
  · intro files paths args t hstep
    rw [s.assembly.addition_addUnits, hloader]
    intro addition own
    refine ⟨rfl, fun err => Loader.wait_addition_eq_error_iff,
      Loader.exists_wait_addition_eq_error_iff,
      fun summary hsummary => (Loader.counts_of_wait_addition hsummary).2, ?_⟩
    intro later u hlater
    refine ⟨?_, ?_⟩
    · intro results hended
      rw [own_of_run hs hstep hlater hended, hloader]
      exact Loader.wait_addition
    · intro err inquiry hfailed
      have hown := Loader.exists_wait_addition_eq_error_iff.1 ⟨err, hfailed⟩
      rw [← hloader] at hown
      exact exists_result_reply_of_added hs hstep hown hlater inquiry

/-- Of two units that are added together the second cannot be read. Whoever added them and whoever
asks for the documentation gets its error, and so does a mount after one more unit has loaded. -/
theorem failures_of_two_units :
    let module : DocRecord :=
      ({ description := "" } : DocRecord).addTag ⟨"module", "B", none, none, []⟩
    let loader : Loader :=
      { extractor := ⟨fun _ => .ok ([module], [])⟩, resolver := ⟨fun _ _ _ => .resolved ∅⟩ }
    let files : Files :=
      ⟨fun _ => true, fun path => if path = "bad" then .error .isDirectory else .ok []⟩
    let error : LoadError := .read "bad" .isDirectory
    let mount : Inquiry := .mount (Sink.recording []) []
    ∃ s t u v,
      Run (fresh loader) [.add files ["good", "bad"] [], .ask .mapping, .advance 1, .advance 0] s ∧
      s.Answers .mapping t ∧
      Run t [.add files ["more"] [], .ask mount, .advance 2] u ∧ u.Answers mount v ∧
      ((fresh loader).assembly.addUnits files ["good", "bad"] []).2.wait = .error (.load error) ∧
      (Inquiry.mapping.reply s.assembly).result = .error (.load error) ∧
      (mount.reply u.assembly).result = .error (.load error) := by
  intro module loader files error mount
  let added := (fresh loader).assembly.addUnits files ["good", "bad"] []
  let ended := (added.1.advance 1).advance 0
  let later := ((Inquiry.mapping.serve ended).addUnits files ["more"] []).1.advance 2
  have hadd : Step (fresh loader) (.add files ["good", "bad"] []) ⟨added.1, none⟩ := .add ..
  have hrun : Run (fresh loader) _ ⟨ended, some .mapping⟩ :=
    .cons hadd <| .cons (.ask _ .mapping) <| .cons (.advance _ _ 1) <| .cons (.advance _ _ 0) <|
      .nil _
  have hanswers : Answers ⟨ended, some .mapping⟩ .mapping ⟨Inquiry.mapping.serve ended, none⟩ :=
    ⟨rfl, .answer _ _ rfl⟩
  have hlater : Run ⟨Inquiry.mapping.serve ended, none⟩ _ ⟨later, some mount⟩ :=
    .cons (.add _ files ["more"] []) <| .cons (.ask _ mount) <| .cons (.advance _ _ 2) <| .nil _
  have hanswers' : Answers ⟨later, some mount⟩ mount ⟨mount.serve later, none⟩ :=
    ⟨rfl, .answer _ _ rfl⟩
  obtain ⟨-, -, haddition⟩ := failures_reported (.nil (fresh loader))
  obtain ⟨-, herror, -⟩ := haddition files ["good", "bad"] [] _ hadd
  obtain ⟨hinquiry, -⟩ := failures_reported hrun
  obtain ⟨-, hfirst, -, -, hsticky, -⟩ := hinquiry .mapping _ hanswers
  have hfail : FirstFailure error
      (["good", "bad"].map (Assembly.loadOutcome loader files [])) :=
    ⟨[.ok (some ⟨"good", ⟨"B", "", []⟩, ∅⟩)], [], rfl, by simp⟩
  have hmapping := (hfirst error).2 hfail
  refine ⟨_, _, _, _, hrun, hanswers, hlater, hanswers', ?_, hmapping, ?_⟩
  · exact (herror _).2 ⟨error, rfl, hfail⟩
  · obtain ⟨-, -, hlast⟩ := hsticky error hmapping
    exact hlast _ _ mount hlater

end Session

end DocRoutes
