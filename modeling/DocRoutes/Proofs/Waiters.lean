import DocRoutes.Load.Queue
import DocRoutes.Proofs.Suspensions

/-!
# Waiting for a queue of loads

Loads are queued, go on by themselves, and end in any order. Anyone may wait for a load by its
handle, or for all loads from a place on, and may begin to wait at any time. A waiter looks after the
loads now and then, and keeps the outcome of each load that it finds ended.

**The state** (`Gate`). The queue, the handles that were given out, and the waiters. A waiter holds
what the queue gave it to wait for, and what it has seen so far.

**The invariant** (`Gate.Sound`). The outcome of a load is fixed when the load is queued
(`QueuedLoad.outcome`). Handles, the queue and all that waiters have seen agree with these outcomes,
slot by slot.

**Theorem (`waiters_agree`).** Whatever happens before and after, a wait for the loads from a place
on gives the outcomes of the loads that were queued by then, from that place on, and a wait for a
handle gives the outcome of its load. Outcomes depend on nothing but the load of their slot, and every
wait can be brought to its end.
-/

namespace DocRoutes

/-! ## The state -/

/-- A load as it is queued. -/
structure QueuedLoad where
  path : String
  task : Pending LoadEnd

/-- The outcome of a load, fixed when it is queued. -/
def QueuedLoad.outcome (l : QueuedLoad) : LoadOutcome := l.task.wait.outcome l.path

/-- Someone who waits for loads that stand next to each other in the queue. -/
structure Waiter where
  /-- The slot of the first of these loads. -/
  first : Nat
  /-- What the queue gave to wait for. -/
  promise : Pending (List LoadOutcome)
  /-- The outcomes seen so far. -/
  seen : List (Option LoadOutcome)

namespace Waiter

/-- Look after one of the loads. Its outcome is kept once the load has ended. -/
def look (w : Waiter) (q : LoadQueue) (place : Nat) : Waiter :=
  { w with seen := w.seen.modify place fun
      | some outcome => some outcome
      | none => q.units[w.first + place]?.bind Pending.result? }

/-- The wait is over, with these outcomes. -/
def Gets (w : Waiter) (outcomes : List LoadOutcome) : Prop := w.seen = outcomes.map some

end Waiter

/-- A queue, the handles of its loads, and those who wait. -/
structure Gate where
  queue : LoadQueue := {}
  handles : List (Pending LoadOutcome) := []
  waiters : List Waiter := []

inductive GateEvent where
  | request
  | enqueue (load : QueuedLoad)
  /-- One load goes on. -/
  | advance (index : Nat)
  /-- Someone begins to wait for a handle. -/
  | await (slot : Nat)
  /-- Someone begins to wait for all loads from a place on. -/
  | settle (start : Nat)
  /-- A waiter looks after one of its loads. -/
  | look (waiter place : Nat)

namespace GateEvent

/-- The loads that an event queues. -/
def loads : GateEvent → List QueuedLoad
  | enqueue load => [load]
  | _ => []

/-- Events that bring loads and waits to their end. -/
def IsProgress : GateEvent → Prop
  | advance _ | look _ _ => True
  | _ => False

end GateEvent

namespace Gate

def step (g : Gate) : GateEvent → Gate
  | .request => { g with queue := g.queue.request }
  | .enqueue load =>
    let (queue, handle) := g.queue.enqueue load.path load.task
    { g with queue, handles := g.handles ++ [handle] }
  | .advance index => { g with queue := g.queue.advance index }
  | .await slot =>
    match g.handles[slot]? with
    | some handle => { g with waiters := g.waiters ++ [⟨slot, handle.map ([·]), [none]⟩] }
    | none => g
  | .settle start =>
    let waiter : Waiter :=
      ⟨start, g.queue.settledFrom start, (g.queue.units.drop start).map fun _ => none⟩
    { g with waiters := g.waiters ++ [waiter] }
  | .look waiter place => { g with waiters := g.waiters.modify waiter (·.look g.queue place) }

def run (g : Gate) (events : List GateEvent) : Gate := events.foldl step g

end Gate

/-! ## What waiters have seen -/

namespace Waiter

/-- What a waiter waits for and what it has seen are outcomes of its slots. -/
structure Sound (w : Waiter) (outcomes : List LoadOutcome) : Prop where
  promise : w.promise.wait = (outcomes.drop w.first).take w.seen.length
  length : w.promise.wait.length = w.seen.length
  seen : ∀ (place : Nat) (outcome : LoadOutcome), w.seen[place]? = some (some outcome) →
    outcomes[w.first + place]? = some outcome

/-- The same wait later: nothing that was seen is lost. -/
structure Continues (w later : Waiter) : Prop where
  first : later.first = w.first
  promise : later.promise = w.promise
  length : later.seen.length = w.seen.length
  seen : ∀ (place : Nat) (outcome : LoadOutcome), w.seen[place]? = some (some outcome) →
    later.seen[place]? = some (some outcome)

variable {w later : Waiter} {outcomes : List LoadOutcome}

theorem Continues.refl (w : Waiter) : w.Continues w := ⟨rfl, rfl, rfl, fun _ _ h => h⟩

theorem Continues.trans {last : Waiter} (h : w.Continues later) (h' : later.Continues last) :
    w.Continues last where
  first := h'.first.trans h.first
  promise := h'.promise.trans h.promise
  length := h'.length.trans h.length
  seen place outcome hseen := h'.seen place outcome (h.seen place outcome hseen)

theorem getElem?_seen_look (w : Waiter) (q : LoadQueue) (place other : Nat) :
    (w.look q place).seen[other]? =
      if place = other then w.seen[other]?.map fun
        | some outcome => some outcome
        | none => q.units[w.first + place]?.bind Pending.result?
      else w.seen[other]? := by
  rw [look, List.getElem?_modify]
  by_cases h : place = other
  · simp [h]
  · simp [h]

theorem continues_look (w : Waiter) (q : LoadQueue) (place : Nat) : w.Continues (w.look q place) where
  first := rfl
  promise := rfl
  length := List.length_modify ..
  seen other outcome h := by
    rw [getElem?_seen_look, h]
    split <;> rfl

/-- Later loads take no part in what a waiter waits for. -/
theorem Sound.append (h : w.Sound outcomes) (more : List LoadOutcome) :
    w.Sound (outcomes ++ more) where
  promise := by
    have hlength := h.length
    rw [h.promise, List.length_take, List.length_drop] at hlength
    rw [h.promise]
    by_cases hle : w.first ≤ outcomes.length
    · rw [List.drop_append_of_le_length hle, List.take_append_of_le_length]
      rw [List.length_drop]
      omega
    · have hzero : w.seen.length = 0 := by omega
      rw [hzero, List.take_zero, List.take_zero]
  length := h.length
  seen place outcome hseen := by
    have hlt : w.first + place < outcomes.length :=
      (List.getElem?_eq_some_iff.1 (h.seen place outcome hseen)).1
    rw [List.getElem?_append_left hlt]
    exact h.seen place outcome hseen

theorem Sound.look {q : LoadQueue} (h : w.Sound outcomes)
    (hq : q.units.map Pending.wait = outcomes) (place : Nat) : (w.look q place).Sound outcomes where
  promise := by
    rw [(w.continues_look q place).length]
    exact h.promise
  length := h.length.trans (w.continues_look q place).length.symm
  seen other outcome hseen := by
    rw [getElem?_seen_look] at hseen
    split at hseen
    · next heq =>
      subst heq
      obtain ⟨before, hbefore, hafter⟩ := Option.map_eq_some_iff.1 hseen
      cases before with
      | some outcome' => exact h.seen place outcome (hafter ▸ hbefore)
      | none =>
        obtain ⟨unit, hunit, hresult⟩ := Option.bind_eq_some_iff.1 hafter
        show outcomes[w.first + place]? = some outcome
        rw [← hq, List.getElem?_map, hunit, Option.map_some, Pending.wait_of_result? hresult]
    · exact h.seen other outcome hseen

/-- What is seen was promised. -/
theorem Sound.getElem?_promise (h : w.Sound outcomes) {place : Nat} {outcome : LoadOutcome}
    (hseen : w.seen[place]? = some (some outcome)) : w.promise.wait[place]? = some outcome := by
  have hplace : place < w.seen.length := (List.getElem?_eq_some_iff.1 hseen).1
  rw [h.promise, List.getElem?_take_of_lt hplace, List.getElem?_drop, h.seen place outcome hseen]

/-- **A wait ends with what was promised.** -/
theorem Sound.eq_wait_of_gets (h : w.Sound outcomes) {answer : List LoadOutcome}
    (hgets : w.Gets answer) : answer = w.promise.wait := by
  have hseen : w.seen = answer.map some := hgets
  have hlength : w.promise.wait.length = answer.length := by
    rw [h.length, hseen, List.length_map]
  refine List.ext_getElem hlength.symm fun place hplace hplace' => ?_
  have hanswer : w.seen[place]? = some (some answer[place]) := by
    rw [hseen, List.getElem?_map, List.getElem?_eq_getElem hplace, Option.map_some]
  have hpromise := h.getElem?_promise hanswer
  rw [List.getElem?_eq_getElem hplace'] at hpromise
  exact (Option.some.inj hpromise).symm

/-- The loads that a waiter waits for are queued. -/
theorem Sound.lt (h : w.Sound outcomes) {place : Nat} (hplace : place < w.seen.length) :
    w.first + place < outcomes.length := by
  have hlength := h.length
  rw [h.promise, List.length_take, List.length_drop] at hlength
  omega

/-- Once every load was seen the wait is over. -/
theorem gets_of_all_seen (h : none ∉ w.seen) : ∃ answer, w.Gets answer := by
  have hall : ∀ seen : List (Option LoadOutcome), none ∉ seen →
      ∃ answer : List LoadOutcome, seen = answer.map some := by
    intro seen hseen
    induction seen with
    | nil => exact ⟨[], rfl⟩
    | cons first rest ih =>
      obtain ⟨hfirst, hrest⟩ := not_or.1 (mt List.mem_cons.2 hseen)
      obtain ⟨answer, rfl⟩ := ih hrest
      obtain ⟨outcome, rfl⟩ := Option.ne_none_iff_exists'.1 (Ne.symm hfirst)
      exact ⟨outcome :: answer, rfl⟩
  exact hall w.seen h

/-- How many loads a waiter has not seen ended. -/
def unseen (w : Waiter) : Nat := (w.seen.map fun seen => if seen.isSome then 0 else 1).sum

/-- Looking after a load that has ended is progress. -/
theorem unseen_look {q : LoadQueue} {place : Nat} {outcome : LoadOutcome}
    (hseen : w.seen[place]? = some none)
    (hended : q.units[w.first + place]? = some (.done outcome)) :
    (w.look q place).unseen + 1 = w.unseen := by
  have hsum := Pending.sum_map_modify (fun seen => if seen.isSome then 0 else 1)
    (fun
      | some outcome => some outcome
      | none => q.units[w.first + place]?.bind Pending.result?) hseen
  dsimp only at hsum
  rw [hended] at hsum
  rw [unseen, unseen, look, hended]
  exact hsum

end Waiter

/-! ## The invariant -/

namespace Gate

variable {g : Gate} {loads : List QueuedLoad}

/-- Everything that can be waited for, and all that was seen, agrees with the outcomes of the
queued loads. -/
structure Sound (g : Gate) (loads : List QueuedLoad) : Prop where
  handles : g.handles.map Pending.wait = loads.map QueuedLoad.outcome
  units : g.queue.units.map Pending.wait = loads.map QueuedLoad.outcome
  waiters : ∀ w ∈ g.waiters, w.Sound (loads.map QueuedLoad.outcome)

theorem sound_empty : ({} : Gate).Sound [] := ⟨rfl, rfl, nofun⟩

theorem Sound.wait_settledFrom (h : g.Sound loads) (start : Nat) :
    (g.queue.settledFrom start).wait = (loads.map QueuedLoad.outcome).drop start := by
  rw [LoadQueue.wait_settledFrom, List.map_drop, h.units]

theorem Sound.size (h : g.Sound loads) : g.queue.size = loads.length := by
  have hlength := congrArg List.length h.units
  rwa [List.length_map, List.length_map] at hlength

theorem Sound.handle (h : g.Sound loads) {slot : Nat} {handle : Pending LoadOutcome}
    (hslot : g.handles[slot]? = some handle) :
    (loads.map QueuedLoad.outcome)[slot]? = some handle.wait := by
  rw [← h.handles, List.getElem?_map, hslot, Option.map_some]

theorem Sound.enqueue (h : g.Sound loads) (load : QueuedLoad) :
    (g.step (.enqueue load)).Sound (loads ++ [load]) := by
  have houtcome : (load.task.map (·.outcome load.path)).wait = load.outcome := Pending.wait_map ..
  have hloads : (loads ++ [load]).map QueuedLoad.outcome =
      loads.map QueuedLoad.outcome ++ [load.outcome] := List.map_append
  refine ⟨?_, ?_, fun w hw => ?_⟩
  · show (g.handles ++ [load.task.map (·.outcome load.path)]).map Pending.wait = _
    rw [List.map_append, h.handles, List.map_singleton, houtcome, hloads]
  · show (g.queue.units ++ [load.task.map (·.outcome load.path)]).map Pending.wait = _
    rw [List.map_append, h.units, List.map_singleton, houtcome, hloads]
  · rw [hloads]
    exact (h.waiters w hw).append _

theorem Sound.addWaiter (h : g.Sound loads) {w : Waiter}
    (hw : w.Sound (loads.map QueuedLoad.outcome)) :
    Sound { g with waiters := g.waiters ++ [w] } loads where
  handles := h.handles
  units := h.units
  waiters := List.forall_mem_append.2 ⟨h.waiters, List.forall_mem_singleton.2 hw⟩

/-- A wait for a handle is sound when it begins. -/
theorem Sound.await (h : g.Sound loads) {slot : Nat} {handle : Pending LoadOutcome}
    (hslot : g.handles[slot]? = some handle) :
    Waiter.Sound ⟨slot, handle.map ([·]), [none]⟩ (loads.map QueuedLoad.outcome) := by
  have hpromise : (handle.map ([·])).wait = [handle.wait] := Pending.wait_map ..
  exact {
    promise := by
      show _ = List.take 1 _
      rw [hpromise, List.take_one, List.head?_drop, h.handle hslot]
      rfl
    length := by rw [hpromise]; rfl
    seen := fun place outcome hseen => by
      cases place with
      | zero => cases hseen
      | succ place => cases hseen }

/-- A wait for all loads from a place on is sound when it begins. -/
theorem Sound.settle (h : g.Sound loads) (start : Nat) :
    Waiter.Sound
      ⟨start, g.queue.settledFrom start, (g.queue.units.drop start).map fun _ => none⟩
      (loads.map QueuedLoad.outcome) := by
  have hlength : ((loads.map QueuedLoad.outcome).drop start).length =
      ((g.queue.units.drop start).map fun _ => (none : Option LoadOutcome)).length := by
    rw [List.length_map, List.length_drop, List.length_drop, ← h.units, List.length_map]
  exact {
    promise := by rw [h.wait_settledFrom, ← hlength, List.take_length]
    length := by rw [h.wait_settledFrom, hlength]
    seen := fun place outcome hseen => by
      rw [List.getElem?_map] at hseen
      obtain ⟨unit, -, hnone⟩ := Option.map_eq_some_iff.1 hseen
      cases hnone }

theorem Sound.look (h : g.Sound loads) (waiter place : Nat) :
    (g.step (.look waiter place)).Sound loads where
  handles := h.handles
  units := h.units
  waiters w hw := by
    obtain ⟨index, hindex⟩ := List.mem_iff_getElem?.1 hw
    rw [step, List.getElem?_modify] at hindex
    obtain ⟨before, hbefore, rfl⟩ := Option.map_eq_some_iff.1 hindex
    have hsound := h.waiters before (List.mem_of_getElem? hbefore)
    split
    · exact hsound.look h.units place
    · exact hsound

theorem Sound.step (h : g.Sound loads) (e : GateEvent) : (g.step e).Sound (loads ++ e.loads) := by
  cases e with
  | enqueue load => exact h.enqueue load
  | request => exact (List.append_nil loads).symm ▸ ⟨h.handles, h.units, h.waiters⟩
  | advance index =>
    refine (List.append_nil loads).symm ▸ ⟨h.handles, ?_, h.waiters⟩
    exact (Pending.map_wait_modify ..).trans h.units
  | await slot =>
    refine (List.append_nil loads).symm ▸ ?_
    rw [Gate.step]
    split
    · next hslot => exact h.addWaiter (h.await hslot)
    · exact h
  | settle start => exact (List.append_nil loads).symm ▸ h.addWaiter (h.settle start)
  | look waiter place => exact (List.append_nil loads).symm ▸ h.look waiter place

theorem Sound.run (h : g.Sound loads) (events : List GateEvent) :
    (g.run events).Sound (loads ++ events.flatMap GateEvent.loads) := by
  induction events generalizing g loads with
  | nil => exact (List.append_nil loads).symm ▸ h
  | cons e events ih =>
    rw [List.flatMap_cons, ← List.append_assoc]
    exact ih (h.step e)

/-! ## A wait over time -/

theorem continues_step {index : Nat} {w : Waiter} (h : g.waiters[index]? = some w)
    (e : GateEvent) : ∃ later, (g.step e).waiters[index]? = some later ∧ w.Continues later := by
  have hadded (more : List Waiter) : (g.waiters ++ more)[index]? = some w := by
    rw [List.getElem?_append_left (List.getElem?_eq_some_iff.1 h).1, h]
  cases e with
  | request => exact ⟨w, h, .refl w⟩
  | enqueue load => exact ⟨w, h, .refl w⟩
  | advance index => exact ⟨w, h, .refl w⟩
  | await slot =>
    rw [step]
    split
    · exact ⟨w, hadded _, .refl w⟩
    · exact ⟨w, h, .refl w⟩
  | settle start => exact ⟨w, hadded _, .refl w⟩
  | look waiter place =>
    rw [step, List.getElem?_modify, h]
    split
    · exact ⟨_, rfl, w.continues_look g.queue place⟩
    · exact ⟨w, rfl, .refl w⟩

theorem continues_run {index : Nat} {w : Waiter} (h : g.waiters[index]? = some w)
    (events : List GateEvent) :
    ∃ later, (g.run events).waiters[index]? = some later ∧ w.Continues later := by
  induction events generalizing g w with
  | nil => exact ⟨w, h, .refl w⟩
  | cons e events ih =>
    obtain ⟨next, hnext, hcontinues⟩ := continues_step h e
    obtain ⟨later, hlater, hrest⟩ := ih hnext
    exact ⟨later, hlater, hcontinues.trans hrest⟩

/-- A wait that begins is the last of the waiters, and stays at its place. -/
theorem exists_waiter {w : Waiter} {e : GateEvent}
    (he : g.step e = { g with waiters := g.waiters ++ [w] }) (more : List GateEvent) :
    ∃ later, (g.run (e :: more)).waiters[g.waiters.length]? = some later ∧ w.Continues later := by
  have hnew : (g.step e).waiters[g.waiters.length]? = some w := by
    rw [he]
    exact List.getElem?_concat_length
  exact continues_run hnew more

/-! ## Progress -/

/-- A bound for the steps that bring all loads and all waits to their end. -/
def remaining (g : Gate) : Nat :=
  (g.queue.units.map Pending.suspensions).sum + (g.waiters.map Waiter.unseen).sum

/-- As long as someone waits, a load can go on or an outcome can be seen. -/
theorem Sound.exists_progress (h : g.Sound loads) {w : Waiter} (hw : w ∈ g.waiters)
    (hseen : none ∈ w.seen) : ∃ e, e.IsProgress ∧ (g.step e).remaining < g.remaining := by
  rcases Pending.all_ended_or_exists_suspended g.queue.units with hended | ⟨index, rest, hindex⟩
  · obtain ⟨index, hindex⟩ := List.mem_iff_getElem?.1 hw
    obtain ⟨place, hplace⟩ := List.mem_iff_getElem?.1 hseen
    have hlt : w.first + place < g.queue.units.length := by
      have hloads := (h.waiters w hw).lt (List.getElem?_eq_some_iff.1 hplace).1
      rwa [← h.units, List.length_map] at hloads
    obtain ⟨outcome, houtcome⟩ := hended _ (List.getElem_mem hlt)
    have hunit : g.queue.units[w.first + place]? = some (.done outcome) := by
      rw [List.getElem?_eq_getElem hlt, houtcome]
    refine ⟨.look index place, trivial, ?_⟩
    have hsum := Pending.sum_map_modify Waiter.unseen (·.look g.queue place) hindex
    have hless := Waiter.unseen_look hplace hunit
    show (g.queue.units.map Pending.suspensions).sum +
      ((g.waiters.modify index (·.look g.queue place)).map Waiter.unseen).sum < _
    rw [remaining]
    omega
  · refine ⟨.advance index, trivial, ?_⟩
    have hless := Pending.sum_suspensions_modify hindex
    show ((g.queue.units.modify index Pending.resume).map Pending.suspensions).sum +
      (g.waiters.map Waiter.unseen).sum < _
    rw [remaining]
    omega

/-- **Every wait can be brought to its end.** -/
theorem Sound.exists_run (h : g.Sound loads) :
    ∃ more, (∀ e ∈ more, GateEvent.IsProgress e) ∧
      ∀ w ∈ (g.run more).waiters, w.Gets w.promise.wait := by
  induction hn : g.remaining using Nat.strongRecOn generalizing g loads with
  | _ n ih =>
    subst hn
    by_cases hwaits : ∃ w ∈ g.waiters, none ∈ w.seen
    · obtain ⟨w, hw, hseen⟩ := hwaits
      obtain ⟨e, he, hless⟩ := h.exists_progress hw hseen
      obtain ⟨more, hmore, hends⟩ := ih _ hless (h.step e) rfl
      exact ⟨e :: more, List.forall_mem_cons.2 ⟨he, hmore⟩, hends⟩
    · refine ⟨[], nofun, fun w hw => ?_⟩
      obtain ⟨answer, hgets⟩ := Waiter.gets_of_all_seen fun hseen => hwaits ⟨w, hw, hseen⟩
      exact (h.waiters w hw).eq_wait_of_gets hgets ▸ hgets

/-! ## What a wait gives -/

/-- A wait for all loads from a place on gives the outcomes of the loads queued when it began. -/
theorem Sound.exists_settled (h : g.Sound loads) (start : Nat) (more : List GateEvent) :
    ∃ w, (g.run (.settle start :: more)).waiters[g.waiters.length]? = some w ∧
      w.seen.length = g.queue.size - start ∧
      (∀ (place : Nat) outcome, w.seen[place]? = some (some outcome) →
        ((loads.map QueuedLoad.outcome).drop start)[place]? = some outcome) ∧
      ∀ answer, w.Gets answer → answer = (loads.map QueuedLoad.outcome).drop start := by
  obtain ⟨w, hw, hcontinues⟩ := exists_waiter (g := g) (e := .settle start) rfl more
  have hlater : w.Sound _ :=
    (h.run (.settle start :: more)).waiters w (List.mem_of_getElem? hw)
  have hpromise : w.promise.wait = (loads.map QueuedLoad.outcome).drop start := by
    rw [hcontinues.promise, ← h.wait_settledFrom]
  refine ⟨w, hw, ?_, fun place outcome hseen => ?_, fun answer hgets => ?_⟩
  · rw [← hlater.length, hpromise, List.length_drop, List.length_map, h.size]
  · rw [← hpromise, hlater.getElem?_promise hseen]
  · rw [hlater.eq_wait_of_gets hgets, hpromise]

/-- A wait for a handle gives the outcome of its load. -/
theorem Sound.exists_awaited (h : g.Sound loads) {slot : Nat} {load : QueuedLoad}
    (hload : loads[slot]? = some load) (more : List GateEvent) :
    ∃ w, (g.run (.await slot :: more)).waiters[g.waiters.length]? = some w ∧
      w.seen.length = 1 ∧ ∀ answer, w.Gets answer → answer = [load.outcome] := by
  have houtcome : (g.handles.map Pending.wait)[slot]? = some load.outcome := by
    rw [h.handles, List.getElem?_map, hload, Option.map_some]
  rw [List.getElem?_map] at houtcome
  obtain ⟨handle, hhandle, hwait⟩ := Option.map_eq_some_iff.1 houtcome
  have hstep : g.step (.await slot) =
      { g with waiters := g.waiters ++ [⟨slot, handle.map ([·]), [none]⟩] } := by
    rw [Gate.step, hhandle]
  obtain ⟨w, hw, hcontinues⟩ := exists_waiter hstep more
  have hlater : w.Sound _ :=
    (h.run (.await slot :: more)).waiters w (List.mem_of_getElem? hw)
  refine ⟨w, hw, hcontinues.length, fun answer hgets => ?_⟩
  rw [hlater.eq_wait_of_gets hgets, hcontinues.promise]
  show (handle.map ([·])).wait = _
  rw [Pending.wait_map, hwait]

/-- Two waiters, even of different queues, see one outcome in slots that hold one load. -/
theorem Sound.agree {g' : Gate} {loads' : List QueuedLoad} (h : g.Sound loads)
    (h' : g'.Sound loads') {slot : Nat} (hloads : loads[slot]? = loads'[slot]?) {w w' : Waiter}
    (hw : w ∈ g.waiters) (hw' : w' ∈ g'.waiters) {place place' : Nat} {o o' : LoadOutcome}
    (hslot : w.first + place = slot) (hslot' : w'.first + place' = slot)
    (hseen : w.seen[place]? = some (some o)) (hseen' : w'.seen[place']? = some (some o')) :
    o = o' := by
  have ho := (h.waiters w hw).seen place o hseen
  have ho' := (h'.waiters w' hw').seen place' o' hseen'
  rw [hslot, List.getElem?_map, hloads] at ho
  rw [hslot', List.getElem?_map, ho] at ho'
  exact Option.some.inj ho'

end Gate

/-! ## Main result -/

/-- **All who wait agree.** The handles and the queue give each load's own outcome in its slot: a load
that finished gives its unit, its lack of a file or its failure unchanged, and a load that crashed is
aborted with its path. A wait for all loads from a place on that begins after some events gives the
outcomes of the loads queued by then from that place on, and a wait for a handle gives the outcome of
its load, whatever happens later. Two waiters see the same outcome in a slot, even in different
histories, if the load in the slot is the same. From every state all waits can be brought to their
end. -/
theorem waiters_agree (events : List GateEvent) :
    let loads := events.flatMap GateEvent.loads
    let outcomes := loads.map QueuedLoad.outcome
    let g := ({} : Gate).run events
    g.handles.map Pending.wait = outcomes ∧
      (∀ start, (g.queue.settledFrom start).wait = outcomes.drop start ∧
        (g.queue.settledFrom start).wait = g.queue.settled.wait.drop start ∧
        (g.queue.settledFrom start).wait.length = g.queue.size - start) ∧
      (∀ (slot : Nat) load outcome, loads[slot]? = some load → load.task.wait = .finished outcome →
        g.queue.settled.wait[slot]? = some outcome) ∧
      (∀ (slot : Nat) load reason, loads[slot]? = some load → load.task.wait = .crashed reason →
        g.queue.settled.wait[slot]? = some (.error (.aborted load.path reason))) ∧
      (∀ start more, ∃ w, (g.run (.settle start :: more)).waiters[g.waiters.length]? = some w ∧
        w.seen.length = g.queue.size - start ∧
        (∀ (place : Nat) outcome, w.seen[place]? = some (some outcome) →
          (outcomes.drop start)[place]? = some outcome) ∧
        ∀ answer, w.Gets answer → answer = outcomes.drop start) ∧
      (∀ (slot : Nat) load more, loads[slot]? = some load →
        ∃ w, (g.run (.await slot :: more)).waiters[g.waiters.length]? = some w ∧
          w.seen.length = 1 ∧ ∀ answer, w.Gets answer → answer = [load.outcome]) ∧
      (∀ (events' : List GateEvent) (slot : Nat),
        loads[slot]? = (events'.flatMap GateEvent.loads)[slot]? →
        ∀ w ∈ g.waiters, ∀ w' ∈ (({} : Gate).run events').waiters, ∀ (place place' : Nat) o o',
          w.first + place = slot → w'.first + place' = slot →
          w.seen[place]? = some (some o) → w'.seen[place']? = some (some o') → o = o') ∧
      ∃ more, (∀ e ∈ more, GateEvent.IsProgress e) ∧
        ∀ w ∈ (g.run more).waiters, w.Gets w.promise.wait := by
  intro loads outcomes g
  have hsound : g.Sound loads := Gate.sound_empty.run events
  have hsettled : g.queue.settled.wait = outcomes := hsound.wait_settledFrom 0
  have hat {slot : Nat} {load : QueuedLoad} (hload : loads[slot]? = some load) :
      g.queue.settled.wait[slot]? = some (load.task.wait.outcome load.path) := by
    rw [hsettled, List.getElem?_map, hload]
    rfl
  refine ⟨hsound.handles, fun start => ?_, fun slot load outcome hload hfinished => ?_,
    fun slot load reason hload hcrash => ?_, hsound.exists_settled,
    fun slot load more hload => hsound.exists_awaited hload more, ?_, hsound.exists_run⟩
  · have hwait := hsound.wait_settledFrom start
    refine ⟨hwait, by rw [hwait, hsettled], ?_⟩
    rw [hwait, List.length_drop, List.length_map, hsound.size]
  · rw [hat hload, hfinished]
    rfl
  · rw [hat hload, hcrash]
    rfl
  · intro events' slot hloads w hw w' hw' place place' o o' hslot hslot' hseen hseen'
    exact hsound.agree (Gate.sound_empty.run events') hloads hw hw' hslot hslot' hseen hseen'

/-- A load that crashes after someone began to wait for it. -/
example :
    (({} : Gate).run [.enqueue ⟨"a", .suspended (.done (.crashed "boom"))⟩, .settle 0,
      .enqueue ⟨"b", .done (.finished (.ok none))⟩, .settle 1, .look 1 0, .advance 0,
      .look 0 0]).waiters.map Waiter.seen =
    [[some (.error (.aborted "a" "boom"))], [some (.ok none)]] := rfl

end DocRoutes
