import DocRoutes.Http.Sink

/-!
# What a table of routes holds

A table is asked to take routes, one call after the other. The router behind it may be anything:
it takes a route or gives a reason not to.

**Theorem (`table_after_calls`).** After any calls on a fresh table, the routes taken are absolute,
none occurs twice, the set of routes seen holds the same routes, and no two of them name a
parameter differently at one place. The router is what comes of inserting the routes of the calls
that were taken, in their order. A call is refused for the first cause that applies, and then
nothing has changed.

The invariant is `SinkTable.WF`; `performed_iff` says all that one call can do, and everything else
is an induction over the calls.
-/

namespace DocRoutes

/-! ## Differing names of parameters -/

/-- The paths agree up to a place where both have a parameter, and its names differ. -/
def NamesDiffer (p q : String) : Prop :=
  ∃ i a b, (segments p).take i = (segments q).take i ∧
    (segments p)[i]? = some (':' :: a) ∧ (segments q)[i]? = some (':' :: b) ∧ a ≠ b

theorem NamesDiffer.symm {p q : String} (h : NamesDiffer p q) : NamesDiffer q p := by
  obtain ⟨i, a, b, htake, ha, hb, hne⟩ := h
  exact ⟨i, b, a, htake.symm, hb, ha, hne.symm⟩

theorem not_namesDiffer_self (p : String) : ¬NamesDiffer p p := by
  rintro ⟨i, a, b, -, ha, hb, hne⟩
  rw [ha] at hb
  simp_all

theorem isParamSegment_iff {segment : List Char} :
    isParamSegment segment = true ↔ ∃ name, segment = ':' :: name := by
  cases segment with
  | nil => simp [isParamSegment]
  | cons c s => simp [isParamSegment]

theorem paramsDiffer_iff {as bs : List (List Char)} :
    paramsDiffer as bs = true ↔ ∃ i a b, as.take i = bs.take i ∧
      as[i]? = some (':' :: a) ∧ bs[i]? = some (':' :: b) ∧ a ≠ b := by
  induction as generalizing bs with
  | nil => simp [paramsDiffer]
  | cons s as ih =>
    cases bs with
    | nil => simp [paramsDiffer]
    | cons t bs =>
      by_cases hst : s = t
      · subst hst
        rw [paramsDiffer, if_pos rfl, ih]
        constructor
        · rintro ⟨i, a, b, htake, ha, hb, hne⟩
          exact ⟨i + 1, a, b, by simp [htake], ha, hb, hne⟩
        · rintro ⟨i, a, b, htake, ha, hb, hne⟩
          cases i with
          | zero => simp_all
          | succ i => exact ⟨i, a, b, by simpa using htake, ha, hb, hne⟩
      · rw [paramsDiffer, if_neg hst, Bool.and_eq_true, isParamSegment_iff, isParamSegment_iff]
        constructor
        · rintro ⟨⟨a, rfl⟩, ⟨b, rfl⟩⟩
          exact ⟨0, a, b, rfl, rfl, rfl, fun h => hst (by rw [h])⟩
        · rintro ⟨i, a, b, htake, ha, hb, -⟩
          cases i with
          | zero => exact ⟨⟨a, by simpa using ha⟩, ⟨b, by simpa using hb⟩⟩
          | succ i => simp [hst] at htake

theorem paramsDiffer_segments {p q : String} :
    paramsDiffer (segments p) (segments q) = true ↔ NamesDiffer p q :=
  paramsDiffer_iff

namespace SinkTable

variable {ρ : Type} {t : SinkTable ρ}

theorem conflicting?_eq_none {path : String} :
    t.conflicting? path = none ↔ ∀ r ∈ t.routes, ¬NamesDiffer r.2 path := by
  simp only [conflicting?, Option.map_eq_none_iff, List.find?_eq_none, paramsDiffer_segments]

/-- The path found is the earliest one that conflicts. -/
theorem conflicting?_eq_some {path existing : String} :
    t.conflicting? path = some existing ↔ ∃ before verb after,
      t.routes = before ++ (verb, existing) :: after ∧ NamesDiffer existing path ∧
        ∀ r ∈ before, ¬NamesDiffer r.2 path := by
  simp only [conflicting?, Option.map_eq_some_iff, List.find?_eq_some_iff_append,
    paramsDiffer_segments, Prod.exists, Bool.not_eq_eq_eq_not, Bool.not_true,
    ← Bool.not_eq_true]
  constructor
  · rintro ⟨verb, _, ⟨hdiff, before, after, hroutes, hbefore⟩, rfl⟩
    exact ⟨before, verb, after, hroutes, hdiff, fun r hr => hbefore r hr⟩
  · rintro ⟨before, verb, after, hroutes, hdiff, hbefore⟩
    exact ⟨verb, existing, ⟨hdiff, before, after, hroutes, fun r hr => hbefore r hr⟩, rfl⟩

/-! ## Calls -/

/-- A route that a table is asked to take. -/
structure Call where
  verb : Verb
  path : String
  chain : Chain

def Call.key (c : Call) : Verb × String := (c.verb, c.path)

variable (insert : ρ → Verb → String → Chain → Except String ρ)

/-- The result of a call, and what it leaves behind. -/
def perform (t : SinkTable ρ) (c : Call) : Except SinkError Unit × SinkTable ρ :=
  (registerM insert c.verb c.path c.chain).run t

/-- The table after some calls, whatever their results are. -/
def afterCalls (t : SinkTable ρ) (calls : List Call) : SinkTable ρ :=
  calls.foldl (fun t c => (t.perform insert c).2) t

/-- The calls that are taken, in their order. -/
def takenCalls (t : SinkTable ρ) : List Call → List Call
  | [] => []
  | c :: rest =>
    match t.perform insert c with
    | (.ok (), t) => c :: takenCalls t rest
    | (.error _, t) => takenCalls t rest

/-- A path begins with a slash. -/
def Absolute (path : String) : Prop := path.toList.head? = some '/'

instance (path : String) : Decidable (Absolute path) :=
  inferInstanceAs (Decidable (path.toList.head? = some '/'))

/-- Nothing in the table itself speaks against a call. -/
structure Fits (t : SinkTable ρ) (c : Call) : Prop where
  absolute : Absolute c.path
  new : c.key ∉ t.routes
  names : ∀ r ∈ t.routes, ¬NamesDiffer r.2 c.path

/-- Why a call is refused: the first cause that applies. A conflict names the earliest path. -/
inductive Refused (t : SinkTable ρ) (c : Call) : SinkError → Prop
  | relativePath : ¬Absolute c.path → Refused t c (.relativePath c.path)
  | duplicate : Absolute c.path → c.key ∈ t.routes → Refused t c (.duplicate c.verb c.path)
  | conflict {before after : List (Verb × String)} {verb : Verb} {existing : String} :
      Absolute c.path → c.key ∉ t.routes → t.routes = before ++ (verb, existing) :: after →
      NamesDiffer existing c.path → (∀ r ∈ before, ¬NamesDiffer r.2 c.path) →
      Refused t c (.conflict c.path existing)
  | rejected {reason : String} :
      t.Fits c → insert t.router c.verb c.path c.chain = .error reason →
      Refused t c (.rejected c.path reason)

/-! ## The invariant -/

/-- What holds of a table at all times. -/
structure WF (t : SinkTable ρ) : Prop where
  absolute : ∀ r ∈ t.routes, Absolute r.2
  nodup : t.routes.Nodup
  /-- The set and the list hold the same routes. -/
  seen : ∀ r, r ∈ t.seen ↔ r ∈ t.routes
  /-- At one place a parameter has one name. -/
  names : ∀ r ∈ t.routes, ∀ r' ∈ t.routes, ¬NamesDiffer r.2 r'.2

theorem wf_fresh (router : ρ) : WF { router } where
  absolute := by simp
  nodup := List.nodup_nil
  seen := by simp
  names := by simp

/-- The table with one more route. -/
def extend (t : SinkTable ρ) (c : Call) (router : ρ) : SinkTable ρ :=
  ⟨router, t.seen.insert c.key, t.routes ++ [c.key]⟩

theorem WF.extend {c : Call} (h : t.WF) (hc : t.Fits c) (router : ρ) :
    (t.extend c router).WF where
  absolute r hr := by
    rcases List.mem_append.1 hr with hr | hr
    · exact h.absolute r hr
    · rw [List.mem_singleton.1 hr]
      exact hc.absolute
  nodup := by
    refine List.nodup_append.2 ⟨h.nodup, by simp, fun r hr r' hr' heq => hc.new ?_⟩
    rw [← List.mem_singleton.1 hr', ← heq]
    exact hr
  seen r := by
    show r ∈ t.seen.insert c.key ↔ r ∈ t.routes ++ [c.key]
    rw [List.mem_insert_iff, List.mem_append, List.mem_singleton, h.seen, or_comm]
  names r hr r' hr' := by
    have hnew : ∀ r ∈ t.routes, ¬NamesDiffer r.2 c.key.2 := hc.names
    rcases List.mem_append.1 hr with hr | hr <;> rcases List.mem_append.1 hr' with hr' | hr'
    · exact h.names r hr r' hr'
    · rw [List.mem_singleton.1 hr']
      exact hnew r hr
    · rw [List.mem_singleton.1 hr]
      exact fun hd => hnew r' hr' hd.symm
    · rw [List.mem_singleton.1 hr, List.mem_singleton.1 hr']
      exact not_namesDiffer_self _

/-! ## One call -/

/-- What is read from the table is the table. -/
theorem run_get_bind {α : Type} (t : SinkTable ρ)
    (f : SinkTable ρ → ExceptT SinkError (StateM (SinkTable ρ)) α) :
    (get >>= f : ExceptT SinkError (StateM (SinkTable ρ)) α).run t = (f t).run t := rfl

theorem perform_eq (t : SinkTable ρ) (c : Call) :
    t.perform insert c =
      if ¬Absolute c.path then (.error (.relativePath c.path), t)
      else if c.key ∈ t.seen then (.error (.duplicate c.verb c.path), t)
      else match t.conflicting? c.path with
        | some existing => (.error (.conflict c.path existing), t)
        | none =>
          match insert t.router c.verb c.path c.chain with
          | .error reason => (.error (.rejected c.path reason), t)
          | .ok router => (.ok (), t.extend c router) := by
  unfold perform registerM
  by_cases hslash : c.path.toList.head? ≠ some '/'
  · rw [if_pos hslash, if_pos (show ¬Absolute c.path from hslash)]
    rfl
  rw [if_neg hslash, if_neg (show ¬¬Absolute c.path from hslash), run_get_bind]
  by_cases hseen : (c.verb, c.path) ∈ t.seen
  · rw [if_pos hseen, if_pos (show c.key ∈ t.seen from hseen)]
    rfl
  rw [if_neg hseen, if_neg (show c.key ∉ t.seen from hseen)]
  cases hconflict : t.conflicting? c.path with
  | some existing => rfl
  | none =>
    cases hinsert : insert t.router c.verb c.path c.chain with
    | error reason => rfl
    | ok router => rfl

variable {insert}

theorem perform_of_refused {c : Call} {e : SinkError} (h : t.WF) (hc : Refused insert t c e) :
    t.perform insert c = (.error e, t) := by
  rw [perform_eq]
  cases hc with
  | relativePath hslash => exact if_pos hslash
  | duplicate hslash hkey => rw [if_neg (not_not_intro hslash), if_pos ((h.seen _).2 hkey)]
  | conflict hslash hkey hroutes hdiff hbefore =>
    rw [if_neg (not_not_intro hslash), if_neg (mt (h.seen _).1 hkey),
      conflicting?_eq_some.2 ⟨_, _, _, hroutes, hdiff, hbefore⟩]
  | rejected hfits hinsert =>
    rw [if_neg (not_not_intro hfits.absolute), if_neg (mt (h.seen _).1 hfits.new),
      conflicting?_eq_none.2 hfits.names, hinsert]

theorem perform_of_fits {c : Call} {router : ρ} (h : t.WF) (hc : t.Fits c)
    (hinsert : insert t.router c.verb c.path c.chain = .ok router) :
    t.perform insert c = (.ok (), t.extend c router) := by
  rw [perform_eq, if_neg (not_not_intro hc.absolute), if_neg (mt (h.seen _).1 hc.new),
    conflicting?_eq_none.2 hc.names, hinsert]

theorem refused_or_fits (insert : ρ → Verb → String → Chain → Except String ρ) (t : SinkTable ρ)
    (c : Call) : (∃ e, Refused insert t c e) ∨
      t.Fits c ∧ ∃ router, insert t.router c.verb c.path c.chain = .ok router := by
  by_cases hslash : Absolute c.path
  case neg => exact .inl ⟨_, .relativePath hslash⟩
  by_cases hkey : c.key ∈ t.routes
  · exact .inl ⟨_, .duplicate hslash hkey⟩
  cases hconflict : t.conflicting? c.path with
  | some existing =>
    obtain ⟨before, verb, after, hroutes, hdiff, hbefore⟩ := conflicting?_eq_some.1 hconflict
    exact .inl ⟨_, .conflict hslash hkey hroutes hdiff hbefore⟩
  | none =>
    have hfits : t.Fits c := ⟨hslash, hkey, conflicting?_eq_none.1 hconflict⟩
    cases hinsert : insert t.router c.verb c.path c.chain with
    | error reason => exact .inl ⟨_, .rejected hfits hinsert⟩
    | ok router => exact .inr ⟨hfits, router, rfl⟩

/-- **All that one call can do**: it is refused and changes nothing, or it adds its route. -/
theorem perform_cases (h : t.WF) (c : Call) :
    (∃ e, Refused insert t c e ∧ t.perform insert c = (.error e, t)) ∨
      ∃ router, t.Fits c ∧ insert t.router c.verb c.path c.chain = .ok router ∧
        t.perform insert c = (.ok (), t.extend c router) := by
  rcases refused_or_fits insert t c with ⟨e, he⟩ | ⟨hfits, router, hinsert⟩
  · exact .inl ⟨e, he, perform_of_refused h he⟩
  · exact .inr ⟨router, hfits, hinsert, perform_of_fits h hfits hinsert⟩

theorem perform_error_iff {c : Call} {e : SinkError} (h : t.WF) :
    (t.perform insert c).1 = .error e ↔ Refused insert t c e := by
  constructor
  · intro herror
    rcases perform_cases h c with ⟨e', he', heq⟩ | ⟨router, -, -, heq⟩
    · rw [heq] at herror
      cases herror
      exact he'
    · rw [heq] at herror
      cases herror
  · intro hrefused
    rw [perform_of_refused h hrefused]

theorem WF.perform (h : t.WF) (c : Call) : (t.perform insert c).2.WF := by
  rcases perform_cases h c with ⟨e, -, heq⟩ | ⟨router, hfits, -, heq⟩
  · rw [heq]
    exact h
  · rw [heq]
    exact h.extend hfits router

/-- A call is refused with a conflict exactly if it is absolute and new and there is a route that
names a parameter differently. -/
theorem conflict_iff {c : Call} (h : t.WF) :
    (∃ existing, (t.perform insert c).1 = .error (.conflict c.path existing)) ↔
      Absolute c.path ∧ c.key ∉ t.routes ∧ ∃ r ∈ t.routes, NamesDiffer r.2 c.path := by
  constructor
  · rintro ⟨existing, herror⟩
    cases (perform_error_iff h).1 herror with
    | @conflict before after verb _ hslash hkey hroutes hdiff hbefore =>
      refine ⟨hslash, hkey, (verb, existing), ?_, hdiff⟩
      rw [hroutes]
      exact List.mem_append_right _ List.mem_cons_self
  · rintro ⟨hslash, hkey, r, hr, hdiff⟩
    cases hconflict : t.conflicting? c.path with
    | none => exact absurd hdiff (conflicting?_eq_none.1 hconflict r hr)
    | some existing =>
      obtain ⟨before, verb, after, hroutes, hdiff, hbefore⟩ := conflicting?_eq_some.1 hconflict
      exact ⟨existing, (perform_error_iff h).2 (.conflict hslash hkey hroutes hdiff hbefore)⟩

/-! ## Many calls -/

theorem WF.afterCalls (h : t.WF) (calls : List Call) : (t.afterCalls insert calls).WF := by
  induction calls generalizing t with
  | nil => exact h
  | cons c rest ih => exact ih (h.perform c)

theorem afterCalls_cons (t : SinkTable ρ) (c : Call) (rest : List Call) :
    t.afterCalls insert (c :: rest) = (t.perform insert c).2.afterCalls insert rest := rfl

theorem takenCalls_cons_of_error {c : Call} {e : SinkError} {t' : SinkTable ρ}
    (h : t.perform insert c = (.error e, t')) (rest : List Call) :
    t.takenCalls insert (c :: rest) = t'.takenCalls insert rest := by
  rw [takenCalls, h]

theorem takenCalls_cons_of_ok {c : Call} {t' : SinkTable ρ}
    (h : t.perform insert c = (.ok (), t')) (rest : List Call) :
    t.takenCalls insert (c :: rest) = c :: t'.takenCalls insert rest := by
  rw [takenCalls, h]

theorem routes_afterCalls (h : t.WF) (calls : List Call) :
    (t.afterCalls insert calls).routes =
      t.routes ++ (t.takenCalls insert calls).map Call.key := by
  induction calls generalizing t with
  | nil => exact (List.append_nil _).symm
  | cons c rest ih =>
    rw [afterCalls_cons, ih (h.perform c)]
    rcases perform_cases h c with ⟨e, -, heq⟩ | ⟨router, -, -, heq⟩
    · rw [takenCalls_cons_of_error heq, heq]
    · rw [takenCalls_cons_of_ok heq, heq, List.map_cons]
      exact List.append_assoc ..

/-- Insert the routes of calls one after the other. -/
def insertAll (insert : ρ → Verb → String → Chain → Except String ρ) (router : ρ)
    (calls : List Call) : Except String ρ :=
  calls.foldlM (fun router c => insert router c.verb c.path c.chain) router

theorem router_afterCalls (h : t.WF) (calls : List Call) :
    insertAll insert t.router (t.takenCalls insert calls) =
      .ok (t.afterCalls insert calls).router := by
  induction calls generalizing t with
  | nil => rfl
  | cons c rest ih =>
    rw [afterCalls_cons, ← ih (h.perform c)]
    rcases perform_cases h c with ⟨e, -, heq⟩ | ⟨router, -, hinsert, heq⟩
    · rw [takenCalls_cons_of_error heq, heq]
    · rw [takenCalls_cons_of_ok heq, heq, insertAll, List.foldlM_cons, hinsert]
      rfl

/-- Without the calls that are refused, the table is the same. -/
theorem afterCalls_takenCalls (h : t.WF) (calls : List Call) :
    t.afterCalls insert (t.takenCalls insert calls) = t.afterCalls insert calls := by
  induction calls generalizing t with
  | nil => rfl
  | cons c rest ih =>
    rw [afterCalls_cons, ← ih (h.perform c)]
    rcases perform_cases h c with ⟨e, -, heq⟩ | ⟨router, -, -, heq⟩
    · rw [takenCalls_cons_of_error heq, heq]
    · rw [takenCalls_cons_of_ok heq, afterCalls_cons, heq]

/-- **A table after any calls.** The invariant holds, the routes and the router are those of the
calls that were taken, in their order, and a further call is refused exactly for the first cause
that applies, without a trace. -/
theorem table_after_calls (insert : ρ → Verb → String → Chain → Except String ρ) (router : ρ)
    (calls : List Call) :
    let t : SinkTable ρ := afterCalls insert { router } calls
    let taken := takenCalls insert { router } calls
    t.WF ∧ t.routes = taken.map Call.key ∧ insertAll insert router taken = .ok t.router ∧
      afterCalls insert { router } taken = t ∧
      (∀ c e, (t.perform insert c).1 = .error e ↔ Refused insert t c e) ∧
      (∀ c e, (t.perform insert c).1 = .error e ↔ t.perform insert c = (.error e, t)) ∧
      ∀ c, (∃ existing, (t.perform insert c).1 = .error (.conflict c.path existing)) ↔
        Absolute c.path ∧ c.key ∉ t.routes ∧ ∃ r ∈ t.routes, NamesDiffer r.2 c.path := by
  intro t taken
  have hfresh : WF { router } := wf_fresh router
  have h : t.WF := hfresh.afterCalls calls
  refine ⟨h, ?_, router_afterCalls hfresh calls, afterCalls_takenCalls hfresh calls,
    fun c e => perform_error_iff h, fun c e => ⟨fun herror => ?_, fun heq => ?_⟩,
    fun c => conflict_iff h⟩
  · exact routes_afterCalls hfresh calls
  · exact perform_of_refused h ((perform_error_iff h).1 herror)
  · rw [heq]

end SinkTable

end DocRoutes
