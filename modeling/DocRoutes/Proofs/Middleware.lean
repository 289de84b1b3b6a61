import DocRoutes.Handler.Index
import DocRoutes.Handler.Stock

/-!
# Tiers of middleware and nested handlers

Middleware is added to an index call by call, each time under a key. A route runs the middleware
of three keys, one after the other, and a chain of handlers is run by letting each of them decide
whether the request goes on.

**Tiers** (`chainFor_afterCalls`). The chain of a route is what was added under the empty key, then
what was added under its controller, then what was added under the route itself, each in the order
in which it was added. For a controller with a name these are three different keys, so that each
registration occurs once (`chainFor_perm`).

**Nesting** (`runThen_eq_foldr`). A chain is the composition of its handlers, each around the next
one (`Handler.around`), with the 404 innermost.

**Reach** (`Chain.Passes`). A request gets through a chain if each handler calls `next` and awaits
what it gives back; `back` is what the handlers then do with what comes back to them. Whatever stands
behind the chain is run exactly in this case, on the request passed on last, and what it serves is
what `back` is given. A handler that answers without `next`, or drops what `next` gives back, stops
the request (`Chain.Stops`).

**Runs** (`Chain.RunsNext`). That a handler is run can be seen: let it leave a note of each request
that it is run on (`Handler.watched`), and the run has this note once more, or not.
-/

namespace DocRoutes

namespace MiddlewareIndex

/-! ## Calls on an index -/

/-- A call that adds middleware under a key: one handler, or several in order. -/
inductive Call where
  | add (key : String) (handler : Handler)
  | addAll (key : String) (handlers : Chain)

namespace Call

def key : Call → String
  | .add key _ => key
  | .addAll key _ => key

/-- The handlers that a call adds. -/
def handlers : Call → Chain
  | .add _ handler => [handler]
  | .addAll _ handlers => handlers

/-- What a call makes of an index. -/
def perform (m : MiddlewareIndex) : Call → MiddlewareIndex
  | .add key handler => m.add key handler
  | .addAll key handlers => m.addAll key handlers

/-- The handlers that a call adds, each with the key. -/
def registrations (c : Call) : List (String × Handler) := c.handlers.map fun h => (c.key, h)

end Call

/-- The index after some calls on an empty one. -/
def afterCalls (calls : List Call) : MiddlewareIndex := calls.foldl Call.perform {}

/-- The handlers among some registrations that stand under a key. -/
def tier (key : String) (registrations : List (String × Handler)) : Chain :=
  (registrations.filter fun r => r.1 = key).map (·.2)

theorem tier_append (key : String) (rs more : List (String × Handler)) :
    tier key (rs ++ more) = tier key rs ++ tier key more := by
  simp [tier]

theorem tier_registrations (key : String) (c : Call) :
    tier key c.registrations = if c.key = key then c.handlers else [] := by
  by_cases h : c.key = key
  · simp [tier, Call.registrations, List.filter_map, Function.comp_def, h]
  · simp [tier, Call.registrations, List.filter_map, Function.comp_def, h]

/-- A call adds its handlers to the tier of its key and leaves every other tier alone. -/
theorem get_perform (m : MiddlewareIndex) (c : Call) (key : String) :
    (c.perform m).get key = m.get key ++ tier key c.registrations := by
  rw [tier_registrations]
  cases c with
  | add k h => exact get_addAll m k key [h]
  | addAll k hs => exact get_addAll m k key hs

theorem get_foldl (m : MiddlewareIndex) (calls : List Call) (key : String) :
    (calls.foldl Call.perform m).get key =
      m.get key ++ tier key (calls.flatMap Call.registrations) := by
  induction calls generalizing m with
  | nil => simp [tier]
  | cons c rest ih =>
    rw [List.foldl_cons, ih, get_perform, List.flatMap_cons, tier_append, List.append_assoc]

theorem get_afterCalls (calls : List Call) (key : String) :
    (afterCalls calls).get key = tier key (calls.flatMap Call.registrations) :=
  get_foldl {} calls key

/-! ## The tiers of a route -/

theorem routeKey_ne_globalKey (controller method : String) :
    routeKey controller method ≠ globalKey := by
  intro h
  have hlen := congrArg String.length h
  simp [routeKey, globalKey] at hlen

theorem routeKey_ne_controller (controller method : String) :
    routeKey controller method ≠ controller := by
  intro h
  have hlen := congrArg String.length h
  simp only [routeKey, String.length_append] at hlen
  have hdot : ".".length = 1 := rfl
  omega

/-- The keys of a route, in the order in which their tiers are run. -/
def routeKeys (controller method : String) : List String :=
  [globalKey, controller, routeKey controller method]

theorem nodup_routeKeys {controller : String} (h : controller ≠ globalKey) (method : String) :
    (routeKeys controller method).Nodup := by
  have hglobal := routeKey_ne_globalKey controller method
  have hcontroller := routeKey_ne_controller controller method
  simp [routeKeys, h.symm, hglobal.symm, hcontroller.symm]

theorem chainFor_afterCalls (calls : List Call) (controller method : String) :
    (afterCalls calls).chainFor controller method =
      (routeKeys controller method).flatMap fun key =>
        tier key (calls.flatMap Call.registrations) := by
  simp [chainFor, get_afterCalls, routeKeys]

/-- The registrations under one of some keys are those under the first and those under the others. -/
theorem filter_keys_perm {key : String} {keys : List String} (h : key ∉ keys)
    (rs : List (String × Handler)) :
    (rs.filter (fun r => r.1 = key) ++ rs.filter (fun r => r.1 ∈ keys)).Perm
      (rs.filter fun r => r.1 ∈ key :: keys) := by
  induction rs with
  | nil => exact .nil
  | cons r rest ih =>
    by_cases hkey : r.1 = key
    · simpa [hkey, h] using ih
    · by_cases hkeys : r.1 ∈ keys
      · simp only [hkey, hkeys, List.filter_cons, List.mem_cons, decide_true, decide_false,
          or_true, if_true, Bool.false_eq_true, if_false]
        simp only [List.mem_cons] at ih
        exact List.perm_middle.trans (ih.cons r)
      · simpa [hkey, hkeys] using ih

/-- Different keys share no registration: the tiers of some keys hold each registration under one of
them once, and no other. -/
theorem flatMap_tier_perm {keys : List String} (h : keys.Nodup) (rs : List (String × Handler)) :
    (keys.flatMap fun key => tier key rs).Perm ((rs.filter fun r => r.1 ∈ keys).map (·.2)) := by
  induction keys with
  | nil => simp
  | cons key keys ih =>
    obtain ⟨hkey, hkeys⟩ := List.nodup_cons.1 h
    rw [List.flatMap_cons]
    refine ((ih hkeys).append_left (tier key rs)).trans ?_
    rw [tier, ← List.map_append]
    exact (filter_keys_perm hkey rs).map _

theorem chainFor_perm (calls : List Call) {controller : String} (h : controller ≠ globalKey)
    (method : String) :
    ((afterCalls calls).chainFor controller method).Perm
      (((calls.flatMap Call.registrations).filter
        fun r => r.1 ∈ routeKeys controller method).map (·.2)) := by
  rw [chainFor_afterCalls]
  exact flatMap_tier_perm (nodup_routeKeys h method) _

/-- Calls under different keys may be made in either order. -/
theorem chainFor_swap (before after : List Call) {first second : Call}
    (h : first.key ≠ second.key) (controller method : String) :
    (afterCalls (before ++ second :: first :: after)).chainFor controller method =
      (afterCalls (before ++ first :: second :: after)).chainFor controller method := by
  have hpair (key : String) : tier key second.registrations ++ tier key first.registrations =
      tier key first.registrations ++ tier key second.registrations := by
    rw [tier_registrations, tier_registrations]
    by_cases hfirst : first.key = key
    · have hsecond : second.key ≠ key := fun hkey => h (hfirst.trans hkey.symm)
      simp [hfirst, hsecond]
    · simp [hfirst]
  have htier (key : String) :
      tier key ((before ++ second :: first :: after).flatMap Call.registrations) =
        tier key ((before ++ first :: second :: after).flatMap Call.registrations) := by
    simp only [List.flatMap_append, List.flatMap_cons, tier_append]
    rw [← List.append_assoc (tier key second.registrations), hpair, List.append_assoc]
  rw [chainFor_afterCalls, chainFor_afterCalls]
  simp only [htier]

end MiddlewareIndex

/-! ## Nesting -/

namespace Handler

/-- What becomes of what comes back to a handler that passed a request on: its own notes stand
around the others. -/
def wrap (before : List Note) (finish : Response → Served) (inner : Served) : Served :=
  let outer := finish inner.response
  ⟨outer.response, before ++ inner.notes ++ outer.notes⟩

/-- A handler around what comes after it. -/
def around (h : Handler) (next : Request → Served) (request : Request) : Served :=
  match h.handle request with
  | (.answer response, notes) => ⟨response, notes⟩
  | (.drop _ response, notes) => ⟨response, notes⟩
  | (.pass request finish, notes) => wrap notes finish (next request)

theorem around_of_answer {h : Handler} {request : Request} {response : Response}
    {notes : List Note} (hh : h.handle request = (.answer response, notes))
    (next : Request → Served) : h.around next request = ⟨response, notes⟩ := by
  simp [around, hh]

theorem around_of_drop {h : Handler} {request dropped : Request} {response : Response}
    {notes : List Note} (hh : h.handle request = (.drop dropped response, notes))
    (next : Request → Served) : h.around next request = ⟨response, notes⟩ := by
  simp [around, hh]

theorem around_of_pass {h : Handler} {request passed : Request} {finish : Response → Served}
    {notes : List Note} (hh : h.handle request = (.pass passed finish, notes))
    (next : Request → Served) : h.around next request = wrap notes finish (next passed) := by
  simp [around, hh]

/-- The handler, leaving a note of each request that it is run on. -/
def watched (note : Request → Note) (h : Handler) : Handler where
  handle request :=
    let (action, notes) := h.handle request
    (action, note request :: notes)

theorem around_watched (note : Request → Note) (h : Handler) (next : Request → Served)
    (request : Request) :
    (h.watched note).around next request =
      ⟨(h.around next request).response, note request :: (h.around next request).notes⟩ := by
  cases hh : h.handle request with
  | mk action notes => cases action <;> simp [around, watched, wrap, hh]

end Handler

namespace Chain

theorem runThen_cons (final : Request → Served) (h : Handler) (rest : Chain) :
    runThen final (h :: rest) = h.around (runThen final rest) := by
  funext request
  cases hh : h.handle request with
  | mk action notes => cases action <;> simp [runThen, Handler.around, Handler.wrap, hh]

theorem run_cons (h : Handler) (rest : Chain) : run (h :: rest) = h.around (run rest) :=
  runThen_cons _ h rest

theorem runThen_eq_foldr (final : Request → Served) (c : Chain) :
    c.runThen final = c.foldr Handler.around final := by
  induction c with
  | nil => rfl
  | cons h rest ih => rw [runThen_cons, ih, List.foldr_cons]

/-! ## How far a request gets -/

/-- Every handler passes on the request that it is given, so that `last` comes out behind the chain;
`back` is what the handlers do with what comes back from there. -/
inductive Passes : Chain → Request → Request → (Served → Served) → Prop
  | nil (request : Request) : Passes [] request request id
  | cons {h : Handler} {rest : Chain} {request passed last : Request}
      {finish : Response → Served} {notes : List Note} {back : Served → Served} :
      h.handle request = (.pass passed finish, notes) → Passes rest passed last back →
      Passes (h :: rest) request last (Handler.wrap notes finish ∘ back)

/-- Some handler answers the request itself, without `next` or with what `next` gave back dropped;
`served` is what comes of it. -/
inductive Stops : Chain → Request → Served → Prop
  | here {h : Handler} {rest : Chain} {request : Request} {response : Response}
      {notes : List Note} :
      h.handle request = (.answer response, notes) → Stops (h :: rest) request ⟨response, notes⟩
  | dropped {h : Handler} {rest : Chain} {request dropped : Request} {response : Response}
      {notes : List Note} :
      h.handle request = (.drop dropped response, notes) →
      Stops (h :: rest) request ⟨response, notes⟩
  | later {h : Handler} {rest : Chain} {request passed : Request} {finish : Response → Served}
      {notes : List Note} {served : Served} :
      h.handle request = (.pass passed finish, notes) → Stops rest passed served →
      Stops (h :: rest) request (Handler.wrap notes finish served)

variable {c : Chain} {request last : Request} {back : Served → Served} {served : Served}

theorem passes_or_stops (c : Chain) (request : Request) :
    (∃ last back, c.Passes request last back) ∨ ∃ served, c.Stops request served := by
  induction c generalizing request with
  | nil => exact .inl ⟨request, id, .nil request⟩
  | cons h rest ih =>
    cases hh : h.handle request with
    | mk action notes =>
      cases action with
      | answer response => exact .inr ⟨_, .here hh⟩
      | drop dropped response => exact .inr ⟨_, .dropped hh⟩
      | pass passed finish =>
        rcases ih passed with ⟨last, back, hpasses⟩ | ⟨served, hstops⟩
        · exact .inl ⟨last, _, .cons hh hpasses⟩
        · exact .inr ⟨_, .later hh hstops⟩

/-- A request gets through in one way only. -/
theorem Passes.unique {last' : Request} {back' : Served → Served} (h : c.Passes request last back)
    (h' : c.Passes request last' back') : last' = last ∧ back' = back := by
  induction h generalizing last' back' with
  | nil request =>
    cases h'
    exact ⟨rfl, rfl⟩
  | cons hh _ ih =>
    cases h' with
    | cons hh' hrest =>
      rw [hh] at hh'
      cases hh'
      obtain ⟨rfl, rfl⟩ := ih hrest
      exact ⟨rfl, rfl⟩

/-- What stands behind the chain is run on the request passed on last. -/
theorem Passes.runThen (h : c.Passes request last back) (final : Request → Served) :
    c.runThen final request = back (final last) := by
  induction h with
  | nil request => rfl
  | cons hh _ ih => rw [runThen_cons, Handler.around_of_pass hh, ih, Function.comp_apply]

/-- What stands behind the chain is not run. -/
theorem Stops.runThen (h : c.Stops request served) (final : Request → Served) :
    c.runThen final request = served := by
  induction h with
  | here hh => rw [runThen_cons, Handler.around_of_answer hh]
  | dropped hh => rw [runThen_cons, Handler.around_of_drop hh]
  | later hh _ ih => rw [runThen_cons, Handler.around_of_pass hh, ih]

theorem Passes.run_append (h : c.Passes request last back) (after : Chain) :
    run (c ++ after) request = back (run after last) := by
  rw [Chain.run_append, h.runThen]

/-! ## What is run -/

/-- Handlers that pass a request on do to what comes back what one handler could do. -/
theorem Passes.exists_wrap (h : c.Passes request last back) :
    ∃ notes finish, back = Handler.wrap notes finish := by
  induction h with
  | nil request =>
    refine ⟨[], fun response => ⟨response, []⟩, ?_⟩
    funext inner
    simp [Handler.wrap]
  | @cons _ _ _ _ _ finish notes _ _ _ ih =>
    obtain ⟨notes', finish', rfl⟩ := ih
    let both (response : Response) : Served :=
      let inner := finish' response
      let outer := finish inner.response
      ⟨outer.response, inner.notes ++ outer.notes⟩
    refine ⟨notes ++ notes', both, ?_⟩
    funext inner
    simp [Handler.wrap, both]

/-- Behind the chain a handler is run once, on the request `last`: with a note of each request that
it is run on, there is one note more, which is of `last`. -/
def RunsNext (c : Chain) (request last : Request) : Prop :=
  ∀ (h : Handler) (after : Chain), ∃ response notes more,
    run (c ++ h :: after) request = ⟨response, notes ++ more⟩ ∧
      ∀ note : Request → Note, run (c ++ h.watched note :: after) request =
        ⟨response, notes ++ note last :: more⟩

theorem Passes.runsNext (h : c.Passes request last back) : c.RunsNext request last := by
  intro handler after
  obtain ⟨notes, finish, rfl⟩ := h.exists_wrap
  let inner := handler.around (run after) last
  refine ⟨(finish inner.response).response, notes, inner.notes ++ (finish inner.response).notes,
    ?_, fun note => ?_⟩
  · rw [h.run_append, run_cons, Handler.wrap, List.append_assoc]
  · rw [h.run_append, run_cons, Handler.around_watched, Handler.wrap, List.append_assoc,
      List.cons_append]

end Chain

/-! ## Main result -/

/-- **Tiers and nesting.** A route runs the handlers registered for all routes, for its controller
and for itself, in this order and in the order of the calls, each registration once; calls under
different keys may be swapped. A chain is the nesting of its handlers, with status 404 and no body
innermost. If all handlers of `before` call `next` and await what it gives back, then what follows
them is run once, on the request passed on last, and each handler gets back what the next one served;
if nothing follows, the last one gets back the 404. Otherwise nothing that follows is run or has any
effect, and neither has what is innermost. -/
theorem tiers_and_nesting (calls : List MiddlewareIndex.Call) :
    let index := MiddlewareIndex.afterCalls calls
    let registered := calls.flatMap MiddlewareIndex.Call.registrations
    let fallen : Served := { response := ⟨{ code := 404 }, .empty⟩, notes := [] }
    (∀ controller method, controller ≠ "" →
      index.chainFor controller method =
          MiddlewareIndex.tier "" registered ++ MiddlewareIndex.tier controller registered ++
            MiddlewareIndex.tier (controller ++ "." ++ method) registered ∧
        (index.chainFor controller method).Perm ((registered.filter fun r =>
          r.1 = "" ∨ r.1 = controller ∨ r.1 = controller ++ "." ++ method).map (·.2))) ∧
    (∀ before first second after, calls = before ++ first :: second :: after →
      first.key ≠ second.key → ∀ controller method,
        (MiddlewareIndex.afterCalls (before ++ second :: first :: after)).chainFor
          controller method = index.chainFor controller method) ∧
    (∀ chain : Chain, chain.run = chain.foldr Handler.around fun _ => fallen) ∧
    ∀ (before : Chain) (request : Request),
      (∀ last back, before.Passes request last back →
        (∀ last' back', before.Passes request last' back' → last' = last ∧ back' = back) ∧
        (∀ innermost, before.foldr Handler.around innermost request = back (innermost last)) ∧
        before.run request = back fallen ∧
        before.RunsNext request last ∧
        ∀ h after,
          Chain.run (before ++ h :: after) request = back (h.around (Chain.run after) last) ∧
          ∀ next rest passed finish notes, after = next :: rest →
            h.handle last = (.pass passed finish, notes) →
            Chain.run (before ++ h :: after) request =
              back (Handler.wrap notes finish (next.around (Chain.run rest) passed))) ∧
      ((¬∃ last back, before.Passes request last back) →
        ∃ served, before.Stops request served ∧
          (∀ innermost, before.foldr Handler.around innermost request = served) ∧
          ∀ after, Chain.run (before ++ after) request = served) := by
  intro index registered fallen
  refine ⟨?_, ?_, Chain.runThen_eq_foldr _, fun before request => ⟨?_, ?_⟩⟩
  · intro controller method hname
    refine ⟨?_, ?_⟩
    · rw [MiddlewareIndex.chainFor_afterCalls]
      simp [MiddlewareIndex.routeKeys, MiddlewareIndex.globalKey, MiddlewareIndex.routeKey,
        registered]
    · simpa [MiddlewareIndex.routeKeys, MiddlewareIndex.globalKey, MiddlewareIndex.routeKey]
        using MiddlewareIndex.chainFor_perm calls hname method
  · rintro before first second after rfl hkey controller method
    exact MiddlewareIndex.chainFor_swap before after hkey controller method
  · intro last back hpasses
    refine ⟨fun last' back' h' => hpasses.unique h', fun innermost => ?_, hpasses.runThen _,
      hpasses.runsNext, fun h after => ?_⟩
    · rw [← Chain.runThen_eq_foldr, hpasses.runThen]
    have hrun := hpasses.run_append (h :: after)
    rw [Chain.run_cons] at hrun
    refine ⟨hrun, fun next rest passed finish notes hafter hpass => ?_⟩
    subst hafter
    rw [hrun, Handler.around_of_pass hpass, Chain.run_cons]
  · intro hnot
    obtain ⟨served, hstops⟩ := (Chain.passes_or_stops before request).resolve_left hnot
    refine ⟨served, hstops, fun innermost => ?_, fun after => ?_⟩
    · rw [← Chain.runThen_eq_foldr, hstops.runThen]
    · rw [Chain.run_append, hstops.runThen]

/-- Three handlers come in the order of their tiers, not of the calls. The second sets a local
field, the third answers, and nothing behind the third has an effect, nor behind a handler that drops
what `next` gives back. Without the third the request falls through, and the answer is 404. -/
theorem tiers_of_show :
    let forAll := Handler.stock "all" .pass
    let forUsers := Handler.stock "users" (.setLocal "user" (.str "ada"))
    let forShow := Handler.stock "show" (.answer (.bare .ok))
    let dropping : Handler := ⟨fun request => (.drop request (.bare .ok), [])⟩
    let calls : List MiddlewareIndex.Call :=
      [.add "Users.show" forShow, .addAll "Users" [forUsers], .add "" forAll]
    let request : Request := {}
    let last := request.setLocal "user" (.str "ada")
    (MiddlewareIndex.afterCalls calls).chainFor "Users" "show" = [forAll, forUsers, forShow] ∧
      (MiddlewareIndex.afterCalls [.add "Users.show" forShow, .add "" forAll,
        .addAll "Users" [forUsers]]).chainFor "Users" "show" = [forAll, forUsers, forShow] ∧
      (∃ back, Chain.Passes [forAll, forUsers] request last back ∧
        Chain.run [forAll, forUsers, forShow] request =
          back (forShow.around (Chain.run []) last)) ∧
      Chain.RunsNext [forAll, forUsers] request last ∧
      Chain.run [forAll, forUsers] request =
        ⟨⟨{ code := 404 }, .empty⟩, [.mark "all", .mark "users"]⟩ ∧
      (∃ served, Chain.Stops [forShow] last served ∧
        ∀ after, Chain.run (forShow :: after) last = served) ∧
      ∃ served, Chain.Stops [dropping] last served ∧
        ∀ after, Chain.run (dropping :: after) last = served := by
  intro forAll forUsers forShow dropping calls request last
  obtain ⟨htiers, hswap, -, hchain⟩ := tiers_and_nesting calls
  have htier := (htiers "Users" "show" (by decide)).1
  have horder : (MiddlewareIndex.afterCalls calls).chainFor "Users" "show" =
      [forAll, forUsers, forShow] := by
    rw [htier]
    simp [calls, MiddlewareIndex.tier, MiddlewareIndex.Call.registrations,
      MiddlewareIndex.Call.key, MiddlewareIndex.Call.handlers]
  have hpasses : Chain.Passes [forAll, forUsers] request last _ :=
    .cons rfl (.cons rfl (.nil last))
  obtain ⟨-, -, hfallen, hruns, hnext⟩ := (hchain [forAll, forUsers] request).1 last _ hpasses
  have hanswer : ¬∃ last' back, Chain.Passes [forShow] last last' back := by
    rintro ⟨last', back, hpasses'⟩
    cases hpasses' with
    | cons hpass _ => cases hpass
  have hdrop : ¬∃ last' back, Chain.Passes [dropping] last last' back := by
    rintro ⟨last', back, hpasses'⟩
    cases hpasses' with
    | cons hpass _ => cases hpass
  obtain ⟨served, hstops, -, hafter⟩ := (hchain [forShow] last).2 hanswer
  obtain ⟨served', hstops', -, hafter'⟩ := (hchain [dropping] last).2 hdrop
  refine ⟨horder, ?_, ⟨_, hpasses, (hnext forShow []).1⟩, hruns, hfallen, ⟨served, hstops, hafter⟩,
    served', hstops', hafter'⟩
  rw [← horder]
  exact hswap [.add "Users.show" forShow] (.addAll "Users" [forUsers]) (.add "" forAll) [] rfl
    (by decide) "Users" "show"

end DocRoutes
