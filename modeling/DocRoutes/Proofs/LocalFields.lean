import DocRoutes.Handler.Stock
import DocRoutes.Proofs.Middleware
import DocRoutes.Proofs.PathArguments

/-!
# Local fields come from middleware alone

A local parameter of a route takes its value from the local fields of the request, which no client
can write to. Middleware sets them on the way to the method.

**Serving** (`Router.Serves`). For a request on the wire, the router runs no chain and answers by
itself, or it runs the chain of one route (`answer_cases`), which came in a call for this route
(`HttpTable.Holds`). The request that the chain is given has no local fields.

**Setting** (`Chain.SetsLocal`). A local field behind a chain is what it was in front of the chain,
unless one of the handlers on the way set it (`get?_locals_of_not_setsLocal`).

**Theorem (`locals_from_middleware`).** Whatever the client sends, a local parameter is null unless
middleware set the field of its name. The values of local parameters are the same in all requests
with the same local fields, and setting a local field changes the local parameters of its name and
nothing else, a parameter of the same name from another source included.
-/

namespace DocRoutes

/-! ## Serving a request from the wire -/

/-- The router runs a chain on a request: its path is that of an entry, its method has a chain
there, and its body can be read. -/
inductive Router.Serves (r : Router) (w : WireRequest) : Chain → Request → Prop
  | intro {e : RouterEntry} {texts : List (List Char)} {verb : Verb} {chain : Chain}
      {body : Dict Json} :
      r.lookup? w.target.path = some (e, texts) → verbOfMethod? w.method = some verb →
      e.chain? verb = some chain → bodyFields w.body = .ok body →
      Serves r w chain (e.request texts w body)

/-- What goes back to the client once a chain has been run. -/
def WireRequest.reply (w : WireRequest) (served : Served) : WireResponse × List Note :=
  let response := WireResponse.ofResponse served.response
  (if w.method = "HEAD" then response.dropBody else response, served.notes)

variable {r : Router} {w : WireRequest} {chain : Chain} {request : Request}

/-- Nothing that the client sends becomes a local field. -/
theorem Router.Serves.locals (h : r.Serves w chain request) : request.locals = ∅ := by
  cases h
  rfl

theorem Router.Serves.answer (h : r.Serves w chain request) :
    r.answer w = w.reply (chain.run request) := by
  cases h with
  | intro hlookup hverb hchain hbody =>
    simp [Router.answer, hlookup, RouterEntry.answer, hverb, hchain, RouterEntry.serve, hbody,
      WireRequest.reply]

theorem status_dropBody (head : Prop) [Decidable head] (response : WireResponse) :
    (if head then response.dropBody else response).status = response.status := by
  split <;> rfl

/-- The statuses with which a router answers by itself. -/
def Router.refusals : List Status := [.notFound, .methodNotAllowed, .badRequest]

/-- The router runs a chain, or it refuses the request. -/
theorem Router.answer_cases (r : Router) (w : WireRequest) :
    (∃ chain request, r.Serves w chain request) ∨
      (r.answer w).2 = [] ∧ (r.answer w).1.status ∈ Router.refusals := by
  unfold Router.answer
  cases hlookup : r.lookup? w.target.path with
  | none => exact .inr ⟨rfl, by rw [status_dropBody]; simp [Router.refusals]⟩
  | some found =>
    obtain ⟨e, texts⟩ := found
    simp only [RouterEntry.answer]
    cases hchain : (verbOfMethod? w.method).bind e.chain? with
    | none => exact .inr ⟨rfl, by rw [status_dropBody]; simp [Router.refusals]⟩
    | some chain =>
      obtain ⟨verb, hverb, hchain⟩ := Option.bind_eq_some_iff.1 hchain
      simp only [RouterEntry.serve]
      cases hbody : bodyFields w.body with
      | error cause =>
        refine .inr ⟨rfl, ?_⟩
        rw [status_dropBody]
        simp [Router.refusals, WireResponse.ofResponse, BodyError.response, Response.json]
      | ok body => exact .inl ⟨chain, _, .intro hlookup hverb hchain hbody⟩

/-! ## Chains of a table -/

namespace HttpTable

/-- A table after calls: it is well-formed, and each of its chains came in a call for the verb and
the path. -/
structure Holds (calls : List SinkTable.Call) (t : HttpTable) : Prop where
  wf : t.WF
  chains : ∀ e ∈ t.router.entries, ∀ verb chain, (verb, chain) ∈ e.chains →
    ⟨verb, e.path, chain⟩ ∈ calls

theorem holds_empty : Holds [] empty where
  wf := SinkTable.wf_fresh _
  chains := fun _ he => nomatch he

theorem Holds.take {calls : List SinkTable.Call} {t : HttpTable} (h : Holds calls t)
    (c : SinkTable.Call) : Holds (calls ++ [c]) (t.take c) := by
  have hlater (e : RouterEntry) (he : e ∈ t.router.entries) (verb : Verb) (chain : Chain)
      (hmem : (verb, chain) ∈ e.chains) : ⟨verb, e.path, chain⟩ ∈ calls ++ [c] :=
    List.mem_append_left _ (h.chains e he verb chain hmem)
  rcases take_cases h.wf c with heq | ⟨router, hfits, hinsert, heq⟩
  · rw [heq]
    exact { wf := h.wf, chains := hlater }
  rw [heq]
  refine { wf := h.wf.extend hfits router, chains := ?_ }
  rcases Router.insert_cases hinsert with ⟨-, rfl⟩ | ⟨pattern, -, rfl⟩
  · intro e' he' verb chain hmem
    obtain ⟨e, he, rfl⟩ := List.mem_map.1 he'
    rw [Router.path_join]
    by_cases hpath : e.path = c.path
    · rw [Router.join, if_pos hpath] at hmem
      rcases List.mem_append.1 hmem with hmem | hmem
      · exact hlater e he verb chain hmem
      · obtain ⟨rfl, rfl⟩ := Prod.mk.inj (List.mem_singleton.1 hmem)
        rw [hpath]
        exact List.mem_append_right _ List.mem_cons_self
    · rw [Router.join, if_neg hpath] at hmem
      exact hlater e he verb chain hmem
  · intro e he verb chain hmem
    rcases List.mem_append.1 he with he | he
    · exact hlater e he verb chain hmem
    · obtain rfl := List.mem_singleton.1 he
      obtain ⟨rfl, rfl⟩ := Prod.mk.inj (List.mem_singleton.1 hmem)
      exact List.mem_append_right _ List.mem_cons_self

theorem holds_afterCalls (calls : List SinkTable.Call) : Holds calls (afterCalls calls) := by
  induction calls using List.reverseRecOn with
  | nil => exact holds_empty
  | append_singleton calls c ih =>
    rw [afterCalls, List.foldl_append]
    exact ih.take c

/-- The chain of an entry came in a call for its verb and for the path, which the request matches. -/
theorem call_of_chain? {calls : List SinkTable.Call} {path : List Char} {e : RouterEntry}
    {texts : List (List Char)} {verb : Verb}
    (hlookup : (afterCalls calls).router.lookup? path = some (e, texts))
    (hchain : e.chain? verb = some chain) :
    ⟨verb, e.path, chain⟩ ∈ calls ∧ Pattern.parse e.path = .ok e.pattern ∧
      e.pattern.Matches path texts := by
  have hparsed := (kept_afterCalls calls).parsed
  obtain ⟨he, hmatch⟩ := lookup_matches hparsed hlookup
  obtain ⟨⟨v, chain'⟩, hfound, rfl⟩ := Option.map_eq_some_iff.1 hchain
  have hv : v = verb := by simpa using List.find?_some hfound
  rw [← hv]
  exact ⟨(holds_afterCalls calls).chains e he v chain' (List.mem_of_find?_eq_some hfound),
    hparsed e he, hmatch⟩

/-- A chain that is run came in a call for the method and for a path that the request matches. -/
theorem exists_call_of_serves {calls : List SinkTable.Call}
    (h : (afterCalls calls).router.Serves w chain request) :
    ∃ c ∈ calls, c.chain = chain ∧ verbOfMethod? w.method = some c.verb ∧
      ∃ pattern texts, Pattern.parse c.path = .ok pattern ∧
        pattern.Matches w.target.path texts := by
  cases h with
  | @intro e texts verb _ body hlookup hverb hchain hbody =>
    obtain ⟨hcall, hparse, hmatch⟩ := call_of_chain? hlookup hchain
    exact ⟨_, hcall, rfl, hverb, e.pattern, texts, hparse, hmatch⟩

end HttpTable

/-! ## Setting local fields -/

namespace Chain

/-- On the way of a request through a chain, some handler passes on another value of a local
field than it was given. -/
inductive SetsLocal (name : String) : Chain → Request → Prop
  | here {h : Handler} {rest : Chain} {request passed : Request} {finish : Response → Served}
      {notes : List Note} :
      h.handle request = (.pass passed finish, notes) →
      passed.locals.get? name ≠ request.locals.get? name → SetsLocal name (h :: rest) request
  | later {h : Handler} {rest : Chain} {request passed : Request} {finish : Response → Served}
      {notes : List Note} :
      h.handle request = (.pass passed finish, notes) → SetsLocal name rest passed →
      SetsLocal name (h :: rest) request

variable {c : Chain} {last : Request} {back : Served → Served} {name : String}

theorem get?_locals_of_not_setsLocal (h : c.Passes request last back)
    (hset : ¬c.SetsLocal name request) :
    last.locals.get? name = request.locals.get? name := by
  induction h with
  | nil request => rfl
  | @cons h rest request passed last finish notes back hh _ ih =>
    have hrest : ¬SetsLocal name rest passed := fun hrest => hset (.later hh hrest)
    have hhere : passed.locals.get? name = request.locals.get? name := by
      by_contra hne
      exact hset (.here hh hne)
    rw [ih hrest, hhere]

/-- Handlers that never touch a local field do not set it. -/
theorem not_setsLocal_of_forall
    (h : ∀ handler ∈ c, ∀ request passed finish notes,
      handler.handle request = (.pass passed finish, notes) →
      passed.locals.get? name = request.locals.get? name) : ¬c.SetsLocal name request := by
  intro hset
  induction hset with
  | here hh hne => exact hne (h _ List.mem_cons_self _ _ _ _ hh)
  | later _ _ ih => exact ih fun handler hmem => h handler (List.mem_cons_of_mem _ hmem)

end Chain

/-! ## Local arguments -/

/-- A local parameter takes its value from the local fields and from nothing else. -/
theorem field_local (request : Request) (name : String) :
    request.field .local name = (request.locals.get? name).getD .null := rfl

theorem getElem?_arguments_of_locals_eq {route : Route} {i : Nat} {p : Param}
    (hp : route.params[i]? = some p) (hlocal : p.source = .local) {q q' : Request}
    (h : q.locals = q'.locals) : (route.arguments q)[i]? = (route.arguments q')[i]? := by
  rw [getElem?_arguments hp, getElem?_arguments hp, hlocal, field_local, field_local, h]

theorem getElem?_arguments_setLocal {route : Route} {i : Nat} {p : Param}
    (hp : route.params[i]? = some p) (q : Request) (name : String) (value : Json) :
    (route.arguments (q.setLocal name value))[i]? =
      if p.source = .local ∧ name = p.name then some value else (route.arguments q)[i]? := by
  rw [getElem?_arguments hp, getElem?_arguments hp, Request.field_setLocal]
  split <;> rfl

/-- A local parameter is null if no handler on the way set the field of its name. -/
theorem getElem?_arguments_of_not_setsLocal {middleware : Chain} {last : Request}
    {back : Served → Served} (h : r.Serves w chain request)
    (hpasses : middleware.Passes request last back) {route : Route} {i : Nat} {p : Param}
    (hp : route.params[i]? = some p) (hlocal : p.source = .local)
    (hset : ¬middleware.SetsLocal p.name request) : (route.arguments last)[i]? = some .null := by
  rw [getElem?_arguments hp, hlocal, field_local,
    Chain.get?_locals_of_not_setsLocal hpasses hset, h.locals]
  rfl

/-! ## Main result -/

/-- **Local parameters are never supplied by a client.** For each request on the wire the router
runs a chain that came in a call for it, or none. The chain starts without local fields. Behind
middleware that does not set a local field, the local parameters of its name are null. At the
places of local parameters, requests with the same local fields have the same arguments, and setting
a local field changes the arguments of the local parameters of its name only. -/
theorem locals_from_middleware (calls : List SinkTable.Call) (w : WireRequest) :
    let router := (HttpTable.afterCalls calls).router
    ((∃ chain request, router.Serves w chain request) ∨
      (router.answer w).2 = [] ∧ (router.answer w).1.status ∈ Router.refusals) ∧
    (∀ chain request, router.Serves w chain request →
      (∃ c ∈ calls, c.chain = chain ∧ verbOfMethod? w.method = some c.verb ∧
        ∃ pattern texts, Pattern.parse c.path = .ok pattern ∧
          pattern.Matches w.target.path texts) ∧
      request.locals = ∅ ∧
      router.answer w = w.reply (chain.run request) ∧
      ∀ (middleware : Chain) (e : Endpoint), chain = middleware ++ [e.toHandler] →
        ∀ last back, middleware.Passes request last back →
          chain.run request = back (e.dispatch last) ∧
          ∀ (i : Nat) (p : Param), e.route.params[i]? = some p → p.source = .local →
            ¬middleware.SetsLocal p.name request →
            (e.route.arguments last)[i]? = some .null) ∧
    ∀ (route : Route) (i : Nat) (p : Param), route.params[i]? = some p →
      (p.source = .local → ∀ q q' : Request, q.locals = q'.locals →
        (route.arguments q)[i]? = (route.arguments q')[i]?) ∧
      ∀ (q : Request) name value, (route.arguments (q.setLocal name value))[i]? =
        if p.source = .local ∧ name = p.name then some value else (route.arguments q)[i]? := by
  intro router
  refine ⟨router.answer_cases w, fun chain request hserves => ⟨?_, ?_, ?_, ?_⟩, ?_⟩
  · exact HttpTable.exists_call_of_serves hserves
  · exact hserves.locals
  · exact hserves.answer
  · rintro middleware e rfl last back hpasses
    refine ⟨?_, fun i p hp hlocal hset => ?_⟩
    · rw [hpasses.run_append, Endpoint.run_toHandler]
    · exact getElem?_arguments_of_not_setsLocal hserves hpasses hp hlocal hset
  · intro route i p hp
    refine ⟨fun hlocal q q' h => ?_, fun q name value => ?_⟩
    · exact getElem?_arguments_of_locals_eq hp hlocal h
    · exact getElem?_arguments_setLocal hp q name value

/-- The route has a local parameter and one of the query, both called `user`. The query of the
client reaches the second alone. -/
theorem client_cannot_set_user :
    let route : Route := ⟨"me", "", .get, "/me",
      [{ name := "user", source := .local }, { name := "user", source := .query }],
      ⟨"Object", ""⟩⟩
    let e : Endpoint := ⟨"Users", route, none, {}⟩
    let middleware := [Handler.stock "log" .pass]
    let chain := middleware ++ [e.toHandler]
    let entry : RouterEntry := ⟨"/me", "/me".toList.map .char, [(.get, chain)]⟩
    let w : WireRequest :=
      { method := "GET", target := { path := "/me".toList, query := "user=eve".toList } }
    let request := entry.request [] w ∅
    (HttpTable.afterCalls [⟨.get, "/me", chain⟩]).router.Serves w chain request ∧
      request.locals = ∅ ∧
      ¬Chain.SetsLocal "user" middleware request ∧
      (∃ back, Chain.Passes middleware request request back) ∧
      (route.arguments request)[0]? = some .null ∧
      (route.arguments request)[1]? = some (.str "eve") ∧
      (route.arguments (request.setLocal "user" (.str "ada")))[0]? = some (.str "ada") ∧
      (route.arguments (request.setLocal "user" (.str "ada")))[1]? = some (.str "eve") := by
  have hlookup (chain : Chain) : (HttpTable.afterCalls [⟨.get, "/me", chain⟩]).router.lookup?
      "/me".toList = some (⟨"/me", "/me".toList.map .char, [(.get, chain)]⟩, []) := by cbv
  intro route e middleware chain entry w request
  have hserves : (HttpTable.afterCalls [⟨.get, "/me", chain⟩]).router.Serves w chain request :=
    .intro (hlookup chain) rfl rfl rfl
  obtain ⟨-, hchain, hroute⟩ := locals_from_middleware [⟨.get, "/me", chain⟩] w
  obtain ⟨-, hlocals, -, hargs⟩ := hchain chain request hserves
  have hset : ¬Chain.SetsLocal "user" middleware request := by
    apply Chain.not_setsLocal_of_forall
    intro handler hmem request passed finish notes hpass
    obtain rfl := List.mem_singleton.1 hmem
    cases hpass
    rfl
  have hpasses : Chain.Passes middleware request request _ := .cons rfl (.nil _)
  have hnull := (hargs middleware e rfl request _ hpasses).2 0 _ rfl rfl hset
  refine ⟨hserves, hlocals, hset, ⟨_, hpasses⟩, hnull, ?_, ?_, ?_⟩
  · cbv
  · rw [(hroute route 0 _ rfl).2]
    rfl
  · rw [(hroute route 1 _ rfl).2]
    cbv

end DocRoutes
