import Mathlib
import DocRoutes.Handler.Dispatch
import DocRoutes.Http.Router
import DocRoutes.Proofs.Captures
import DocRoutes.Proofs.Registration

/-!
# Arguments from the path

A parameter of the path gets its value from the match of a request with the pattern of its route.

**Matches** (`Pattern.Matches`). What the router finds for a path is an entry whose pattern the
path matches, with one text for each wildcard (`find_matches`).

**Values** (`CapturedAs`). The value of a name is the text that its last wildcard stands for,
decoded.

**Theorem (`path_arguments`).** A parameter of a route is a parameter of the path exactly if the
pattern of the route has a wildcard of this name, provided that the two readings of the path agree
about the name, and not otherwise. On a plain path they agree about all names without slashes. In
each request that the router matches to the route, a parameter of the path has the value of its
name if the path captures the name, and is null if not.

The readings do disagree (`mentioned_name_is_null`).
-/

namespace DocRoutes

open Text

/-! ## Matches -/

/-- A path matches a pattern, and the texts are what its wildcards stand for. -/
inductive Pattern.Matches : Pattern → List Char → List (List Char) → Prop
  | nil : Matches [] [] []
  | char {c : Char} {p : Pattern} {path : List Char} {texts : List (List Char)} :
      Matches p path texts → Matches (.char c :: p) (c :: path) texts
  | param {name text : List Char} {p : Pattern} {path : List Char} {texts : List (List Char)} :
      text ≠ [] → '/' ∉ text → EndsSegment path → Matches p path texts →
      Matches (.param name :: p) (text ++ path) (text :: texts)
  | catchAll {name text : List Char} : text ≠ [] → Matches [.catchAll name] text [text]

theorem Pattern.Matches.length_names {p : Pattern} {path : List Char} {texts : List (List Char)}
    (h : p.Matches path texts) : p.names.length = texts.length := by
  induction h with
  | nil => rfl
  | char _ ih => exact ih
  | param _ _ _ _ ih => exact congrArg (· + 1) ih
  | catchAll _ => rfl

/-- Nothing follows a catch-all. -/
def Pattern.CatchAllLast : Pattern → Prop
  | [] => True
  | .catchAll _ :: rest => rest = []
  | _ :: rest => CatchAllLast rest

theorem catchAllLast_pieces {atStart : Bool} {s : List Char} {p : Pattern}
    (h : Pattern.pieces atStart s = .ok p) : p.CatchAllLast := by
  fun_induction Pattern.pieces atStart s generalizing p with
  | case1 =>
    cases h
    trivial
  | case2 _ rest ih =>
    obtain ⟨n, -, h⟩ := bind_eq_ok.1 h
    obtain ⟨q, hq, h⟩ := bind_eq_ok.1 h
    cases h
    exact show q.CatchAllLast from ih hq
  | case3 _ rest =>
    obtain ⟨n, -, h⟩ := bind_eq_ok.1 h
    cases h
    rfl
  | case4 => cases h
  | case5 _ c rest _ _ ih =>
    obtain ⟨q, hq, h⟩ := bind_eq_ok.1 h
    cases h
    exact show q.CatchAllLast from ih hq

theorem catchAllLast_parse {path : String} {p : Pattern} (h : Pattern.parse path = .ok p) :
    p.CatchAllLast := by
  obtain ⟨q, hq, h⟩ := bind_eq_ok.1 h
  split at h
  · cases h
  · cases h
    exact catchAllLast_pieces hq

namespace Candidates

variable {α : Type} {cs : Candidates α} {a : α}

theorem mem_of_ended? (h : cs.ended? = some a) : ([], a) ∈ cs := by
  obtain ⟨⟨p, b⟩, he, hb⟩ := List.exists_of_findSome?_eq_some h
  cases p with
  | nil =>
    cases hb
    exact he
  | cons => cases hb

theorem mem_of_catchAll? (h : cs.catchAll? = some a) :
    ∃ name rest, (.catchAll name :: rest, a) ∈ cs := by
  obtain ⟨⟨p, b⟩, he, hb⟩ := List.exists_of_findSome?_eq_some h
  match p with
  | .catchAll name :: rest =>
    cases hb
    exact ⟨name, rest, he⟩
  | [] | .char _ :: _ | .param _ :: _ => cases hb

/-- **What is found matches.** -/
theorem find_matches {path : List Char} {texts : List (List Char)}
    (hcs : ∀ e ∈ cs, e.1.CatchAllLast) (h : cs.find path = some (a, texts)) :
    ∃ p, (p, a) ∈ cs ∧ p.Matches path texts := by
  fun_induction Candidates.find cs path generalizing texts with
  | case1 cs =>
    obtain ⟨b, hb, heq⟩ := Option.map_eq_some_iff.1 h
    cases heq
    exact ⟨[], mem_of_ended? hb, .nil⟩
  | case2 => cases h
  | case3 cs c rest _ ihChar ihParam =>
    rcases Option.or_eq_some_iff.1 h with h | ⟨-, h⟩
    · rcases Option.or_eq_some_iff.1 h with h | ⟨-, h⟩
      · have hafter : ∀ e ∈ cs.afterChar c, e.1.CatchAllLast := fun e he =>
          hcs (.char c :: e.1, e.2) (mem_of_afterChar he)
        obtain ⟨p, hp, hmatch⟩ := ihChar hafter h
        exact ⟨_, mem_of_afterChar hp, .char hmatch⟩
      · split at h
        · cases h
        · next hc =>
          obtain ⟨⟨b, found⟩, hm, heq⟩ := Option.map_eq_some_iff.1 h
          cases heq
          have hafter : ∀ e ∈ cs.afterParam, e.1.CatchAllLast := fun e he => by
            obtain ⟨name, hn⟩ := mem_of_afterParam he
            exact hcs (.param name :: e.1, e.2) hn
          obtain ⟨p, hp, hmatch⟩ := ihParam hafter hm
          obtain ⟨name, hn⟩ := mem_of_afterParam hp
          refine ⟨_, hn, ?_⟩
          have hsplit : c :: rest = (c :: takeSegment rest) ++ dropSegment rest := by
            rw [List.cons_append, takeSegment_append_dropSegment]
          have hslash : '/' ∉ c :: takeSegment rest := fun hmem =>
            (List.mem_cons.1 hmem).elim (Ne.symm hc) (not_mem_takeSegment rest)
          rw [hsplit]
          exact .param (List.cons_ne_nil _ _) hslash (endsSegment_dropSegment rest) hmatch
    · obtain ⟨b, hb, heq⟩ := Option.map_eq_some_iff.1 h
      cases heq
      obtain ⟨name, after, hmem⟩ := mem_of_catchAll? hb
      have hlast : after = [] := hcs _ hmem
      subst hlast
      exact ⟨_, hmem, .catchAll (List.cons_ne_nil _ _)⟩

end Candidates

/-! ## Values -/

/-- The value that a name has in a match: what its last wildcard stands for, decoded. -/
inductive CapturedAs (name : List Char) (value : String) :
    List (List Char) → List (List Char) → Prop
  | here {text : List Char} {names texts : List (List Char)} :
      name ∉ names → utf8Text? (percentDecode text) = some value →
      CapturedAs name value (name :: names) (text :: texts)
  | later {other text : List Char} {names texts : List (List Char)} :
      CapturedAs name value names texts → CapturedAs name value (other :: names) (text :: texts)

/-- All texts are UTF-8 once they are decoded. -/
def Decodable (texts : List (List Char)) : Prop :=
  ∀ text ∈ texts, ∃ value, utf8Text? (percentDecode text) = some value

theorem exists_capturedAs {names texts : List (List Char)} {name : List Char}
    (hlen : names.length = texts.length) (hdec : Decodable texts) (hmem : name ∈ names) :
    ∃ value, CapturedAs name value names texts := by
  induction names generalizing texts with
  | nil => cases hmem
  | cons other names ih =>
    cases texts with
    | nil => cases hlen
    | cons text texts =>
      by_cases hlater : name ∈ names
      · obtain ⟨value, hvalue⟩ := ih (Nat.succ.inj hlen)
          (fun t ht => hdec t (List.mem_cons_of_mem _ ht)) hlater
        exact ⟨value, .later hvalue⟩
      · obtain rfl : name = other := (List.mem_cons.1 hmem).resolve_right hlater
        obtain ⟨value, hvalue⟩ := hdec text List.mem_cons_self
        exact ⟨value, .here hlater hvalue⟩

theorem mapM_eq_some_iff {α β : Type} {f : α → Option β} {xs : List α} {ys : List β} :
    xs.mapM f = some ys ↔ xs.map f = ys.map some := by
  induction xs generalizing ys with
  | nil => cases ys <;> simp
  | cons x xs ih =>
    rw [List.mapM_cons, Option.bind_eq_bind, Option.bind_eq_some_iff]
    constructor
    · rintro ⟨y, hy, h⟩
      obtain ⟨zs, hzs, h⟩ := Option.bind_eq_some_iff.1 h
      cases h
      rw [List.map_cons, List.map_cons, hy, ih.1 hzs]
    · intro h
      cases ys with
      | nil => cases h
      | cons y ys =>
        obtain ⟨hy, hys⟩ := List.cons.inj h
        exact ⟨y, hy, Option.bind_eq_some_iff.2 ⟨ys, ih.2 hys, rfl⟩⟩

theorem exists_values {texts : List (List Char)} (h : Decodable texts) :
    ∃ values : List String, (texts.map percentDecode).map utf8Text? = values.map some := by
  induction texts with
  | nil => exact ⟨[], rfl⟩
  | cons text texts ih =>
    obtain ⟨value, hvalue⟩ := h text List.mem_cons_self
    obtain ⟨values, hvalues⟩ := ih fun t ht => h t (List.mem_cons_of_mem _ ht)
    refine ⟨value :: values, ?_⟩
    rw [List.map_cons, List.map_cons, List.map_cons, hvalue, hvalues]

/-- The fields that names and values make of a dictionary. -/
def insertFields (d : Dict Json) (names : List (List Char)) (values : List String) : Dict Json :=
  (((names.map String.ofList).zip values).map fun (name, value) => (name, Json.str value)).foldl
    (fun d e => d.insert e.1 e.2) d

theorem get?_insertFields_of_not_mem {names : List (List Char)} {name : List Char}
    (h : name ∉ names) (d : Dict Json) (values : List String) :
    (insertFields d names values).get? (.ofList name) = d.get? (.ofList name) := by
  induction names generalizing d values with
  | nil => rfl
  | cons other names ih =>
    cases values with
    | nil => rfl
    | cons value values =>
      obtain ⟨hne, hmem⟩ := not_or.1 (mt List.mem_cons.2 h)
      show (insertFields (d.insert (.ofList other) (.str value)) names values).get? _ = _
      rw [ih hmem, Dict.get?_insert, if_neg]
      exact fun heq => hne (String.ofList_injective heq).symm

theorem get?_insertFields {names texts : List (List Char)} {name : List Char} {value : String}
    (h : CapturedAs name value names texts) (d : Dict Json) {values : List String}
    (hvalues : (texts.map percentDecode).map utf8Text? = values.map some) :
    (insertFields d names values).get? (.ofList name) = some (.str value) := by
  induction h generalizing d values with
  | @here text names texts hmem hvalue =>
    cases values with
    | nil => cases hvalues
    | cons v values =>
      have hv : utf8Text? (percentDecode text) = some v := (List.cons.inj hvalues).1
      obtain rfl : value = v := Option.some.inj (hvalue.symm.trans hv)
      show (insertFields (d.insert (.ofList name) (.str value)) names values).get? _ = _
      rw [get?_insertFields_of_not_mem hmem, Dict.get?_insert, if_pos rfl]
  | @later other text names texts _ ih =>
    cases values with
    | nil => cases hvalues
    | cons v values =>
      show (insertFields (d.insert (.ofList other) (.str v)) names values).get? _ = _
      exact ih _ (List.cons.inj hvalues).2

/-- **A captured name has its value in the fields.** -/
theorem get?_wildcardFields {names texts : List (List Char)} {name : List Char} {value : String}
    (h : CapturedAs name value names texts) (hdec : Decodable texts) :
    (wildcardFields names texts).get? (.ofList name) = some (.str value) := by
  obtain ⟨values, hvalues⟩ := exists_values hdec
  rw [wildcardFields, mapM_eq_some_iff.2 hvalues]
  exact get?_insertFields h .empty hvalues

theorem get?_wildcardFields_eq_none {names texts : List (List Char)} {name : List Char}
    (h : name ∉ names) : (wildcardFields names texts).get? (.ofList name) = none := by
  unfold wildcardFields
  split
  · exact get?_insertFields_of_not_mem h .empty _
  · rfl

/-! ## Tables -/

/-- The router as a table sees it. -/
def Router.insertOrReason (r : Router) (verb : Verb) (path : String) (chain : Chain) :
    Except String Router :=
  (r.insert verb path chain).mapError (·.message)

/-- The table after a call of its sink. A call that is refused leaves the table as it was. -/
def HttpTable.take (t : HttpTable) (c : SinkTable.Call) : HttpTable :=
  match HttpTable.sink.register t c.verb c.path c.chain with
  | .ok t => t
  | .error _ => t

/-- The table after some calls of its sink. -/
def HttpTable.afterCalls (calls : List SinkTable.Call) : HttpTable :=
  calls.foldl HttpTable.take HttpTable.empty

/-- A router keeps a table: its patterns are those of its paths, and each route has an entry. -/
structure HttpTable.Kept (t : HttpTable) : Prop where
  parsed : ∀ e ∈ t.router.entries, Pattern.parse e.path = .ok e.pattern
  entry : ∀ r ∈ t.routes, ∃ e ∈ t.router.entries, e.path = r.2

/-- All that an insertion can do: the path has an entry, or it gets one at the end. -/
theorem Router.insert_cases {r r' : Router} {verb : Verb} {path : String} {chain : Chain}
    (h : r.insertOrReason verb path chain = .ok r') :
    (∃ e ∈ r.entries, e.path = path) ∧ r' = ⟨r.entries.map (Router.join path verb chain)⟩ ∨
      ∃ pattern, Pattern.parse path = .ok pattern ∧
        r' = ⟨r.entries ++ [⟨path, pattern, [(verb, chain)]⟩]⟩ := by
  unfold Router.insertOrReason Router.insert at h
  split at h
  · next hany =>
    cases h
    exact .inl ⟨by simpa using hany, rfl⟩
  · split at h
    · cases h
    · next pattern hpattern =>
      split at h
      · cases h
      · cases h
        exact .inr ⟨pattern, hpattern, rfl⟩

theorem Router.path_join (path : String) (verb : Verb) (chain : Chain) (e : RouterEntry) :
    (Router.join path verb chain e).path = e.path := by
  unfold Router.join
  split <;> rfl

theorem Router.pattern_join (path : String) (verb : Verb) (chain : Chain) (e : RouterEntry) :
    (Router.join path verb chain e).pattern = e.pattern := by
  unfold Router.join
  split <;> rfl

namespace HttpTable

theorem Kept.extend {t : HttpTable} (h : t.Kept) {c : SinkTable.Call} {router : Router}
    (hinsert : t.router.insertOrReason c.verb c.path c.chain = .ok router) :
    HttpTable.Kept (t.extend c router) := by
  rcases Router.insert_cases hinsert with ⟨⟨e, he, hpath⟩, rfl⟩ | ⟨pattern, hpattern, rfl⟩
  · refine { parsed := fun e' he' => ?_, entry := fun r hr => ?_ }
    · obtain ⟨e, he, rfl⟩ := List.mem_map.1 he'
      rw [Router.path_join, Router.pattern_join]
      exact h.parsed e he
    · have hentry : ∃ e ∈ t.router.entries, e.path = r.2 := by
        rcases List.mem_append.1 hr with hr | hr
        · exact h.entry r hr
        · rw [List.mem_singleton.1 hr]
          exact ⟨e, he, hpath⟩
      obtain ⟨e, he, hpath⟩ := hentry
      exact ⟨_, List.mem_map_of_mem he, by rw [Router.path_join, hpath]⟩
  · refine { parsed := fun e' he' => ?_, entry := fun r hr => ?_ }
    · rcases List.mem_append.1 he' with he' | he'
      · exact h.parsed e' he'
      · rw [List.mem_singleton.1 he']
        exact hpattern
    · rcases List.mem_append.1 hr with hr | hr
      · obtain ⟨e, he, hpath⟩ := h.entry r hr
        exact ⟨e, List.mem_append_left _ he, hpath⟩
      · rw [List.mem_singleton.1 hr]
        exact ⟨_, List.mem_append_right _ List.mem_cons_self, rfl⟩

/-- All that a call can do: nothing, or it adds its route. -/
theorem take_cases {t : HttpTable} (h : t.WF) (c : SinkTable.Call) :
    t.take c = t ∨ ∃ router, t.Fits c ∧
      t.router.insertOrReason c.verb c.path c.chain = .ok router ∧
      t.take c = t.extend c router := by
  have hregister : HttpTable.sink.register t c.verb c.path c.chain =
      SinkTable.register Router.insertOrReason t c.verb c.path c.chain := rfl
  rw [take, hregister, SinkTable.register]
  rcases SinkTable.perform_cases h c with ⟨e, -, heq⟩ | ⟨router, hfits, hinsert, heq⟩
  · rw [SinkTable.perform] at heq
    rw [heq]
    exact .inl rfl
  · rw [SinkTable.perform] at heq
    rw [heq]
    exact .inr ⟨router, hfits, hinsert, rfl⟩

theorem kept_afterCalls (calls : List SinkTable.Call) : (afterCalls calls).Kept := by
  have hall : ∀ t : HttpTable, t.WF → t.Kept → HttpTable.Kept (calls.foldl take t) := by
    induction calls with
    | nil => exact fun t _ hkept => hkept
    | cons c rest ih =>
      intro t hwf hkept
      rw [List.foldl_cons]
      rcases take_cases hwf c with heq | ⟨router, hfits, hinsert, heq⟩
      · rw [heq]
        exact ih t hwf hkept
      · rw [heq]
        exact ih _ (hwf.extend hfits router) (hkept.extend hinsert)
  refine hall empty (SinkTable.wf_fresh _) { parsed := ?_, entry := ?_ }
  · exact fun e he => nomatch he
  · exact fun r hr => nomatch hr

end HttpTable

/-! ## Arguments -/

theorem lookup_matches {r : Router} {path : List Char} {e : RouterEntry}
    {texts : List (List Char)} (hparsed : ∀ e ∈ r.entries, Pattern.parse e.path = .ok e.pattern)
    (h : r.lookup? path = some (e, texts)) : e ∈ r.entries ∧ e.pattern.Matches path texts := by
  have hlast : ∀ c ∈ r.entries.map fun e => (e.pattern, e), c.1.CatchAllLast := fun c hc => by
    obtain ⟨e, he, rfl⟩ := List.mem_map.1 hc
    exact catchAllLast_parse (hparsed e he)
  obtain ⟨p, hp, hmatch⟩ := Candidates.find_matches hlast h
  obtain ⟨e', he', heq⟩ := List.mem_map.1 hp
  cases heq
  exact ⟨he', hmatch⟩

theorem getElem?_arguments {route : Route} {i : Nat} {q : Param} (h : route.params[i]? = some q)
    (request : Request) : (route.arguments request)[i]? = some (request.field q.source q.name) := by
  rw [Route.arguments, List.getElem?_map, h]
  rfl

/-- **Parameters and wildcards.** A parameter that is not local is one of the path exactly if the
pattern has its name, where the readings of the path agree about the name and only there; its
argument is the value of the name if the path captures it, and null if not. -/
theorem path_arguments (calls : List SinkTable.Call) {verb : Verb} {path raw : String}
    (hroute : (verb, path) ∈ (HttpTable.afterCalls calls).routes)
    (hraw : localName? raw.toList = none) :
    let q := classify raw verb path
    let name := q.name.toList
    let agree := Mentions path.toList name ↔ Captures path.toList name
    let router := (HttpTable.afterCalls calls).router
    (∃ e ∈ router.entries, e.path = path) ∧ (Plain path.toList → '/' ∉ name → agree) ∧
      ∀ e ∈ router.entries, e.path = path →
        ((q.source = .path ↔ name ∈ e.pattern.names) ↔ agree) ∧
        ∀ (w : WireRequest) texts, router.lookup? w.target.path = some (e, texts) →
          e.pattern.Matches w.target.path texts ∧
          ∀ (route : Route) (i : Nat) (p : Param) body, route.params[i]? = some p →
            p.name = q.name → p.source = q.source → q.source = .path → Decodable texts →
            ∃ value, (route.arguments (e.request texts w body))[i]? = some value ∧
              (Captures path.toList name → ∃ text, value = .str text ∧
                CapturedAs name text e.pattern.names texts) ∧
              (¬Captures path.toList name → value = .null) := by
  intro q name agree router
  have hkept : (HttpTable.afterCalls calls).Kept := HttpTable.kept_afterCalls calls
  refine ⟨hkept.entry _ hroute, fun hplain hname => mentions_iff_captures hplain hname, ?_⟩
  intro e he hpath
  have hnames : name ∈ e.pattern.names ↔ Captures path.toList name := by
    rw [← hpath]
    exact mem_names_parse (hkept.parsed e he)
  refine ⟨?_, fun w texts hlookup => ?_⟩
  · rw [source_classify_eq_path_iff hraw, hnames]
  have hmatch := (lookup_matches hkept.parsed hlookup).2
  refine ⟨hmatch, fun route i p body hp hname hsource hpath hdec => ?_⟩
  have hfield : (e.request texts w body).field p.source p.name =
      ((wildcardFields e.pattern.names texts).get? (.ofList name)).getD .null := by
    rw [hsource, hname, hpath, String.ofList_toList]
    rfl
  refine ⟨_, getElem?_arguments hp _, fun hcaptures => ?_, fun hcaptures => ?_⟩
  · obtain ⟨text, htext⟩ := exists_capturedAs hmatch.length_names hdec (hnames.2 hcaptures)
    exact ⟨text, by rw [hfield, get?_wildcardFields htext hdec]; rfl, htext⟩
  · rw [hfield, get?_wildcardFields_eq_none (mt hnames.1 hcaptures)]
    rfl

/-- The entry that one call makes on a fresh table. -/
def firstEntry (path : String) (pattern : Pattern) : RouterEntry := ⟨path, pattern, [(.get, [])]⟩

/-- On `/users/:id` the readings agree about `id`, and `/users/7` gives it the value `7`. -/
theorem id_is_captured :
    let t := HttpTable.afterCalls [⟨.get, "/users/:id", []⟩]
    let e := firstEntry "/users/:id" ("/users/".toList.map .char ++ [.param "id".toList])
    let q := classify "id" .get "/users/:id"
    let w : WireRequest := { method := "GET", target := { path := "/users/7".toList } }
    let route : Route := ⟨"show", "", .get, "/users/:id", [q], ⟨"Object", ""⟩⟩
    t.router.lookup? w.target.path = some (e, ["7".toList]) ∧
      (q.source = .path ↔ q.name.toList ∈ e.pattern.names) ∧
      ∃ text, (route.arguments (e.request ["7".toList] w ∅))[0]? = some (.str text) ∧
        CapturedAs "id".toList text e.pattern.names ["7".toList] := by
  have hroutes : (HttpTable.afterCalls [⟨.get, "/users/:id", []⟩]).routes =
      [(.get, "/users/:id")] := by cbv
  have hentries : (HttpTable.afterCalls [⟨.get, "/users/:id", []⟩]).router.entries =
      [firstEntry "/users/:id" ("/users/".toList.map .char ++ [.param "id".toList])] := by cbv
  have hlookup : (HttpTable.afterCalls [⟨.get, "/users/:id", []⟩]).router.lookup?
      "/users/7".toList = some (firstEntry "/users/:id"
        ("/users/".toList.map .char ++ [.param "id".toList]), ["7".toList]) := by cbv
  intro t e q w route
  have hdec : Decodable ["7".toList] := fun text htext => by
    rw [List.mem_singleton.1 htext]
    exact ⟨"7", by decide +kernel⟩
  have hsource : q.source = .path := by decide
  have hroute : (Verb.get, "/users/:id") ∈ t.routes := hroutes ▸ List.mem_cons_self
  have hraw : localName? "id".toList = none := by decide
  obtain ⟨-, -, hall⟩ := path_arguments [⟨.get, "/users/:id", []⟩] hroute hraw
  obtain ⟨hiff, hserve⟩ := hall e (hentries ▸ List.mem_cons_self) rfl
  obtain ⟨-, hargs⟩ := hserve w _ hlookup
  obtain ⟨value, hvalue, hcaptured, -⟩ := hargs route 0 q ∅ rfl rfl rfl hsource hdec
  obtain ⟨text, rfl, htext⟩ := hcaptured (by decide)
  exact ⟨hlookup, hiff.2 (by decide), text, hvalue, htext⟩

/-- The readings disagree: `/users/:first-name` mentions `first`, but its wildcard is called
`first-name`, and the parameter is null whatever the path of the request is. -/
theorem mentioned_name_is_null :
    let t := HttpTable.afterCalls [⟨.get, "/users/:first-name", []⟩]
    let e := firstEntry "/users/:first-name"
      ("/users/".toList.map .char ++ [.param "first-name".toList])
    let q := classify "first" .get "/users/:first-name"
    let w : WireRequest := { method := "GET", target := { path := "/users/ada".toList } }
    let route : Route := ⟨"show", "", .get, "/users/:first-name", [q], ⟨"Object", ""⟩⟩
    t.routes = [(.get, "/users/:first-name")] ∧ localName? "first".toList = none ∧
      t.router.lookup? w.target.path = some (e, ["ada".toList]) ∧
      ¬(q.source = .path ↔ q.name.toList ∈ e.pattern.names) ∧
      route.arguments (e.request ["ada".toList] w ∅) = [.null] := by
  have hroutes : (HttpTable.afterCalls [⟨.get, "/users/:first-name", []⟩]).routes =
      [(.get, "/users/:first-name")] := by cbv
  have hlookup : (HttpTable.afterCalls [⟨.get, "/users/:first-name", []⟩]).router.lookup?
      "/users/ada".toList = some (firstEntry "/users/:first-name"
        ("/users/".toList.map .char ++ [.param "first-name".toList]), ["ada".toList]) := by cbv
  intro t e q w route
  have hname : "first".toList ∉ e.pattern.names := by decide
  have hfield : (e.request ["ada".toList] w ∅).params.get? "first" = none :=
    get?_wildcardFields_eq_none hname
  refine ⟨hroutes, by decide, hlookup, by decide, ?_⟩
  show [((e.request ["ada".toList] w ∅).params.get? "first").getD .null] = [.null]
  rw [hfield]
  rfl

end DocRoutes
