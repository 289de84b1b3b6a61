import DocRoutes.Proofs.Forms
import DocRoutes.Proofs.JsonTexts
import DocRoutes.Proofs.LocalFields
import DocRoutes.Proofs.Merging
import DocRoutes.Proofs.Utf8

/-!
# Which bodies reach a chain

The body of a request is read before the chain of its route begins.

**Bodies** (`BodyFields`). Blanks alone are a body without fields, and the UTF-8 text of a JSON object
is a body with its members as fields. No other body can be taken (`bodyFields_eq_ok_iff`), and no body
is of both kinds (`not_blankBody_of_objectBody`).

**Query and wildcards** (`Request.Carries`). The query is read as a form, and of fields with one name
the last counts. The texts that the wildcards stand for are decoded; if one of them is not UTF-8 then,
none of them is handed on.

**Other chains** (`Router.mapChains`). A router finds the entry of a path and the chain of a method
without a look at the chains. So with other chains it finds the same places
(`Router.Selects.mapChains`). What it answers to a body that cannot be taken does not change with the
chains, so that none of them has run; and to one that can be taken it answers what the chain makes of
the request, whichever chain stands there.

Main result: `Router.answer_of_body`.
-/

namespace DocRoutes

open Text

/-! ## Bodies -/

/-- The bytes that count as blank in a body: tab, line feed, form feed, carriage return and space. -/
def blankBytes : List UInt8 := [0x09, 0x0A, 0x0C, 0x0D, 0x20]

def BlankBody (body : Bytes) : Prop := ∀ b ∈ body, b ∈ blankBytes

instance (body : Bytes) : Decidable (BlankBody body) :=
  inferInstanceAs (Decidable (∀ b ∈ body, b ∈ blankBytes))

/-- A body is the text of an object in UTF-8, with these members in the order of the text. -/
def ObjectBody (body : Bytes) (members : List (String × Json)) : Prop :=
  ∃ text : String, body = utf8Bytes text ∧ Json.ObjectText text.toList members

/-- Of the members with a key, the last one has this value. -/
def LastMember (members : List (String × Json)) (key : String) (value : Json) : Prop :=
  ∃ before after, members = before ++ (key, value) :: after ∧ ∀ m ∈ after, m.1 ≠ key

/-- The fields are the members, and of members with one key the last. -/
def Dict.Holds (fields : Dict Json) (members : List (String × Json)) : Prop :=
  ∀ key value, fields.get? key = some value ↔ LastMember members key value

/-- A body has these fields. -/
inductive BodyFields (body : Bytes) : Dict Json → Prop
  | blank : BlankBody body → BodyFields body ∅
  | object {members : List (String × Json)} {fields : Dict Json} :
      ObjectBody body members → fields.Holds members → BodyFields body fields

theorem blankBody_iff {body : Bytes} : body.all isBlankByte = true ↔ BlankBody body := by
  rw [List.all_eq_true, BlankBody]
  refine forall₂_congr fun b _ => ?_
  simp only [isBlankByte, blankBytes, Bool.or_eq_true, decide_eq_true_eq, List.mem_cons,
    List.not_mem_nil, or_false]
  tauto

/-- A body is not blank and an object: the brace in front of the members is no blank. -/
theorem not_blankBody_of_objectBody {body : Bytes} {members : List (String × Json)}
    (h : ObjectBody body members) : ¬BlankBody body := by
  obtain ⟨text, rfl, ht⟩ := h
  have hbrace : '\x7b' ∈ text.toList := by
    generalize text.toList = s at ht
    obtain ⟨-, ht, -⟩ := ht
    cases ht <;> simp
  have hbyte : 0x7B ∈ utf8Bytes text := List.mem_flatMap.2 ⟨'\x7b', hbrace, by decide⟩
  intro hblank
  exact absurd (hblank _ hbyte) (by decide)

theorem get?_insertAll_eq_some_iff {members : List (String × Json)} {key : String} {value : Json} :
    Keyed.get? key (Keyed.insertAll [] members) = some value ↔ LastMember members key value := by
  have hempty : Keyed.get? key ([] : List (String × Json)) = none := rfl
  rw [Keyed.get?_insertAll_eq_or, hempty, Option.or_none, Keyed.findSome?_reverse_eq_some_iff]
  constructor
  · rintro ⟨before, ⟨k, v⟩, after, rfl, hmember, hafter⟩
    obtain ⟨rfl, heq⟩ := Option.ite_none_right_eq_some.1 hmember
    cases heq
    exact ⟨before, after, rfl, fun m hm => by simpa using hafter m hm⟩
  · rintro ⟨before, after, rfl, hafter⟩
    exact ⟨before, _, after, rfl, by simp, fun m hm => by simpa using hafter m hm⟩

theorem Dict.entries_ofList (entries : List (String × Json)) :
    (Dict.ofList entries).entries = Keyed.insertAll [] entries := by
  have hfoldl : ∀ d : Dict Json, (entries.foldl (fun d e => d.insert e.1 e.2) d).entries =
      Keyed.insertAll d.entries entries := by
    induction entries with
    | nil => exact fun _ => rfl
    | cons e rest ih => exact fun d => ih (d.insert e.1 e.2)
  exact hfoldl ∅

theorem holds_ofList (members : List (String × Json)) : (Dict.ofList members).Holds members := by
  intro key value
  rw [Dict.get?, Dict.entries_ofList, get?_insertAll_eq_some_iff]

/-- To enter the members once more, now in the order of their keys, changes nothing. -/
theorem holds_ofList_insertAll (members : List (String × Json)) :
    (Dict.ofList (Keyed.insertAll [] members)).Holds members := by
  intro key value
  have hdistinct := (Keyed.Ordered.insertAll List.Pairwise.nil members).distinct
  rw [Dict.get?, Dict.entries_ofList, Keyed.get?_insertAll hdistinct, ← get?_insertAll_eq_some_iff]
  exact Eq.congr_left Option.or_none

theorem Dict.Holds.unique {fields fields' : Dict Json} {members : List (String × Json)}
    (h : fields.Holds members) (h' : fields'.Holds members) : fields = fields' := by
  apply Dict.ext_get?
  intro key
  apply Option.ext
  intro value
  rw [h key value, h' key value]

theorem readBytes?_eq_obj_iff {body : Bytes} {entries : List (String × Json)} :
    Json.readBytes? body = some (.obj entries) ↔
      ∃ members, ObjectBody body members ∧ entries = Keyed.insertAll [] members := by
  rw [Json.readBytes?, Option.bind_eq_bind, Option.bind_eq_some_iff]
  constructor
  · rintro ⟨text, htext, hread⟩
    rw [Json.read?_eq_some_iff] at hread
    obtain ⟨members, hmembers, rfl⟩ := Json.documentText_obj_iff.1 hread
    exact ⟨members, ⟨text, utf8Text?_eq_some_iff.1 htext, hmembers⟩, rfl⟩
  · rintro ⟨members, ⟨text, htext, hmembers⟩, rfl⟩
    refine ⟨text, utf8Text?_eq_some_iff.2 htext, ?_⟩
    rw [Json.read?_eq_some_iff]
    exact Json.documentText_obj_iff.2 ⟨members, hmembers, rfl⟩

theorem not_objectBody {body : Bytes} (h : ∀ entries, Json.readBytes? body ≠ some (.obj entries))
    (members : List (String × Json)) : ¬ObjectBody body members :=
  fun hobject => h _ (readBytes?_eq_obj_iff.2 ⟨members, hobject, rfl⟩)

/-- **The bodies that have fields are the blank ones and the objects.** -/
theorem bodyFields_eq_ok_iff {body : Bytes} {fields : Dict Json} :
    bodyFields body = .ok fields ↔ BodyFields body fields := by
  unfold bodyFields
  by_cases hblank : BlankBody body
  · rw [if_pos (blankBody_iff.2 hblank)]
    constructor
    · rintro ⟨⟩
      exact .blank hblank
    · rintro (_ | ⟨hobject, -⟩)
      · rfl
      · exact absurd hblank (not_blankBody_of_objectBody hobject)
  rw [if_neg (mt blankBody_iff.1 hblank)]
  constructor
  · intro h
    split at h
    · next entries hread =>
      cases h
      obtain ⟨members, hobject, rfl⟩ := readBytes?_eq_obj_iff.1 hread
      exact .object hobject (holds_ofList_insertAll members)
    · cases h
    · cases h
  · rintro (hblank' | ⟨hobject, hholds⟩)
    · exact absurd hblank' hblank
    · rw [readBytes?_eq_obj_iff.2 ⟨_, hobject, rfl⟩]
      exact congrArg _ ((holds_ofList_insertAll _).unique hholds)

theorem exists_bodyFields_eq_error {body : Bytes} (h : ∀ fields, ¬BodyFields body fields) :
    ∃ cause, bodyFields body = .error cause := by
  cases hbody : bodyFields body with
  | ok fields => exact absurd (bodyFields_eq_ok_iff.1 hbody) (h fields)
  | error cause => exact ⟨cause, rfl⟩

/-! ## Query and wildcards -/

/-- A request has the query of the client as its query fields, and the texts of the wildcards as its
path fields. -/
structure Request.Carries (request : Request) (query : List Char) (names texts : List (List Char)) :
    Prop where
  query : ∀ fields, FormText query fields →
    request.query.Holds (fields.map fun f => (f.1, .str f.2))
  params : Decodable texts → ∀ name value, request.params.get? name = some value ↔
    ∃ text, value = .str text ∧ CapturedAs name.toList text names texts
  undecodable : ¬Decodable texts → request.params = ∅

theorem get?_wildcardFields_eq_some_iff {names texts : List (List Char)}
    (hlength : names.length = texts.length) (hdec : Decodable texts) {name : String} {value : Json} :
    (wildcardFields names texts).get? name = some value ↔
      ∃ text, value = .str text ∧ CapturedAs name.toList text names texts := by
  have hname : String.ofList name.toList = name := String.ofList_toList
  constructor
  · intro h
    by_cases hmem : name.toList ∈ names
    · obtain ⟨text, htext⟩ := exists_capturedAs hlength hdec hmem
      have hget := get?_wildcardFields htext hdec
      rw [hname, h] at hget
      exact ⟨text, Option.some.inj hget, htext⟩
    · have hget : (wildcardFields names texts).get? (.ofList name.toList) = none :=
        get?_wildcardFields_eq_none hmem
      rw [hname, h] at hget
      cases hget
  · rintro ⟨text, rfl, htext⟩
    have hget := get?_wildcardFields htext hdec
    rwa [hname] at hget

theorem wildcardFields_of_not_decodable {texts : List (List Char)} (h : ¬Decodable texts)
    (names : List (List Char)) : wildcardFields names texts = ∅ := by
  unfold wildcardFields
  split
  · next values hvalues =>
    refine absurd (fun text htext => ?_) h
    rw [mapM_eq_some_iff, List.map_map] at hvalues
    have hmem : utf8Text? (percentDecode text) ∈ values.map some :=
      hvalues ▸ List.mem_map_of_mem htext
    obtain ⟨value, -, hvalue⟩ := List.mem_map.1 hmem
    exact ⟨value, hvalue.symm⟩
  · rfl

theorem RouterEntry.carries_request (e : RouterEntry) {texts : List (List Char)} (w : WireRequest)
    (body : Dict Json) (hlength : e.pattern.names.length = texts.length) :
    (e.request texts w body).Carries w.target.query e.pattern.names texts where
  query fields hfields := by
    have hquery : (e.request texts w body).query =
        Dict.ofList (fields.map fun f => (f.1, .str f.2)) := by
      rw [← hfields.formFields_eq]
      rfl
    rw [hquery]
    exact holds_ofList _
  params hdec _ _ := get?_wildcardFields_eq_some_iff hlength hdec
  undecodable hdec := wildcardFields_of_not_decodable hdec e.pattern.names

/-! ## Other chains -/

section MapCandidates

variable {α β : Type} (g : α → β)

/-- Candidates that stand for something else. -/
def Candidates.mapped (cs : Candidates α) : Candidates β := cs.map fun e => (e.1, g e.2)

theorem Candidates.afterChar_mapped (c : Char) (cs : Candidates α) :
    (cs.mapped g).afterChar c = (cs.afterChar c).mapped g := by
  rw [afterChar, afterChar, mapped, mapped, List.filterMap_map, List.map_filterMap]
  congr 1
  funext e
  obtain ⟨p, a⟩ := e
  cases p with
  | nil => rfl
  | cons piece rest =>
    cases piece with
    | char d => by_cases hd : c = d <;> simp [hd]
    | param | catchAll => rfl

theorem Candidates.afterParam_mapped (cs : Candidates α) :
    (cs.mapped g).afterParam = cs.afterParam.mapped g := by
  rw [afterParam, afterParam, mapped, mapped, List.filterMap_map, List.map_filterMap]
  congr 1
  funext e
  obtain ⟨p, a⟩ := e
  cases p with
  | nil => rfl
  | cons piece rest => cases piece <;> rfl

theorem Candidates.ended?_mapped (cs : Candidates α) :
    (cs.mapped g).ended? = cs.ended?.map g := by
  rw [ended?, ended?, mapped, List.findSome?_map, List.map_findSome?]
  congr 1
  funext e
  obtain ⟨p, a⟩ := e
  cases p <;> rfl

theorem Candidates.catchAll?_mapped (cs : Candidates α) :
    (cs.mapped g).catchAll? = cs.catchAll?.map g := by
  rw [catchAll?, catchAll?, mapped, List.findSome?_map, List.map_findSome?]
  congr 1
  funext e
  obtain ⟨p, a⟩ := e
  cases p with
  | nil => rfl
  | cons piece rest => cases piece <;> rfl

/-- What candidates stand for plays no part in the search. -/
theorem Candidates.find_mapped (cs : Candidates α) (path : List Char) :
    (cs.mapped g).find path = (cs.find path).map fun m => (g m.1, m.2) := by
  fun_induction Candidates.find cs path with
  | case1 cs => simp [find, ended?_mapped, Function.comp_def]
  | case2 cs c rest hempty =>
    have hmapped : (cs.mapped g).isEmpty = true := by simpa [mapped] using hempty
    simp [find, hmapped]
  | case3 cs c rest hempty ihChar ihParam =>
    have hmapped : ¬(cs.mapped g).isEmpty = true := by simpa [mapped] using hempty
    rw [find, if_neg hmapped, afterChar_mapped, ihChar, afterParam_mapped, ihParam, catchAll?_mapped]
    by_cases hslash : c = '/'
    · simp [hslash, Option.map_or, Function.comp_def]
    · simp [hslash, Option.map_or, Function.comp_def]

end MapCandidates

/-- The entry with other chains. -/
def RouterEntry.mapChains (f : Chain → Chain) (e : RouterEntry) : RouterEntry :=
  { e with chains := e.chains.map fun c => (c.1, f c.2) }

/-- The router with other chains. -/
def Router.mapChains (f : Chain → Chain) (r : Router) : Router := ⟨r.entries.map (·.mapChains f)⟩

theorem Router.lookup?_mapChains (f : Chain → Chain) (r : Router) (path : List Char) :
    (r.mapChains f).lookup? path = (r.lookup? path).map fun m => (m.1.mapChains f, m.2) := by
  have hcandidates : (r.mapChains f).entries.map (fun e => (e.pattern, e)) =
      Candidates.mapped (·.mapChains f) (r.entries.map fun e => (e.pattern, e)) := by
    simp [mapChains, Candidates.mapped, RouterEntry.mapChains]
  rw [lookup?, hcandidates, Candidates.find_mapped]
  rfl

theorem RouterEntry.chain?_mapChains (f : Chain → Chain) (e : RouterEntry) (verb : Verb) :
    (e.mapChains f).chain? verb = (e.chain? verb).map f := by
  simp [chain?, mapChains, List.find?_map, Function.comp_def]

/-! ## Serving -/

/-- A request is for a chain: its path is that of an entry, and its method has the chain there. -/
structure Router.Selects (r : Router) (w : WireRequest) (e : RouterEntry) (texts : List (List Char))
    (verb : Verb) (chain : Chain) : Prop where
  entry : r.lookup? w.target.path = some (e, texts)
  method : verbOfMethod? w.method = some verb
  chain : e.chain? verb = some chain

/-- The answer is what one run of the chain makes of the request, whichever chains there are. -/
structure Router.Runs (r : Router) (w : WireRequest) (chain : Chain) (request : Request) : Prop where
  answer : r.answer w = w.reply (chain.run request)
  exchanged : ∀ f : Chain → Chain, (r.mapChains f).answer w = w.reply ((f chain).run request)

/-- The answer is status 400 without any notes, and the same one whichever chains there are. -/
structure Router.Refuses (r : Router) (w : WireRequest) : Prop where
  status : (r.answer w).1.status = .badRequest
  notes : (r.answer w).2 = []
  exchanged : ∀ f : Chain → Chain, (r.mapChains f).answer w = r.answer w

namespace Router.Selects

variable {r : Router} {w : WireRequest} {e : RouterEntry} {texts : List (List Char)} {verb : Verb}
  {chain : Chain}

theorem mapChains (h : r.Selects w e texts verb chain) (f : Chain → Chain) :
    (r.mapChains f).Selects w (e.mapChains f) texts verb (f chain) where
  entry := by rw [lookup?_mapChains, h.entry, Option.map_some]
  method := h.method
  chain := by rw [RouterEntry.chain?_mapChains, h.chain, Option.map_some]

theorem answer_of_ok (h : r.Selects w e texts verb chain) {body : Dict Json}
    (hbody : bodyFields w.body = .ok body) :
    r.answer w = w.reply (chain.run (e.request texts w body)) :=
  (Serves.intro h.entry h.method h.chain hbody).answer

theorem answer_of_error (h : r.Selects w e texts verb chain) {cause : BodyError}
    (hbody : bodyFields w.body = .error cause) : r.answer w = w.reply ⟨cause.response, []⟩ := by
  simp [answer, h.entry, RouterEntry.answer, h.method, h.chain, RouterEntry.serve, hbody,
    WireRequest.reply]

theorem runs (h : r.Selects w e texts verb chain) {body : Dict Json}
    (hbody : BodyFields w.body body) : r.Runs w chain (e.request texts w body) where
  answer := h.answer_of_ok (bodyFields_eq_ok_iff.2 hbody)
  exchanged f := (h.mapChains f).answer_of_ok (bodyFields_eq_ok_iff.2 hbody)

theorem refuses (h : r.Selects w e texts verb chain)
    (hbody : ∀ body, ¬BodyFields w.body body) : r.Refuses w := by
  obtain ⟨cause, hcause⟩ := exists_bodyFields_eq_error hbody
  have hanswer := h.answer_of_error hcause
  refine { status := ?_, notes := ?_, exchanged := fun f => ?_ }
  · rw [hanswer]
    exact status_dropBody _ _
  · rw [hanswer]
    rfl
  · rw [hanswer, (h.mapChains f).answer_of_error hcause]

end Router.Selects

/-! ## Main result -/

/-- **A body reaches a chain as an object only.** Let a request be for a chain of a table. Then the
chain came in a call for the method and for a path that the request matches. On a blank body the chain
runs without body fields, and on the text of an object with its members as body fields. On every other
body the answer is status 400, and no chain runs. When the chain runs, it runs once, on the path, the
query and the wildcards of this request, without local fields: the query fields are the last ones of
their names in the text of the form, and the path fields are the texts captured. No body is blank and
an object. -/
theorem Router.answer_of_body (calls : List SinkTable.Call) (w : WireRequest) {e : RouterEntry}
    {texts : List (List Char)} {verb : Verb} {chain : Chain}
    (h : (HttpTable.afterCalls calls).router.Selects w e texts verb chain) :
    let router := (HttpTable.afterCalls calls).router
    let request (body : Dict Json) : Request :=
      { path := .ofList w.target.path, headers := w.headers, body,
        query := textFields (formFields w.target.query),
        params := wildcardFields e.pattern.names texts, locals := ∅ }
    (⟨verb, e.path, chain⟩ ∈ calls ∧ Pattern.parse e.path = .ok e.pattern ∧
      e.pattern.Matches w.target.path texts) ∧
    (BlankBody w.body → router.Runs w chain (request ∅)) ∧
    (∀ members, ObjectBody w.body members →
      ∃ body, body.Holds members ∧ router.Runs w chain (request body)) ∧
    (¬BlankBody w.body → (∀ members, ¬ObjectBody w.body members) → router.Refuses w) ∧
    (∀ members, ObjectBody w.body members → ¬BlankBody w.body) ∧
    ∀ body, (request body).Carries w.target.query e.pattern.names texts := by
  intro router request
  have hcall := HttpTable.call_of_chain? h.entry h.chain
  refine ⟨hcall, ?_, ?_, ?_, ?_, ?_⟩
  · intro hblank
    exact h.runs (.blank hblank)
  · intro members hobject
    have hholds := holds_ofList_insertAll members
    exact ⟨_, hholds, h.runs (.object hobject hholds)⟩
  · intro hblank hobject
    apply h.refuses
    rintro body (hblank' | ⟨hobject', -⟩)
    · exact hblank hblank'
    · exact hobject _ hobject'
  · intro members hobject
    exact not_blankBody_of_objectBody hobject
  · intro body
    exact e.carries_request w body hcall.2.2.length_names

/-- A form feed alone is a blank body, but in front of an object it is not JSON. Of two members with
one key the last counts, and so does the last of two fields of the query with one name. An array, text
behind an object, and bytes that are not UTF-8 are refused. -/
theorem Router.answers_of_six_bodies :
    let chain := [Handler.stock "log" .echo]
    let router := (HttpTable.afterCalls [⟨.post, "/users/:id", chain⟩]).router
    let w (body : Bytes) : WireRequest :=
      { method := "POST", target := ⟨"/users/%37".toList, "tag=a&tag=%C3%A9+b".toList⟩, body }
    let request (body : Dict Json) : Request :=
      { path := "/users/%37", body, query := textFields (formFields "tag=a&tag=%C3%A9+b".toList),
        params := wildcardFields ["id".toList] ["%37".toList] }
    let repeated := utf8Bytes " \x7b\"a\": null, \"a\": \"é\"\x7d"
    router.Runs (w [0x0C, 0x20]) chain (request ∅) ∧
      (∃ body, body.get? "a" = some (.str "é") ∧ router.Runs (w repeated) chain (request body)) ∧
      router.Refuses (w (utf8Bytes "\x0c\x7b\x7d")) ∧
      router.Refuses (w (utf8Bytes "[true]")) ∧
      router.Refuses (w (utf8Bytes "\x7b\x7d,")) ∧
      router.Refuses (w [0x7B, 0xFF, 0x7D]) ∧
      (request ∅).query.get? "tag" = some (.str "é b") ∧
      (request ∅).params.get? "id" = some (.str "7") := by
  have hlookup (chain : Chain) : (HttpTable.afterCalls [⟨.post, "/users/:id", chain⟩]).router.lookup?
      "/users/%37".toList = some (⟨"/users/:id", "/users/".toList.map .char ++ [.param "id".toList],
        [(.post, chain)]⟩, ["%37".toList]) := by cbv
  have hblank : BlankBody [0x0C, 0x20] := by simp [BlankBody, blankBytes]
  have hrepeated : Json.readBytes? (utf8Bytes " \x7b\"a\": null, \"a\": \"é\"\x7d") =
      some (.obj [("a", .str "é")]) := by cbv
  have hfeed : Json.readBytes? (utf8Bytes "\x0c\x7b\x7d") = none := by cbv
  have harray : Json.readBytes? (utf8Bytes "[true]") = some (.arr [.bool true]) := by cbv
  have hbehind : Json.readBytes? (utf8Bytes "\x7b\x7d,") = none := by cbv
  have hbytes : Json.readBytes? [0x7B, 0xFF, 0x7D] = none := by cbv
  have hword (s : List Char) (text : String)
      (hs : percentDecode (s.map fun c => if c = '+' then ' ' else c) = utf8Bytes text) :
      FormWord s text := encodedBytes_iff.2 hs
  have hform : FormText ("tag=a".toList ++ '&' :: "tag=%C3%A9+b".toList)
      ([("tag", "a")] ++ [("tag", "é b")]) := by
    have hfirst : FieldText ("tag".toList ++ '=' :: "a".toList) ("tag", "a") :=
      .pair (by decide) (hword _ _ (by decide +kernel)) (hword _ _ (by decide +kernel))
    have hsecond : FieldText ("tag".toList ++ '=' :: "%C3%A9+b".toList) ("tag", "é b") :=
      .pair (by decide) (hword _ _ (by decide +kernel)) (hword _ _ (by decide +kernel))
    exact .more (by decide) (.field (by decide) hfirst)
      (.last (by decide) (.field (by decide) hsecond))
  have hcaptured : CapturedAs "id".toList "7" ["id".toList] ["%37".toList] :=
    .here List.not_mem_nil (by decide +kernel)
  have hdec : Decodable ["%37".toList] := fun text htext => by
    rw [List.mem_singleton.1 htext]
    exact ⟨"7", by decide +kernel⟩
  intro chain router w request repeated
  have hselects (body : Bytes) : router.Selects (w body) _ ["%37".toList] .post chain :=
    ⟨hlookup chain, rfl, rfl⟩
  have hrefused {body : Bytes} (hblank : ¬BlankBody body)
      (hread : ∀ entries, Json.readBytes? body ≠ some (.obj entries)) : router.Refuses (w body) :=
    (answer_of_body _ _ (hselects body)).2.2.2.1 hblank (not_objectBody hread)
  have hcarries := (answer_of_body _ _ (hselects [])).2.2.2.2.2 ∅
  refine ⟨(answer_of_body _ _ (hselects _)).2.1 hblank, ?_,
    hrefused (by decide +kernel) (by simp [hfeed]), hrefused (by decide +kernel) (by simp [harray]),
    hrefused (by decide +kernel) (by simp [hbehind]),
    hrefused (by decide +kernel) (by simp [hbytes]), ?_, ?_⟩
  · obtain ⟨members, hmembers, hentries⟩ := readBytes?_eq_obj_iff.1 hrepeated
    obtain ⟨body, hholds, hruns⟩ := (answer_of_body _ _ (hselects repeated)).2.2.1 members hmembers
    refine ⟨body, ?_, hruns⟩
    rw [hholds, ← get?_insertAll_eq_some_iff, ← hentries]
    rfl
  · exact (hcarries.query _ hform _ _).2 ⟨[("tag", .str "a")], [], rfl, by simp⟩
  · exact (hcarries.params hdec _ _).2 ⟨"7", rfl, hcaptured⟩

end DocRoutes
