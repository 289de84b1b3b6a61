import Mathlib.Data.List.TakeWhile
import DocRoutes.Proofs.Middleware
import DocRoutes.Proofs.ItemNames

/-!
# Which routes a key of middleware reaches

The keys of routes and of controllers are texts of one kind: the key of a route is the name of its
controller, a dot, and the name of its method. Whether two routes share a key is a question about
the names that source units can document.

**Names** (`documented_iff`). A method is named like an item, without a dot. A controller may have
any name of one line that is trimmed and not empty, and so one with a dot.

**Keys** (`routeKey_inj`). Since the last dot of a key stands before the method, two routes with the
same key are the same route. The key of a route is the name of a controller, however, if that
controller is named so.

**Theorem (`route_isolation`).** What is registered for a route is run by that route and by those
of a controller named like its key, and what is registered for a controller by its own routes and by
a route whose key is its name. No other route runs it, nor does any other chain change if it is
not registered. A controller named like the key of a route can be documented whatever the route is.
-/

namespace DocRoutes

open Text

/-! ## Names of methods -/

theorem isIdentifier_of_declares {words : List String} {s name : List Char}
    (h : Declares words s name) : IsIdentifier name := by
  induction h with
  | item _ _ hname _ => exact hname
  | without _ ih => exact ih
  | qualified _ _ ih => exact ih

theorem Block.isIdentifier_of_context? {b : Block} {name : List Char}
    (h : b.context? = some name) : IsIdentifier name := by
  unfold context? at h
  cases hmarker : b.marker with
  | inner =>
    rw [hmarker] at h
    cases h
  | outer =>
    rw [hmarker] at h
    obtain ⟨line, -, hname⟩ := Option.bind_eq_some_iff.1 h
    rw [itemName?_eq] at hname
    exact isIdentifier_of_declares (declares_of_nameAfter? (List.Subset.refl _) hname)

/-! ## Names of controllers -/

/-- The text of a line of documentation stands in the line. -/
theorem mem_of_docLine? {line text : List Char} {marker : Marker}
    (h : docLine? line = some (marker, text)) {c : Char} (hc : c ∈ text) : c ∈ line := by
  have hspace {s : List Char} (hs : c ∈ dropSpace s) : c ∈ s := by
    unfold dropSpace at hs
    split at hs
    · exact List.mem_cons_of_mem _ hs
    · exact hs
  have hline : c ∈ trimStart line := by
    unfold docLine? at h
    split at h
    · next heq =>
      cases h
      rw [heq]
      simp [hspace hc]
    · cases h
    · next heq =>
      cases h
      rw [heq]
      simp [hspace hc]
    · cases h
  exact (List.dropWhile_sublist _).subset hline

theorem newline_not_mem_lines {s line : List Char} (h : line ∈ lines s) : '\n' ∉ line := by
  have hpiece {piece : List Char} (hpiece : piece ∈ splitAt '\n' s) : '\n' ∉ piece :=
    not_mem_of_mem_splitAt hpiece
  have hended (h : line ∈ (splitAt '\n' s).dropLast.map dropReturn) : '\n' ∉ line := by
    obtain ⟨piece, hmem, rfl⟩ := List.mem_map.1 h
    unfold dropReturn
    split
    · exact fun hc => hpiece ((List.dropLast_sublist _).subset hmem)
        ((List.dropLast_sublist _).subset hc)
    · exact hpiece ((List.dropLast_sublist _).subset hmem)
  rw [lines] at h
  cases hlast : (splitAt '\n' s).getLast? with
  | none =>
    rw [hlast] at h
    exact hended h
  | some last =>
    rw [hlast] at h
    cases last with
    | nil => exact hended h
    | cons c last =>
      rcases List.mem_append.1 h with h | h
      · exact hended h
      · rw [List.mem_singleton.1 h]
        exact hpiece (List.mem_of_getLast? hlast)

theorem newline_not_mem_texts {source : List Char} {b : Block}
    (h : b ∈ Block.ofLines (lines source)) {text : List Char} (htext : text ∈ b.texts) :
    '\n' ∉ text := by
  obtain ⟨before, run, hlines, -, hrun, -⟩ := Block.exists_isRun_of_mem h
  obtain ⟨i, hi, rfl⟩ := List.mem_iff_getElem.1 htext
  have hi' : i < run.length := by rwa [List.Forall₂.length_eq hrun]
  have hdoc := List.Forall₂.get hrun hi' hi
  have hline : run[i] ∈ lines source := by
    rw [hlines]
    exact List.mem_append_right _ (List.mem_append_left _ (List.getElem_mem hi'))
  exact fun hc => newline_not_mem_lines hline (mem_of_docLine? hdoc hc)

theorem mem_of_tagLine? {text kind payload : List Char} (h : tagLine? text = some (kind, payload))
    {c : Char} (hc : c ∈ payload) : c ∈ text := by
  unfold tagLine? at h
  split at h
  · next s =>
    split at h
    · cases h
    · cases h
      cases hc
    · next rest hrest _ =>
      split at h
      · cases h
        have hmem : c ∈ dropWordChars s := by
          rw [hrest]
          exact List.mem_cons_of_mem _ (mem_of_mem_trim hc)
        exact List.mem_cons_of_mem _ ((List.dropWhile_sublist _).subset hmem)
      · cases h
  · cases h

theorem newline_not_mem_payload {number : Nat} {texts : List (List Char)}
    (h : ∀ text ∈ texts, '\n' ∉ text) {t : NumberedTag} (ht : t ∈ tagsFrom number texts) :
    '\n' ∉ t.payload := by
  induction texts generalizing number with
  | nil => cases ht
  | cons text rest ih =>
    obtain ⟨htext, hrest⟩ := List.forall_mem_cons.1 h
    rw [tagsFrom] at ht
    cases hline : tagLine? text with
    | none =>
      rw [hline] at ht
      exact ih hrest ht
    | some d =>
      obtain ⟨kind, first⟩ := d
      rw [hline] at ht
      rcases List.mem_cons.1 ht with rfl | ht
      · refine not_mem_join (by decide) fun piece hpiece => ?_
        rcases List.mem_cons.1 (List.mem_of_mem_filter hpiece) with rfl | hpiece
        · exact fun hc => htext (mem_of_tagLine? hline hc)
        · exact hrest piece ((List.takeWhile_sublist _).subset hpiece)
      · exact ih hrest ht

theorem payload_toTag (t : NumberedTag) : t.toTag.1.payload = .ofList t.payload := by
  unfold NumberedTag.toTag
  dsimp only
  split
  · split <;> rfl
  · rfl

/-- A tag of a record comes from one of the texts, and its payload has no line feed. -/
theorem newline_not_mem_of_mem_tagsOf {source kind : String} {r : DocRecord}
    (hr : r ∈ (extract source).1) {tag : Tag} (htag : tag ∈ r.tagsOf kind) :
    '\n' ∉ tag.payload.toList := by
  obtain ⟨p, hp, rfl⟩ := List.mem_map.1 hr
  obtain ⟨b, hb, rfl⟩ := List.mem_map.1 hp
  rw [Block.toRecord, DocRecord.tagsOf_addTags] at htag
  obtain ⟨p, hp, rfl⟩ := List.mem_map.1 (List.mem_of_mem_filter htag)
  obtain ⟨t, ht, rfl⟩ := List.mem_map.1 hp
  have htexts : ∀ text ∈ b.texts.map trim, '\n' ∉ text := fun text htext => by
    obtain ⟨raw, hraw, rfl⟩ := List.mem_map.1 htext
    exact fun hc => newline_not_mem_texts hb hraw (mem_of_mem_trim hc)
  rw [payload_toTag, String.toList_ofList]
  exact newline_not_mem_payload htexts ht

/-! ## Names that units document -/

/-- Some source text documents a controller of this name with a route of this method. -/
def Documented (controller method : String) : Prop :=
  ∃ source doc, (readUnit .comments source).1 = .ok doc ∧ doc.name = controller ∧
    ∃ route ∈ doc.routes, route.name = method

/-- What the reading of a unit takes from its records. -/
theorem records_of_readUnit {source : String} {doc : ControllerDoc}
    (h : (readUnit .comments source).1 = .ok doc) :
    ∃ m ∈ (extract source).1, m.isModule = true ∧ m.moduleName = doc.name ∧ doc.name ≠ "" ∧
      ∀ route ∈ doc.routes, ∃ r ∈ (extract source).1, r.toRoute = .ok route := by
  have hunit : ∃ skipped, ControllerDoc.ofRecords (extract source).1 = .ok (doc, skipped) := by
    rw [readUnit] at h
    simp only [Extractor.comments] at h
    split at h
    · cases h
    · next skipped hok =>
      cases h
      exact ⟨skipped, hok⟩
  obtain ⟨skipped, hunit⟩ := hunit
  rcases ControllerDoc.ofRecords_cases (extract source).1 with
    ⟨-, hresult⟩ | ⟨m, tag, others, hheaded, ⟨-, hresult⟩ | ⟨hblank, _, _, hsorted, hresult⟩⟩ <;>
    rw [hunit] at hresult <;> cases hresult
  refine ⟨m, hheaded.mem, hheaded.isModule, hheaded.moduleName, ?_, fun route hroute => ?_⟩
  · exact fun hname => hblank (isEmpty_trimmed_iff.1 (String.isEmpty_iff.2 hname))
  · obtain ⟨r, hr, hdeclares⟩ := hsorted.exists_record hroute
    exact ⟨r, hheaded.subset hr, hdeclares.toRoute⟩

theorem oneLine_moduleName {source : String} {m : DocRecord} (hm : m ∈ (extract source).1)
    (hmodule : m.isModule = true) : OneLine m.moduleName := by
  obtain ⟨tag, htag⟩ := Option.isSome_iff_exists.1 hmodule
  have hnewline : '\n' ∉ tag.payload.toList :=
    newline_not_mem_of_mem_tagsOf hm (List.mem_of_head? htag)
  have hname : m.moduleName = trimmed tag.payload := by
    rw [DocRecord.moduleName, htag]
  rw [hname]
  exact oneLine_trim hnewline

theorem isIdentifier_name {source : String} {r : DocRecord} (hr : r ∈ (extract source).1)
    {route : Route} (hroute : r.toRoute = .ok route) : IsIdentifier route.name.toList := by
  obtain ⟨p, hp, rfl⟩ := List.mem_map.1 hr
  obtain ⟨b, -, rfl⟩ := List.mem_map.1 hp
  have hcontext := DocRecord.context_of_toRoute hroute
  rw [Block.toRecord, DocRecord.context_addTags] at hcontext
  obtain ⟨name, hname, heq⟩ := Option.map_eq_some_iff.1 hcontext
  rw [← heq, String.toList_ofList]
  exact b.isIdentifier_of_context? hname

/-- **What units can document.** A method is named like an item; a controller may have any name of
one line that is trimmed and not empty. -/
theorem documented_iff {controller method : String} :
    Documented controller method ↔
      (OneLine controller ∧ controller ≠ "") ∧ IsIdentifier method.toList := by
  constructor
  · rintro ⟨source, doc, hread, rfl, route, hroute, rfl⟩
    obtain ⟨m, hm, hmodule, hname, hne, hroutes⟩ := records_of_readUnit hread
    obtain ⟨r, hr, hok⟩ := hroutes route hroute
    exact ⟨⟨hname ▸ oneLine_moduleName hm hmodule, hne⟩, isIdentifier_name hr hok⟩
  · rintro ⟨hname, hmethod⟩
    let route : Route := ⟨method, "", .get, "/", [], ⟨"Object", ""⟩⟩
    have hroute : route.Fit :=
      { name := hmethod
        description := show FitDescription "" by decide
        path := show OneLine "/" ∧ "/" ≠ "" by decide
        params := nofun
        returns := show (Declaration.returns "Object" "").Fit by decide }
    have hdoc : ControllerDoc.Fit ⟨controller, "", [route]⟩ :=
      { name := hname
        description := show FitDescription "" by decide
        routes := fun r hr => List.mem_singleton.1 hr ▸ hroute }
    have hread := ControllerDoc.readUnit_of_ofRecords hdoc.extract_source hdoc.ofRecords_records
    exact ⟨_, _, congrArg Prod.fst hread, rfl, route, List.mem_singleton_self route, rfl⟩

theorem Documented.dot_not_mem {controller method : String} (h : Documented controller method) :
    '.' ∉ method.toList :=
  (documented_iff.1 h).2.not_mem (by decide)

theorem Documented.ne_globalKey {controller method : String} (h : Documented controller method) :
    controller ≠ MiddlewareIndex.globalKey :=
  (documented_iff.1 h).1.2

/-- The key of a route may be the name of a controller. -/
theorem Documented.routeKey {controller method : String} (h : Documented controller method)
    (other : String) (hother : IsIdentifier other.toList) :
    Documented (MiddlewareIndex.routeKey controller method) other := by
  obtain ⟨⟨⟨htrimmed, hnewline⟩, hne⟩, hmethod⟩ := documented_iff.1 h
  have hchars : (MiddlewareIndex.routeKey controller method).toList =
      controller.toList ++ '.' :: method.toList := by
    simp [MiddlewareIndex.routeKey]
  have hword : ∀ c ∈ method.toList, isBlank c = false := hmethod.isBlank
  refine documented_iff.2 ⟨⟨⟨?_, ?_⟩, ?_⟩, hother⟩
  · rw [hchars]
    refine trimmed_of_ends (fun c hc => ?_) fun c hc => ?_
    · rw [List.head?_append_of_ne_nil _ (toList_ne_nil hne)] at hc
      exact htrimmed.head hc
    · rw [List.getLast?_append_of_ne_nil _ (List.cons_ne_nil _ _)] at hc
      rcases List.mem_cons.1 (List.mem_of_getLast? hc) with rfl | hc
      · decide
      · exact hword c hc
  · rw [hchars]
    intro hmem
    rcases List.mem_append.1 hmem with hmem | hmem
    · exact hnewline hmem
    · rcases List.mem_cons.1 hmem with heq | hmem
      · exact absurd heq (by decide)
      · exact absurd (hword _ hmem) (by decide)
  · intro heq
    exact MiddlewareIndex.routeKey_ne_globalKey _ _ heq

namespace MiddlewareIndex

variable {controller method controller' method' : String}

/-! ## Keys -/

/-- Two routes with the same key are the same route. -/
theorem routeKey_inj (h : '.' ∉ method.toList) (h' : '.' ∉ method'.toList) :
    routeKey controller method = routeKey controller' method' ↔
      controller = controller' ∧ method = method' := by
  constructor
  · intro heq
    have hchars : controller.toList ++ '.' :: method.toList =
        controller'.toList ++ '.' :: method'.toList := by
      simpa [routeKey] using congrArg String.toList heq
    -- Read from its end, a key has its first dot before the method.
    have hends : method.toList.reverse ++ '.' :: controller.toList.reverse =
        method'.toList.reverse ++ '.' :: controller'.toList.reverse := by
      simpa using congrArg List.reverse hchars
    have hcut := congrArg (cutAt '.') hends
    rw [cutAt_append (List.mem_reverse.not.2 h), cutAt_append (List.mem_reverse.not.2 h')] at hcut
    obtain ⟨hmethod, hcontroller⟩ := Prod.mk.inj hcut
    exact ⟨String.toList_inj.1 (List.reverse_inj.1 (Option.some.inj hcontroller)),
      String.toList_inj.1 (List.reverse_inj.1 hmethod)⟩
  · rintro ⟨rfl, rfl⟩
    rfl

/-- A route looks under the key of another route only if that is the name of its controller. -/
theorem routeKey_mem_routeKeys_iff (h : Documented controller method)
    (h' : Documented controller' method') :
    routeKey controller method ∈ routeKeys controller' method' ↔
      (controller' = controller ∧ method' = method) ∨
        controller' = routeKey controller method := by
  simp only [routeKeys, List.mem_cons, List.not_mem_nil, or_false, routeKey_ne_globalKey,
    false_or, routeKey_inj h.dot_not_mem h'.dot_not_mem]
  constructor
  · rintro (hkey | ⟨rfl, rfl⟩)
    · exact .inr hkey.symm
    · exact .inl ⟨rfl, rfl⟩
  · rintro (⟨rfl, rfl⟩ | hkey)
    · exact .inr ⟨rfl, rfl⟩
    · exact .inl hkey.symm

/-- A route looks under the name of another controller only if that is its key. -/
theorem controller_mem_routeKeys_iff (h : Documented controller method) :
    controller ∈ routeKeys controller' method' ↔
      controller' = controller ∨ controller = routeKey controller' method' := by
  simp only [routeKeys, List.mem_cons, List.not_mem_nil, or_false, h.ne_globalKey, false_or,
    eq_comm]

/-! ## Registrations in a chain -/

/-- The registrations that the chain of a route is made of. -/
def sources (registrations : List (String × Handler)) (controller method : String) :
    List (String × Handler) :=
  (routeKeys controller method).flatMap fun key => registrations.filter fun r => r.1 = key

theorem chainFor_eq_map_sources (calls : List Call) (controller method : String) :
    (afterCalls calls).chainFor controller method =
      (sources (calls.flatMap Call.registrations) controller method).map (·.2) := by
  rw [chainFor_afterCalls, sources, List.map_flatMap]
  rfl

theorem mem_sources {registrations : List (String × Handler)} {r : String × Handler} :
    r ∈ sources registrations controller method ↔
      r ∈ registrations ∧ r.1 ∈ routeKeys controller method := by
  simp only [sources, List.mem_flatMap, List.mem_filter, decide_eq_true_eq]
  constructor
  · rintro ⟨key, hkey, hr, rfl⟩
    exact ⟨hr, hkey⟩
  · rintro ⟨hr, hkey⟩
    exact ⟨r.1, hkey, hr, rfl⟩

/-- Calls under a key that a route does not look under make no difference to it. -/
theorem chainFor_filter {key : String} (h : key ∉ routeKeys controller method)
    (calls : List Call) :
    (afterCalls (calls.filter fun c => c.key ≠ key)).chainFor controller method =
      (afterCalls calls).chainFor controller method := by
  rw [chainFor_afterCalls, chainFor_afterCalls]
  refine List.flatMap_congr fun key' hkey' => ?_
  have hne : key ≠ key' := fun heq => h (heq ▸ hkey')
  induction calls with
  | nil => rfl
  | cons c rest ih =>
    rw [List.flatMap_cons, tier_append, tier_registrations]
    by_cases hc : c.key = key
    · rw [List.filter_cons_of_neg (by simp [hc]), ih, if_neg (hc ▸ hne), List.nil_append]
    · rw [List.filter_cons_of_pos (by simp [hc]), List.flatMap_cons, tier_append,
        tier_registrations, ih]

/-! ## Main result -/

/-- **Isolation of routes.** Among the registrations that the chain of a route is made of, those
under the key of a route are its own, and those under the name of a controller are of its own
controller. The exceptions are a controller named like the key of a route, and a route whose key is
the name of a controller: what is registered for one of the two is run by the other. All other calls
under a key that is not the route's own make no difference to its chain. No name without a dot is
the key of a route, but for every route a controller may be documented that is named like its key. -/
theorem route_isolation (calls : List Call) (h : Documented controller method)
    (h' : Documented controller' method') :
    let registered := calls.flatMap Call.registrations
    let chain := (afterCalls calls).chainFor controller' method'
    let without := fun key => (afterCalls (calls.filter fun c => c.key ≠ key)).chainFor
      controller' method'
    chain = (sources registered controller' method').map (·.2) ∧
      (controller' ≠ routeKey controller method →
        (∀ r ∈ sources registered controller' method', r.1 = routeKey controller method →
          controller' = controller ∧ method' = method) ∧
        (¬(controller' = controller ∧ method' = method) →
          without (routeKey controller method) = chain)) ∧
      (controller ≠ routeKey controller' method' →
        (∀ r ∈ sources registered controller' method', r.1 = controller →
          controller' = controller) ∧
        (controller' ≠ controller → without controller = chain)) ∧
      (∀ name : String, '.' ∉ name.toList → ∀ c m, name ≠ routeKey c m) ∧
      Documented (routeKey controller method) method' ∧
        (∀ r ∈ registered, r.1 = routeKey controller method →
          r ∈ sources registered (routeKey controller method) method' ∧
          r ∈ sources registered controller method) := by
  intro registered chain without
  have hroute := routeKey_mem_routeKeys_iff h h'
  have hcontroller : controller ∈ routeKeys controller' method' ↔
      controller' = controller ∨ controller = routeKey controller' method' :=
    controller_mem_routeKeys_iff h
  refine ⟨chainFor_eq_map_sources calls controller' method', fun hother => ⟨?_, fun hne => ?_⟩,
    fun hother => ⟨?_, fun hne => ?_⟩, ?_, h.routeKey method' (documented_iff.1 h').2, ?_⟩
  · intro r hr hkey
    have hmem : routeKey controller method ∈ routeKeys controller' method' :=
      hkey ▸ (mem_sources.1 hr).2
    exact (hroute.1 hmem).resolve_right hother
  · exact chainFor_filter (fun hmem => (hroute.1 hmem).elim hne hother) calls
  · intro r hr hkey
    have hmem : controller ∈ routeKeys controller' method' := hkey ▸ (mem_sources.1 hr).2
    exact (hcontroller.1 hmem).resolve_right hother
  · exact chainFor_filter (fun hmem => (hcontroller.1 hmem).elim hne hother) calls
  · rintro name hdot c m rfl
    exact hdot (by simp [routeKey])
  · intro r hr hkey
    refine ⟨mem_sources.2 ⟨hr, ?_⟩, mem_sources.2 ⟨hr, ?_⟩⟩
    · rw [hkey]
      exact List.mem_cons_of_mem _ List.mem_cons_self
    · rw [hkey]
      exact List.mem_cons_of_mem _ (List.mem_cons_of_mem _ List.mem_cons_self)

/-- Of what is registered for `Users.create` and for `Admin`, the route `Users.list` runs nothing. -/
theorem isolation_of_list :
    let guard := Handler.stock "guard" (.answer (.bare .ok))
    let log := Handler.stock "log" .pass
    let calls : List Call := [.add "Users.create" guard, .add "Users" log, .add "Admin" guard]
    Documented "Users" "create" ∧ Documented "Users" "list" ∧ Documented "Admin" "show" ∧
      (afterCalls calls).chainFor "Users" "list" = (afterCalls [.add "Users" log,
        .add "Admin" guard]).chainFor "Users" "list" ∧
      (afterCalls calls).chainFor "Users" "list" = (afterCalls [.add "Users.create" guard,
        .add "Users" log]).chainFor "Users" "list" := by
  intro guard log calls
  have hcreate : Documented "Users" "create" := documented_iff.2 (by decide)
  have hlist : Documented "Users" "list" := documented_iff.2 (by decide)
  have hshow : Documented "Admin" "show" := documented_iff.2 (by decide)
  obtain ⟨-, hroute, -⟩ := route_isolation calls hcreate hlist
  obtain ⟨-, -, hcontroller, -⟩ := route_isolation calls hshow hlist
  exact ⟨hcreate, hlist, hshow, ((hroute (by decide)).2 (by decide)).symm,
    ((hcontroller (by decide)).2 (by decide)).symm⟩

/-- A controller `Users.create` can be documented as well as the method `create` of `Users`. What is
registered for the route is then run by all routes of that controller, and what is registered for
the controller by the route. -/
theorem shared_key_of_create :
    let guard := Handler.stock "guard" (.answer (.bare .ok))
    let calls : List Call := [.add "Users.create" guard]
    Documented "Users" "create" ∧ Documented "Users.create" "list" ∧
      routeKey "Users" "create" = "Users.create" ∧
      guard ∈ (afterCalls calls).chainFor "Users.create" "list" ∧
      guard ∈ (afterCalls calls).chainFor "Users" "create" ∧
      ¬("Users.create" = "Users" ∧ "list" = "create") ∧ "Users" ≠ "Users.create" := by
  intro guard calls
  have hcreate : Documented "Users" "create" := documented_iff.2 (by decide)
  have hlist : Documented "Users.create" "list" := documented_iff.2 (by decide)
  have hother : (afterCalls calls).chainFor "Users.create" "list" = [guard] := by
    rw [chainFor_afterCalls]
    rfl
  have hown : (afterCalls calls).chainFor "Users" "create" = [guard] := by
    rw [chainFor_afterCalls]
    rfl
  refine ⟨hcreate, hlist, rfl, ?_, ?_, by decide, by decide⟩
  · rw [hother]
    exact List.mem_singleton_self guard
  · rw [hown]
    exact List.mem_singleton_self guard

end MiddlewareIndex

end DocRoutes
