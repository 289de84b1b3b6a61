import DocRoutes.Doc.Unit
import DocRoutes.Proofs.Splitting

/-!
# The records that become routes

The records of a unit fall into three parts: the first one with a module tag, which names the
controller, the ones that declare a route, and the ones that are skipped.

**Conditions** (`DocRecord.DeclaresRoute`, `DocRecord.FirstUnmet`). A record declares a route if it
meets five conditions: it has a route tag and a returns tag, both are well-formed, and there is an
item with a name. Of the tags of one kind only the first counts, save for parameters. A record is
skipped for the first condition in this order that it does not meet.

**Sorting** (`Sorted`). All other records are sorted one by one, each without regard to the others,
so the routes and the skips both come in the order of the records.

**Theorem (`ControllerDoc.ofRecords_sorted`).** The controller has the routes of all records that
declare one, except for the record that names it. So neither the place of this record nor records
that declare no route make a difference to the controller.
-/

namespace DocRoutes

open Text

/-! ## Conditions on a record -/

namespace DocRecord

/-- All conditions are met, and this is the route. -/
def DeclaresRoute (r : DocRecord) (route : Route) : Prop :=
  ∃ routeTag returnsTag,
    r.firstTag? Tag.routeKind = some routeTag ∧ r.firstTag? Tag.returnsKind = some returnsTag ∧
    parseRoute routeTag.payload = some (route.verb, route.path) ∧
    parseReturns returnsTag.payload = some route.returns ∧ r.context = some route.name ∧
    route.description = r.description ∧
    route.params = (r.tagsOf Tag.paramKind).map fun tag =>
      { classify tag.rawName route.verb route.path with
        description := tag.description, types := tag.types }

/-- The first condition that is not met, in the order of the cases. -/
inductive FirstUnmet (r : DocRecord) : Rejection → Prop
  | missingRoute : r.firstTag? Tag.routeKind = none → FirstUnmet r .missingRoute
  | missingReturns {routeTag : Tag} : r.firstTag? Tag.routeKind = some routeTag →
      r.firstTag? Tag.returnsKind = none → FirstUnmet r .missingReturns
  | malformedRoute {routeTag returnsTag : Tag} : r.firstTag? Tag.routeKind = some routeTag →
      r.firstTag? Tag.returnsKind = some returnsTag → parseRoute routeTag.payload = none →
      FirstUnmet r (.malformedRoute routeTag.payload)
  | malformedReturns {routeTag returnsTag : Tag} {line : Verb × String} :
      r.firstTag? Tag.routeKind = some routeTag → r.firstTag? Tag.returnsKind = some returnsTag →
      parseRoute routeTag.payload = some line → parseReturns returnsTag.payload = none →
      FirstUnmet r (.malformedReturns returnsTag.payload)
  | missingContext {routeTag returnsTag : Tag} {line : Verb × String} {returns : Returns} :
      r.firstTag? Tag.routeKind = some routeTag → r.firstTag? Tag.returnsKind = some returnsTag →
      parseRoute routeTag.payload = some line → parseReturns returnsTag.payload = some returns →
      r.context = none → FirstUnmet r .missingContext

variable {r : DocRecord}

theorem DeclaresRoute.toRoute {route : Route} (h : r.DeclaresRoute route) :
    r.toRoute = .ok route := by
  obtain ⟨name, description, verb, path, params, returns⟩ := route
  obtain ⟨routeTag, returnsTag, hroute, hreturns, hverb, htype, hname, hdescription, hparams⟩ := h
  dsimp only at hdescription hparams
  subst hdescription hparams
  simp only [DocRecord.toRoute, hroute, hreturns, hverb, htype, hname]
  rfl

theorem FirstUnmet.toRoute {reason : Rejection} (h : r.FirstUnmet reason) :
    r.toRoute = .error reason := by
  cases h with
  | missingRoute hroute => simp only [DocRecord.toRoute, hroute]; rfl
  | missingReturns hroute hreturns => simp only [DocRecord.toRoute, hroute, hreturns]; rfl
  | malformedRoute hroute hreturns hline =>
    simp only [DocRecord.toRoute, hroute, hreturns, hline]; rfl
  | malformedReturns hroute hreturns hline htype =>
    simp only [DocRecord.toRoute, hroute, hreturns, hline, htype]; rfl
  | missingContext hroute hreturns hline htype hname =>
    simp only [DocRecord.toRoute, hroute, hreturns, hline, htype, hname]; rfl

/-- A record meets all conditions, or there is a first one that it does not meet. -/
theorem declaresRoute_or_firstUnmet (r : DocRecord) :
    (∃ route, r.DeclaresRoute route) ∨ ∃ reason, r.FirstUnmet reason := by
  cases hroute : r.firstTag? Tag.routeKind with
  | none => exact .inr ⟨_, .missingRoute hroute⟩
  | some routeTag =>
  cases hreturns : r.firstTag? Tag.returnsKind with
  | none => exact .inr ⟨_, .missingReturns hroute hreturns⟩
  | some returnsTag =>
  cases hline : parseRoute routeTag.payload with
  | none => exact .inr ⟨_, .malformedRoute hroute hreturns hline⟩
  | some line =>
  cases htype : parseReturns returnsTag.payload with
  | none => exact .inr ⟨_, .malformedReturns hroute hreturns hline htype⟩
  | some returns =>
  cases hname : r.context with
  | none => exact .inr ⟨_, .missingContext hroute hreturns hline htype hname⟩
  | some name =>
    refine .inl ⟨⟨name, r.description, line.1, line.2,
      (r.tagsOf Tag.paramKind).map (·.toParam line.1 line.2), returns⟩, ?_⟩
    exact ⟨routeTag, returnsTag, hroute, hreturns, hline, htype, hname, rfl, rfl⟩

theorem toRoute_eq_ok_iff {route : Route} : r.toRoute = .ok route ↔ r.DeclaresRoute route := by
  refine ⟨fun h => ?_, DeclaresRoute.toRoute⟩
  rcases r.declaresRoute_or_firstUnmet with ⟨own, hown⟩ | ⟨reason, hreason⟩
  · rw [hown.toRoute] at h
    cases h
    exact hown
  · rw [hreason.toRoute] at h
    cases h

theorem toRoute_eq_error_iff {reason : Rejection} :
    r.toRoute = .error reason ↔ r.FirstUnmet reason := by
  refine ⟨fun h => ?_, FirstUnmet.toRoute⟩
  rcases r.declaresRoute_or_firstUnmet with ⟨own, hown⟩ | ⟨own, hown⟩
  · rw [hown.toRoute] at h
    cases h
  · rw [hown.toRoute] at h
    cases h
    exact hown

theorem context_of_toRoute {route : Route} (h : r.toRoute = .ok route) :
    r.context = some route.name := by
  obtain ⟨_, _, -, -, -, -, hname, -⟩ := toRoute_eq_ok_iff.1 h
  exact hname

end DocRecord

namespace Rejection

/-- The place of a condition among the five. -/
def place : Rejection → Nat
  | .missingRoute => 0
  | .missingReturns => 1
  | .malformedRoute _ => 2
  | .malformedReturns _ => 3
  | .missingContext => 4

/-- A message tells which condition is not met. -/
theorem place_eq_of_message_eq {reason other : Rejection} (h : reason.message = other.message) :
    reason.place = other.place := by
  -- The payloads come later than this, so only fixed texts are compared.
  have hopening : reason.message.toList.take 16 = other.message.toList.take 16 := by rw [h]
  cases reason <;> cases other <;>
    simp [message, place, Tag.routeKind, Tag.returnsKind] at hopening ⊢

end Rejection

/-! ## Sorting records -/

/-- Records sorted into routes and skips. -/
inductive Sorted : List DocRecord → List Route → List (DocRecord × Rejection) → Prop
  | nil : Sorted [] [] []
  | route {r : DocRecord} {route : Route} {rest : List DocRecord} {routes : List Route}
      {skips : List (DocRecord × Rejection)} :
      r.DeclaresRoute route → Sorted rest routes skips → Sorted (r :: rest) (route :: routes) skips
  | skip {r : DocRecord} {reason : Rejection} {rest : List DocRecord} {routes : List Route}
      {skips : List (DocRecord × Rejection)} :
      r.FirstUnmet reason → Sorted rest routes skips →
      Sorted (r :: rest) routes ((r, reason) :: skips)

/-- What is reported of the skipped records of a controller. -/
def skipEvents (controller : String) (skips : List (DocRecord × Rejection)) : List UnitEvent :=
  skips.map fun (r, reason) => .skipped controller r.context reason

theorem exists_sorted (records : List DocRecord) : ∃ routes skips, Sorted records routes skips := by
  induction records with
  | nil => exact ⟨[], [], .nil⟩
  | cons r rest ih =>
    obtain ⟨routes, skips, hrest⟩ := ih
    rcases r.declaresRoute_or_firstUnmet with ⟨route, hr⟩ | ⟨reason, hr⟩
    · exact ⟨route :: routes, skips, .route hr hrest⟩
    · exact ⟨routes, (r, reason) :: skips, .skip hr hrest⟩

section Sorted

variable {records : List DocRecord} {routes : List Route} {skips : List (DocRecord × Rejection)}

theorem Sorted.interpretAll_eq (h : Sorted records routes skips) (controller : String) :
    interpretAll controller records = (routes, skipEvents controller skips) := by
  induction h with
  | nil => rfl
  | route hr _ ih => rw [interpretAll, ih, hr.toRoute]
  | skip hr _ ih => rw [interpretAll, ih, hr.toRoute]; rfl

theorem Sorted.exists_record {route : Route} (h : Sorted records routes skips)
    (hroute : route ∈ routes) : ∃ r ∈ records, r.DeclaresRoute route := by
  induction h with
  | nil => cases hroute
  | @route r _ _ _ _ hr _ ih =>
    rcases List.mem_cons.1 hroute with rfl | hroute
    · exact ⟨r, List.mem_cons_self, hr⟩
    · obtain ⟨r', hr', hdeclares⟩ := ih hroute
      exact ⟨r', List.mem_cons_of_mem _ hr', hdeclares⟩
  | skip _ _ ih =>
    obtain ⟨r', hr', hdeclares⟩ := ih hroute
    exact ⟨r', List.mem_cons_of_mem _ hr', hdeclares⟩

/-- No record is lost. -/
theorem Sorted.length_add_length (h : Sorted records routes skips) :
    routes.length + skips.length = records.length := by
  induction h with
  | nil => rfl
  | route _ _ ih => rw [List.length_cons, List.length_cons]; omega
  | skip _ _ ih => rw [List.length_cons, List.length_cons]; omega

end Sorted

/-- A record without a route adds a skip at its place and leaves the routes alone. -/
theorem Sorted.insert {before after : List DocRecord} {r : DocRecord} {reason : Rejection}
    (h : Sorted (before ++ after) routes skips) (hr : r.FirstUnmet reason) :
    ∃ left right, skips = left ++ right ∧
      Sorted (before ++ r :: after) routes (left ++ (r, reason) :: right) := by
  induction before generalizing routes skips with
  | nil => exact ⟨[], skips, rfl, .skip hr h⟩
  | cons b before ih =>
    cases h with
    | route hb hrest =>
      obtain ⟨left, right, rfl, hinsert⟩ := ih hrest
      exact ⟨left, right, rfl, .route hb hinsert⟩
    | skip hb hrest =>
      obtain ⟨left, right, rfl, hinsert⟩ := ih hrest
      exact ⟨_ :: left, right, rfl, .skip hb hinsert⟩

/-! ## The record that names the controller -/

/-- The first record with a module tag, the first such tag, and the other records. -/
structure Headed (records : List DocRecord) (m : DocRecord) (tag : Tag)
    (others : List DocRecord) : Prop where
  tag : m.firstTag? Tag.moduleKind = some tag
  first : ∃ before after, records = before ++ m :: after ∧ others = before ++ after ∧
    ∀ r ∈ before, r.isModule = false

theorem splitModule_append_cons {before after : List DocRecord} {m : DocRecord}
    (hbefore : ∀ r ∈ before, r.isModule = false) (hm : m.isModule = true) :
    splitModule (before ++ m :: after) = some (m, before ++ after) := by
  induction before with
  | nil => rw [List.nil_append, splitModule, if_pos hm]; rfl
  | cons r before ih =>
    obtain ⟨hr, hbefore⟩ := List.forall_mem_cons.1 hbefore
    rw [List.cons_append, splitModule, if_neg (by simp [hr]), ih hbefore]
    rfl

theorem splitModule_eq_none_iff {records : List DocRecord} :
    splitModule records = none ↔ ∀ r ∈ records, r.isModule = false := by
  induction records with
  | nil => simp [splitModule]
  | cons r rest ih => cases hr : r.isModule <;> simp [splitModule, hr, ih]

section Headed

variable {records others : List DocRecord} {m : DocRecord} {tag : Tag}

theorem Headed.isModule (h : Headed records m tag others) : m.isModule = true := by
  rw [DocRecord.isModule, h.tag]
  rfl

theorem Headed.splitModule (h : Headed records m tag others) :
    splitModule records = some (m, others) := by
  obtain ⟨before, after, rfl, rfl, hbefore⟩ := h.first
  exact splitModule_append_cons hbefore h.isModule

theorem Headed.mem (h : Headed records m tag others) : m ∈ records := by
  obtain ⟨before, after, rfl, -, -⟩ := h.first
  exact List.mem_append_right before List.mem_cons_self

theorem Headed.subset (h : Headed records m tag others) : others ⊆ records := by
  obtain ⟨before, after, rfl, rfl, -⟩ := h.first
  simp

theorem Headed.moduleName (h : Headed records m tag others) :
    m.moduleName = trimmed tag.payload := by
  rw [DocRecord.moduleName, h.tag]

theorem Headed.head (htag : m.firstTag? Tag.moduleKind = some tag) :
    Headed (m :: others) m tag others :=
  ⟨htag, [], others, rfl, rfl, nofun⟩

theorem Headed.cons {r : DocRecord} (h : Headed records m tag others) (hr : r.isModule = false) :
    Headed (r :: records) m tag (r :: others) := by
  obtain ⟨htag, before, after, rfl, rfl, hbefore⟩ := h
  exact ⟨htag, r :: before, after, rfl, rfl, List.forall_mem_cons.2 ⟨hr, hbefore⟩⟩

/-- The first of the records is the module record, or it comes before it. -/
theorem Headed.cons_cases {r : DocRecord} (h : Headed (r :: records) m tag others) :
    (r = m ∧ others = records) ∨
      r.isModule = false ∧ ∃ rest, others = r :: rest ∧ Headed records m tag rest := by
  obtain ⟨htag, before, after, hrecords, rfl, hbefore⟩ := h
  cases before with
  | nil =>
    obtain ⟨rfl, rfl⟩ := List.cons.inj hrecords
    exact .inl ⟨rfl, rfl⟩
  | cons b before =>
    obtain ⟨rfl, rfl⟩ := List.cons.inj hrecords
    obtain ⟨hr, hbefore⟩ := List.forall_mem_cons.1 hbefore
    exact .inr ⟨hr, before ++ after, rfl, htag, before, after, rfl, rfl, hbefore⟩

/-- All records but one are among the others. -/
theorem Headed.length_add_one (h : Headed records m tag others) :
    others.length + 1 = records.length := by
  obtain ⟨before, after, rfl, rfl, -⟩ := h.first
  rw [List.length_append, List.length_append, List.length_cons, Nat.add_assoc]

theorem exists_headed (h : ∃ r ∈ records, r.isModule = true) :
    ∃ m tag others, Headed records m tag others := by
  induction records with
  | nil => simp at h
  | cons r rest ih =>
    cases hr : r.isModule with
    | true =>
      obtain ⟨tag, htag⟩ := Option.isSome_iff_exists.1 hr
      exact ⟨r, tag, rest, .head htag⟩
    | false =>
      obtain ⟨m, tag, others, hrest⟩ := ih (by simpa [hr] using h)
      exact ⟨m, tag, r :: others, hrest.cons hr⟩

/-- A record that comes in without being the first with a module tag is one of the others. -/
theorem Headed.insert {before after : List DocRecord} {r : DocRecord}
    (h : Headed (before ++ after) m tag others)
    (hr : r.isModule = false ∨ ∃ b ∈ before, b.isModule = true) :
    ∃ left right, others = left ++ right ∧
      Headed (before ++ r :: after) m tag (left ++ r :: right) := by
  induction before generalizing others with
  | nil =>
    have hr : r.isModule = false := by simpa using hr
    exact ⟨[], others, rfl, h.cons hr⟩
  | cons b before ih =>
    rcases h.cons_cases with ⟨rfl, rfl⟩ | ⟨hb, others, rfl, hrest⟩
    · exact ⟨before, after, rfl, .head h.tag⟩
    · have hr : r.isModule = false ∨ ∃ b ∈ before, b.isModule = true := by simpa [hb] using hr
      obtain ⟨left, right, rfl, hinsert⟩ := ih hrest hr
      exact ⟨b :: left, right, rfl, hinsert.cons hb⟩

end Headed

/-- A text of blanks. -/
def IsBlankText (s : String) : Prop := ∀ c ∈ s.toList, isBlank c = true

theorem isEmpty_trimmed_iff {s : String} : (trimmed s).isEmpty = true ↔ IsBlankText s := by
  rw [String.isEmpty_iff, trimmed, ← String.toList_eq_nil_iff, String.toList_ofList]
  constructor
  · intro h
    obtain ⟨a, b, hs, ha, hb⟩ := exists_trim_append s.toList
    rw [h, List.nil_append] at hs
    intro c hc
    rw [hs] at hc
    exact (List.mem_append.1 hc).elim (ha c) (hb c)
  · intro h
    have hstart : trimStart s.toList = [] := List.dropWhile_eq_nil_iff.2 h
    rw [trim, hstart]
    rfl

/-! ## Controllers -/

namespace ControllerDoc

section Headed

variable {records others : List DocRecord} {m : DocRecord} {tag : Tag}

theorem ofRecords_of_blank (h : Headed records m tag others) (hblank : IsBlankText tag.payload) :
    ofRecords records = .error .emptyModuleName := by
  rw [ofRecords, h.splitModule]
  simp only [h.moduleName]
  rw [if_pos (isEmpty_trimmed_iff.2 hblank)]

theorem ofRecords_of_sorted (h : Headed records m tag others) (hblank : ¬IsBlankText tag.payload)
    {routes : List Route} {skips : List (DocRecord × Rejection)}
    (hsorted : Sorted others routes skips) :
    ofRecords records = .ok (⟨trimmed tag.payload, m.description, routes⟩,
      skipEvents (trimmed tag.payload) skips) := by
  rw [ofRecords, h.splitModule]
  simp only [h.moduleName, hsorted.interpretAll_eq]
  rw [if_neg (mt isEmpty_trimmed_iff.1 hblank)]

end Headed

theorem ofRecords_of_no_module {records : List DocRecord} (h : ∀ r ∈ records, r.isModule = false) :
    ofRecords records = .error .missingModule := by
  rw [ofRecords, splitModule_eq_none_iff.2 h]

/-- Three things can come of records. -/
theorem ofRecords_cases (records : List DocRecord) :
    ((∀ r ∈ records, r.isModule = false) ∧ ofRecords records = .error .missingModule) ∨
      ∃ m tag others, Headed records m tag others ∧
        (IsBlankText tag.payload ∧ ofRecords records = .error .emptyModuleName ∨
          ¬IsBlankText tag.payload ∧ ∃ routes skips, Sorted others routes skips ∧
            ofRecords records = .ok (⟨trimmed tag.payload, m.description, routes⟩,
              skipEvents (trimmed tag.payload) skips)) := by
  by_cases hmodule : ∃ r ∈ records, r.isModule = true
  · obtain ⟨m, tag, others, h⟩ := exists_headed hmodule
    refine .inr ⟨m, tag, others, h, ?_⟩
    by_cases hblank : IsBlankText tag.payload
    · exact .inl ⟨hblank, ofRecords_of_blank h hblank⟩
    · obtain ⟨routes, skips, hsorted⟩ := exists_sorted others
      exact .inr ⟨hblank, routes, skips, hsorted, ofRecords_of_sorted h hblank hsorted⟩
  · have hnone : ∀ r ∈ records, r.isModule = false := by simpa using hmodule
    exact .inl ⟨hnone, ofRecords_of_no_module hnone⟩

theorem ofRecords_eq_missingModule_iff {records : List DocRecord} :
    ofRecords records = .error .missingModule ↔ ∀ r ∈ records, r.isModule = false := by
  refine ⟨fun h => ?_, ofRecords_of_no_module⟩
  rcases ofRecords_cases records with
    ⟨hnone, -⟩ | ⟨_, _, _, -, ⟨-, hresult⟩ | ⟨-, _, _, -, hresult⟩⟩
  · exact hnone
  all_goals simp [h] at hresult

theorem ofRecords_eq_emptyModuleName_iff {records : List DocRecord} :
    ofRecords records = .error .emptyModuleName ↔
      ∃ m tag others, Headed records m tag others ∧ IsBlankText tag.payload := by
  constructor
  · intro h
    rcases ofRecords_cases records with
      ⟨-, hresult⟩ | ⟨m, tag, others, hheaded, ⟨hblank, -⟩ | ⟨-, _, _, -, hresult⟩⟩
    · simp [h] at hresult
    · exact ⟨m, tag, others, hheaded, hblank⟩
    · simp [h] at hresult
  · rintro ⟨m, tag, others, hheaded, hblank⟩
    exact ofRecords_of_blank hheaded hblank

/-- Every record is the module record, a route or a skip. -/
theorem length_of_ofRecords {records : List DocRecord} {doc : ControllerDoc}
    {events : List UnitEvent} (h : ofRecords records = .ok (doc, events)) :
    doc.routes.length + events.length + 1 = records.length := by
  rcases ofRecords_cases records with
    ⟨-, hresult⟩ | ⟨_, _, _, hheaded, ⟨-, hresult⟩ | ⟨-, routes, skips, hsorted, hresult⟩⟩ <;>
    rw [h] at hresult <;> cases hresult
  rw [skipEvents, List.length_map, hsorted.length_add_length, hheaded.length_add_one]

/-- A record that declares no route can come in or go without a change to the controller. -/
theorem map_fst_ofRecords_insert {before after : List DocRecord} {r : DocRecord}
    (hroute : ∀ route, ¬r.DeclaresRoute route)
    (hmodule : r.isModule = false ∨ ∃ b ∈ before, b.isModule = true) :
    (ofRecords (before ++ r :: after)).map Prod.fst =
      (ofRecords (before ++ after)).map Prod.fst := by
  rcases ofRecords_cases (before ++ after) with
    ⟨hnone, hresult⟩ | ⟨m, tag, others, h, hresult⟩
  · have hr : r.isModule = false := by
      rcases hmodule with hr | ⟨b, hb, hmodule⟩
      · exact hr
      · rw [hnone b (List.mem_append_left after hb)] at hmodule
        cases hmodule
    have hinsert : ∀ b ∈ before ++ r :: after, b.isModule = false := by
      simpa [or_imp, forall_and, hr] using hnone
    rw [hresult, ofRecords_of_no_module hinsert]
  · obtain ⟨left, right, rfl, hinsert⟩ := h.insert hmodule
    rcases hresult with ⟨hblank, hresult⟩ | ⟨hblank, routes, skips, hsorted, hresult⟩
    · rw [hresult, ofRecords_of_blank hinsert hblank]
    · obtain ⟨reason, hreason⟩ : ∃ reason, r.FirstUnmet reason :=
        r.declaresRoute_or_firstUnmet.resolve_left fun ⟨route, hr⟩ => hroute route hr
      obtain ⟨_, _, -, hsorted⟩ := hsorted.insert hreason
      rw [hresult, ofRecords_of_sorted hinsert hblank hsorted]
      rfl

/-! ## Main result -/

/-- **The records that become routes.** Records without a module tag and a blank in the first one
are the two failures. All others give a controller with the routes and the skips of the records
other than the module record. Where this record stands makes no difference, nor do records without
a route. -/
theorem ofRecords_sorted (records : List DocRecord) :
    (ofRecords records = .error .missingModule ↔ ∀ r ∈ records, r.isModule = false) ∧
      (ofRecords records = .error .emptyModuleName ↔
        ∃ m tag others, Headed records m tag others ∧ IsBlankText tag.payload) ∧
      ((∃ r ∈ records, r.isModule = true) → ∃ m tag others routes skips,
        Headed records m tag others ∧ Sorted others routes skips) ∧
      (∀ m tag others routes skips, Headed records m tag others → ¬IsBlankText tag.payload →
        Sorted others routes skips →
        ofRecords records = .ok (⟨trimmed tag.payload, m.description, routes⟩,
          skipEvents (trimmed tag.payload) skips)) ∧
      (∀ doc events, ofRecords records = .ok (doc, events) →
        doc.routes.length + events.length + 1 = records.length) ∧
      (∀ moved m tag others, Headed records m tag others → Headed moved m tag others →
        ofRecords moved = ofRecords records) ∧
      (∀ before r after, records = before ++ after → (∀ route, ¬r.DeclaresRoute route) →
        (r.isModule = false ∨ ∃ b ∈ before, b.isModule = true) →
        (ofRecords (before ++ r :: after)).map Prod.fst = (ofRecords records).map Prod.fst) ∧
      ∀ reason other : Rejection, reason.message = other.message → reason.place = other.place := by
  refine ⟨ofRecords_eq_missingModule_iff, ofRecords_eq_emptyModuleName_iff, ?_, ?_,
    fun _ _ => length_of_ofRecords, ?_, ?_, fun _ _ => Rejection.place_eq_of_message_eq⟩
  · intro hmodule
    obtain ⟨m, tag, others, hheaded⟩ := exists_headed hmodule
    obtain ⟨routes, skips, hsorted⟩ := exists_sorted others
    exact ⟨m, tag, others, routes, skips, hheaded, hsorted⟩
  · intro m tag others routes skips hheaded hblank hsorted
    exact ofRecords_of_sorted hheaded hblank hsorted
  · intro moved m tag others hrecords hmoved
    rw [ofRecords, ofRecords, hrecords.splitModule, hmoved.splitModule]
  · rintro before r after rfl hroute hmodule
    exact map_fst_ofRecords_insert hroute hmodule

/-- The first module record names the controller, also where a route comes before it. The other
one has a second route that is malformed, and a helper has none. -/
theorem controller_of_four_records :
    let record (context : Option String) (tags : List (String × String)) : DocRecord :=
      ({ description := "", context } : DocRecord).addTags
        (tags.map fun tag => ⟨tag.1, tag.2, none, none, []⟩)
    let users := record none [(Tag.moduleKind, " Users "), (Tag.moduleKind, " ")]
    let listing := record (some "list")
      [(Tag.routeKind, "get /users"), (Tag.returnsKind, "{Array} all"), (Tag.paramKind, "limit")]
    let accounts := record none [(Tag.moduleKind, "Accounts"), (Tag.routeKind, "put /accounts"),
      (Tag.returnsKind, "none"), (Tag.routeKind, "get /accounts")]
    let helper := record (some "helper") []
    let route : Route :=
      ⟨"list", "", .get, "/users", [⟨"limit", .query, false, none, []⟩], ⟨"Array", "all"⟩⟩
    let doc : ControllerDoc := ⟨"Users", "", [route]⟩
    let skipped : UnitEvent := .skipped "Users" none (.malformedRoute "put /accounts")
    (∃ r ∈ [listing, users, accounts], r.isModule = true) ∧
      ofRecords [listing, users, accounts] = .ok (doc, [skipped]) ∧
      ofRecords [users, listing, accounts] = .ok (doc, [skipped]) ∧
      (ofRecords [listing, helper, users, accounts]).map Prod.fst = .ok doc := by
  intro record users listing accounts helper route doc skipped
  have hheaded : Headed [listing, users, accounts] users ⟨Tag.moduleKind, " Users ", none, none, []⟩
      [listing, accounts] := ⟨rfl, [listing], [accounts], rfl, rfl, by decide⟩
  have hput : accounts.firstTag? Tag.routeKind =
      some ⟨Tag.routeKind, "put /accounts", none, none, []⟩ := rfl
  have hnone : accounts.firstTag? Tag.returnsKind =
      some ⟨Tag.returnsKind, "none", none, none, []⟩ := rfl
  have hlimit : (listing.tagsOf Tag.paramKind).map (·.toParam .get "/users") =
      [⟨"limit", .query, false, none, []⟩] := by decide
  have hsorted : Sorted [listing, accounts] [route] [(accounts, .malformedRoute "put /accounts")] :=
    .route ⟨_, _, rfl, rfl, rfl, rfl, rfl, rfl, hlimit.symm⟩
      (.skip (.malformedRoute hput hnone rfl) .nil)
  have hhelper (route : Route) : ¬helper.DeclaresRoute route := by
    rintro ⟨_, _, hroute, -⟩
    cases hroute
  obtain ⟨-, -, -, hresult, -, hmoved, hinsert, -⟩ := ofRecords_sorted [listing, users, accounts]
  have hname : ¬IsBlankText " Users " := by
    intro h
    cases h 'U' (by decide)
  have hdoc := hresult _ _ _ _ _ hheaded hname hsorted
  refine ⟨⟨users, by simp, rfl⟩, hdoc, ?_, ?_⟩
  · rw [hmoved [users, listing, accounts] _ _ _ hheaded
      ⟨rfl, [], [listing, accounts], rfl, rfl, List.forall_mem_nil _⟩]
    exact hdoc
  · have hboth := hinsert [listing] helper [users, accounts] rfl hhelper (.inl rfl)
    rw [hdoc] at hboth
    exact hboth

end ControllerDoc

end DocRoutes
