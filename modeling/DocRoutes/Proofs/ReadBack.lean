import DocRoutes.Proofs.Runs
import DocRoutes.Proofs.Declarations
import DocRoutes.Proofs.Captures
import DocRoutes.Proofs.RoutableRecords

/-!
# Controllers as source texts

A controller is laid out as a source text: a comment with its description and its name, and for
each route a comment with the description and the declarations of the route and then the item that
the route calls. Reading the text gives the controller back.

**The layout** (`ControllerDoc.source`). A blank line follows the comment of the controller and
each item.

**What fits** (`ControllerDoc.Fit`). Line feeds stand in the descriptions of the controller and of
its routes only. All other texts are trimmed where the layout has no bounds for them. The source of
a parameter is what its name and the path of its route say.

**Stages.** The lines of the text are the lines of the layout (`lines_source`), the comments among
them are those of the controller and of its routes (`records_lines`), the record of a route declares
the route (`toRoute_record`), and all records document the controller (`ofRecords_records`).

**Theorem (`readUnit_source`).** The text of a controller that fits is read as this controller, and
there is nothing to report.
-/

namespace DocRoutes

open Text

/-! ## The layout -/

/-- The name of a parameter with its marks. -/
def Param.marked (p : Param) : List Char :=
  if p.source = .local then '_' :: p.name.toList
  else if p.optional then '[' :: (p.name.toList ++ [']'])
  else p.name.toList

def Param.declaration (p : Param) : Declaration := .param p.types p.marked p.description

def Route.declarations (r : Route) : List Declaration :=
  .route r.verb r.path ::
    (r.params.map Param.declaration ++ [.returns r.returns.type r.returns.description])

def Marker.text : Marker → List Char
  | .inner => "//!".toList
  | .outer => "///".toList

/-- A line of documentation. -/
def docLine (marker : Marker) (text : List Char) : List Char := marker.text ++ ' ' :: text

/-- The item that a route calls. -/
def Route.itemLine (r : Route) : List Char := "pub fn ".toList ++ (r.name.toList ++ "() {}".toList)

def Route.lines (r : Route) : List (List Char) :=
  (commentTexts r.description r.declarations).map (docLine .outer) ++ [r.itemLine, []]

def ControllerDoc.lines (c : ControllerDoc) : List (List Char) :=
  (commentTexts c.description [.controller c.name]).map (docLine .inner) ++
    [] :: c.routes.flatMap Route.lines

/-- The source text of a controller. -/
def ControllerDoc.source (c : ControllerDoc) : String := .ofList (unlines c.lines)

/-! ## What fits -/

/-- Where a parameter without the local mark stands: in the path if the path mentions it. -/
def ownSource (verb : Verb) (path name : List Char) : Source :=
  if Mentions path name then .path
  else match verb with
    | .get => .query
    | .post => .body

/-- A parameter whose declaration declares it. -/
structure Param.Fit (p : Param) (verb : Verb) (path : String) : Prop where
  types : ∀ type ∈ p.types, Declaration.FitType type
  description : ∀ d ∈ p.description, OneLine d ∧ d ≠ ""
  marked : p.source = .local ∨ p.optional = true → IsWord p.name.toList
  required : p.source = .local → p.optional = false
  /-- A name without marks is not read as one with marks. -/
  plain : p.source ≠ .local → p.optional = false → Declaration.FitName p.name.toList ∧
    localName? p.name.toList = none ∧ bracketedName? p.name.toList = none
  source : p.source ≠ .local → p.source = ownSource verb path.toList p.name.toList

instance (p : Param) (verb : Verb) (path : String) : Decidable (p.Fit verb path) :=
  decidable_of_iff ((∀ type ∈ p.types, Declaration.FitType type) ∧
      (∀ d ∈ p.description, OneLine d ∧ d ≠ "") ∧
      (p.source = .local ∨ p.optional = true → IsWord p.name.toList) ∧
      (p.source = .local → p.optional = false) ∧
      (p.source ≠ .local → p.optional = false → Declaration.FitName p.name.toList ∧
        localName? p.name.toList = none ∧ bracketedName? p.name.toList = none) ∧
      (p.source ≠ .local → p.source = ownSource verb path.toList p.name.toList))
    ⟨fun ⟨types, description, marked, required, plain, source⟩ =>
      { types, description, marked, required, plain, source },
    fun h => ⟨h.types, h.description, h.marked, h.required, h.plain, h.source⟩⟩

/-- A name of an item: an ASCII letter or an underscore, then word characters. -/
def IsIdentifier : List Char → Prop
  | [] => False
  | c :: rest => (c.isAlpha || c = '_') = true ∧ ∀ d ∈ rest, isWordChar d = true

instance : (s : List Char) → Decidable (IsIdentifier s)
  | [] => .isFalse id
  | c :: rest =>
    decidable_of_iff ((c.isAlpha || c = '_') = true ∧ rest.all isWordChar = true)
      (and_congr_right fun _ => List.all_eq_true)

theorem IsIdentifier.exists_cons {s : List Char} (h : IsIdentifier s) :
    ∃ c rest, s = c :: rest ∧ (c.isAlpha || c = '_') = true ∧ ∀ d ∈ rest, isWordChar d = true := by
  cases s with
  | nil => exact h.elim
  | cons c rest => exact ⟨c, rest, rfl, h.1, h.2⟩

structure Route.Fit (r : Route) : Prop where
  name : IsIdentifier r.name.toList
  description : FitDescription r.description
  path : OneLine r.path ∧ r.path ≠ ""
  params : ∀ p ∈ r.params, p.Fit r.verb r.path
  returns : (Declaration.returns r.returns.type r.returns.description).Fit

instance (r : Route) : Decidable r.Fit :=
  decidable_of_iff (IsIdentifier r.name.toList ∧ FitDescription r.description ∧
      (OneLine r.path ∧ r.path ≠ "") ∧ (∀ p ∈ r.params, p.Fit r.verb r.path) ∧
      (Declaration.returns r.returns.type r.returns.description).Fit)
    ⟨fun ⟨name, description, path, params, returns⟩ => { name, description, path, params, returns },
    fun h => ⟨h.name, h.description, h.path, h.params, h.returns⟩⟩

structure ControllerDoc.Fit (c : ControllerDoc) : Prop where
  name : OneLine c.name ∧ c.name ≠ ""
  description : FitDescription c.description
  routes : ∀ r ∈ c.routes, r.Fit

instance (c : ControllerDoc) : Decidable c.Fit :=
  decidable_of_iff ((OneLine c.name ∧ c.name ≠ "") ∧ FitDescription c.description ∧
      ∀ r ∈ c.routes, r.Fit)
    ⟨fun h => ⟨h.1, h.2.1, h.2.2⟩, fun h => ⟨h.name, h.description, h.routes⟩⟩

/-! ## Names of parameters -/

theorem isWordChar_of_isAlpha {c : Char} (h : c.isAlpha = true) : isWordChar c = true := by
  have hval : c.toNat = c.val.toNat := rfl
  have hcode : c.toNat < 0x80 := by
    unfold Char.isAlpha Char.isUpper Char.isLower at h
    simp only [Bool.or_eq_true, Bool.and_eq_true, decide_eq_true_eq, UInt32.le_iff_toNat_le,
      Char.reduceVal, UInt32.reduceToNat] at h
    omega
  exact isWordChar_of_isAlphanum (by simp [Char.isAlphanum, h]) hcode

namespace IsIdentifier

variable {s : List Char}

theorem ne_nil (h : IsIdentifier s) : s ≠ [] := by
  rintro rfl
  exact h

theorem isWordChar (h : IsIdentifier s) : ∀ c ∈ s, Text.isWordChar c = true := by
  obtain ⟨c, rest, rfl, hc, hrest⟩ := h.exists_cons
  refine List.forall_mem_cons.2 ⟨?_, hrest⟩
  rw [Bool.or_eq_true, decide_eq_true_eq] at hc
  rcases hc with hc | rfl
  · exact isWordChar_of_isAlpha hc
  · decide

theorem isBlank (h : IsIdentifier s) : ∀ c ∈ s, Text.isBlank c = false :=
  fun c hc => isBlank_of_isWordChar (h.isWordChar c hc)

/-- What cannot stand in a word stands in no name of an item. -/
theorem not_mem (h : IsIdentifier s) {c : Char} (hc : Text.isWordChar c = false) : c ∉ s := by
  intro hmem
  rw [h.isWordChar c hmem] at hc
  cases hc

/-- A name is read up to the end of its word. -/
theorem identifier?_append (h : IsIdentifier s) {r : List Char}
    (hr : ∀ c, r.head? = some c → Text.isWordChar c = false) :
    identifier? (s ++ r) = some s := by
  obtain ⟨c, rest, rfl, hc, hrest⟩ := h.exists_cons
  rw [List.cons_append, identifier?, if_pos hc, takeWordChars, takeWhile_append_of_stop hrest hr]

end IsIdentifier

theorem wordName?_of_isWord {s : List Char} (h : IsWord s) : wordName? s = some s :=
  if_pos ⟨h.1, List.all_eq_true.2 h.2⟩

theorem bracketedName?_brackets {s : List Char} (h : IsWord s) :
    bracketedName? ('[' :: (s ++ [']'])) = some s := by
  rw [bracketedName?, List.getLast?_concat, if_pos rfl, List.dropLast_concat, wordName?_of_isWord h]

/-- A word with marks before and after it can stand in a line. -/
theorem fitName_marks {c : Char} {s after : List Char} (hc : isBlank c = false)
    (hbrace : c ≠ '\x7b') (hs : IsWord s) (hafter : ∀ d ∈ after, isBlank d = false) :
    Declaration.FitName (c :: (s ++ after)) where
  nonempty := List.cons_ne_nil _ _
  word d hd := by
    rcases List.mem_cons.1 hd with rfl | hd
    · exact hc
    · exact (List.mem_append.1 hd).elim (fun hd => isBlank_of_isWordChar (hs.2 d hd)) (hafter d)
  braces hhead := hbrace (Option.some.inj hhead)

theorem sourceIn_eq_ownSource (verb : Verb) (path name : List Char) :
    sourceIn verb path name = ownSource verb path name := by
  unfold sourceIn ownSource
  by_cases h : Mentions path name
  · rw [if_pos h, if_pos (namesSegment_iff.2 h)]
  · have hsegment : namesSegment path name ≠ true := mt namesSegment_iff.1 h
    cases verb <;> simp [h, hsegment]

namespace Param

variable {p : Param} {verb : Verb} {path : String}

theorem Fit.fitName (h : p.Fit verb path) : Declaration.FitName p.marked := by
  unfold Param.marked
  by_cases hlocal : p.source = .local
  · rw [if_pos hlocal, ← List.append_nil p.name.toList]
    exact fitName_marks rfl (by decide) (h.marked (.inl hlocal)) nofun
  rw [if_neg hlocal]
  by_cases hoptional : p.optional = true
  · rw [if_pos hoptional]
    exact fitName_marks rfl (by decide) (h.marked (.inr hoptional)) (by simp; rfl)
  · rw [if_neg hoptional]
    exact (h.plain hlocal (by simpa using hoptional)).1

/-- **A name with its marks declares the parameter.** -/
theorem Fit.classify_marked (h : p.Fit verb path) :
    classify (.ofList p.marked) verb path =
      { name := p.name, source := p.source, optional := p.optional } := by
  rw [classify, String.toList_ofList, Param.marked]
  by_cases hlocal : p.source = .local
  · have hword := h.marked (.inl hlocal)
    have hname : localName? ('_' :: p.name.toList) = some p.name.toList := by
      rw [localName?, wordName?_of_isWord hword]
      rfl
    rw [if_pos hlocal, classifyChars, hname, hlocal, h.required hlocal]
    show { name := String.ofList p.name.toList, source := Source.local : Param } = _
    rw [String.ofList_toList]
  have hsource := h.source hlocal
  rw [if_neg hlocal]
  by_cases hoptional : p.optional = true
  · have hword := h.marked (.inr hoptional)
    have hname : localName? ('[' :: (p.name.toList ++ [']'])) = none := rfl
    rw [if_pos hoptional, classifyChars, hname, bracketedName?_brackets hword, hoptional, hsource,
      ← sourceIn_eq_ownSource]
    show { name := String.ofList p.name.toList, source := _, optional := true : Param } = _
    rw [String.ofList_toList]
  · have hfalse : p.optional = false := by simpa using hoptional
    obtain ⟨-, hname, hbrackets⟩ := h.plain hlocal hfalse
    rw [if_neg hoptional, classifyChars, hname, hbrackets, hfalse, hsource, ← sourceIn_eq_ownSource]
    show { name := String.ofList p.name.toList, source := _ : Param } = _
    rw [String.ofList_toList]

theorem Fit.declaration (h : p.Fit verb path) : p.declaration.Fit :=
  ⟨h.types, h.fitName, h.description⟩

theorem Fit.toParam_tag (h : p.Fit verb path) : p.declaration.tag.toParam verb path = p := by
  have hname : p.declaration.tag.rawName = .ofList p.marked := rfl
  rw [Tag.toParam, hname, h.classify_marked]
  rfl

end Param

/-! ## Records of routes -/

namespace Route

variable {r : Route}

theorem Fit.declarations (h : r.Fit) : ∀ a ∈ r.declarations, a.Fit := by
  intro a ha
  rcases List.mem_cons.1 ha with rfl | ha
  · exact h.path
  rcases List.mem_append.1 ha with ha | ha
  · obtain ⟨p, hp, rfl⟩ := List.mem_map.1 ha
    exact (h.params p hp).declaration
  · rw [List.mem_singleton.1 ha]
    exact h.returns

/-- The record that the comment of a route is read as. -/
def record (r : Route) : DocRecord :=
  ({ description := r.description, context := some r.name } : DocRecord).addTags
    (r.declarations.map (·.tag))

/-- The tags of each kind in the record of a route. -/
theorem tagsOf_record (r : Route) (kind : String) :
    r.record.tagsOf kind =
      (if Tag.routeKind = kind then [(Declaration.route r.verb r.path).tag] else []) ++
        ((if Tag.paramKind = kind then r.params.map fun p => p.declaration.tag else []) ++
          if Tag.returnsKind = kind then
            [(Declaration.returns r.returns.type r.returns.description).tag] else []) := by
  have htags : r.declarations.map (·.tag) = (Declaration.route r.verb r.path).tag ::
      ((r.params.map fun p => p.declaration.tag) ++
        [(Declaration.returns r.returns.type r.returns.description).tag]) := by
    simp [declarations]
  have hparams : (r.params.map fun p => p.declaration.tag).filter (·.kind = kind) =
      if Tag.paramKind = kind then r.params.map fun p => p.declaration.tag else [] := by
    have hkind : ∀ t ∈ r.params.map fun p => p.declaration.tag, t.kind = Tag.paramKind := by
      intro t ht
      obtain ⟨p, -, rfl⟩ := List.mem_map.1 ht
      rfl
    split
    · next heq => exact List.filter_eq_self.2 fun t ht => by rw [hkind t ht]; simpa using heq
    · next hne => exact List.filter_eq_nil_iff.2 fun t ht => by rw [hkind t ht]; simpa using hne
  have hsingle : ∀ t : Tag, [t].filter (·.kind = kind) = if t.kind = kind then [t] else [] := by
    intro t
    by_cases h : t.kind = kind <;> simp [h]
  rw [record, DocRecord.tagsOf_addTags, htags, ← List.singleton_append, List.filter_append,
    List.filter_append, hparams, hsingle, hsingle]
  rfl

end Route

theorem parseRoute_payload {verb : Verb} {path : String} (h : (Declaration.route verb path).Fit) :
    parseRoute (Declaration.route verb path).tag.payload = some (verb, path) := by
  have hpath : IsPath path.toList := ⟨toList_ne_nil h.2, h.1.2, .inl fun c hc => h.1.1.head hc⟩
  have htrim : trim (Declaration.route verb path).payload =
      verb.name.toList ++ ' ' :: path.toList := by
    have happend : (Declaration.route verb path).payload =
        (verb.name.toList ++ [' ']) ++ path.toList := by
      simp [Declaration.payload]
    rw [← Declaration.trimEnd_payload h, happend,
      trimEnd_append (h.1.1.trimEnd.symm ▸ hpath.nonempty), h.1.1.trimEnd]
    simp
  have hverb : Verb.ofName? (.ofList verb.name.toList) = some verb := by cases verb <;> decide
  apply parseRoute_of_toList _ hverb verb.oneWord hpath
  show (String.ofList (trim _)).toList = _
  rw [String.toList_ofList, htrim]

/-- A type up to its closing brace. -/
theorem parseType_append {type rest text before : List Char} (hne : before ≠ [] ∨ type ≠ [])
    (hbraces : '\x7d' ∉ type) (hfeeds : '\n' ∉ type) (htext : parseReturnsText rest = some text) :
    parseType before (type ++ '\x7d' :: rest) = some (before.reverse ++ type, text) := by
  induction type generalizing before with
  | nil =>
    have hbefore : before ≠ [] := hne.resolve_right (not_not_intro rfl)
    rw [List.nil_append, parseType, if_pos ⟨rfl, hbefore⟩, htext, List.append_nil]
  | cons c type ih =>
    obtain ⟨hc, hbraces⟩ := not_or.1 (mt List.mem_cons.2 hbraces)
    obtain ⟨hn, hfeeds⟩ := not_or.1 (mt List.mem_cons.2 hfeeds)
    have hrest : parseType (c :: before) (type ++ '\x7d' :: rest) = _ :=
      ih (.inl (List.cons_ne_nil _ _)) hbraces hfeeds
    rw [List.cons_append, parseType, if_neg fun h => hc h.1.symm]
    show (if c = '\n' then none else _) = _
    rw [if_neg (Ne.symm hn), hrest, List.reverse_cons, List.append_assoc]
    rfl

/-- What follows a type at the end of a payload: its brace and the description. -/
theorem trimEnd_brace {text : String} (h : OneLine text) :
    ∃ rest, trimEnd ('\x7d' :: ' ' :: text.toList) = '\x7d' :: rest ∧
      parseReturnsText rest = some text.toList := by
  by_cases hnil : text.toList = []
  · refine ⟨[], by rw [hnil]; rfl, by rw [hnil]; rfl⟩
  · refine ⟨' ' :: text.toList, ?_, ?_⟩
    · have happend : '\x7d' :: ' ' :: text.toList = ['\x7d', ' '] ++ text.toList := rfl
      rw [happend, trimEnd_append (h.1.trimEnd.symm ▸ hnil), h.1.trimEnd]
    · have hspace : trimStart (' ' :: text.toList) = text.toList := h.1.trimStart
      rw [parseReturnsText, hspace]
      exact if_neg h.2

theorem parseReturns_payload {type text : String} (h : (Declaration.returns type text).Fit) :
    parseReturns (Declaration.returns type text).tag.payload = some ⟨type, text⟩ := by
  obtain ⟨htype, hbraces, hfeeds, htext⟩ := id h
  obtain ⟨rest, hrest, hparse⟩ := trimEnd_brace htext
  have hpayload : trim (Declaration.returns type text).payload =
      '\x7b' :: (type.toList ++ '\x7d' :: rest) := by
    have happend : (Declaration.returns type text).payload =
        ('\x7b' :: type.toList) ++ ('\x7d' :: ' ' :: text.toList) := rfl
    rw [← Declaration.trimEnd_payload h, happend,
      trimEnd_append (trimEnd_cons_ne_nil (by decide) _), hrest]
    rfl
  have hchars : parseReturnsChars ('\x7b' :: (type.toList ++ '\x7d' :: rest)) =
      some (type.toList, text.toList) :=
    parseType_append (.inr (toList_ne_nil htype)) hbraces hfeeds hparse
  show (parseReturnsChars (String.ofList _).toList).map _ = _
  rw [String.toList_ofList, hpayload, hchars, Option.map_some]
  show some (⟨String.ofList type.toList, String.ofList text.toList⟩ : Returns) = _
  rw [String.ofList_toList, String.ofList_toList]

namespace DocRecord

theorem context_addTags (r : DocRecord) (tags : List Tag) :
    (r.addTags tags).context = r.context := by
  induction tags generalizing r with
  | nil => rfl
  | cons t rest ih => exact ih (r.addTag t)

theorem description_addTags (r : DocRecord) (tags : List Tag) :
    (r.addTags tags).description = r.description := by
  induction tags generalizing r with
  | nil => rfl
  | cons t rest ih => exact ih (r.addTag t)

end DocRecord

/-- **The record of a route declares the route.** -/
theorem Route.Fit.toRoute_record {r : Route} (h : r.Fit) : r.record.toRoute = .ok r := by
  have hroute : r.record.firstTag? Tag.routeKind = some (Declaration.route r.verb r.path).tag := by
    rw [DocRecord.firstTag?, r.tagsOf_record, if_pos rfl]
    rfl
  have hreturns : r.record.firstTag? Tag.returnsKind =
      some (Declaration.returns r.returns.type r.returns.description).tag := by
    rw [DocRecord.firstTag?, r.tagsOf_record, if_neg (by decide), if_neg (by decide), if_pos rfl]
    rfl
  have hparams : (r.record.tagsOf Tag.paramKind).map (·.toParam r.verb r.path) = r.params := by
    rw [r.tagsOf_record, if_neg (by decide), if_pos rfl, if_neg (by decide), List.nil_append,
      List.append_nil, List.map_map]
    exact map_eq_self fun p hp => (h.params p hp).toParam_tag
  have hcontext : r.record.context = some r.name := DocRecord.context_addTags _ _
  have hdescription : r.record.description = r.description := DocRecord.description_addTags _ _
  exact DocRecord.DeclaresRoute.toRoute ⟨_, _, hroute, hreturns, parseRoute_payload h.path,
    parseReturns_payload h.returns, hcontext, hdescription.symm, hparams.symm⟩

/-! ## Comments in the text -/

theorem docLine?_docLine (marker : Marker) (text : List Char) :
    docLine? (docLine marker text) = some (marker, text) := by
  cases marker <;> rfl

theorem ofLinesFrom_docLines {marker : Marker} {texts rest : List (List Char)} (hne : texts ≠ [])
    (hrest : rest.head?.bind docLine? = none) (number : Nat) :
    Block.ofLinesFrom number (texts.map (docLine marker) ++ rest) =
      ⟨marker, number, texts, rest⟩ :: Block.ofLinesFrom (number + texts.length) rest := by
  have hrun : IsRun marker (texts.map (docLine marker)) texts :=
    List.forall₂_map_left_iff.2 (List.forall₂_same.2 fun text _ => docLine?_docLine marker text)
  have hstop : ¬Begins marker rest := by
    rintro ⟨text, h⟩
    rw [hrest] at h
    cases h
  rw [Block.ofLinesFrom_isRun hrun hne hstop, List.length_map]

theorem clean_docLine (marker : Marker) {text : List Char} (h : Clean text) :
    Clean (docLine marker text) :=
  .append (by cases marker <;> decide) (.cons (by decide) (by decide) h) (List.cons_ne_nil _ _)

/-! ## Items -/

namespace Route

variable {r : Route}

theorem optionally_of_none {α : Type} {qualifier : List Char → Option (List Char)}
    {next : List Char → Option α} {s : List Char} (h : qualifier s = none) :
    optionally qualifier next s = next s := by
  rw [optionally, h]
  rfl

theorem optionally_of_some {α : Type} {qualifier : List Char → Option (List Char)}
    {next : List Char → Option α} {s t : List Char} {a : α} (h : qualifier s = some t)
    (ha : next t = some a) : optionally qualifier next s = some a := by
  rw [optionally, h, Option.bind_some, ha]
  rfl

theorem docLine?_itemLine (r : Route) : docLine? r.itemLine = none := rfl

theorem Fit.identifier? (h : r.Fit) :
    DocRoutes.identifier? (r.name.toList ++ "() {}".toList) = some r.name.toList := by
  refine h.name.identifier?_append fun c hc => ?_
  cases hc
  decide

theorem Fit.isBlank_head (h : r.Fit) {c : Char}
    (hc : (r.name.toList ++ "() {}".toList).head? = some c) : isBlank c = false := by
  rw [List.head?_append_of_ne_nil _ h.name.ne_nil] at hc
  exact h.name.isBlank c (List.mem_of_head? hc)

/-- **The item line declares the method.** -/
theorem Fit.itemName? (h : r.Fit) : DocRoutes.itemName? r.itemLine = some r.name.toList := by
  have hname : trimStart (r.name.toList ++ "() {}".toList) = r.name.toList ++ "() {}".toList :=
    trimStart_eq_self fun c hc => h.isBlank_head hc
  have hkeyword : keyword? "fn" ("fn ".toList ++ (r.name.toList ++ "() {}".toList)) =
      some (r.name.toList ++ "() {}".toList) := congrArg some hname
  have hdeclared : declared? ("fn ".toList ++ (r.name.toList ++ "() {}".toList)) =
      some r.name.toList := by
    rw [declared?, itemKeywords, List.findSome?_cons, hkeyword, Option.bind_some, h.identifier?]
  have hpub : visibility? r.itemLine =
      some ("fn ".toList ++ (r.name.toList ++ "() {}".toList)) := rfl
  -- between `pub` and `fn` stands no other qualifier
  have hplain : optionally (keyword? "const") (optionally (keyword? "async") <|
      optionally (keyword? "unsafe") <| optionally linkage? declared?)
      ("fn ".toList ++ (r.name.toList ++ "() {}".toList)) = some r.name.toList := by
    rw [optionally_of_none rfl, optionally_of_none rfl, optionally_of_none rfl,
      optionally_of_none rfl, hdeclared]
  exact optionally_of_some hpub hplain

theorem trimmed_itemLine (r : Route) : Trimmed r.itemLine := by
  refine trimmed_of_ends (fun c hc => ?_) fun c hc => ?_
  · obtain rfl : 'p' = c := Option.some.inj hc
    rfl
  · have hsplit : r.itemLine = ("pub fn ".toList ++ r.name.toList) ++ "() {}".toList :=
      (List.append_assoc ..).symm
    have hne : "() {}".toList ≠ [] := by decide
    have hlast : "() {}".toList.getLast? = some '\x7d' := by decide
    rw [hsplit, List.getLast?_append_of_ne_nil _ hne, hlast] at hc
    obtain rfl : '\x7d' = c := Option.some.inj hc
    rfl

theorem Fit.newline_itemLine (h : r.Fit) : '\n' ∉ r.itemLine := by
  have hname : '\n' ∉ r.name.toList := h.name.not_mem (by decide)
  intro hmem
  rcases List.mem_append.1 hmem with h | h
  · exact absurd h (by decide)
  · exact (List.mem_append.1 h).elim hname (by decide)

/-- The method is the item after the comment. -/
theorem Fit.context?_block (h : r.Fit) (number : Nat) (texts rest : List (List Char)) :
    Block.context? ⟨.outer, number, texts, r.itemLine :: rest⟩ = some r.name.toList := by
  have htrim : trim r.itemLine = r.itemLine := r.trimmed_itemLine
  have hbegin : mayBeginItem r.itemLine = true := rfl
  show (((r.itemLine :: rest).map trim).find? mayBeginItem).bind DocRoutes.itemName? = _
  rw [List.map_cons, htrim, List.find?_cons_of_pos hbegin, Option.bind_some, h.itemName?]

end Route

/-! ## Units -/

theorem commentTexts_ne_nil {description : String} {declarations : List Declaration}
    (h : declarations ≠ []) : commentTexts description declarations ≠ [] :=
  List.append_ne_nil_of_right_ne_nil _ (mt List.map_eq_nil_iff.1 h)

theorem Route.Fit.toRecord_block {r : Route} (h : r.Fit) (number : Nat) (rest : List (List Char)) :
    Block.toRecord ⟨.outer, number, commentTexts r.description r.declarations, r.itemLine :: rest⟩ =
      (r.record, []) := by
  rw [toRecord_comment h.description h.declarations rfl, h.context?_block]
  show (DocRecord.addTags { description := _, context := some (String.ofList _) } _, _) = _
  rw [String.ofList_toList]
  rfl

theorem Route.Fit.clean_lines {r : Route} (h : r.Fit) : ∀ line ∈ r.lines, Clean line := by
  intro line hline
  rcases List.mem_append.1 hline with hline | hline
  · obtain ⟨text, htext, rfl⟩ := List.mem_map.1 hline
    exact clean_docLine .outer (clean_commentTexts h.description h.declarations text htext)
  rcases List.mem_cons.1 hline with rfl | hline
  · exact r.trimmed_itemLine.clean h.newline_itemLine
  · rw [List.mem_singleton.1 hline]
    exact ⟨List.not_mem_nil, nofun⟩

/-- The comments of routes are read as their records. -/
theorem records_routes {routes : List Route} (h : ∀ r ∈ routes, r.Fit) (number : Nat) :
    (Block.ofLinesFrom number (routes.flatMap Route.lines)).map Block.toRecord =
      routes.map fun r => (r.record, []) := by
  induction routes generalizing number with
  | nil => rfl
  | cons r routes ih =>
    obtain ⟨hr, hroutes⟩ := List.forall_mem_cons.1 h
    have hlines : (r :: routes).flatMap Route.lines =
        (commentTexts r.description r.declarations).map (docLine .outer) ++
          r.itemLine :: [] :: routes.flatMap Route.lines := by
      simp [Route.lines]
    have hne : commentTexts r.description r.declarations ≠ [] :=
      commentTexts_ne_nil (List.cons_ne_nil _ _)
    have hstop : (r.itemLine :: [] :: routes.flatMap Route.lines).head?.bind docLine? = none :=
      r.docLine?_itemLine
    rw [hlines, ofLinesFrom_docLines hne hstop, Block.ofLinesFrom_cons_of_none r.docLine?_itemLine,
      Block.ofLinesFrom_cons_of_none rfl, List.map_cons,
      hr.toRecord_block, ih hroutes, List.map_cons]

namespace ControllerDoc

variable {c : ControllerDoc}

/-- The record that the comment of a controller is read as. -/
def record (c : ControllerDoc) : DocRecord :=
  ({ description := c.description } : DocRecord).addTags [(Declaration.controller c.name).tag]

theorem Fit.records_lines (h : c.Fit) :
    (Block.ofLines c.lines).map Block.toRecord =
      (c.record, []) :: c.routes.map fun r => (r.record, []) := by
  have hfit : ∀ a ∈ [Declaration.controller c.name], a.Fit := fun a ha => by
    rw [List.mem_singleton.1 ha]
    exact h.name
  have hne : commentTexts c.description [.controller c.name] ≠ [] :=
    commentTexts_ne_nil (List.cons_ne_nil _ _)
  rw [Block.ofLines, ControllerDoc.lines, ofLinesFrom_docLines hne rfl,
    Block.ofLinesFrom_cons_of_none rfl, List.map_cons, records_routes h.routes,
    toRecord_comment h.description hfit rfl]
  rfl

theorem Fit.clean_lines (h : c.Fit) : ∀ line ∈ c.lines, Clean line := by
  intro line hline
  have hfit : ∀ a ∈ [Declaration.controller c.name], a.Fit := fun a ha => by
    rw [List.mem_singleton.1 ha]
    exact h.name
  rcases List.mem_append.1 hline with hline | hline
  · obtain ⟨text, htext, rfl⟩ := List.mem_map.1 hline
    exact clean_docLine .inner (clean_commentTexts h.description hfit text htext)
  rcases List.mem_cons.1 hline with rfl | hline
  · exact ⟨List.not_mem_nil, nofun⟩
  · obtain ⟨r, hr, hline⟩ := List.mem_flatMap.1 hline
    exact (h.routes r hr).clean_lines line hline

/-- The lines of the text are the lines of the layout. -/
theorem Fit.lines_source (h : c.Fit) : Text.lines c.source.toList = c.lines := by
  rw [source, String.toList_ofList, lines_unlines h.clean_lines]

theorem Fit.extract_source (h : c.Fit) :
    extract c.source = (c.record :: c.routes.map (·.record), []) := by
  have hrecords : (c.routes.map fun r => (r.record, ([] : List NamelessParam))).map (·.1) =
      c.routes.map (·.record) := by
    rw [List.map_map]
    rfl
  rw [extract, h.lines_source, h.records_lines, List.map_cons, hrecords, List.flatMap_cons,
    flatMap_nameless]
  rfl

theorem firstTag?_record (c : ControllerDoc) :
    c.record.firstTag? Tag.moduleKind = some (Declaration.controller c.name).tag := by
  rw [DocRecord.firstTag?, record, DocRecord.tagsOf_addTags]
  rfl

theorem Fit.moduleName_record (h : c.Fit) : c.record.moduleName = c.name := by
  have htrim : trim c.name.toList = c.name.toList := h.name.1.1
  rw [DocRecord.moduleName, c.firstTag?_record]
  show String.ofList (trim (String.ofList (trim c.name.toList)).toList) = _
  rw [String.toList_ofList, htrim, htrim, String.ofList_toList]

theorem sorted_routes {routes : List Route} (h : ∀ r ∈ routes, r.Fit) :
    Sorted (routes.map (·.record)) routes [] := by
  induction routes with
  | nil => exact .nil
  | cons r routes ih =>
    obtain ⟨hr, hroutes⟩ := List.forall_mem_cons.1 h
    exact .route (DocRecord.toRoute_eq_ok_iff.1 hr.toRoute_record) (ih hroutes)

/-- The records of a controller document it. -/
theorem Fit.ofRecords_records (h : c.Fit) :
    ofRecords (c.record :: c.routes.map (·.record)) = .ok (c, []) := by
  have hheaded : Headed (c.record :: c.routes.map (·.record)) c.record _ _ :=
    .head c.firstTag?_record
  have hname := hheaded.moduleName.symm.trans h.moduleName_record
  have hblank : ¬IsBlankText (Declaration.controller c.name).tag.payload := by
    rw [← isEmpty_trimmed_iff, hname, String.isEmpty_iff]
    exact h.name.2
  have hdescription : c.record.description = c.description := DocRecord.description_addTags _ _
  rw [ofRecords_of_sorted hheaded hblank (sorted_routes h.routes), hname, hdescription]
  rfl

/-- A text is read as the controller that its records document. -/
theorem readUnit_of_ofRecords {source : String} {records : List DocRecord}
    {nameless : List NamelessParam} {events : List UnitEvent}
    (hextract : extract source = (records, nameless))
    (hrecords : ofRecords records = .ok (c, events)) :
    readUnit .comments source = (.ok c, nameless.map .namelessParam ++ events) := by
  have hrun : Extractor.comments.run source = .ok (records, nameless) :=
    congrArg Except.ok hextract
  rw [readUnit, hrun]
  simp only [hrecords]

/-- **A controller is read back from its text.** -/
theorem readUnit_source (h : c.Fit) : readUnit .comments c.source = (.ok c, []) :=
  readUnit_of_ofRecords h.extract_source h.ofRecords_records

/-- A controller with parameters of all kinds. -/
def users : ControllerDoc where
  name := "Users"
  description := "User management\n\nFor administrators"
  routes := [{
    name := "update"
    description := "Change a user."
    verb := .post
    path := "/users/:id"
    params := [
      { name := "id", source := .path },
      { name := "email", source := .body, description := some "new address",
        types := ["String", "Null"] },
      { name := "nickname", source := .body, optional := true, types := ["String"] },
      { name := "caller", source := .local, description := some "who asks" }]
    returns := ⟨"Object", "the user"⟩ }]

theorem readUnit_users : users.Fit ∧ readUnit .comments users.source = (.ok users, []) := by
  have h : users.Fit := by decide +kernel
  exact ⟨h, readUnit_source h⟩

/-- The layout of a unit. -/
example : users.source = "//! User management
//!\x20
//! For administrators
//! @module Users

/// Change a user.
/// @apiRoute post /users/:id
/// @param id
/// @param {String|Null} email new address
/// @param {String} [nickname]
/// @param _caller who asks
/// @apiReturns {Object} the user
pub fn update() {}

" := by decide +kernel

end ControllerDoc

end DocRoutes
