import Mathlib
import DocRoutes.Proofs.ItemNames

/-!
# The grammar of route tags

The payload of a route tag consists of a verb and a path. Blanks may stand before the verb and must
stand behind it. Everything after these blanks, up to the end, is the path.

**Verbs** (`Verb.ofName?_eq_some_iff`). Each letter of a verb is written in lower case or as a
capital. These are letters of ASCII: no letter outside ASCII counts as one of them, though others
may be folded to a letter of a verb.

**Paths** (`parsePath_eq_some_iff`). The blanks behind the verb leave nothing for a path if nothing
else follows them. The last of them is the path then, unless it is alone or a line feed.

**Theorem (`parseRoute_grammar`).** A verb and a path are read from exactly the texts that are
written in this form (`RouteText`).
-/

namespace DocRoutes

open Text

/-! ## Verbs -/

/-- The name with each letter in lower case or as a capital. -/
def CaseVariant (word name : List Char) : Prop :=
  List.Forall₂ (fun c d => c = d ∨ c = d.toUpper) word name

instance (word name : List Char) : Decidable (CaseVariant word name) :=
  inferInstanceAs (Decidable (List.Forall₂ _ word name))

theorem toLower_eq_iff {c d : Char} (hd : d.isUpper = false) :
    c.toLower = d ↔ c = d ∨ c = d.toUpper := by
  have hlower : d.toLower = d := Char.toLower_eq_of_not_isUpper (by simp [hd])
  constructor
  · rintro rfl
    by_cases hc : c.isUpper
    · have hupper : c.toUpper = c := Char.toUpper_eq_of_not_isLower (Char.not_isLower_of_isUpper hc)
      rw [Char.toUpper_toLower_eq_toUpper, hupper]
      exact .inr rfl
    · rw [Char.toLower_eq_of_not_isUpper hc]
      exact .inl rfl
  · rintro (rfl | rfl)
    · exact hlower
    · rw [Char.toLower_toUpper_eq_toLower, hlower]

theorem map_toLower_eq_iff {word name : List Char} (hname : ∀ d ∈ name, d.isUpper = false) :
    word.map Char.toLower = name ↔ CaseVariant word name := by
  induction word generalizing name with
  | nil => cases name <;> simp [CaseVariant]
  | cons c word ih =>
    cases name with
    | nil => simp [CaseVariant]
    | cons d name =>
      obtain ⟨hd, hname⟩ := List.forall_mem_cons.1 hname
      have hword := ih hname
      rw [CaseVariant] at hword ⊢
      rw [List.map_cons, List.cons.injEq, List.forall₂_cons, toLower_eq_iff hd, hword]

theorem CaseVariant.exists_mem {word name : List Char} (h : CaseVariant word name) {c : Char}
    (hc : c ∈ word) : ∃ d ∈ name, c = d ∨ c = d.toUpper := by
  induction h with
  | nil => cases hc
  | cons hletter _ ih =>
    rcases List.mem_cons.1 hc with rfl | hc
    · exact ⟨_, List.mem_cons_self, hletter⟩
    · obtain ⟨d, hd, hletter⟩ := ih hc
      exact ⟨d, List.mem_cons_of_mem _ hd, hletter⟩

/-- A character of ASCII that is no blank. -/
def isVisible (c : Char) : Bool := !isBlank c && c.toNat < 128

section Verbs

variable {word : List Char} {verb : Verb}

/-- **Case does not matter in a verb.** -/
theorem Verb.ofName?_eq_some_iff :
    Verb.ofName? (.ofList word) = some verb ↔ CaseVariant word verb.name.toList := by
  have hall : verb.name.toList.all (!·.isUpper) = true := by cases verb <;> decide
  have hcase : ∀ d ∈ verb.name.toList, d.isUpper = false := by simpa using hall
  rw [← map_toLower_eq_iff hcase, ofName?, String.toList_ofList]
  by_cases h : word.map Char.toLower = ['g', 'e', 't'] <;> cases verb <;> simp [h, name]

/-- A verb is written in visible characters of ASCII. -/
theorem CaseVariant.visible (h : CaseVariant word verb.name.toList) {c : Char} (hc : c ∈ word) :
    isVisible c = true := by
  have hall : verb.name.toList.all (fun d => isVisible d && isVisible d.toUpper) = true := by
    cases verb <;> decide
  obtain ⟨d, hd, hletter⟩ := h.exists_mem hc
  obtain ⟨hlower, hupper⟩ := Bool.and_eq_true_iff.1 (List.all_eq_true.1 hall d hd)
  rcases hletter with rfl | rfl
  · exact hlower
  · exact hupper

theorem CaseVariant.oneWord (h : CaseVariant word verb.name.toList) :
    ∀ c ∈ word, isBlank c = false := by
  intro c hc
  have hvisible := h.visible hc
  simp only [isVisible, Bool.and_eq_true, Bool.not_eq_true'] at hvisible
  exact hvisible.1

end Verbs

/-! ## Paths -/

/-- **The path behind a verb.** -/
theorem parsePath_eq_some_iff {s path : List Char}
    (hs : ∀ c, s.head? = some c → isBlank c = true) :
    parsePath s = some path ↔ ∃ gap, IsGap gap ∧ IsPath path ∧ s = gap ++ path := by
  constructor
  · intro h
    have hpath := isPath_of_parsePath h
    obtain ⟨gap, rfl, hgap, hends⟩ := parsePath_cases h
    refine ⟨gap, ⟨?_, hgap⟩, hpath, rfl⟩
    rcases hends with hflush | ⟨hne, -⟩
    · -- A blank stands before the path, and none begins it.
      rintro rfl
      obtain ⟨c, rest, rfl⟩ := List.exists_cons_of_ne_nil hpath.nonempty
      have hblank := hs c rfl
      rw [hflush c rfl] at hblank
      cases hblank
    · exact hne
  · rintro ⟨gap, ⟨hne, hgap⟩, hpath, rfl⟩
    exact parsePath_append hne hgap hpath

/-! ## Main result -/

/-- A route in a text: blanks, the verb, blanks, and the path up to the end. -/
def RouteText (verb : Verb) (path text : List Char) : Prop :=
  ∃ lead word gap, text = lead ++ (word ++ (gap ++ path)) ∧ (∀ c ∈ lead, isBlank c = true) ∧
    CaseVariant word verb.name.toList ∧ IsGap gap ∧ IsPath path

theorem head?_dropWord {s : List Char} {c : Char} (hc : (dropWord s).head? = some c) :
    isBlank c = true := by
  have hhead := List.head?_dropWhile_not (fun c => !isBlank c) s
  rw [dropWord] at hc
  simpa [hc] using hhead

theorem parseRouteChars_eq_some_iff {text path : List Char} {verb : Verb} :
    parseRouteChars text = some (verb, path) ↔ RouteText verb path text := by
  constructor
  · intro h
    simp only [parseRouteChars, Option.bind_eq_bind, Option.bind_eq_some_iff] at h
    obtain ⟨verb, hverb, path, hpath, heq⟩ := h
    cases heq
    obtain ⟨gap, hgap, hpath, hrest⟩ :=
      (parsePath_eq_some_iff fun c hc => head?_dropWord hc).1 hpath
    refine ⟨text.takeWhile isBlank, takeWord (trimStart text), gap, ?_, ?_,
      Verb.ofName?_eq_some_iff.1 hverb, hgap, hpath⟩
    · rw [← hrest, takeWord_append_dropWord, trimStart, List.takeWhile_append_dropWhile]
    · intro c hc
      exact List.mem_takeWhile_imp hc
  · rintro ⟨lead, word, gap, rfl, hlead, hword, ⟨hne, hgap⟩, hpath⟩
    exact parseRouteChars_text hlead (Verb.ofName?_eq_some_iff.2 hword) hword.oneWord hne hgap hpath

/-- The first word of a route is its verb. -/
theorem RouteText.firstWord {text path : List Char} {verb : Verb} (h : RouteText verb path text) :
    CaseVariant (firstWord text) verb.name.toList := by
  have hparsed := parseRouteChars_eq_some_iff.2 h
  simp only [parseRouteChars, Option.bind_eq_bind, Option.bind_eq_some_iff] at hparsed
  obtain ⟨verb, hverb, path, -, heq⟩ := hparsed
  cases heq
  exact Verb.ofName?_eq_some_iff.1 hverb

/-- What is added to the end is part of the path. -/
theorem RouteText.append {text path more : List Char} {verb : Verb} (h : RouteText verb path text)
    (hpath : Flush path) (hmore : '\n' ∉ more) : RouteText verb (path ++ more) (text ++ more) := by
  obtain ⟨lead, word, gap, rfl, hlead, hword, hgap, hne, hfeed, -⟩ := h
  refine ⟨lead, word, gap, by simp, hlead, hword, hgap, ?_, ?_, .inl ?_⟩
  · exact List.append_ne_nil_of_left_ne_nil hne more
  · simp [hfeed, hmore]
  · intro c hc
    rw [List.head?_append_of_ne_nil _ hne] at hc
    exact hpath c hc

/-- **The grammar of route tags.** A route is read from exactly the texts of this form. So a path
reaches to the end of the text, with any blanks there, and a first word that holds a character
outside ASCII is no verb. -/
theorem parseRoute_grammar (text path : String) (verb : Verb) :
    (parseRoute text = some (verb, path) ↔ RouteText verb path.toList text.toList) ∧
      (parseRoute text = some (verb, path) → Flush path.toList → ∀ more : String,
        '\n' ∉ more.toList → parseRoute (text ++ more) = some (verb, path ++ more)) ∧
      ((∃ c ∈ firstWord text.toList, 128 ≤ c.toNat) → parseRoute text = none) := by
  have hgrammar (text path : String) (verb : Verb) :
      parseRoute text = some (verb, path) ↔ RouteText verb path.toList text.toList :=
    parseRoute_eq_some_iff.trans parseRouteChars_eq_some_iff
  refine ⟨hgrammar text path verb, ?_, ?_⟩
  · intro h hpath more hmore
    have hroute := ((hgrammar text path verb).1 h).append hpath hmore
    rw [hgrammar, String.toList_append, String.toList_append]
    exact hroute
  · rintro ⟨c, hc, hascii⟩
    cases h : parseRoute text with
    | none => rfl
    | some route =>
      obtain ⟨verb, path⟩ := route
      have hword := ((hgrammar text path verb).1 h).firstWord
      have hvisible := hword.visible hc
      simp only [isVisible, Bool.and_eq_true, decide_eq_true_eq] at hvisible
      omega

/-- Blanks behind a path are kept, and a long s is not a letter of a verb. -/
theorem routes_with_blanks :
    parseRoute "\tGeT \n/users/:id" = some (.get, "/users/:id") ∧
      parseRoute ("\tGeT \n/users/:id" ++ " \t") = some (.get, "/users/:id" ++ " \t") ∧
      parseRoute "poſt /users" = none := by
  have hpath : Flush "/users/:id".toList := by
    intro c hc
    cases hc
    rfl
  have hroute : parseRoute "\tGeT \n/users/:id" = some (.get, "/users/:id") := by
    obtain ⟨hgrammar, -, -⟩ := parseRoute_grammar "\tGeT \n/users/:id" "/users/:id" .get
    exact hgrammar.2 ⟨['\t'], "GeT".toList, [' ', '\n'], by decide, by simp [isBlank], by decide,
      ⟨by decide, by simp [isBlank]⟩, by decide, by decide, .inl hpath⟩
  obtain ⟨-, hblanks, -⟩ := parseRoute_grammar "\tGeT \n/users/:id" "/users/:id" .get
  obtain ⟨-, -, hletter⟩ := parseRoute_grammar "poſt /users" "" .post
  exact ⟨hroute, hblanks hroute hpath " \t" (by decide),
    hletter ⟨'ſ', by decide, by decide⟩⟩

end DocRoutes
