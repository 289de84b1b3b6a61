import DocRoutes.Proofs.ReadBack

/-!
# What the name of a parameter says

The name of a parameter is a text of any kind. Marks count on words only: an underscore before a
word, or before a word in brackets, makes the parameter local, and brackets around a word make it
optional. Every other text is a name as it stands, with all its characters.

**Segments** (`mentions_iff`). The path of a route names a parameter if `:name` stands in it
somewhere, and what touches it on either side is no word character. It need not be the first place
where `:name` stands (`Mentions.append_left`).

**Theorem (`classify_by_marks`).** The parameter is the one that these rules give (`Classified`).
-/

namespace DocRoutes

open Text

/-! ## Marks -/

/-- A word with the local mark. Brackets around the word count as part of the mark. -/
def LocalName (word raw : List Char) : Prop :=
  IsWord word ∧ (raw = '_' :: word ∨ raw = '_' :: '[' :: (word ++ [']']))

/-- A word in brackets. -/
def OptionalName (word raw : List Char) : Prop := IsWord word ∧ raw = '[' :: (word ++ [']'])

theorem wordName?_eq_some_iff {s word : List Char} :
    wordName? s = some word ↔ IsWord word ∧ s = word := by
  constructor
  · intro h
    rw [wordName?] at h
    split at h
    · next hs =>
      cases h
      exact ⟨⟨hs.1, List.all_eq_true.1 hs.2⟩, rfl⟩
    · cases h
  · rintro ⟨hword, rfl⟩
    exact wordName?_of_isWord hword

theorem bracketedName?_eq_some_iff {raw word : List Char} :
    bracketedName? raw = some word ↔ OptionalName word raw := by
  constructor
  · intro h
    unfold bracketedName? at h
    split at h
    · next s =>
      split at h
      · next hlast =>
        obtain ⟨hword, rfl⟩ := wordName?_eq_some_iff.1 h
        have hs : s.dropLast ++ [']'] = s := List.dropLast_append_getLast? _ hlast
        exact ⟨hword, by rw [hs]⟩
      · cases h
    · cases h
  · rintro ⟨hword, rfl⟩
    exact bracketedName?_brackets hword

theorem localName?_eq_some_iff {raw word : List Char} :
    localName? raw = some word ↔ LocalName word raw := by
  constructor
  · intro h
    unfold localName? at h
    split at h
    · next s =>
      have hread : wordName? s = some word ∨ wordName? s = none ∧ bracketedName? s = some word := by
        simpa using h
      rcases hread with h | ⟨-, h⟩
      · obtain ⟨hword, rfl⟩ := wordName?_eq_some_iff.1 h
        exact ⟨hword, .inl rfl⟩
      · obtain ⟨hword, rfl⟩ := bracketedName?_eq_some_iff.1 h
        exact ⟨hword, .inr rfl⟩
    · cases h
  · rintro ⟨hword, rfl | rfl⟩
    · rw [localName?, wordName?_of_isWord hword]
      rfl
    · -- the bracket is no word character, so the first reading fails
      have hbracket : wordName? ('[' :: (word ++ [']'])) = none := by
        rw [wordName?, if_neg]
        rintro ⟨-, hall⟩
        exact absurd (List.all_eq_true.1 hall '[' List.mem_cons_self) (by decide)
      rw [localName?, hbracket, bracketedName?_brackets hword]
      rfl

/-! ## Segments -/

theorem beginsBeyondWord_iff {s : List Char} :
    beginsBeyondWord s = true ↔ ∀ c, s.head? = some c → isWordChar c = false := by
  cases s with
  | nil => exact ⟨fun _ _ => nofun, fun _ => rfl⟩
  | cons c s => simp [beginsBeyondWord]

theorem endsBeyondWord_iff {s : List Char} :
    endsBeyondWord s = true ↔ ∀ c, s.getLast? = some c → isWordChar c = false := by
  rw [endsBeyondWord, beginsBeyondWord_iff, List.head?_reverse]

/-- Where a path mentions a name. -/
theorem mentions_iff {path name : List Char} :
    Mentions path name ↔ name ≠ [] ∧ ∃ before after, path = before ++ ':' :: (name ++ after) ∧
      (∀ c, before.getLast? = some c → isWordChar c = false) ∧
        ∀ c, after.head? = some c → isWordChar c = false := by
  simp only [Mentions, beginsBeyondWord_iff, endsBeyondWord_iff]

/-- A path that goes on in front mentions the same names, whatever stands there. -/
theorem Mentions.append_left {path name more : List Char} (h : Mentions path name)
    (hmore : endsBeyondWord more = true) : Mentions (more ++ path) name := by
  obtain ⟨hne, before, after, rfl, hbefore, hafter⟩ := h
  refine ⟨hne, more ++ before, after, by simp, ?_, hafter⟩
  rw [endsBeyondWord_iff] at hmore hbefore ⊢
  intro c hc
  rw [List.getLast?_append] at hc
  cases hlast : before.getLast? with
  | none =>
    rw [hlast] at hc
    exact hmore c hc
  | some d =>
    rw [hlast] at hc
    cases hc
    exact hbefore c hlast

theorem ownSource_eq_path_iff {verb : Verb} {path name : List Char} :
    ownSource verb path name = .path ↔ Mentions path name := by
  by_cases h : Mentions path name <;> cases verb <;> simp [ownSource, h]

/-! ## Main result -/

/-- The parameter that a documented name stands for on a route of this verb and path. -/
inductive Classified (verb : Verb) (path raw : List Char) : Param → Prop
  | marked {word : List Char} : LocalName word raw →
      Classified verb path raw { name := .ofList word, source := .local }
  | bracketed {word : List Char} : OptionalName word raw →
      Classified verb path raw
        { name := .ofList word, source := ownSource verb path word, optional := true }
  | plain : (∀ word, ¬LocalName word raw) → (∀ word, ¬OptionalName word raw) →
      Classified verb path raw { name := .ofList raw, source := ownSource verb path raw }

theorem classified_classifyChars (raw : List Char) (verb : Verb) (path : List Char) :
    Classified verb path raw (classifyChars raw verb path) := by
  rw [classifyChars]
  split
  · next hlocal => exact .marked (localName?_eq_some_iff.1 hlocal)
  · next hlocal =>
    split
    · next hoptional =>
      rw [sourceIn_eq_ownSource]
      exact .bracketed (bracketedName?_eq_some_iff.1 hoptional)
    · next hoptional =>
      rw [sourceIn_eq_ownSource]
      refine .plain (fun word hword => ?_) (fun word hword => ?_)
      · rw [localName?_eq_some_iff.2 hword] at hlocal
        cases hlocal
      · rw [bracketedName?_eq_some_iff.2 hword] at hoptional
        cases hoptional

theorem OptionalName.not_localName {word other raw : List Char} (h : OptionalName word raw) :
    ¬LocalName other raw := by
  rintro ⟨-, hraw⟩
  rw [h.2] at hraw
  rcases hraw with hraw | hraw <;> cases hraw

/-- The rules leave no choice. -/
theorem Classified.unique {verb : Verb} {path raw : List Char} {p q : Param}
    (hp : Classified verb path raw p) (hq : Classified verb path raw q) : p = q := by
  cases hp with
  | marked hword =>
    cases hq with
    | marked hother =>
      have hname := (localName?_eq_some_iff.2 hword).symm.trans (localName?_eq_some_iff.2 hother)
      cases hname
      rfl
    | bracketed hother => exact absurd hword hother.not_localName
    | plain hnone _ => exact absurd hword (hnone _)
  | bracketed hword =>
    cases hq with
    | marked hother => exact absurd hother hword.not_localName
    | bracketed hother =>
      have hname :=
        (bracketedName?_eq_some_iff.2 hword).symm.trans (bracketedName?_eq_some_iff.2 hother)
      cases hname
      rfl
    | plain _ hnone => exact absurd hword (hnone _)
  | plain hlocal hoptional =>
    cases hq with
    | marked hword => exact absurd hword (hlocal _)
    | bracketed hword => exact absurd hword (hoptional _)
    | plain => rfl

theorem classify_eq_iff {raw path : String} {verb : Verb} {p : Param} :
    classify raw verb path = p ↔ Classified verb path.toList raw.toList p := by
  constructor
  · rintro rfl
    exact classified_classifyChars raw.toList verb path.toList
  · exact fun h => (classified_classifyChars raw.toList verb path.toList).unique h

/-- **What the name of a parameter says.** The parameter is the one that the rules give. Its own
source is the path exactly if the name is not empty and `:name` stands in the path with no word
character on either side of it, wherever that is. So a path may go on in front of the place in any
way. -/
theorem classify_by_marks (raw path : String) (verb : Verb) :
    (∀ p, classify raw verb path = p ↔ Classified verb path.toList raw.toList p) ∧
    (∀ name, ownSource verb path.toList name = .path ↔ name ≠ [] ∧ ∃ before after,
      path.toList = before ++ ':' :: (name ++ after) ∧
        (∀ c, before.getLast? = some c → isWordChar c = false) ∧
          ∀ c, after.head? = some c → isWordChar c = false) ∧
    ∀ more : String, endsBeyondWord more.toList = true → (classify raw verb path).source = .path →
      classify raw verb (more ++ path) = classify raw verb path := by
  refine ⟨fun p => classify_eq_iff, fun name => ?_, fun more hmore hsource => ?_⟩
  · rw [ownSource_eq_path_iff, mentions_iff]
  · rw [classify_eq_iff, String.toList_append]
    -- the source is the path in front of which more is put, and stays so
    have hkept {name : List Char} (h : ownSource verb path.toList name = .path) :
        ownSource verb path.toList name = ownSource verb (more.toList ++ path.toList) name := by
      rw [h, eq_comm, ownSource_eq_path_iff]
      exact (ownSource_eq_path_iff.1 h).append_left hmore
    cases hp : classify raw verb path with
    | mk name source optional description types =>
    rw [hp] at hsource
    cases classify_eq_iff.1 hp with
    | marked hword => cases hsource
    | bracketed hword =>
      rw [hkept hsource]
      exact .bracketed hword
    | plain hlocal hoptional =>
      rw [hkept hsource]
      exact .plain hlocal hoptional

/-- The first place where the name stands belongs to a longer name, the second ends at a dot. -/
theorem names_of_item :
    classify "[id]" .get "/items/:idx/:id.json" =
        { name := "id", source := .path, optional := true } ∧
      classify "[id]" .get ("/u/:id2/" ++ "/items/:idx/:id.json") =
        { name := "id", source := .path, optional := true } ∧
      classify "_[id]" .get "/items/:id" = { name := "id", source := .local } ∧
      classify "a.b" .post "/items/:a_b" = { name := "a.b", source := .body } := by
  have hword : IsWord "id".toList := by decide
  obtain ⟨hbrackets, hpath, hmore⟩ := classify_by_marks "[id]" "/items/:idx/:id.json" .get
  obtain ⟨hmarks, -, -⟩ := classify_by_marks "_[id]" "/items/:id" .get
  obtain ⟨hdots, -, -⟩ := classify_by_marks "a.b" "/items/:a_b" .post
  have hsource : ownSource .get "/items/:idx/:id.json".toList "id".toList = .path :=
    (hpath "id".toList).2 ⟨by decide, "/items/:idx/".toList, ".json".toList, by decide,
      fun c hc => by cases hc; decide, fun c hc => by cases hc; decide⟩
  have hitem : classify "[id]" .get "/items/:idx/:id.json" =
      { name := "id", source := .path, optional := true } := by
    rw [hbrackets, ← hsource]
    exact .bracketed ⟨hword, rfl⟩
  refine ⟨hitem, ?_, (hmarks _).2 (.marked ⟨hword, .inr rfl⟩), (hdots _).2 ?_⟩
  · rw [hmore "/u/:id2/" (by decide) (by rw [hitem]), hitem]
  · have hbody : ownSource .post "/items/:a_b".toList "a.b".toList = .body := by decide
    rw [← hbody]
    refine .plain (fun word h => ?_) (fun word h => ?_)
    · rcases h.2 with h | h <;> cases h
    · cases h.2

end DocRoutes
