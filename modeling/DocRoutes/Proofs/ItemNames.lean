import Mathlib.Data.List.TakeWhile
import DocRoutes.Proofs.ReadBack

/-!
# The item after a comment

The record of a comment is named after the item that follows the comment. The name is looked up on
one line: the first line after the comment that is neither blank nor one on which an attribute
begins.

**Declarations** (`Declares`). A line declares a name if it begins with some of the qualifiers, in
their order, a keyword, and the name. This is a grammar of lines and not of a language: a mark of a
raw name and a `mut` are no part of it.

**Reading** (`declares_of_nameAfter?`, `nameAfter?_of_declares`). What is read from a line is
declared by it. Conversely the reader tries each qualifier in turn and can only be misled by `const`,
which is a qualifier and a keyword. It then takes the name for the next word, and this fails unless
the name is one of the words of the grammar itself.

**Theorem (`item_of_comment`).** If only blank lines and lines with attributes stand between a comment
and a line that begins with a declaration, the record has the declared name, and its route is bound
to it. No line that begins with a declaration is passed over.

The theorem does not look behind an attribute. A declaration that shares its line with an attribute
is passed over, and the later lines of an attribute of several lines count as the item
(`later_item_of_comment`).
-/

namespace DocRoutes

open Text

/-! ## Lines that declare something -/

/-- Blanks between two words. -/
def IsGap (s : List Char) : Prop := s ≠ [] ∧ ∀ c ∈ s, isBlank c = true

/-- A text that no blank comes before. -/
def Flush (s : List Char) : Prop := ∀ c, s.head? = some c → isBlank c = false

/-- The words that qualifiers begin with, in their order. -/
def qualifierWords : List String := ["pub", "const", "async", "unsafe", "extern"]

/-- A qualifier that begins with the word, and the blanks after it. -/
inductive IsQualifier : String → List Char → Prop
  | word {w : String} {gap : List Char} :
      w ∈ ["pub", "const", "async", "unsafe"] → IsGap gap → IsQualifier w (w.toList ++ gap)
  | scope {scope gap : List Char} :
      ')' ∉ scope → IsGap gap → IsQualifier "pub" ("pub".toList ++ '(' :: (scope ++ ')' :: gap))
  | linkage {gap abi gap' : List Char} :
      IsGap gap → abi ≠ [] → (∀ c ∈ abi, isBlank c = false) → IsGap gap' →
      IsQualifier "extern" ("extern".toList ++ (gap ++ (abi ++ gap')))

/-- A line that declares a name: some of the qualifiers in their order, a keyword, the name, and
whatever stands after it. -/
inductive Declares : List String → List Char → List Char → Prop
  | item {keyword : String} {gap name rest : List Char} :
      keyword ∈ itemKeywords → IsGap gap → IsIdentifier name →
      (∀ c, rest.head? = some c → isWordChar c = false) →
      Declares [] (keyword.toList ++ (gap ++ (name ++ rest))) name
  | without {w : String} {words : List String} {s name : List Char} :
      Declares words s name → Declares (w :: words) s name
  | qualified {w : String} {words : List String} {q s name : List Char} :
      IsQualifier w q → Declares words s name → Declares (w :: words) (q ++ s) name

/-! ## Blanks and words -/

theorem someBlanks?_eq_some_iff {s r : List Char} :
    someBlanks? s = some r ↔ ∃ gap, IsGap gap ∧ Flush r ∧ s = gap ++ r := by
  constructor
  · intro h
    cases s with
    | nil => cases h
    | cons c s =>
      rw [someBlanks?] at h
      split at h
      · next hc =>
        cases h
        refine ⟨c :: s.takeWhile isBlank, ⟨List.cons_ne_nil _ _, ?_⟩,
          fun d hd => head?_trimStart hd, ?_⟩
        · intro d hd
          rcases List.mem_cons.1 hd with rfl | hd
          · exact hc
          · exact List.mem_takeWhile_imp hd
        · rw [List.cons_append, trimStart, List.takeWhile_append_dropWhile]
      · cases h
  · rintro ⟨gap, hgap, hr, rfl⟩
    obtain ⟨hne, hblank⟩ := hgap
    cases gap with
    | nil => exact absurd rfl hne
    | cons c gap =>
      obtain ⟨hc, hrest⟩ := List.forall_mem_cons.1 hblank
      rw [List.cons_append, someBlanks?, if_pos hc, trimStart, dropWhile_append_of_stop hrest hr]

theorem keyword?_eq_some_iff {w : String} {s r : List Char} :
    keyword? w s = some r ↔ ∃ gap, IsGap gap ∧ Flush r ∧ s = w.toList ++ (gap ++ r) := by
  rw [keyword?, Option.bind_eq_some_iff]
  constructor
  · rintro ⟨t, ht, h⟩
    obtain ⟨gap, hgap, hr, rfl⟩ := someBlanks?_eq_some_iff.1 h
    exact ⟨gap, hgap, hr, afterPrefix?_eq_some.1 ht⟩
  · rintro ⟨gap, hgap, hr, rfl⟩
    exact ⟨gap ++ r, afterPrefix?_eq_some.2 rfl, someBlanks?_eq_some_iff.2 ⟨gap, hgap, hr, rfl⟩⟩

theorem cutAt_eq_some {sep : Char} {s before rest : List Char}
    (h : cutAt sep s = (before, some rest)) : sep ∉ before ∧ s = before ++ sep :: rest := by
  unfold cutAt at h
  cases hdrop : s.dropWhile (· != sep) with
  | nil =>
    rw [hdrop] at h
    cases h
  | cons c r =>
    rw [hdrop] at h
    cases h
    obtain rfl : c = sep := by
      have hhead := List.head?_dropWhile_not (· != sep) s
      simpa [hdrop] using hhead
    refine ⟨fun hmem => ?_, ?_⟩
    · have hne := List.mem_takeWhile_imp hmem
      simp at hne
    · rw [← hdrop, List.takeWhile_append_dropWhile]

/-- `pub` without a scope, or with one. -/
theorem isQualifier_pub_iff {q : List Char} :
    IsQualifier "pub" q ↔ (∃ gap, IsGap gap ∧ q = "pub".toList ++ gap) ∨
      ∃ scope gap, ')' ∉ scope ∧ IsGap gap ∧ q = "pub".toList ++ '(' :: (scope ++ ')' :: gap) := by
  constructor
  · generalize hw : "pub" = w
    intro h
    cases h with
    | word _ hgap => exact .inl ⟨_, hgap, hw ▸ rfl⟩
    | scope hscope hgap => exact .inr ⟨_, _, hscope, hgap, rfl⟩
    | linkage => exact absurd hw (by decide)
  · rintro (⟨gap, hgap, rfl⟩ | ⟨scope, gap, hscope, hgap, rfl⟩)
    · exact .word (by decide) hgap
    · exact .scope hscope hgap

theorem isQualifier_extern_iff {q : List Char} :
    IsQualifier "extern" q ↔ ∃ gap abi gap', IsGap gap ∧ abi ≠ [] ∧
      (∀ c ∈ abi, isBlank c = false) ∧ IsGap gap' ∧
        q = "extern".toList ++ (gap ++ (abi ++ gap')) := by
  constructor
  · generalize hw : "extern" = w
    intro h
    cases h with
    | word hmem _ =>
      subst hw
      exact absurd hmem (by decide)
    | scope => exact absurd hw (by decide)
    | linkage hgap hne habi hgap' => exact ⟨_, _, _, hgap, hne, habi, hgap', rfl⟩
  · rintro ⟨gap, abi, gap', hgap, hne, habi, hgap', rfl⟩
    exact .linkage hgap hne habi hgap'

theorem visibility?_eq_some_iff {s r : List Char} :
    visibility? s = some r ↔ Flush r ∧ ∃ q, IsQualifier "pub" q ∧ s = q ++ r := by
  simp only [isQualifier_pub_iff]
  rw [visibility?, Option.bind_eq_some_iff]
  constructor
  · rintro ⟨t, ht, h⟩
    obtain rfl := afterPrefix?_eq_some.1 ht
    split at h
    · next t =>
      obtain ⟨t', ht', h⟩ := Option.bind_eq_some_iff.1 h
      obtain ⟨gap, hgap, hr, rfl⟩ := someBlanks?_eq_some_iff.1 h
      obtain ⟨hscope, hsplit⟩ := cutAt_eq_some (Prod.ext rfl ht')
      refine ⟨hr, _, .inr ⟨_, gap, hscope, hgap, rfl⟩, ?_⟩
      rw [List.append_assoc, List.cons_append, List.append_assoc, List.cons_append, ← hsplit]
    · obtain ⟨gap, hgap, hr, rfl⟩ := someBlanks?_eq_some_iff.1 h
      exact ⟨hr, _, .inl ⟨gap, hgap, rfl⟩, (List.append_assoc ..).symm⟩
  · rintro ⟨hr, q, ⟨gap, hgap, rfl⟩ | ⟨scope, gap, hscope, hgap, rfl⟩, rfl⟩
    · have hblanks := someBlanks?_eq_some_iff.2 ⟨gap, hgap, hr, rfl⟩
      refine ⟨gap ++ r, afterPrefix?_eq_some.2 (List.append_assoc ..), ?_⟩
      -- A gap does not begin with the parenthesis of a scope.
      cases gap with
      | nil => exact absurd rfl hgap.1
      | cons c gap =>
        have hc : isBlank c = true := hgap.2 c List.mem_cons_self
        split
        · next heq =>
          cases heq
          cases hc
        · exact hblanks
    · refine ⟨'(' :: (scope ++ ')' :: (gap ++ r)), afterPrefix?_eq_some.2 (by simp), ?_⟩
      show (cutAt ')' (scope ++ ')' :: (gap ++ r))).2.bind someBlanks? = some r
      rw [cutAt_append hscope]
      exact someBlanks?_eq_some_iff.2 ⟨gap, hgap, hr, rfl⟩

theorem flush_append {s : List Char} (hne : s ≠ []) (h : Flush s) (r : List Char) :
    Flush (s ++ r) := by
  intro c hc
  rw [List.head?_append_of_ne_nil _ hne] at hc
  exact h c hc

theorem linkage?_eq_some_iff {s r : List Char} :
    linkage? s = some r ↔ Flush r ∧ ∃ q, IsQualifier "extern" q ∧ s = q ++ r := by
  simp only [isQualifier_extern_iff]
  rw [linkage?, Option.bind_eq_some_iff]
  constructor
  · rintro ⟨t, ht, h⟩
    obtain ⟨gap, hgap, htflush, rfl⟩ := keyword?_eq_some_iff.1 ht
    obtain ⟨gap', hgap', hr, hdrop⟩ := someBlanks?_eq_some_iff.1 h
    have hsplit : takeWord t ++ (gap' ++ r) = t := hdrop ▸ takeWord_append_dropWord t
    refine ⟨hr, _, ⟨gap, takeWord t, gap', hgap, ?_, ?_, hgap', rfl⟩, ?_⟩
    · -- Otherwise the second gap would be a part of the first.
      intro hnil
      rw [hnil, List.nil_append] at hsplit
      obtain ⟨c, rest, hcons⟩ := List.exists_cons_of_ne_nil hgap'.1
      have hc : isBlank c = true := hgap'.2 c (hcons ▸ List.mem_cons_self)
      rw [htflush c (by rw [← hsplit, hcons]; rfl)] at hc
      cases hc
    · intro c hc
      simpa using List.mem_takeWhile_imp hc
    · simp only [List.append_assoc, hsplit]
  · rintro ⟨hr, q, ⟨gap, abi, gap', hgap, hne, habi, hgap', rfl⟩, rfl⟩
    have habi' : Flush (abi ++ (gap' ++ r)) :=
      flush_append hne (fun c hc => habi c (List.mem_of_head? hc)) _
    have hdrop : dropWord (abi ++ (gap' ++ r)) = gap' ++ r := by
      refine dropWhile_append_of_stop (fun c hc => by simpa using habi c hc) fun c hc => ?_
      rw [List.head?_append_of_ne_nil _ hgap'.1] at hc
      simpa using hgap'.2 c (List.mem_of_head? hc)
    refine ⟨abi ++ (gap' ++ r), keyword?_eq_some_iff.2 ⟨gap, hgap, habi', by simp⟩, ?_⟩
    rw [hdrop]
    exact someBlanks?_eq_some_iff.2 ⟨gap', hgap', hr, rfl⟩

/-! ## Qualifiers one after the other -/

/-- The reader of the qualifier that begins with a word. -/
def qualifier? (w : String) : List Char → Option (List Char) :=
  if w = "pub" then visibility? else if w = "extern" then linkage? else keyword? w

/-- The name that is declared after some qualifiers, each of which may be missing. -/
def nameAfter? : List String → List Char → Option (List Char)
  | [] => declared?
  | w :: words => optionally (qualifier? w) (nameAfter? words)

theorem itemName?_eq : itemName? = nameAfter? qualifierWords := by
  simp [itemName?, nameAfter?, qualifierWords, qualifier?]

theorem qualifier?_eq_some_iff {w : String} (hw : w ∈ qualifierWords) {s r : List Char} :
    qualifier? w s = some r ↔ Flush r ∧ ∃ q, IsQualifier w q ∧ s = q ++ r := by
  unfold qualifier?
  split
  · next heq =>
    subst heq
    exact visibility?_eq_some_iff
  · split
    · next heq =>
      subst heq
      exact linkage?_eq_some_iff
    · next hpub hextern =>
      rw [keyword?_eq_some_iff]
      constructor
      · rintro ⟨gap, hgap, hr, rfl⟩
        refine ⟨hr, _, .word ?_ hgap, (List.append_assoc ..).symm⟩
        simpa [qualifierWords, hextern] using hw
      · rintro ⟨hr, q, hq, rfl⟩
        cases hq with
        | word _ hgap => exact ⟨_, hgap, hr, List.append_assoc ..⟩
        | scope => exact absurd rfl hpub
        | linkage => exact absurd rfl hextern

/-! ## First words -/

/-- The word that a text begins with, if something else follows it. -/
def BeginsWord (w s : List Char) : Prop :=
  ∃ r, s = w ++ r ∧ ∀ c, r.head? = some c → isWordChar c = false

theorem BeginsWord.takeWordChars {w s : List Char} (h : BeginsWord w s)
    (hw : ∀ c ∈ w, isWordChar c = true) : takeWordChars s = w := by
  obtain ⟨r, rfl, hr⟩ := h
  exact takeWhile_append_of_stop hw hr

theorem IsGap.stop {gap : List Char} (h : IsGap gap) (r : List Char) {c : Char}
    (hc : (gap ++ r).head? = some c) : isWordChar c = false := by
  rw [List.head?_append_of_ne_nil _ h.1] at hc
  exact isWordChar_of_isBlank (h.2 c (List.mem_of_head? hc))

theorem IsQualifier.beginsWord {w : String} {q : List Char} (h : IsQualifier w q) (r : List Char) :
    BeginsWord w.toList (q ++ r) := by
  cases h with
  | word _ hgap => exact ⟨_, List.append_assoc .., fun c hc => hgap.stop r hc⟩
  | scope _ _ =>
    refine ⟨_, List.append_assoc .., fun c hc => ?_⟩
    cases hc
    decide
  | linkage hgap _ _ _ =>
    refine ⟨_, List.append_assoc .., fun c hc => ?_⟩
    rw [List.append_assoc] at hc
    exact hgap.stop _ hc

theorem isWordChar_of_mem {w : String} (hw : w ∈ qualifierWords ++ itemKeywords) :
    ∀ c ∈ w.toList, isWordChar c = true := by
  have hall : (qualifierWords ++ itemKeywords).all (·.toList.all isWordChar) = true := by decide
  exact List.all_eq_true.1 (List.all_eq_true.1 hall w hw)

/-- A text begins with at most one of the words. -/
theorem eq_of_beginsWord {w w' : String} (hw : w ∈ qualifierWords ++ itemKeywords)
    (hw' : w' ∈ qualifierWords ++ itemKeywords) {s : List Char} (h : BeginsWord w.toList s)
    (h' : BeginsWord w'.toList s) : w = w' := by
  rw [← String.toList_inj, ← h.takeWordChars (isWordChar_of_mem hw),
    h'.takeWordChars (isWordChar_of_mem hw')]

/-! ## Names after a keyword -/

theorem IsIdentifier.flush {s : List Char} (h : IsIdentifier s) (r : List Char) :
    Flush (s ++ r) :=
  flush_append h.ne_nil (fun c hc => h.isBlank c (List.mem_of_head? hc)) r

theorem identifier?_eq_some_iff {s name : List Char} :
    identifier? s = some name ↔ IsIdentifier name ∧ BeginsWord name s := by
  constructor
  · intro h
    cases s with
    | nil => cases h
    | cons c s =>
      rw [identifier?] at h
      split at h
      · next hc =>
        cases h
        refine ⟨⟨hc, fun d hd => List.mem_takeWhile_imp hd⟩, s.dropWhile isWordChar, ?_, ?_⟩
        · rw [List.cons_append, takeWordChars, List.takeWhile_append_dropWhile]
        · intro d hd
          have hstop := List.head?_dropWhile_not isWordChar s
          simpa [hd] using hstop
      · cases h
  · rintro ⟨hname, r, rfl, hr⟩
    exact hname.identifier?_append hr

theorem keyword_name_iff {keyword : String} {s name : List Char} :
    (keyword? keyword s).bind identifier? = some name ↔
      ∃ gap rest, IsGap gap ∧ IsIdentifier name ∧
        (∀ c, rest.head? = some c → isWordChar c = false) ∧
        s = keyword.toList ++ (gap ++ (name ++ rest)) := by
  rw [Option.bind_eq_some_iff]
  constructor
  · rintro ⟨t, ht, h⟩
    obtain ⟨gap, hgap, -, rfl⟩ := keyword?_eq_some_iff.1 ht
    obtain ⟨hname, rest, rfl, hrest⟩ := identifier?_eq_some_iff.1 h
    exact ⟨gap, rest, hgap, hname, hrest, rfl⟩
  · rintro ⟨gap, rest, hgap, hname, hrest, rfl⟩
    exact ⟨name ++ rest, keyword?_eq_some_iff.2 ⟨gap, hgap, hname.flush rest, rfl⟩,
      identifier?_eq_some_iff.2 ⟨hname, rest, rfl, hrest⟩⟩

theorem beginsWord_keyword {keyword : String} {gap : List Char} (hgap : IsGap gap)
    (r : List Char) : BeginsWord keyword.toList (keyword.toList ++ (gap ++ r)) :=
  ⟨_, rfl, fun _ hc => hgap.stop r hc⟩

theorem declared?_eq_some_iff {s name : List Char} :
    declared? s = some name ↔ Declares [] s name := by
  constructor
  · intro h
    obtain ⟨keyword, hkeyword, h⟩ := List.exists_of_findSome?_eq_some h
    obtain ⟨gap, rest, hgap, hname, hrest, rfl⟩ := keyword_name_iff.1 h
    exact .item hkeyword hgap hname hrest
  · intro h
    cases h with
    | @item keyword gap _ rest hkeyword hgap hname hrest =>
      have hread : (keyword? keyword (keyword.toList ++ (gap ++ (name ++ rest)))).bind identifier? =
          some name := keyword_name_iff.2 ⟨gap, rest, hgap, hname, hrest, rfl⟩
      cases h : declared? (keyword.toList ++ (gap ++ (name ++ rest))) with
      | none =>
        rw [List.findSome?_eq_none_iff.1 h keyword hkeyword] at hread
        cases hread
      | some other =>
        -- Whatever is found stands after the same keyword.
        obtain ⟨keyword', hkeyword', hother⟩ := List.exists_of_findSome?_eq_some h
        obtain ⟨gap', rest', hgap', -, -, heq⟩ := keyword_name_iff.1 hother
        obtain rfl : keyword = keyword' :=
          eq_of_beginsWord (List.mem_append_right _ hkeyword) (List.mem_append_right _ hkeyword')
            (beginsWord_keyword hgap _) (heq ▸ beginsWord_keyword hgap' _)
        exact hother.symm.trans hread

/-! ## What a line declares -/

/-- What is read is declared. -/
theorem declares_of_nameAfter? {words : List String} (hwords : words ⊆ qualifierWords)
    {s name : List Char} (h : nameAfter? words s = some name) : Declares words s name := by
  induction words generalizing s with
  | nil => exact declared?_eq_some_iff.1 h
  | cons w words ih =>
    obtain ⟨hw, hwords⟩ := List.cons_subset.1 hwords
    rw [nameAfter?, optionally] at h
    cases hafter : (qualifier? w s).bind (nameAfter? words) with
    | some other =>
      rw [hafter] at h
      cases h
      obtain ⟨r, hr, hname⟩ := Option.bind_eq_some_iff.1 hafter
      obtain ⟨-, q, hq, rfl⟩ := (qualifier?_eq_some_iff hw).1 hr
      exact .qualified hq (ih hwords hname)
    | none =>
      rw [hafter] at h
      exact .without (ih hwords h)

/-- A declaration begins with one of its qualifiers, or with its keyword. -/
theorem Declares.beginsWord {words : List String} {s name : List Char} (h : Declares words s name) :
    (∃ w ∈ words, BeginsWord w.toList s) ∨ Declares [] s name := by
  induction h with
  | item hkeyword hgap hname hrest => exact .inr (.item hkeyword hgap hname hrest)
  | without _ ih =>
    rcases ih with ⟨w, hw, hbegins⟩ | h
    · exact .inl ⟨w, List.mem_cons_of_mem _ hw, hbegins⟩
    · exact .inr h
  | qualified hq _ _ => exact .inl ⟨_, List.mem_cons_self, hq.beginsWord _⟩

theorem Declares.exists_word {words : List String} (hwords : words ⊆ qualifierWords)
    {s name : List Char} (h : Declares words s name) :
    ∃ w ∈ qualifierWords ++ itemKeywords, BeginsWord w.toList s := by
  rcases h.beginsWord with ⟨w, hw, hbegins⟩ | h
  · exact ⟨w, List.mem_append_left _ (hwords hw), hbegins⟩
  · cases h with
    | item hkeyword hgap _ _ =>
      exact ⟨_, List.mem_append_right _ hkeyword, beginsWord_keyword hgap _⟩

theorem flush_of_beginsWord {w : String} (hw : w ∈ qualifierWords ++ itemKeywords) {s : List Char}
    (h : BeginsWord w.toList s) : Flush s := by
  obtain ⟨r, rfl, -⟩ := h
  have hne : w.toList ≠ [] := by
    revert w
    decide
  refine flush_append hne (fun c hc => ?_) r
  exact isBlank_of_isWordChar (isWordChar_of_mem hw c (List.mem_of_head? hc))

theorem mem_of_qualifier_of_keyword {w : String} (h : w ∈ qualifierWords)
    (h' : w ∈ itemKeywords) : w ∈ ["pub", "const", "async", "unsafe"] := by
  revert w
  decide

/-- **What is declared is read**, unless the name is one of the words itself. -/
theorem nameAfter?_of_declares {words : List String} (hwords : words ⊆ qualifierWords)
    (hnodup : words.Nodup) {s name : List Char} (h : Declares words s name)
    (hname : ∀ w ∈ qualifierWords ++ itemKeywords, name ≠ w.toList) :
    nameAfter? words s = some name := by
  induction h with
  | item hkeyword hgap hident hrest =>
    exact declared?_eq_some_iff.2 (.item hkeyword hgap hident hrest)
  | @qualified w words q s name hq h ih =>
    obtain ⟨hw, hwords⟩ := List.cons_subset.1 hwords
    obtain ⟨w', hw', hbegins⟩ := h.exists_word hwords
    have hs : Flush s := flush_of_beginsWord hw' hbegins
    have hread : qualifier? w (q ++ s) = some s := (qualifier?_eq_some_iff hw).2 ⟨hs, q, hq, rfl⟩
    exact Route.optionally_of_some hread (ih hwords (List.nodup_cons.1 hnodup).2 hname)
  | @without w words s name h ih =>
    obtain ⟨hw, hwords⟩ := List.cons_subset.1 hwords
    obtain ⟨hnew, hnodup⟩ := List.nodup_cons.1 hnodup
    have hnext : nameAfter? words s = some name := ih hwords hnodup hname
    rw [nameAfter?, optionally]
    cases hafter : (qualifier? w s).bind (nameAfter? words) with
    | none => exact hnext
    | some other =>
      obtain ⟨r, hr, hother⟩ := Option.bind_eq_some_iff.1 hafter
      obtain ⟨-, q, hq, hsplit⟩ := (qualifier?_eq_some_iff hw).1 hr
      have hbegins : BeginsWord w.toList s := hsplit ▸ hq.beginsWord r
      rcases h.beginsWord with ⟨w', hw', hbegins'⟩ | hitem
      · obtain rfl : w = w' := eq_of_beginsWord (List.mem_append_left _ hw)
          (List.mem_append_left _ (hwords hw')) hbegins hbegins'
        exact absurd hw' hnew
      · -- The keyword was taken for a qualifier, so that the name is read as the next word.
        cases hitem with
        | @item keyword gap _ rest hkeyword hgap hident hrest =>
          obtain rfl : w = keyword := eq_of_beginsWord (List.mem_append_left _ hw)
            (List.mem_append_right _ hkeyword) hbegins (beginsWord_keyword hgap _)
          have hqualifier : IsQualifier w (w.toList ++ gap) :=
            .word (mem_of_qualifier_of_keyword hw hkeyword) hgap
          have hr' : qualifier? w (w.toList ++ (gap ++ (name ++ rest))) = some (name ++ rest) :=
            (qualifier?_eq_some_iff hw).2
              ⟨hident.flush rest, _, hqualifier, (List.append_assoc ..).symm⟩
          obtain rfl : name ++ rest = r := Option.some.inj (hr'.symm.trans hr)
          obtain ⟨w', hw', hbegins'⟩ :=
            (declares_of_nameAfter? hwords hother).exists_word hwords
          have hown : BeginsWord name (name ++ rest) := ⟨rest, rfl, hrest⟩
          refine absurd ?_ (hname w' hw')
          rw [← hown.takeWordChars hident.isWordChar,
            hbegins'.takeWordChars (isWordChar_of_mem hw')]

/-- What a line declares, with any of the qualifiers. -/
def LineDeclares (line name : List Char) : Prop := Declares qualifierWords (trim line) name

theorem lineDeclares_of_itemName? {line name : List Char}
    (h : itemName? (trim line) = some name) : LineDeclares line name := by
  rw [itemName?_eq] at h
  exact declares_of_nameAfter? (List.Subset.refl _) h

theorem itemName?_of_lineDeclares {line name : List Char} (h : LineDeclares line name)
    (hname : ∀ w ∈ qualifierWords ++ itemKeywords, name ≠ w.toList) :
    itemName? (trim line) = some name := by
  rw [itemName?_eq]
  exact nameAfter?_of_declares (List.Subset.refl _) (by decide) h hname

/-! ## Lines before the item -/

/-- A blank line, or one on which an attribute begins. -/
def Skipped (line : List Char) : Prop := trim line = [] ∨ "#[".toList <+: trim line

theorem mayBeginItem_eq_false_iff {line : List Char} :
    mayBeginItem (trim line) = false ↔ Skipped line := by
  have hattribute : (afterPrefix? "#[".toList (trim line)).isNone = false ↔
      "#[".toList <+: trim line := by
    rw [Option.isNone_eq_false_iff, Option.isSome_iff_exists]
    constructor
    · rintro ⟨r, hr⟩
      exact ⟨r, (afterPrefix?_eq_some.1 hr).symm⟩
    · rintro ⟨r, hr⟩
      exact ⟨r, afterPrefix?_eq_some.2 hr.symm⟩
  rw [mayBeginItem, Bool.and_eq_false_iff, hattribute, Skipped, Bool.not_eq_false',
    List.isEmpty_iff]

/-- A declaration begins with a letter. -/
theorem LineDeclares.head {line name : List Char} (h : LineDeclares line name) :
    ∃ c, (trim line).head? = some c ∧ c.isAlpha = true := by
  obtain ⟨w, hw, r, heq, -⟩ := Declares.exists_word (List.Subset.refl _) h
  have hwords : ∀ w ∈ qualifierWords ++ itemKeywords, w.toList.head?.any Char.isAlpha = true := by
    decide
  have halpha := hwords w hw
  cases hc : w.toList.head? with
  | none =>
    rw [hc] at halpha
    cases halpha
  | some c =>
    rw [hc] at halpha
    refine ⟨c, ?_, halpha⟩
    rw [heq, List.head?_append, hc, Option.some_or]

/-- A line that is skipped does not begin with a declaration. -/
theorem Skipped.not_lineDeclares {line name : List Char} (h : Skipped line) :
    ¬LineDeclares line name := by
  intro hdeclares
  obtain ⟨c, hc, halpha⟩ := hdeclares.head
  rcases h with hnil | ⟨t, ht⟩
  · rw [hnil] at hc
    cases hc
  · rw [← ht] at hc
    obtain rfl : '#' = c := Option.some.inj hc
    exact absurd halpha (by decide)

theorem find?_mayBeginItem {gap after : List (List Char)} {line : List Char}
    (hgap : ∀ l ∈ gap, Skipped l) (hline : ¬Skipped line) :
    ((gap ++ line :: after).map trim).find? mayBeginItem = some (trim line) := by
  induction gap with
  | nil =>
    refine List.find?_cons_of_pos ?_
    rw [← Bool.not_eq_false, mayBeginItem_eq_false_iff]
    exact hline
  | cons l gap ih =>
    obtain ⟨hl, hgap⟩ := List.forall_mem_cons.1 hgap
    rw [List.cons_append, List.map_cons,
      List.find?_cons_of_neg (by rw [mayBeginItem_eq_false_iff.2 hl]; decide), ih hgap]

theorem exists_of_find?_mayBeginItem {lines : List (List Char)} {text : List Char}
    (h : (lines.map trim).find? mayBeginItem = some text) :
    ∃ gap line after, lines = gap ++ line :: after ∧ (∀ l ∈ gap, Skipped l) ∧
      text = trim line := by
  induction lines with
  | nil => cases h
  | cons line lines ih =>
    cases hline : mayBeginItem (trim line) with
    | true =>
      rw [List.map_cons, List.find?_cons_of_pos hline] at h
      exact ⟨[], line, lines, rfl, nofun, (Option.some.inj h).symm⟩
    | false =>
      rw [List.map_cons, List.find?_cons_of_neg (by rw [hline]; decide)] at h
      obtain ⟨gap, item, after, rfl, hgap, htext⟩ := ih h
      refine ⟨line :: gap, item, after, rfl, ?_, htext⟩
      exact List.forall_mem_cons.2 ⟨mayBeginItem_eq_false_iff.1 hline, hgap⟩

/-! ## Main result -/

/-- A comment on the item after it: lines with the outer marker that cannot be extended. -/
structure CommentRun (source : String) (before run texts rest : List (List Char)) : Prop where
  lines : Text.lines source.toList = before ++ (run ++ rest)
  run : IsRun .outer run texts
  nonempty : texts ≠ []
  left : ¬Ends .outer before
  right : ¬Begins .outer rest

/-- The record of a comment. -/
def commentRecord (before texts rest : List (List Char)) : DocRecord :=
  (Block.toRecord ⟨.outer, before.length + 1, texts, rest⟩).1

theorem CommentRun.exists_records {source : String} {before run texts rest : List (List Char)}
    (h : CommentRun source before run texts rest) :
    ∃ earlier later, (extract source).1 = earlier ++ commentRecord before texts rest :: later ∧
      earlier.length = (Block.ofLines before).length := by
  have hblocks := Block.ofLinesFrom_of_isRun h.run h.nonempty h.left h.right 1
  rw [Nat.add_comm 1] at hblocks
  let records (blocks : List Block) := (blocks.map Block.toRecord).map (·.1)
  refine ⟨records ((Block.ofLines before).map (·.followedBy (run ++ rest))),
    records (Block.ofLinesFrom (before.length + 1 + run.length) rest), ?_, ?_⟩
  · rw [extract, h.lines, Block.ofLines, hblocks, List.map_append, List.map_append, List.map_cons,
      List.map_cons]
    rfl
  · rw [List.length_map, List.length_map, List.length_map]

/-- A record with a name is that of a comment on an item. -/
theorem exists_commentRun_of_context {source : String} {r : DocRecord}
    (hr : r ∈ (extract source).1) (hcontext : r.context ≠ none) :
    ∃ before run texts rest, CommentRun source before run texts rest ∧
      r = commentRecord before texts rest := by
  obtain ⟨p, hp, rfl⟩ := List.mem_map.1 hr
  obtain ⟨b, hb, rfl⟩ := List.mem_map.1 hp
  obtain ⟨before, run, hlines, hnumber, hrun, hne, hleft, hright⟩ := Block.exists_isRun_of_mem hb
  obtain ⟨marker, number, texts, rest⟩ := b
  cases marker with
  | inner =>
    rw [Block.toRecord, DocRecord.context_addTags] at hcontext
    exact absurd rfl hcontext
  | outer =>
    obtain rfl : number = before.length + 1 := hnumber.trans (Nat.add_comm ..)
    exact ⟨before, run, texts, rest, ⟨hlines, hrun, hne, hleft, hright⟩, rfl⟩

theorem context_commentRecord (before texts rest : List (List Char)) :
    (commentRecord before texts rest).context =
      (((rest.map trim).find? mayBeginItem).bind itemName?).map .ofList := by
  rw [commentRecord, Block.toRecord, DocRecord.context_addTags]
  rfl

/-- **The item of a comment.** Every comment with the outer marker has a record of its own. If
blank lines and lines with attributes follow it, and then a line that begins with a declaration, the
record has the declared name, and a route of the record is bound to that name. A record has no other
name: before the line that declares it stand only lines that are skipped, and no line is skipped
that begins with a declaration. -/
theorem item_of_comment (source : String) :
    (∀ before run texts rest, CommentRun source before run texts rest →
      ∃ earlier record later, (extract source).1 = earlier ++ record :: later ∧
        earlier.length = (Block.ofLines before).length ∧
        record = commentRecord before texts rest ∧
        (∀ gap line after name, rest = gap ++ line :: after → (∀ l ∈ gap, Skipped l) →
          LineDeclares line name → (∀ w ∈ qualifierWords ++ itemKeywords, name ≠ w.toList) →
          record.context = some (.ofList name) ∧
            ∀ route, record.toRoute = .ok route → route.name = .ofList name) ∧
        ∀ name, record.context = some name →
          ∃ gap line after, rest = gap ++ line :: after ∧ LineDeclares line name.toList ∧
            ∀ l ∈ gap, Skipped l ∧ ∀ other, ¬LineDeclares l other) ∧
    ∀ r ∈ (extract source).1, r.context ≠ none →
      ∃ before run texts rest, CommentRun source before run texts rest ∧
        r = commentRecord before texts rest := by
  refine ⟨fun before run texts rest h => ?_, fun r => exists_commentRun_of_context⟩
  obtain ⟨earlier, later, hrecords, hlength⟩ := h.exists_records
  refine ⟨earlier, _, later, hrecords, hlength, rfl, ?_, ?_⟩
  · rintro gap line after name rfl hgap hdeclares hname
    have hline : ¬Skipped line := fun hskipped => hskipped.not_lineDeclares hdeclares
    have hcontext : (commentRecord before texts (gap ++ line :: after)).context =
        some (.ofList name) := by
      rw [context_commentRecord, find?_mayBeginItem hgap hline, Option.bind_some,
        itemName?_of_lineDeclares hdeclares hname, Option.map_some]
    refine ⟨hcontext, fun route hroute => ?_⟩
    rw [DocRecord.context_of_toRoute hroute] at hcontext
    exact Option.some.inj hcontext
  · intro name hcontext
    rw [context_commentRecord] at hcontext
    obtain ⟨chars, hchars, rfl⟩ := Option.map_eq_some_iff.1 hcontext
    obtain ⟨text, htext, hitem⟩ := Option.bind_eq_some_iff.1 hchars
    obtain ⟨gap, line, after, hrest, hgap, rfl⟩ := exists_of_find?_mayBeginItem htext
    refine ⟨gap, line, after, hrest, ?_, fun l hl => ⟨hgap l hl, fun other => ?_⟩⟩
    · rw [String.toList_ofList]
      exact lineDeclares_of_itemName? hitem
    · exact (hgap l hl).not_lineDeclares

/-- The item of a comment may have qualifiers, and stand after blank lines and attributes. -/
theorem item_of_load :
    let source := "/// Load\n#[inline]\n\n#[must_use]\npub(crate) const fn load() {}\n"
    let line := "pub(crate) const fn load() {}".toList
    ∃ record ∈ (extract source).1, record.description = "Load" ∧ LineDeclares line "load".toList ∧
      record.context = some "load" := by
  intro source line
  let gap := ["#[inline]".toList, [], "#[must_use]".toList]
  have hlines : lines source.toList = "/// Load".toList :: (gap ++ [line]) := by decide
  have hrun : IsRun .outer ["/// Load".toList] ["Load".toList] := .cons rfl .nil
  have hcomment : CommentRun source [] ["/// Load".toList] ["Load".toList] (gap ++ [line]) :=
    { lines := hlines
      run := hrun
      nonempty := List.cons_ne_nil _ _
      left := not_ends_nil
      right := not_begins_of_none rfl _ }
  have hdeclares : LineDeclares line "load".toList := lineDeclares_of_itemName? (by decide)
  have hgap : ∀ l ∈ gap, Skipped l := fun l hl => mayBeginItem_eq_false_iff.1 (by
    revert l
    decide)
  obtain ⟨earlier, record, later, hrecords, -, hrecord, hcontext, -⟩ :=
    (item_of_comment source).1 _ _ _ _ hcomment
  refine ⟨record, ?_, ?_, hdeclares, (hcontext gap line [] _ rfl hgap hdeclares (by decide)).1⟩
  · rw [hrecords]
    exact List.mem_append_right _ List.mem_cons_self
  · rw [hrecord]
    decide

/-- The function `first` shares its line with an attribute, and the route of its comment is bound to
the function after it. After an attribute of several lines there is no name and no route. -/
theorem later_item_of_comment :
    let comment := "//! @module A\n\n/// @apiRoute get /a\n/// @apiReturns {Object} r\n"
    let shared := comment ++ "#[inline] pub fn first() {}\npub fn later() {}\n"
    let spread := comment ++ "#[cfg(\n    unix\n)]\npub fn first() {}\n"
    let item := "pub fn first() {}".toList
    let routes (source : String) := (readUnit .comments source).1.toOption.map fun doc =>
      doc.routes.map fun r => (r.path, r.name)
    LineDeclares item "first".toList ∧
      lines shared.toList = lines comment.toList ++
        ["#[inline] ".toList ++ item, "pub fn later() {}".toList] ∧
      (extract shared).1.map (·.context) = [none, some "later"] ∧
      routes shared = some [("/a", "later")] ∧
      lines spread.toList = lines comment.toList ++
        ["#[cfg(".toList, "    unix".toList, ")]".toList, item] ∧
      (extract spread).1.map (·.context) = [none, none] ∧ routes spread = some [] := by
  refine ⟨lineDeclares_of_itemName? (by decide), ?_⟩
  decide +kernel

end DocRoutes
