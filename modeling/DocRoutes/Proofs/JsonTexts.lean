import DocRoutes.Proofs.JsonGrammar

/-!
# Reading the texts of the grammar

**Theorem (`read?_eq_some_iff`).** The reader takes a text as a value exactly if the grammar has the
text for this value, with blanks around it.

The proof follows the levels of nesting. What it carries from level to level is `Reads`: a reader
reads a part of the grammar. It does so for values of no level (`reads_scalar`), and if it does so for
the values inside arrays and objects, then also for arrays and objects (`Reads.nested`). What the
grammar has after a value is a blank, a comma, a bracket or the end, and none of them continues a
number.

An object is read from the texts of objects and from no others, and its members are those of the text,
entered in their order (`documentText_obj_iff`).
-/

namespace DocRoutes.Json

open Text

/-! ## Blanks -/

theorem isJsonBlank_iff {c : Char} : isJsonBlank c = true ↔ c ∈ blanks := by
  simp [isJsonBlank, blanks, or_assoc]

theorem gap_nil : Gap [] := fun _ hc => nomatch hc

theorem skipBlanks_cons {c : Char} (h : isJsonBlank c = false) (s : List Char) :
    skipBlanks (c :: s) = c :: s := by
  simp [skipBlanks, h]

/-- What is skipped is a gap. -/
theorem exists_gap_append (s : List Char) : ∃ gap, s = gap ++ skipBlanks s ∧ Gap gap := by
  refine ⟨s.takeWhile isJsonBlank, List.takeWhile_append_dropWhile.symm, fun c hc => ?_⟩
  exact isJsonBlank_iff.1 (List.mem_takeWhile_imp hc)

theorem Gap.skipBlanks_append {gap : List Char} (h : Gap gap) (s : List Char) :
    skipBlanks (gap ++ s) = skipBlanks s :=
  List.dropWhile_append_of_pos fun c hc => isJsonBlank_iff.2 (h c hc)

theorem Gap.skipBlanks_append_cons {gap : List Char} (h : Gap gap) {c : Char}
    (hc : isJsonBlank c = false) (s : List Char) : skipBlanks (gap ++ c :: s) = c :: s := by
  rw [h.skipBlanks_append, skipBlanks_cons hc]

theorem endsNumber_nil : EndsNumber [] := fun _ hc => nomatch hc

theorem endsNumber_cons {c : Char} (h : c.isDigit = false ∧ c ≠ '.' ∧ c ≠ 'e' ∧ c ≠ 'E')
    (s : List Char) : EndsNumber (c :: s) := by
  intro d hd
  cases hd
  exact h

/-- Blanks end a number. -/
theorem Gap.endsNumber_append {gap s : List Char} (h : Gap gap) (hs : EndsNumber s) :
    EndsNumber (gap ++ s) := by
  cases gap with
  | nil => exact hs
  | cons c gap =>
    have hblanks : ∀ c ∈ blanks, c.isDigit = false ∧ c ≠ '.' ∧ c ≠ 'e' ∧ c ≠ 'E' := by
      simp [blanks]
    exact endsNumber_cons (hblanks c (h c List.mem_cons_self)) _

/-! ## Lists -/

def closings : List Char := [']', '\x7d']

/-- A reader reads a part of the grammar: what it takes is this part, it takes this part from a text
that does not go on as a number, and the part begins with neither a blank nor a closing bracket. -/
structure Reads {α : Type} (r : Reader α) (Part : List Char → α → Prop) : Prop where
  sound {s rest : List Char} {x : α} : r s = some (x, rest) → ∃ t, s = t ++ rest ∧ Part t x
  append {t rest : List Char} {x : α} : Part t x → EndsNumber rest → r (t ++ rest) = some (x, rest)
  start {t : List Char} {x : α} :
    Part t x → ∃ c tail, t = c :: tail ∧ isJsonBlank c = false ∧ c ∉ closings

section Lists

variable {α : Type} {item : Reader α} {Item : List Char → α → Prop} {closing : Char}

theorem Reads.padded_sound (h : Reads item Item) {s rest : List Char} {x : α}
    (hread : item (skipBlanks s) = some (x, rest)) :
    ∃ t, s = t ++ skipBlanks rest ∧ Padded Item t x := by
  obtain ⟨t, hs, ht⟩ := h.sound hread
  obtain ⟨before, hbefore, hgap⟩ := exists_gap_append s
  obtain ⟨after, hafter, hgap'⟩ := exists_gap_append rest
  refine ⟨before ++ t ++ after, ?_, .intro hgap ht hgap'⟩
  rw [List.append_assoc, ← hafter, List.append_assoc, ← hs, ← hbefore]

theorem Reads.padded_append (h : Reads item Item) {t rest : List Char} {x : α}
    (ht : Padded Item t x) (hrest : EndsNumber rest) (hblank : skipBlanks rest = rest) :
    ∃ s, item (skipBlanks (t ++ rest)) = some (x, s) ∧ skipBlanks s = rest := by
  cases ht with
  | @intro before t after _ hbefore ht hafter =>
    obtain ⟨c, tail, rfl, hc, -⟩ := h.start ht
    refine ⟨after ++ rest, ?_, by rw [hafter.skipBlanks_append, hblank]⟩
    rw [List.append_assoc, List.append_assoc, List.cons_append,
      hbefore.skipBlanks_append_cons hc, ← List.cons_append]
    exact h.append ht (hafter.endsNumber_append hrest)

theorem items_sound (h : Reads item Item) {n : Nat} {s rest : List Char} {xs : List α}
    (hread : items closing item n s = some (xs, rest)) :
    ∃ t, s = t ++ closing :: rest ∧ ItemsText Item t xs := by
  induction n generalizing s xs with
  | zero => cases hread
  | succ n ih =>
    obtain ⟨⟨x, s1⟩, hitem, hnext⟩ := Option.bind_eq_some_iff.1 hread
    obtain ⟨t, rfl, ht⟩ := h.padded_sound hitem
    dsimp only at hnext
    split at hnext
    · cases hnext
    next c s2 hs2 =>
      rw [hs2]
      split at hnext
      · next hcomma =>
        obtain ⟨⟨xs, s3⟩, hitems, heq⟩ := Option.bind_eq_some_iff.1 hnext
        cases heq
        obtain ⟨ts, rfl, hts⟩ := ih hitems
        exact ⟨t ++ ',' :: ts, by simp [hcomma], .cons ht hts⟩
      · split at hnext
        · next hclosing =>
          cases hnext
          exact ⟨t, by rw [hclosing], .single ht⟩
        · cases hnext

theorem closings_spec : ∀ c ∈ closings, isJsonBlank c = false ∧ c ≠ ',' ∧ c.isDigit = false ∧
    c ≠ '.' ∧ c ≠ 'e' ∧ c ≠ 'E' := by
  simp [closings, isJsonBlank]

theorem items_append (h : Reads item Item) (hclosing : closing ∈ closings) {t : List Char}
    {xs : List α} (ht : ItemsText Item t xs) {n : Nat} (hn : xs.length ≤ n) (rest : List Char) :
    items closing item n (t ++ closing :: rest) = some (xs, rest) := by
  obtain ⟨hblank, hcomma, hends⟩ := closings_spec closing hclosing
  induction ht generalizing n with
  | single ht =>
    obtain ⟨n, rfl⟩ := Nat.exists_eq_add_one_of_ne_zero (Nat.ne_zero_of_lt hn)
    obtain ⟨s, hread, hs⟩ := h.padded_append ht (endsNumber_cons hends rest)
      (skipBlanks_cons hblank rest)
    simp [items, hread, hs, hcomma]
  | @cons t ts x xs ht _ ih =>
    obtain ⟨n, rfl⟩ := Nat.exists_eq_add_one_of_ne_zero (Nat.ne_zero_of_lt hn)
    have hends : EndsNumber (',' :: (ts ++ closing :: rest)) := endsNumber_cons (by decide) _
    obtain ⟨s, hread, hs⟩ := h.padded_append ht hends (skipBlanks_cons rfl _)
    rw [List.append_assoc, List.cons_append, items, hread]
    simp [hs, ih (Nat.le_of_succ_le_succ hn)]

theorem ItemsText.length_le {t : List Char} {xs : List α} (h : ItemsText Item t xs) :
    xs.length ≤ t.length + 1 := by
  induction h with
  | single => simp
  | cons _ _ ih =>
    rw [List.length_append, List.length_cons, List.length_cons]
    omega

theorem ItemsText.skipBlanks_append (h : Reads item Item) {t : List Char} {xs : List α}
    (ht : ItemsText Item t xs) (rest : List Char) :
    ∃ c tail, skipBlanks (t ++ rest) = c :: tail ∧ c ∉ closings := by
  obtain ⟨t, ts, x, hx, rfl⟩ : ∃ u v x, Padded Item u x ∧ t = u ++ v := by
    cases ht with
    | single hx => exact ⟨_, [], _, hx, (List.append_nil _).symm⟩
    | cons hx => exact ⟨_, _, _, hx, rfl⟩
  cases hx with
  | @intro before u after _ hbefore hx =>
    obtain ⟨c, tail, rfl, hc, hclosing⟩ := h.start hx
    have htext : before ++ c :: tail ++ after ++ ts ++ rest =
        before ++ c :: (tail ++ (after ++ (ts ++ rest))) := by simp
    exact ⟨c, _, by rw [htext, hbefore.skipBlanks_append_cons hc], hclosing⟩

theorem bracketed_sound (h : Reads item Item) (opening : Char) {s rest : List Char} {xs : List α}
    (hread : bracketed closing item s = some (xs, rest)) :
    ∃ t, s = t ++ rest ∧ ListText opening closing Item (opening :: t) xs := by
  obtain ⟨gap, hs, hgap⟩ := exists_gap_append s
  unfold bracketed at hread
  split at hread
  · cases hread
  next c s1 hs1 =>
    split at hread
    · next hclosing =>
      cases hread
      refine ⟨gap ++ [closing], ?_, .empty hgap⟩
      rw [hs, hs1, hclosing]
      simp
    · obtain ⟨t, rfl, ht⟩ := items_sound h hread
      exact ⟨t ++ [closing], by simp, .items ht⟩

theorem ListText.bracketed_append (h : Reads item Item) (hclosing : closing ∈ closings)
    {opening : Char} {t : List Char} {xs : List α}
    (ht : ListText opening closing Item t xs) (rest : List Char) :
    ∃ s, t ++ rest = opening :: s ∧ bracketed closing item s = some (xs, rest) := by
  cases ht with
  | @empty gap hgap =>
    refine ⟨gap ++ closing :: rest, by simp, ?_⟩
    have hskip := hgap.skipBlanks_append_cons (closings_spec closing hclosing).1 rest
    simp [bracketed, hskip]
  | @items t _ ht =>
    refine ⟨t ++ closing :: rest, by simp, ?_⟩
    obtain ⟨c, tail, hskip, hc⟩ := ht.skipBlanks_append h (closing :: rest)
    have hne : c ≠ closing := fun heq => hc (heq ▸ hclosing)
    have hlength : xs.length ≤ (t ++ closing :: rest).length := by
      have := ht.length_le
      rw [List.length_append, List.length_cons]
      omega
    simp only [bracketed, hskip, if_neg hne]
    exact items_append h hclosing ht hlength rest

end Lists

/-! ## Values -/

theorem StringText.start {t : List Char} {s : String} (h : StringText t s) :
    ∃ tail, t = '"' :: tail := by
  cases h
  exact ⟨_, rfl⟩

theorem Reads.member {value : Reader Json} {Value : List Char → Json → Prop}
    (h : Reads value Value) : Reads (member value) (MemberText Value) where
  sound {s rest m} hread := by
    obtain ⟨⟨key, s1⟩, hkey, hcolon⟩ := Option.bind_eq_some_iff.1 hread
    obtain ⟨k, rfl, hk⟩ := string_sound hkey
    obtain ⟨gap, hgap, hgapped⟩ := exists_gap_append s1
    dsimp only at hcolon
    split at hcolon
    · next s2 hs2 =>
      obtain ⟨⟨v, s3⟩, hv, heq⟩ := Option.bind_eq_some_iff.1 hcolon
      cases heq
      obtain ⟨gap', hgap', hgapped'⟩ := exists_gap_append s2
      obtain ⟨t, ht, hvalue⟩ := h.sound hv
      refine ⟨k ++ gap ++ ':' :: (gap' ++ t), ?_, .intro hk hgapped hgapped' hvalue⟩
      rw [hgap, hs2, hgap', ht]
      simp
    · cases hcolon
  append {t rest m} ht hrest := by
    cases ht with
    | @intro k gap gap' t key v hk hgap hgap' ht =>
      obtain ⟨c, tail, rfl, hc, -⟩ := h.start ht
      have htext : k ++ gap ++ ':' :: (gap' ++ c :: tail) ++ rest =
          k ++ (gap ++ ':' :: (gap' ++ c :: (tail ++ rest))) := by simp
      have hvalue := h.append ht hrest
      rw [List.cons_append] at hvalue
      rw [htext, Json.member, hk.string_append]
      have hcolon : isJsonBlank ':' = false := rfl
      simp [hgap.skipBlanks_append_cons hcolon, hgap'.skipBlanks_append_cons hc, hvalue]
  start {t m} ht := by
    cases ht with
    | intro hk =>
      obtain ⟨tail, rfl⟩ := hk.start
      exact ⟨'"', _, rfl, rfl, by decide⟩

/-- A value of one or more levels: an array, an object, or else a value of no level. -/
theorem value_succ_of_ne {c : Char} (hbracket : c ≠ '[') (hbrace : c ≠ '\x7b') (depth : Nat)
    (s : List Char) : value (depth + 1) (c :: s) = value 0 (c :: s) := by
  simp [value, hbracket, hbrace]

theorem word_sound {w s rest : List Char} {v x : Json} (h : word w v s = some (x, rest)) :
    s = w ++ rest ∧ x = v := by
  unfold word at h
  split at h
  · next hprefix =>
    obtain ⟨tail, rfl⟩ := List.isPrefixOf_iff_prefix.1 hprefix
    rw [List.drop_left] at h
    cases h
    exact ⟨rfl, rfl⟩
  · cases h

theorem number_sound {s rest : List Char} {v : Json} (h : number s = some (v, rest)) :
    ∃ t, s = t ++ rest ∧ ScalarText t v := by
  obtain ⟨⟨l, s⟩, hl, hnext⟩ := Option.bind_eq_some_iff.1 h
  obtain ⟨v, hv, heq⟩ := Option.bind_eq_some_iff.1 hnext
  cases heq
  obtain ⟨t, rfl, ht⟩ := literal_sound hl
  exact ⟨t, rfl, .number ht hv⟩

theorem value_number {c : Char} (h : c = '-' ∨ c.isDigit = true) (depth : Nat) (s : List Char) :
    value depth (c :: s) = number (c :: s) := by
  have hother : c ≠ '"' ∧ c ≠ 'n' ∧ c ≠ 't' ∧ c ≠ 'f' := by
    refine ⟨?_, ?_, ?_, ?_⟩ <;> rintro rfl <;> revert h <;> decide
  unfold value
  rw [if_neg hother.1, if_neg hother.2.1, if_neg hother.2.2.1, if_neg hother.2.2.2, if_pos h]

theorem value_bracket (depth : Nat) (s : List Char) :
    value (depth + 1) ('[' :: s) =
      (bracketed ']' (value depth) s).map fun vs => (.arr vs.1, vs.2) := rfl

theorem value_brace (depth : Nat) (s : List Char) :
    value (depth + 1) ('\x7b' :: s) =
      (bracketed '\x7d' (member (value depth)) s).map fun fs => (object fs.1, fs.2) := rfl

theorem reads_scalar : Reads (value 0) ScalarText where
  sound {s rest v} hread := by
    cases s with
    | nil => cases hread
    | cons c s =>
      unfold value at hread
      split_ifs at hread with hquote hn ht hf hnumber
      · obtain ⟨⟨x, rest⟩, hx, heq⟩ := Option.map_eq_some_iff.1 hread
        cases heq
        obtain ⟨t, htext, ht⟩ := string_sound hx
        exact ⟨t, htext, .str ht⟩
      · obtain ⟨htext, rfl⟩ := word_sound hread
        exact ⟨_, htext, .null⟩
      · obtain ⟨htext, rfl⟩ := word_sound hread
        exact ⟨_, htext, .true⟩
      · obtain ⟨htext, rfl⟩ := word_sound hread
        exact ⟨_, htext, .false⟩
      · exact number_sound hread
  append {t rest v} ht hrest := by
    cases ht with
    | null => rfl
    | true => rfl
    | false => rfl
    | str ht =>
      have hread := ht.string_append rest
      obtain ⟨tail, rfl⟩ := ht.start
      rw [List.cons_append] at hread ⊢
      rw [value, if_pos rfl, hread, Option.map_some]
    | number ht hv =>
      have hread := ht.literal_append hrest
      obtain ⟨c, tail, rfl, hc⟩ := ht.start
      rw [List.cons_append] at hread ⊢
      rw [value_number hc, number, hread]
      simp [hv]
  start {t v} ht := by
    cases ht with
    | null | true | false => exact ⟨_, _, rfl, rfl, by decide⟩
    | str ht =>
      obtain ⟨tail, rfl⟩ := ht.start
      exact ⟨'"', tail, rfl, rfl, by decide⟩
    | number ht =>
      obtain ⟨c, tail, rfl, hc⟩ := ht.start
      have hother : ∀ d : Char, isJsonBlank d = true ∨ d ∈ closings →
          ¬(d = '-' ∨ d.isDigit = true) := by
        intro d hd
        rw [isJsonBlank_iff] at hd
        have hall : ∀ d ∈ blanks ++ closings, ¬(d = '-' ∨ d.isDigit = true) := by
          simp [blanks, closings]
        exact hall d (List.mem_append.2 hd)
      refine ⟨c, tail, rfl, ?_, fun hclosing => hother c (.inr hclosing) hc⟩
      rw [← Bool.not_eq_true]
      exact fun hblank => hother c (.inl hblank) hc

theorem Reads.nested {depth : Nat} {Value : List Char → Json → Prop}
    (h : Reads (value depth) Value) : Reads (value (depth + 1)) (NestedText Value) where
  sound {s rest v} hread := by
    match s with
    | [] => cases hread
    | c :: s =>
      by_cases hbracket : c = '['
      · subst hbracket
        rw [value_bracket] at hread
        obtain ⟨⟨vs, rest⟩, hvs, heq⟩ := Option.map_eq_some_iff.1 hread
        cases heq
        obtain ⟨t, rfl, ht⟩ := bracketed_sound h '[' hvs
        exact ⟨'[' :: t, rfl, .array ht⟩
      by_cases hbrace : c = '\x7b'
      · subst hbrace
        rw [value_brace] at hread
        obtain ⟨⟨ms, rest⟩, hms, heq⟩ := Option.map_eq_some_iff.1 hread
        cases heq
        obtain ⟨t, rfl, ht⟩ := bracketed_sound h.member '\x7b' hms
        exact ⟨'\x7b' :: t, rfl, .object ht⟩
      · rw [value_succ_of_ne hbracket hbrace] at hread
        obtain ⟨t, htext, ht⟩ := reads_scalar.sound hread
        exact ⟨t, htext, .scalar ht⟩
  append {t rest v} ht hrest := by
    cases ht with
    | scalar ht =>
      have hread := reads_scalar.append ht hrest
      obtain ⟨c, tail, rfl, -⟩ := reads_scalar.start ht
      have hbracket : c ≠ '[' := by
        rintro rfl
        cases hread
      have hbrace : c ≠ '\x7b' := by
        rintro rfl
        cases hread
      rw [List.cons_append] at hread ⊢
      rw [value_succ_of_ne hbracket hbrace, hread]
    | array ht =>
      obtain ⟨s, htext, hread⟩ := ht.bracketed_append h (by decide) rest
      rw [htext, value_bracket, hread, Option.map_some]
    | object ht =>
      obtain ⟨s, htext, hread⟩ := ht.bracketed_append h.member (by decide) rest
      rw [htext, value_brace, hread, Option.map_some]
  start {t v} ht := by
    cases ht with
    | scalar ht => exact reads_scalar.start ht
    | array ht => cases ht <;> exact ⟨'[', _, rfl, rfl, by decide⟩
    | object ht => cases ht <;> exact ⟨'\x7b', _, rfl, rfl, by decide⟩

theorem reads_value (depth : Nat) : Reads (value depth) (ValueText depth) := by
  induction depth with
  | zero => exact reads_scalar
  | succ depth ih => exact ih.nested

/-! ## Texts -/

/-- **The reader takes the texts of the grammar**, with the values that the grammar gives them. -/
theorem read?_eq_some_iff {s : String} {v : Json} :
    read? s = some v ↔ DocumentText s.toList v := by
  have hvalue := reads_value maxDepth
  constructor
  · intro h
    obtain ⟨⟨v, rest⟩, hv, hend⟩ := Option.bind_eq_some_iff.1 h
    obtain ⟨t, hs, ht⟩ := hvalue.padded_sound hv
    dsimp only at hend
    split at hend
    · next hempty =>
      cases hend
      rw [hs, List.isEmpty_iff.1 hempty, List.append_nil]
      exact ht
    · cases hend
  · intro h
    obtain ⟨rest, hread, hrest⟩ := hvalue.padded_append h endsNumber_nil rfl
    rw [List.append_nil] at hread
    rw [read?, hread]
    simp [hrest]

/-- A literal stands for a number. -/
theorem not_scalarText_obj {t : List Char} {fields : List (String × Json)} :
    ¬ScalarText t (.obj fields) := by
  intro h
  cases h with
  | number ht hv =>
    simp only [Literal.value?] at hv
    split_ifs at hv <;> simp at hv

/-- The text of an object, with its members in the order of the text. -/
def ObjectText : List Char → List (String × Json) → Prop :=
  Padded (MembersText (ValueText (maxDepth - 1)))

/-- The values that are objects are those of the texts of objects. -/
theorem documentText_obj_iff {s : List Char} {fields : List (String × Json)} :
    DocumentText s (.obj fields) ↔
      ∃ members, ObjectText s members ∧ fields = Keyed.insertAll [] members := by
  constructor
  · rintro ⟨hbefore, ht, hafter⟩
    cases ht with
    | scalar ht => exact absurd ht not_scalarText_obj
    | object ht => exact ⟨_, .intro hbefore ht hafter, rfl⟩
  · rintro ⟨members, ⟨hbefore, ht, hafter⟩, rfl⟩
    exact .intro hbefore (.object ht) hafter

end DocRoutes.Json
