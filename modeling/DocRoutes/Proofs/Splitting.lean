import Mathlib.Data.List.Basic
import Mathlib.Data.List.TakeWhile
import DocRoutes.Text.Blank
import DocRoutes.Text.Word

/-!
# Texts put together and taken apart

Cutting a text at a separator undoes joining with the separator (`splitAt_join`), and joining the
pieces of a text gives the text (`join_splitAt`). The lines of a text that consists of ended lines
are these lines (`lines_unlines`), if none of them holds a line feed or ends in a carriage return.
Behind a text that ends in a line feed a new line begins, so that the lines of two texts put
together are the lines of the one and of the other (`lines_append`).

A text is trimmed if no blank stands at either of its ends (`trimmed_of_ends`). Every text is its
trimming with blanks around it, and no other trimmed text has this property (`exists_trim_append`,
`trim_append`).
-/

namespace DocRoutes.Text

/-! ## Separators -/

variable {sep : Char}

theorem map_eq_self {α : Type} {f : α → α} {l : List α} (h : ∀ x ∈ l, f x = x) : l.map f = l := by
  rw [List.map_congr_left h, List.map_id']

theorem join_singleton (sep a : List Char) : join sep [a] = a := by
  simp [join, List.intersperse]

theorem join_cons_cons (sep a b : List Char) (rest : List (List Char)) :
    join sep (a :: b :: rest) = a ++ (sep ++ join sep (b :: rest)) := by
  simp [join]

theorem splitAt_ne_nil (sep : Char) (s : List Char) : splitAt sep s ≠ [] := by
  cases s with
  | nil => exact List.cons_ne_nil _ _
  | cons c s =>
    rw [splitAt]
    split
    · exact List.cons_ne_nil _ _
    · split <;> exact List.cons_ne_nil _ _

theorem splitAt_cons_of_ne {c : Char} (hc : c ≠ sep) {s piece : List Char}
    {rest : List (List Char)} (h : splitAt sep s = piece :: rest) :
    splitAt sep (c :: s) = (c :: piece) :: rest := by
  rw [splitAt, if_neg hc, h]

theorem splitAt_of_not_mem {a : List Char} (h : sep ∉ a) : splitAt sep a = [a] := by
  induction a with
  | nil => rfl
  | cons c a ih =>
    obtain ⟨hc, ha⟩ := not_or.1 (mt List.mem_cons.2 h)
    exact splitAt_cons_of_ne (Ne.symm hc) (ih ha)

/-- A separator cuts whatever stands before it. -/
theorem splitAt_append_cons (a s : List Char) :
    splitAt sep (a ++ sep :: s) = splitAt sep a ++ splitAt sep s := by
  induction a with
  | nil => exact if_pos rfl
  | cons c a ih =>
    obtain ⟨piece, rest, h⟩ := List.exists_cons_of_ne_nil (splitAt_ne_nil sep a)
    rw [h, List.cons_append] at ih
    by_cases hc : c = sep
    · simp [splitAt, hc, h, ih]
    · rw [List.cons_append, splitAt_cons_of_ne hc ih, splitAt_cons_of_ne hc h, List.cons_append]

theorem splitAt_append {a : List Char} (h : sep ∉ a) (s : List Char) :
    splitAt sep (a ++ sep :: s) = a :: splitAt sep s := by
  rw [splitAt_append_cons, splitAt_of_not_mem h, List.singleton_append]

/-- **Cutting undoes joining.** -/
theorem splitAt_join {pieces : List (List Char)} (hne : pieces ≠ [])
    (h : ∀ piece ∈ pieces, sep ∉ piece) : splitAt sep (join [sep] pieces) = pieces := by
  induction pieces with
  | nil => exact absurd rfl hne
  | cons a rest ih =>
    obtain ⟨ha, hrest⟩ := List.forall_mem_cons.1 h
    cases rest with
    | nil => rw [join_singleton, splitAt_of_not_mem ha]
    | cons b rest =>
      rw [join_cons_cons, List.singleton_append, splitAt_append ha, ih (List.cons_ne_nil _ _) hrest]

/-- **Joining undoes cutting.** -/
theorem join_splitAt (sep : Char) (s : List Char) : join [sep] (splitAt sep s) = s := by
  induction s with
  | nil => rfl
  | cons c s ih =>
    obtain ⟨piece, rest, h⟩ := List.exists_cons_of_ne_nil (splitAt_ne_nil sep s)
    rw [h] at ih
    by_cases hc : c = sep
    · rw [splitAt, if_pos hc, h, join_cons_cons, ih, hc]
      rfl
    · rw [splitAt_cons_of_ne hc h]
      cases rest with
      | nil => rw [join_singleton] at ih ⊢; rw [ih]
      | cons b rest => rw [join_cons_cons] at ih ⊢; rw [List.cons_append, ih]

theorem not_mem_of_mem_splitAt {s piece : List Char} (h : piece ∈ splitAt sep s) : sep ∉ piece := by
  induction s generalizing piece with
  | nil =>
    rw [List.mem_singleton.1 h]
    exact List.not_mem_nil
  | cons c s ih =>
    obtain ⟨first, rest, hs⟩ := List.exists_cons_of_ne_nil (splitAt_ne_nil sep s)
    rw [hs] at ih
    by_cases hc : c = sep
    · rw [splitAt, if_pos hc, hs] at h
      rcases List.mem_cons.1 h with rfl | h
      · exact List.not_mem_nil
      · exact ih h
    · rw [splitAt_cons_of_ne hc hs] at h
      rcases List.mem_cons.1 h with rfl | h
      · intro hmem
        rcases List.mem_cons.1 hmem with heq | hmem
        · exact hc heq.symm
        · exact ih List.mem_cons_self hmem
      · exact ih (List.mem_cons_of_mem _ h)

theorem not_mem_join {c : Char} {sep : List Char} {pieces : List (List Char)} (hsep : c ∉ sep)
    (h : ∀ piece ∈ pieces, c ∉ piece) : c ∉ join sep pieces := by
  induction pieces with
  | nil => exact List.not_mem_nil
  | cons a rest ih =>
    obtain ⟨ha, hrest⟩ := List.forall_mem_cons.1 h
    cases rest with
    | nil => rwa [join_singleton]
    | cons b rest =>
      rw [join_cons_cons]
      intro hmem
      rcases List.mem_append.1 hmem with hmem | hmem
      · exact ha hmem
      · exact (List.mem_append.1 hmem).elim hsep (ih hrest)

theorem subset_join {sep piece : List Char} {pieces : List (List Char)} (h : piece ∈ pieces) :
    piece ⊆ join sep pieces := by
  induction pieces with
  | nil => cases h
  | cons a rest ih =>
    cases rest with
    | nil => simp [List.mem_singleton.1 h, join_singleton]
    | cons b rest =>
      rw [join_cons_cons]
      rcases List.mem_cons.1 h with rfl | h
      · exact List.subset_append_left _ _
      · intro c hc
        exact List.mem_append_right _ (List.mem_append_right _ (ih h hc))

theorem subset_of_mem_splitAt {s piece : List Char} (h : piece ∈ splitAt sep s) : piece ⊆ s := by
  have hsubset : piece ⊆ join [sep] (splitAt sep s) := subset_join h
  rwa [join_splitAt] at hsubset

/-- The first separator ends what precedes it. -/
theorem cutAt_append {a : List Char} (h : sep ∉ a) (s : List Char) :
    cutAt sep (a ++ sep :: s) = (a, some s) := by
  have hall : ∀ c ∈ a, (c != sep) = true := fun c hc => by
    simpa using fun heq : c = sep => h (heq ▸ hc)
  unfold cutAt
  rw [List.dropWhile_append_of_pos hall, List.takeWhile_append_of_pos hall]
  simp

theorem cutAt_of_not_mem {s : List Char} (h : sep ∉ s) : cutAt sep s = (s, none) := by
  have hall : ∀ c ∈ s, (c != sep) = true := fun c hc => by
    simpa using fun heq : c = sep => h (heq ▸ hc)
  rw [cutAt, List.dropWhile_eq_nil_iff.2 hall, List.takeWhile_eq_self_iff.2 hall]

/-! ## Runs of characters -/

section Runs

variable {p : Char → Bool} {a b : List Char}

/-- A run of characters goes up to what it may not hold. -/
theorem takeWhile_append_of_stop (ha : ∀ c ∈ a, p c = true)
    (hb : ∀ c, b.head? = some c → p c = false) : (a ++ b).takeWhile p = a := by
  rw [List.takeWhile_append_of_pos ha]
  cases b with
  | nil => exact List.append_nil a
  | cons c b => rw [List.takeWhile_cons_of_neg (by simp [hb c rfl]), List.append_nil]

theorem dropWhile_append_of_stop (ha : ∀ c ∈ a, p c = true)
    (hb : ∀ c, b.head? = some c → p c = false) : (a ++ b).dropWhile p = b := by
  rw [List.dropWhile_append_of_pos ha]
  cases b with
  | nil => rfl
  | cons c b => exact List.dropWhile_cons_of_neg (by simp [hb c rfl])

end Runs

section Words

variable {word rest : List Char} (hword : ∀ c ∈ word, isBlank c = false)
  (hrest : ∀ c, rest.head? = some c → isBlank c = true)

include hword hrest

theorem takeWord_append : takeWord (word ++ rest) = word := by
  apply takeWhile_append_of_stop
  · simpa using hword
  · simpa using hrest

theorem dropWord_append : dropWord (word ++ rest) = rest := by
  apply dropWhile_append_of_stop
  · simpa using hword
  · simpa using hrest

end Words

/-! ## Lines -/

/-- A text of ended lines. -/
def unlines (lines : List (List Char)) : List Char := lines.flatMap (· ++ ['\n'])

/-- A line that stays as it is when a line feed ends it. -/
def Clean (line : List Char) : Prop := '\n' ∉ line ∧ line.getLast? ≠ some '\r'

theorem splitAt_unlines {ls : List (List Char)} (h : ∀ l ∈ ls, '\n' ∉ l) :
    splitAt '\n' (unlines ls) = ls ++ [[]] := by
  induction ls with
  | nil => rfl
  | cons l ls ih =>
    obtain ⟨hl, hls⟩ := List.forall_mem_cons.1 h
    rw [unlines, List.flatMap_cons, List.append_assoc, List.singleton_append, splitAt_append hl,
      ← unlines, ih hls]
    rfl

theorem dropReturn_of_clean {line : List Char} (h : Clean line) : dropReturn line = line :=
  if_neg h.2

/-- **The lines of a text of ended lines.** -/
theorem lines_unlines {ls : List (List Char)} (h : ∀ l ∈ ls, Clean l) :
    lines (unlines ls) = ls := by
  have hmap : ls.map dropReturn = ls := map_eq_self fun l hl => dropReturn_of_clean (h l hl)
  rw [lines, splitAt_unlines fun l hl => (h l hl).1]
  simp [hmap]

/-- A line feed ends a line, whatever comes after it. -/
theorem lines_append_newline (s t : List Char) :
    lines (s ++ '\n' :: t) = (splitAt '\n' s).map dropReturn ++ lines t := by
  have hne : splitAt '\n' t ≠ [] := splitAt_ne_nil '\n' t
  obtain ⟨last, hlast⟩ : ∃ last, (splitAt '\n' t).getLast? = some last :=
    ⟨_, List.getLast?_eq_some_getLast hne⟩
  have hlast' : (splitAt '\n' s ++ splitAt '\n' t).getLast? = some last := by
    rw [List.getLast?_append, hlast, Option.some_or]
  simp only [lines, splitAt_append_cons, List.dropLast_append_of_ne_nil hne, List.map_append,
    hlast, hlast']
  cases last <;> simp

/-- **Texts of whole lines.** The lines of two texts are those of the first and then those of the
second. -/
theorem lines_append {s : List Char} (h : s.getLast? = some '\n') (t : List Char) :
    lines (s ++ t) = lines s ++ lines t := by
  obtain ⟨s, rfl⟩ := List.getLast?_eq_some_iff.1 h
  rw [List.append_assoc, List.singleton_append, lines_append_newline, lines_append_newline,
    List.append_assoc]
  rfl

theorem Clean.append {a b : List Char} (ha : '\n' ∉ a) (hb : Clean b) (hne : b ≠ []) :
    Clean (a ++ b) := by
  refine ⟨fun hmem => (List.mem_append.1 hmem).elim ha hb.1, ?_⟩
  rw [List.getLast?_append_of_ne_nil a hne]
  exact hb.2

theorem Clean.cons {c : Char} {s : List Char} (hn : c ≠ '\n') (hr : c ≠ '\r') (hs : Clean s) :
    Clean (c :: s) := by
  refine ⟨fun hmem => (List.mem_cons.1 hmem).elim (Ne.symm hn) hs.1, ?_⟩
  cases s with
  | nil => simpa using hr
  | cons d s =>
    rw [List.getLast?_cons_cons]
    exact hs.2

/-! ## Trimmed texts -/

/-- A text without blanks at its ends. -/
def Trimmed (s : List Char) : Prop := trim s = s

instance (s : List Char) : Decidable (Trimmed s) := inferInstanceAs (Decidable (trim s = s))

theorem length_trimStart_le (s : List Char) : (trimStart s).length ≤ s.length :=
  (List.dropWhile_sublist _).length_le

theorem length_trimEnd_le (s : List Char) : (trimEnd s).length ≤ s.length := by
  calc (trimEnd s).length = (trimStart s.reverse).length := List.length_reverse
    _ ≤ s.reverse.length := length_trimStart_le s.reverse
    _ = s.length := List.length_reverse

theorem Trimmed.trimStart {s : List Char} (h : Trimmed s) : trimStart s = s := by
  have hle : s.length ≤ (Text.trimStart s).length := by
    have hend := length_trimEnd_le (Text.trimStart s)
    rwa [show trimEnd (Text.trimStart s) = s from h] at hend
  exact (List.dropWhile_sublist _).eq_of_length_le hle

theorem Trimmed.trimEnd {s : List Char} (h : Trimmed s) : trimEnd s = s := by
  have heq : Text.trimEnd (Text.trimStart s) = s := h
  rwa [h.trimStart] at heq

theorem Trimmed.head {s : List Char} (h : Trimmed s) {c : Char} (hc : s.head? = some c) :
    isBlank c = false :=
  head?_trimStart (h.trimStart.symm ▸ hc)

theorem Trimmed.last {s : List Char} (h : Trimmed s) {c : Char} (hc : s.getLast? = some c) :
    isBlank c = false :=
  getLast?_trimEnd (h.trimEnd.symm ▸ hc)

theorem trimmed_of_ends {s : List Char} (hhead : ∀ c, s.head? = some c → isBlank c = false)
    (hlast : ∀ c, s.getLast? = some c → isBlank c = false) : Trimmed s := by
  rw [Trimmed, trim, trimStart_eq_self hhead, trimEnd_eq_self hlast]

theorem trimEnd_cons_ne_nil {c : Char} (hc : isBlank c = false) (s : List Char) :
    Text.trimEnd (c :: s) ≠ [] := by
  rw [Text.trimEnd, List.reverse_cons, List.dropWhile_append]
  split
  · rw [List.dropWhile_cons_of_neg (by simp [hc])]
    exact List.cons_ne_nil _ _
  · simp

theorem trimEnd_isPrefix (s : List Char) : Text.trimEnd s <+: s := by
  have hsuffix : s.reverse.dropWhile isBlank <:+ s.reverse := List.dropWhile_suffix _
  rw [← List.reverse_prefix, List.reverse_reverse] at hsuffix
  exact hsuffix

theorem mem_of_mem_trim {s : List Char} {c : Char} (h : c ∈ trim s) : c ∈ s :=
  (List.dropWhile_sublist _).subset ((trimEnd_isPrefix _).subset h)

theorem trimmed_trim (s : List Char) : Trimmed (trim s) := by
  refine trimmed_of_ends (fun c hc => ?_) fun c hc => getLast?_trimEnd hc
  obtain ⟨t, ht⟩ := trimEnd_isPrefix (Text.trimStart s)
  refine head?_trimStart (s := s) ?_
  rw [← ht, List.head?_append, show (Text.trimEnd (Text.trimStart s)).head? = some c from hc]
  rfl

theorem head?_join {sep : List Char} {piece : List Char} {rest : List (List Char)}
    (hne : piece ≠ []) : (join sep (piece :: rest)).head? = piece.head? := by
  obtain ⟨c, s, rfl⟩ := List.exists_cons_of_ne_nil hne
  cases rest with
  | nil => rw [join_singleton]
  | cons b rest => rw [join_cons_cons]; rfl

theorem getLast?_join {sep piece : List Char} {pieces : List (List Char)}
    (h : pieces.getLast? = some piece) (hne : piece ≠ []) :
    (join sep pieces).getLast? = piece.getLast? := by
  induction pieces with
  | nil => cases h
  | cons a rest ih =>
    cases rest with
    | nil =>
      obtain rfl : a = piece := Option.some.inj h
      rw [join_singleton]
    | cons b rest =>
      rw [List.getLast?_cons_cons] at h
      have hlast := ih h
      have hjoin : join sep (b :: rest) ≠ [] := fun hnil => by
        rw [hnil, List.getLast?_eq_some_getLast hne] at hlast
        cases hlast
      have htail : sep ++ join sep (b :: rest) ≠ [] := List.append_ne_nil_of_right_ne_nil _ hjoin
      rw [join_cons_cons, List.getLast?_append_of_ne_nil a htail,
        List.getLast?_append_of_ne_nil sep hjoin, hlast]

/-- Trimmed pieces make a trimmed text if the first and the last one are not empty. -/
theorem trimmed_join {sep : List Char} {pieces : List (List Char)} (h : ∀ p ∈ pieces, Trimmed p)
    (hfirst : pieces.head? ≠ some []) (hlast : pieces.getLast? ≠ some []) :
    Trimmed (join sep pieces) := by
  cases pieces with
  | nil => rfl
  | cons a rest =>
    have ha : a ≠ [] := fun heq => hfirst (congrArg some heq)
    obtain ⟨piece, hpiece⟩ : ∃ piece, (a :: rest).getLast? = some piece :=
      ⟨_, List.getLast?_eq_some_getLast (List.cons_ne_nil a rest)⟩
    have hne : piece ≠ [] := fun heq => hlast (heq ▸ hpiece)
    refine trimmed_of_ends (fun c hc => ?_) fun c hc => ?_
    · rw [head?_join ha] at hc
      exact (h a List.mem_cons_self).head hc
    · rw [getLast?_join hpiece hne] at hc
      exact (h piece (List.mem_of_getLast? hpiece)).last hc

theorem Trimmed.clean {s : List Char} (h : Trimmed s) (hn : '\n' ∉ s) : Clean s :=
  ⟨hn, fun hr => absurd (h.last hr) (by decide)⟩

/-- Blanks are cut off the end of what is not blank altogether. -/
theorem trimEnd_append {a b : List Char} (h : trimEnd b ≠ []) :
    trimEnd (a ++ b) = a ++ trimEnd b := by
  have hsome : ¬(b.reverse.dropWhile isBlank).isEmpty := fun hempty => h <| by
    rw [trimEnd, List.isEmpty_iff.1 hempty, List.reverse_nil]
  rw [trimEnd, List.reverse_append, List.dropWhile_append, if_neg hsome, List.reverse_append,
    List.reverse_reverse]
  rfl

theorem trimStart_append {a s : List Char} (ha : ∀ c ∈ a, isBlank c = true) :
    trimStart (a ++ s) = trimStart s := List.dropWhile_append_of_pos ha

theorem trim_cons {c : Char} (hc : isBlank c = true) (s : List Char) : trim (c :: s) = trim s := by
  rw [trim, trimStart, List.dropWhile_cons_of_pos hc]
  rfl

theorem trimEnd_append_blanks {s b : List Char} (hb : ∀ c ∈ b, isBlank c = true) :
    trimEnd (s ++ b) = trimEnd s := by
  have hreverse : ∀ c ∈ b.reverse, isBlank c = true := fun c hc => hb c (List.mem_reverse.1 hc)
  rw [trimEnd, List.reverse_append, List.dropWhile_append_of_pos hreverse, trimEnd]

theorem exists_trimEnd_append (s : List Char) :
    ∃ b, s = trimEnd s ++ b ∧ ∀ c ∈ b, isBlank c = true := by
  refine ⟨(s.reverse.takeWhile isBlank).reverse, ?_, fun c hc => ?_⟩
  · rw [trimEnd, ← List.reverse_append, List.takeWhile_append_dropWhile, List.reverse_reverse]
  · exact List.mem_takeWhile_imp (List.mem_reverse.1 hc)

/-- Blanks are cut off down to the last character that is not blank. -/
theorem trimEnd_append_of_last {a : List Char} (h : ∀ c, a.getLast? = some c → isBlank c = false)
    (s : List Char) : trimEnd (a ++ s) = a ++ trimEnd s := by
  by_cases hs : trimEnd s = []
  · obtain ⟨b, hb, hblank⟩ := exists_trimEnd_append s
    rw [hs, List.nil_append] at hb
    rw [hs, hb, trimEnd_append_blanks hblank, trimEnd_eq_self h, List.append_nil]
  · exact trimEnd_append hs

/-- **What trimming cuts off.** -/
theorem trim_append {a m b : List Char} (ha : ∀ c ∈ a, isBlank c = true) (hm : Trimmed m)
    (hb : ∀ c ∈ b, isBlank c = true) : trim (a ++ (m ++ b)) = m := by
  rw [trim, trimStart_append ha]
  by_cases hnil : m = []
  · have hstart : trimStart b = [] := List.dropWhile_eq_nil_iff.2 hb
    rw [hnil, List.nil_append, hstart]
    rfl
  · have hstart : trimStart (m ++ b) = m ++ b := trimStart_eq_self fun c hc => by
      rw [List.head?_append_of_ne_nil _ hnil] at hc
      exact hm.head hc
    rw [hstart, trimEnd_append_blanks hb, hm.trimEnd]

theorem exists_trim_append (s : List Char) :
    ∃ a b, s = a ++ (trim s ++ b) ∧ (∀ c ∈ a, isBlank c = true) ∧ ∀ c ∈ b, isBlank c = true := by
  obtain ⟨b, hb, hblank⟩ := exists_trimEnd_append (trimStart s)
  refine ⟨s.takeWhile isBlank, b, ?_, fun c hc => List.mem_takeWhile_imp hc, hblank⟩
  rw [trim, ← hb, trimStart, List.takeWhile_append_dropWhile]

@[simp] theorem trim_trimEnd (s : List Char) : trim (trimEnd s) = trim s := by
  obtain ⟨b', hs, hb'⟩ := exists_trimEnd_append s
  obtain ⟨a, b, hend, ha, hb⟩ := exists_trim_append (trimEnd s)
  have hblank : ∀ c ∈ b ++ b', isBlank c = true := fun c hc =>
    (List.mem_append.1 hc).elim (hb c) (hb' c)
  have hsplit : s = a ++ (trim (trimEnd s) ++ (b ++ b')) := by
    conv => lhs; rw [hs, hend]
    simp only [List.append_assoc]
  conv => rhs; rw [hsplit]
  exact (trim_append ha (trimmed_trim _) hblank).symm

end DocRoutes.Text
