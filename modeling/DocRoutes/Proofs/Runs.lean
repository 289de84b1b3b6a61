import Mathlib.Data.List.Forall2
import DocRoutes.Doc.Comment

/-!
# Runs of documentation

`Block.ofLines` puts lines of documentation into runs, line by line. Its blocks are the maximal runs
of lines with one marker, each with all lines after it.

**Cutting** (`ofLinesFrom_append`). Where no run goes across, the blocks of lines are the blocks
before the cut, and then those after it.

**Runs** (`ofLinesFrom_of_isRun`, `exists_isRun_of_mem`). Lines with one marker that cannot be
extended on either side are a block, and every block comes from such lines.
-/

namespace DocRoutes

/-- The lines have the marker, with these texts. -/
def IsRun (marker : Marker) : List (List Char) → List (List Char) → Prop :=
  List.Forall₂ fun line text => docLine? line = some (marker, text)

/-- The first line has the marker. -/
def Begins (marker : Marker) (lines : List (List Char)) : Prop :=
  ∃ text, lines.head?.bind docLine? = some (marker, text)

/-- The last line has the marker. -/
def Ends (marker : Marker) (lines : List (List Char)) : Prop :=
  ∃ text, lines.getLast?.bind docLine? = some (marker, text)

variable {marker : Marker} {line text : List Char} {lines run texts rest : List (List Char)}

theorem not_begins_nil : ¬Begins marker [] := by
  rintro ⟨text, h⟩
  cases h

theorem not_ends_nil : ¬Ends marker [] := by
  rintro ⟨text, h⟩
  cases h

theorem Begins.append (h : Begins marker lines) (rest : List (List Char)) :
    Begins marker (lines ++ rest) := by
  cases lines with
  | nil => exact absurd h not_begins_nil
  | cons line lines => exact h

theorem ends_append (lines : List (List Char)) (h : rest ≠ []) :
    Ends marker (lines ++ rest) ↔ Ends marker rest := by
  rw [Ends, Ends, List.getLast?_append, List.getLast?_eq_some_getLast h, Option.some_or]

theorem not_begins_of_none (h : docLine? line = none) (rest : List (List Char)) :
    ¬Begins marker (line :: rest) := by
  rintro ⟨text, hline⟩
  rw [List.head?_cons, Option.bind_some, h] at hline
  cases hline

theorem IsRun.begins (h : IsRun marker run texts) (hne : texts ≠ []) : Begins marker run := by
  cases h with
  | nil => exact absurd rfl hne
  | cons hline _ => exact ⟨_, hline⟩

theorem IsRun.ends (h : IsRun marker run texts) (hne : texts ≠ []) : Ends marker run := by
  induction h with
  | nil => exact absurd rfl hne
  | @cons line text run texts hline hrun ih =>
    cases hrun with
    | nil => exact ⟨text, hline⟩
    | cons hnext hrun =>
      exact (ends_append [line] (List.cons_ne_nil _ _)).2 (ih (List.cons_ne_nil _ _))

/-- The last line of a run has no other marker. -/
theorem IsRun.marker_of_ends {other : Marker} (h : IsRun marker run texts)
    (hends : Ends other run) : other = marker := by
  induction h with
  | nil => exact absurd hends not_ends_nil
  | @cons line text run texts hline hrun ih =>
    cases hrun with
    | nil =>
      obtain ⟨text', hlast⟩ := hends
      rw [List.getLast?_singleton, Option.bind_some, hline] at hlast
      cases hlast
      rfl
    | cons hnext hrun => exact ih ((ends_append [line] (List.cons_ne_nil _ _)).1 hends)

theorem IsRun.length_pos (h : IsRun marker run texts) (hne : texts ≠ []) : 0 < run.length := by
  rw [List.Forall₂.length_eq h]
  exact List.length_pos_iff.2 hne

/-! ## One more line in front -/

namespace Block

theorem ofLinesFrom_cons_of_none (h : docLine? line = none) (number : Nat)
    (rest : List (List Char)) :
    ofLinesFrom number (line :: rest) = ofLinesFrom (number + 1) rest := by
  rw [ofLinesFrom, h]

/-- A line without a next line of its kind is a run of its own. -/
theorem ofLinesFrom_cons_of_not_begins (h : docLine? line = some (marker, text))
    (hrest : ¬Begins marker rest) (number : Nat) :
    ofLinesFrom number (line :: rest) =
      ⟨marker, number, [text], rest⟩ :: ofLinesFrom (number + 1) rest := by
  rw [ofLinesFrom, h]
  cases hnext : rest.head?.bind docLine? with
  | none => simp only
  | some d =>
    obtain ⟨next, text'⟩ := d
    have hother : next ≠ marker := fun heq => hrest ⟨text', heq ▸ hnext⟩
    cases hblocks : ofLinesFrom (number + 1) rest with
    | nil => simp only
    | cons b bs => simp only [if_neg hother]

/-- A line in front of a run belongs to it. -/
theorem ofLinesFrom_cons_of_begins (h : docLine? line = some (marker, text))
    (hrest : Begins marker rest) {number : Nat} {b : Block} {bs : List Block}
    (hblocks : ofLinesFrom (number + 1) rest = b :: bs) :
    ofLinesFrom number (line :: rest) = b.extend number text :: bs := by
  obtain ⟨text', hnext⟩ := hrest
  rw [ofLinesFrom, h]
  simp only [hnext, hblocks, if_true]

/-! ## Runs -/

/-- **Lines with one marker are one run.** -/
theorem ofLinesFrom_isRun (h : IsRun marker run texts) (hne : texts ≠ [])
    (hrest : ¬Begins marker rest) (number : Nat) :
    ofLinesFrom number (run ++ rest) =
      ⟨marker, number, texts, rest⟩ :: ofLinesFrom (number + run.length) rest := by
  induction h generalizing number with
  | nil => exact absurd rfl hne
  | @cons line text run texts hline hrun ih =>
    rw [List.cons_append]
    cases hrun with
    | nil => exact ofLinesFrom_cons_of_not_begins hline hrest number
    | @cons next text' run texts hnext hrun =>
      have hblocks := ih (List.cons_ne_nil _ _) (number + 1)
      have hbegins : Begins marker (next :: run ++ rest) := ⟨text', hnext⟩
      rw [ofLinesFrom_cons_of_begins hline hbegins hblocks, List.length_cons, List.length_cons,
        Nat.add_right_comm, Nat.add_assoc number]
      rfl

/-- A run at the beginning of lines that cannot be extended. -/
theorem exists_isRun_of_begins (h : Begins marker lines) :
    ∃ run texts rest, lines = run ++ rest ∧ IsRun marker run texts ∧ texts ≠ [] ∧
      ¬Begins marker rest := by
  induction lines with
  | nil => exact absurd h not_begins_nil
  | cons line rest ih =>
    obtain ⟨text, hline⟩ := h
    have hline : docLine? line = some (marker, text) := hline
    by_cases hrest : Begins marker rest
    · obtain ⟨run, texts, after, rfl, hrun, -, hafter⟩ := ih hrest
      exact ⟨line :: run, text :: texts, after, rfl, .cons hline hrun, List.cons_ne_nil _ _, hafter⟩
    · exact ⟨[line], [text], rest, rfl, .cons hline .nil, List.cons_ne_nil _ _, hrest⟩

/-- Induction on lines, where the lines of a run are taken together. -/
@[elab_as_elim]
theorem lines_induction {motive : List (List Char) → Prop} (nil : motive [])
    (plain : ∀ line rest, docLine? line = none → motive rest → motive (line :: rest))
    (run : ∀ marker run texts rest, IsRun marker run texts → texts ≠ [] → ¬Begins marker rest →
      motive rest → motive (run ++ rest)) (lines : List (List Char)) : motive lines := by
  induction hn : lines.length using Nat.strongRecOn generalizing lines with
  | _ n ih =>
    subst hn
    cases lines with
    | nil => exact nil
    | cons line rest =>
      cases hline : docLine? line with
      | none => exact plain line rest hline (ih rest.length (Nat.lt_succ_self _) rest rfl)
      | some d =>
        have hbegins : Begins d.1 (line :: rest) := ⟨d.2, hline⟩
        obtain ⟨lines, texts, after, hlines, hrun, hne, hafter⟩ := exists_isRun_of_begins hbegins
        have hpos := hrun.length_pos hne
        rw [hlines] at ih ⊢
        refine run d.1 lines texts after hrun hne hafter (ih after.length ?_ after rfl)
        rw [List.length_append]
        omega

/-- **Every block is a run that cannot be extended.** -/
theorem exists_isRun_of_mem {number : Nat} {b : Block} (h : b ∈ ofLinesFrom number lines) :
    ∃ before run, lines = before ++ (run ++ b.following) ∧ b.number = number + before.length ∧
      IsRun b.marker run b.texts ∧ b.texts ≠ [] ∧ ¬Ends b.marker before ∧
      ¬Begins b.marker b.following := by
  induction lines using lines_induction generalizing number with
  | nil => cases h
  | plain line rest hline ih =>
    rw [ofLinesFrom_cons_of_none hline] at h
    obtain ⟨before, run, rfl, hnumber, hrun, hne, hbefore, hafter⟩ := ih h
    refine ⟨line :: before, run, rfl, ?_, hrun, hne, ?_, hafter⟩
    · rw [hnumber, List.length_cons]
      omega
    · cases before with
      | nil =>
        rintro ⟨text, hlast⟩
        rw [List.getLast?_singleton, Option.bind_some, hline] at hlast
        cases hlast
      | cons first before =>
        exact fun hends => hbefore ((ends_append [line] (List.cons_ne_nil _ _)).1 hends)
  | run marker run texts rest hrun hne hrest ih =>
    rw [ofLinesFrom_isRun hrun hne hrest] at h
    rcases List.mem_cons.1 h with rfl | h
    · exact ⟨[], run, rfl, rfl, hrun, hne, not_ends_nil, hrest⟩
    · obtain ⟨before, run', rfl, hnumber, hrun', hne', hbefore, hafter⟩ := ih h
      refine ⟨run ++ before, run', (List.append_assoc ..).symm, ?_, hrun', hne', ?_, hafter⟩
      · rw [hnumber, List.length_append]
        omega
      · cases before with
        | nil =>
          -- Otherwise the second run would extend the first.
          rw [List.append_nil]
          intro hends
          rw [hrun.marker_of_ends hends] at hrun'
          exact hrest ((hrun'.begins hne').append _)
        | cons first before =>
          exact fun hends => hbefore ((ends_append run (List.cons_ne_nil _ _)).1 hends)

/-! ## Cutting -/

/-- The block with more lines after it. -/
def followedBy (b : Block) (more : List (List Char)) : Block :=
  { b with following := b.following ++ more }

/-- No run goes across from the first lines to the others. -/
def Apart (lines rest : List (List Char)) : Prop :=
  ∀ marker, Ends marker lines → ¬Begins marker rest

theorem Apart.of_append (first : List (List Char)) (h : Apart (first ++ lines) rest) :
    Apart lines rest := by
  intro marker hends
  cases lines with
  | nil => exact absurd hends not_ends_nil
  | cons line lines => exact h marker ((ends_append first (List.cons_ne_nil _ _)).2 hends)

/-- **Where no run goes across, blocks may be read on either side.** -/
theorem ofLinesFrom_append (h : Apart lines rest) (number : Nat) :
    ofLinesFrom number (lines ++ rest) =
      (ofLinesFrom number lines).map (·.followedBy rest) ++
        ofLinesFrom (number + lines.length) rest := by
  induction lines using lines_induction generalizing number with
  | nil => rfl
  | plain line lines hline ih =>
    have hapart : Apart lines rest := h.of_append [line]
    rw [List.cons_append, ofLinesFrom_cons_of_none hline, ofLinesFrom_cons_of_none hline,
      ih hapart, List.length_cons, Nat.add_right_comm, Nat.add_assoc number]
  | run marker run texts lines hrun hne hlines ih =>
    have hstop : ¬Begins marker (lines ++ rest) := by
      cases lines with
      | nil =>
        rw [List.append_nil] at h
        exact h marker (hrun.ends hne)
      | cons line lines => exact hlines
    rw [List.append_assoc, ofLinesFrom_isRun hrun hne hstop, ofLinesFrom_isRun hrun hne hlines,
      ih (h.of_append run), List.map_cons, List.cons_append, List.length_append, Nat.add_assoc]
    rfl

/-- **A run that cannot be extended is a block.** -/
theorem ofLinesFrom_of_isRun {before : List (List Char)} (h : IsRun marker run texts)
    (hne : texts ≠ []) (hbefore : ¬Ends marker before) (hafter : ¬Begins marker rest)
    (number : Nat) :
    ofLinesFrom number (before ++ (run ++ rest)) =
      (ofLinesFrom number before).map (·.followedBy (run ++ rest)) ++
        ⟨marker, number + before.length, texts, rest⟩ ::
          ofLinesFrom (number + before.length + run.length) rest := by
  have hapart : Apart before (run ++ rest) := by
    intro other hends hbegins
    obtain ⟨text, hbegins⟩ := hbegins
    obtain ⟨text', hrun⟩ := (h.begins hne).append rest
    rw [hrun] at hbegins
    cases hbegins
    exact hbefore hends
  rw [ofLinesFrom_append hapart, ofLinesFrom_isRun h hne hafter]

end Block

end DocRoutes
