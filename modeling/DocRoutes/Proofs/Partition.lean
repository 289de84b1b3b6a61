import DocRoutes.Proofs.ItemNames

/-!
# Which lines a record is made of

The records of a source are made of its lines of documentation. Each maximal run of such lines is
the body of one record, and the records come in the order of their runs.

**Bodies** (`Block.flatMap_body`). Put one after another, the bodies are the lines of documentation
of the source, each with its number: none is lost, none comes twice, and no other line is in a body.

**Names** (`Block.pairwise_ofLinesFrom`). A run is named after a line before the next run. A line of
documentation is not skipped in the search for an item, and it declares nothing; so the search ends
at the next run at the latest, and finds no name there.

**Theorem (`extract_partition`).** Reading records from a source never fails. There is one record for
each maximal run, with these bodies, and no two records have their names from the same line.
-/

namespace DocRoutes

open Text

/-! ## Lines of documentation -/

/-- A line of documentation begins with its marker after blanks, and with no fourth slash. -/
theorem docLine?_eq_some_iff {line text : List Char} {marker : Marker} :
    docLine? line = some (marker, text) ↔
      ∃ rest, trimStart line = marker.text ++ rest ∧ (marker = .outer → rest.head? ≠ some '/') ∧
        text = dropSpace rest := by
  constructor
  · intro h
    unfold docLine? at h
    split at h
    · next rest hline =>
      cases h
      exact ⟨rest, hline, nofun, rfl⟩
    · cases h
    · next rest hfour hline =>
      cases h
      refine ⟨rest, hline, fun _ hhead => ?_, rfl⟩
      obtain ⟨more, rfl⟩ := List.head?_eq_some_iff.1 hhead
      exact hfour more rfl
    · cases h
  · rintro ⟨rest, hline, hfour, rfl⟩
    unfold docLine?
    cases marker with
    | inner =>
      rw [show trimStart line = '/' :: '/' :: '!' :: rest from hline]
      rfl
    | outer =>
      rw [show trimStart line = '/' :: '/' :: '/' :: rest from hline]
      split
      · next heq => cases heq
      · next heq =>
        cases heq
        exact absurd rfl (hfour rfl)
      · next heq =>
        cases heq
        rfl
      · next hother => exact absurd rfl (hother rest)

/-- A line of documentation begins with a slash. -/
theorem head?_trim_of_docLine? {line : List Char} {d : Marker × List Char}
    (h : docLine? line = some d) : (trim line).head? = some '/' := by
  obtain ⟨rest, hline, -, -⟩ := docLine?_eq_some_iff.1 h
  have hslash : ∃ s, trimStart line = '/' :: s := by
    rw [hline]
    cases d.1 <;> exact ⟨_, rfl⟩
  obtain ⟨s, hs⟩ := hslash
  have hne : trim line ≠ [] := by
    rw [trim, hs]
    exact trimEnd_cons_ne_nil rfl s
  obtain ⟨t, ht⟩ := trimEnd_isPrefix (trimStart line)
  have hhead : (trim line ++ t).head? = some '/' := by
    rw [show trim line ++ t = trimStart line from ht, hs]
    rfl
  rwa [List.head?_append_of_ne_nil _ hne] at hhead

theorem not_skipped_of_docLine? {line : List Char} {d : Marker × List Char}
    (h : docLine? line = some d) : ¬Skipped line := by
  have hhead := head?_trim_of_docLine? h
  rintro (hnil | ⟨t, ht⟩)
  · rw [hnil] at hhead
    cases hhead
  · rw [← ht] at hhead
    exact absurd (Option.some.inj hhead) (by decide)

theorem not_lineDeclares_of_docLine? {line name : List Char} {d : Marker × List Char}
    (h : docLine? line = some d) : ¬LineDeclares line name := by
  intro hdeclares
  obtain ⟨c, hc, halpha⟩ := hdeclares.head
  obtain rfl : '/' = c := Option.some.inj ((head?_trim_of_docLine? h).symm.trans hc)
  exact absurd halpha (by decide)

/-! ## Maximal runs -/

/-- Lines with one marker at their place in a source, which neither the line before them nor the
line after them extends. -/
def IsMaximalRun (lines : List (List Char)) (b : Block) : Prop :=
  ∃ before run, lines = before ++ (run ++ b.following) ∧ b.number = before.length + 1 ∧
    IsRun b.marker run b.texts ∧ b.texts ≠ [] ∧ ¬Ends b.marker before ∧
    ¬Begins b.marker b.following

/-- The lines of a run with their numbers. -/
def Block.body (b : Block) : List (Nat × Marker × List Char) :=
  (b.texts.zipIdx b.number).map fun (text, number) => (number, b.marker, text)

/-- The lines of documentation with their numbers, where the first line has the given number. -/
def numberedDocLines (number : Nat) (lines : List (List Char)) : List (Nat × Marker × List Char) :=
  (lines.zipIdx number).filterMap fun (line, number) => (docLine? line).map ((number, ·))

/-- The name of a run, taken from the line with the number: the first line after the run that is
not skipped. -/
def Block.NamedOn (b : Block) (number : Nat) (name : List Char) : Prop :=
  b.marker = .outer ∧ ∃ gap line after, b.following = gap ++ line :: after ∧
    (∀ l ∈ gap, Skipped l) ∧ ¬Skipped line ∧ itemName? (trim line) = some name ∧
    number = b.number + b.texts.length + gap.length

namespace Block

theorem mem_ofLines_iff {lines : List (List Char)} {b : Block} :
    b ∈ ofLines lines ↔ IsMaximalRun lines b := by
  constructor
  · intro h
    obtain ⟨before, run, hlines, hnumber, hrun, hne, hbefore, hafter⟩ := exists_isRun_of_mem h
    exact ⟨before, run, hlines, hnumber.trans (Nat.add_comm ..), hrun, hne, hbefore, hafter⟩
  · rintro ⟨before, run, rfl, hnumber, hrun, hne, hbefore, hafter⟩
    rw [ofLines, ofLinesFrom_of_isRun hrun hne hbefore hafter, Nat.add_comm 1, ← hnumber]
    exact List.mem_append_right _ List.mem_cons_self

/-! ## Bodies -/

theorem numberedDocLines_cons_of_none {line : List Char} (h : docLine? line = none) (number : Nat)
    (rest : List (List Char)) :
    numberedDocLines number (line :: rest) = numberedDocLines (number + 1) rest := by
  simp [numberedDocLines, List.zipIdx_cons, h]

theorem numberedDocLines_cons_of_some {line : List Char} {d : Marker × List Char}
    (h : docLine? line = some d) (number : Nat) (rest : List (List Char)) :
    numberedDocLines number (line :: rest) =
      (number, d) :: numberedDocLines (number + 1) rest := by
  simp [numberedDocLines, List.zipIdx_cons, h]

theorem numberedDocLines_append (number : Nat) (lines more : List (List Char)) :
    numberedDocLines number (lines ++ more) =
      numberedDocLines number lines ++ numberedDocLines (number + lines.length) more := by
  rw [numberedDocLines, List.zipIdx_append, List.filterMap_append]
  rfl

theorem numberedDocLines_isRun {marker : Marker} {run texts : List (List Char)}
    (h : IsRun marker run texts) (number : Nat) (following : List (List Char)) :
    numberedDocLines number run = body ⟨marker, number, texts, following⟩ := by
  induction h generalizing number with
  | nil => rfl
  | cons hline _ ih =>
    rw [numberedDocLines_cons_of_some hline, ih]
    rfl

/-- **The bodies of the runs are the lines of documentation.** -/
theorem flatMap_body (number : Nat) (lines : List (List Char)) :
    (ofLinesFrom number lines).flatMap body = numberedDocLines number lines := by
  induction lines using lines_induction generalizing number with
  | nil => rfl
  | plain line rest hline ih =>
    rw [ofLinesFrom_cons_of_none hline, ih, numberedDocLines_cons_of_none hline]
  | run marker run texts rest hrun hne hrest ih =>
    rw [ofLinesFrom_isRun hrun hne hrest, List.flatMap_cons, ih, numberedDocLines_append,
      numberedDocLines_isRun hrun number rest]

example : (ofLines (lines "//! a\n/// b\n//// c\n  ///  d\nfn e".toList)).flatMap body =
    [(1, .inner, ['a']), (2, .outer, ['b']), (4, .outer, [' ', 'd'])] := by decide

/-! ## Names -/

theorem context?_eq_some_iff {b : Block} {name : List Char} :
    b.context? = some name ↔ ∃ number, b.NamedOn number name := by
  obtain ⟨marker, number, texts, following⟩ := b
  cases marker with
  | inner =>
    constructor
    · intro h
      cases h
    · rintro ⟨number', hmarker, -⟩
      cases hmarker
  | outer =>
    show ((following.map trim).find? mayBeginItem).bind itemName? = some name ↔ _
    constructor
    · intro h
      obtain ⟨text, htext, hname⟩ := Option.bind_eq_some_iff.1 h
      obtain ⟨gap, line, after, rfl, hgap, rfl⟩ := exists_of_find?_mayBeginItem htext
      refine ⟨_, rfl, gap, line, after, rfl, hgap, ?_, hname, rfl⟩
      exact fun hskipped => hskipped.not_lineDeclares (lineDeclares_of_itemName? hname)
    · rintro ⟨-, -, gap, line, after, hfollowing, hgap, hline, hname, -⟩
      obtain rfl : following = gap ++ line :: after := hfollowing
      rw [find?_mayBeginItem hgap hline, Option.bind_some, hname]

/-- The search for an item ends before the next line of documentation. -/
theorem length_lt_of_docLine {gap after before rest : List (List Char)} {line doc name : List Char}
    {d : Marker × List Char} (h : gap ++ line :: after = before ++ doc :: rest)
    (hgap : ∀ l ∈ gap, Skipped l) (hname : itemName? (trim line) = some name)
    (hdoc : docLine? doc = some d) : gap.length < before.length := by
  by_contra hle
  have hget : (gap ++ line :: after)[before.length]? = some doc := by
    rw [h]
    simp
  rcases Nat.lt_or_eq_of_le (Nat.not_lt.1 hle) with hlt | heq
  · rw [List.getElem?_append_left hlt] at hget
    exact not_skipped_of_docLine? hdoc (hgap doc (List.mem_of_getElem? hget))
  · rw [heq] at hget
    obtain rfl : line = doc := by simpa using hget
    exact not_lineDeclares_of_docLine? hdoc (lineDeclares_of_itemName? hname)

/-- **Runs come in order, and each is named before the next one begins.** -/
theorem pairwise_ofLinesFrom (number : Nat) (lines : List (List Char)) :
    (ofLinesFrom number lines).Pairwise fun b next =>
      b.number + b.texts.length ≤ next.number ∧
        ∀ line name, b.NamedOn line name → line < next.number := by
  induction lines using lines_induction generalizing number with
  | nil => exact .nil
  | plain line rest hline ih =>
    rw [ofLinesFrom_cons_of_none hline]
    exact ih _
  | run marker run texts rest hrun hne hrest ih =>
    rw [ofLinesFrom_isRun hrun hne hrest, List.pairwise_cons]
    refine ⟨fun next hnext => ?_, ih _⟩
    obtain ⟨before, run', hrest', hnumber, hrun', hne', -, -⟩ := exists_isRun_of_mem hnext
    have hlength : run.length = texts.length := List.Forall₂.length_eq hrun
    refine ⟨by rw [hnumber, hlength]; exact Nat.le_add_right .., ?_⟩
    rintro line name ⟨-, gap, item, after, hfollowing, hgap, -, hname, rfl⟩
    obtain ⟨text, texts', htexts⟩ := List.exists_cons_of_ne_nil hne'
    rw [htexts] at hrun'
    obtain ⟨doc, more, hdoc, -, rfl⟩ := List.forall₂_cons_right_iff.1 hrun'
    have hlines : gap ++ item :: after = before ++ doc :: (more ++ next.following) :=
      hfollowing.symm.trans hrest'
    have hlt := length_lt_of_docLine hlines hgap hname hdoc
    show number + texts.length + gap.length < next.number
    omega

/-- Names of different runs stand on different lines. -/
theorem NamedOn.lt {b next : Block} {line line' : Nat} {name name' : List Char}
    (h : ∀ line name, b.NamedOn line name → line < next.number) (hb : b.NamedOn line name)
    (hnext : next.NamedOn line' name') : line < line' := by
  obtain ⟨-, gap, item, after, -, -, -, -, rfl⟩ := hnext
  have hlt := h line name hb
  omega

/-- The line of a name is the line of the source with its number. -/
theorem NamedOn.exists_line {lines : List (List Char)} {b : Block} {number : Nat}
    {name : List Char} (hrun : IsMaximalRun lines b) (h : b.NamedOn number name) :
    ∃ line, lines[number - 1]? = some line ∧ LineDeclares line name := by
  obtain ⟨before, run, rfl, hnumber, hrun, -⟩ := hrun
  obtain ⟨-, gap, line, after, hfollowing, -, -, hname, rfl⟩ := h
  have hlength : run.length = b.texts.length := List.Forall₂.length_eq hrun
  refine ⟨line, ?_, lineDeclares_of_itemName? hname⟩
  have hindex : b.number + b.texts.length + gap.length - 1 =
      (before ++ (run ++ gap)).length := by
    rw [List.length_append, List.length_append, hnumber, hlength]
    omega
  have hsplit : before ++ (run ++ b.following) = (before ++ (run ++ gap)) ++ line :: after := by
    simp [hfollowing]
  rw [hsplit, hindex]
  simp

/-! ## Reports -/

theorem mem_tagsFrom {number : Nat} {texts : List (List Char)} {t : NumberedTag}
    (h : t ∈ tagsFrom number texts) :
    ∃ text first, (text, t.number) ∈ texts.zipIdx number ∧
      tagLine? text = some (t.kind, first) := by
  induction texts generalizing number with
  | nil => cases h
  | cons text rest ih =>
    have hlater (hrest : t ∈ tagsFrom (number + 1) rest) :
        ∃ text' first, (text', t.number) ∈ (text :: rest).zipIdx number ∧
          tagLine? text' = some (t.kind, first) := by
      obtain ⟨text', first, hmem, htag⟩ := ih hrest
      exact ⟨text', first, List.mem_cons_of_mem _ hmem, htag⟩
    rw [tagsFrom] at h
    cases htext : tagLine? text with
    | none =>
      rw [htext] at h
      exact hlater h
    | some d =>
      rw [htext] at h
      rcases List.mem_cons.1 h with rfl | h
      · exact ⟨text, d.2, List.mem_cons_self, htext⟩
      · exact hlater h

/-- Only a parameter tag is reported, with the number of its line. -/
theorem of_mem_toTag {t : NumberedTag} {p : NamelessParam} (h : p ∈ t.toTag.2) :
    t.kind = Tag.paramKind.toList ∧ p.line = t.number := by
  unfold NumberedTag.toTag at h
  dsimp only at h
  split at h
  · next hkind =>
    split at h
    · cases h
    · rw [List.mem_singleton.1 h, ← hkind, String.toList_ofList]
      exact ⟨rfl, rfl⟩
  · cases h

/-- What a record reports stands in its body. -/
theorem exists_body_of_nameless {b : Block} {p : NamelessParam} (h : p ∈ b.toRecord.2) :
    ∃ marker text first, (p.line, marker, text) ∈ b.body ∧
      tagLine? (trim text) = some (Tag.paramKind.toList, first) := by
  obtain ⟨tag, htag, hp⟩ := List.mem_flatMap.1 h
  obtain ⟨t, ht, rfl⟩ := List.mem_map.1 htag
  obtain ⟨hkind, hline⟩ := of_mem_toTag hp
  obtain ⟨text, first, hmem, htext⟩ := mem_tagsFrom ht
  rw [List.zipIdx_map] at hmem
  obtain ⟨⟨text', number⟩, hmem, heq⟩ := List.mem_map.1 hmem
  obtain ⟨rfl, rfl⟩ := Prod.mk.inj heq
  refine ⟨b.marker, text', first, ?_, hkind ▸ htext⟩
  exact List.mem_map.2 ⟨(text', t.number), hmem, by rw [hline]⟩

end Block

/-! ## Main result -/

/-- **Records partition the lines of documentation.** Reading a source succeeds with one record for
each maximal run, in order. The bodies of the records are the lines of documentation with their
numbers, and a report about a parameter gives the number of its line. The name of a record is taken
from the line on which its item is found, never for an inner comment, and no two records share this
line. -/
theorem extract_partition (source : String) :
    ∃ runs : List Block,
      Extractor.comments.run source =
          .ok (runs.map (·.toRecord.1), runs.flatMap (·.toRecord.2)) ∧
        (∀ b, b ∈ runs ↔ IsMaximalRun (lines source.toList) b) ∧
        runs.Pairwise (fun b next => b.number + b.texts.length ≤ next.number) ∧
        runs.flatMap Block.body = numberedDocLines 1 (lines source.toList) ∧
        (∀ b ∈ runs, ∀ p ∈ b.toRecord.2, ∃ marker text first, (p.line, marker, text) ∈ b.body ∧
          tagLine? (trim text) = some (Tag.paramKind.toList, first)) ∧
        (∀ b ∈ runs, b.marker = .inner → b.toRecord.1.context = none) ∧
        (∀ b ∈ runs, ∀ name, b.toRecord.1.context = some name ↔
          ∃ number, b.NamedOn number name.toList) ∧
        (∀ b ∈ runs, ∀ number name, b.NamedOn number name →
          ∃ line, (lines source.toList)[number - 1]? = some line ∧ LineDeclares line name) ∧
        runs.Pairwise fun b next => ∀ number name number' name', b.NamedOn number name →
          next.NamedOn number' name' → number ≠ number' := by
  have hpairwise := Block.pairwise_ofLinesFrom 1 (lines source.toList)
  have hcontext (b : Block) : b.toRecord.1.context = b.context?.map .ofList := by
    rw [Block.toRecord, DocRecord.context_addTags]
  refine ⟨Block.ofLines (lines source.toList), ?_, fun b => Block.mem_ofLines_iff,
    hpairwise.imp And.left, Block.flatMap_body 1 _, fun b _ p => Block.exists_body_of_nameless,
    ?_, ?_, ?_, ?_⟩
  · simp only [Extractor.comments, extract, List.map_map, List.flatMap_map]
    rfl
  · intro b _ hmarker
    rw [hcontext, Block.context?, hmarker]
    rfl
  · intro b _ name
    rw [hcontext, ← Block.context?_eq_some_iff, Option.map_eq_some_iff]
    constructor
    · rintro ⟨chars, hchars, rfl⟩
      rw [hchars, String.toList_ofList]
    · intro hname
      exact ⟨_, hname, String.ofList_toList⟩
  · intro b hb number name
    exact Block.NamedOn.exists_line (Block.mem_ofLines_iff.1 hb)
  · refine hpairwise.imp fun h number name number' name' hb hnext => ?_
    exact Nat.ne_of_lt (Block.NamedOn.lt h.2 hb hnext)

/-- A run of inner and a run of outer comments. The second holds a description of two lines, a
parameter without a name, which is reported with its line, and a route that goes on in the next
line; it has its name from the item behind a blank line. -/
theorem extract_partition_of_two_runs :
    let source := "//! @module Users\n/// Shows one\n///  user.\n/// @param\n" ++
      "/// @apiRoute get\n///   /users\n\nfn show() {}"
    ∃ runs : List Block,
      Extractor.comments.run source =
        .ok (runs.map (·.toRecord.1), runs.flatMap (·.toRecord.2)) ∧
      runs.flatMap Block.body =
        [(1, .inner, "@module Users".toList), (2, .outer, "Shows one".toList),
          (3, .outer, " user.".toList), (4, .outer, "@param".toList),
          (5, .outer, "@apiRoute get".toList), (6, .outer, "  /users".toList)] ∧
      runs.map (fun b => (b.toRecord.1.description, b.toRecord.1.context)) =
        [("", none), ("Shows one\nuser.", some "show")] ∧
      runs.map (fun b => b.toRecord.1.tags.entries) =
        [[("module", [{ kind := "module", payload := "Users" }])],
          [("apiRoute", [{ kind := "apiRoute", payload := "get /users" }]),
            ("param", [{ kind := "param", payload := "" }])]] ∧
      runs.flatMap (·.toRecord.2) = [⟨4, ""⟩] := by
  intro source
  obtain ⟨runs, hrun, -, -, hbody, -⟩ := extract_partition source
  have hextract : extract source = (runs.map (·.toRecord.1), runs.flatMap (·.toRecord.2)) :=
    Except.ok.inj hrun
  have htexts : (extract source).1.map (fun r => (r.description, r.context)) =
      runs.map fun b => (b.toRecord.1.description, b.toRecord.1.context) := by
    rw [hextract, List.map_map]
    rfl
  have htags : (extract source).1.map (fun r => r.tags.entries) =
      runs.map fun b => b.toRecord.1.tags.entries := by
    rw [hextract, List.map_map]
    rfl
  refine ⟨runs, hrun, hbody.trans ?_, htexts.symm.trans ?_, htags.symm.trans ?_,
    (congrArg Prod.snd hextract).symm.trans ?_⟩
  all_goals decide +kernel

end DocRoutes
