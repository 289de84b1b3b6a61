import Mathlib.Data.List.Induction
import DocRoutes.Proofs.Locality
import DocRoutes.Proofs.Partition

/-!
# Tags over several lines

The words of a tag may stand on the line of the tag and on lines after it. Where the lines break
does not matter: the words are joined by single spaces again.

**Words** (`joinPayload_words`). The payload on the first line and what the lines after it add are
texts of words. Put together they are the text of all these words, and lines without words add
nothing.

**Tags of a comment** (`tagsFrom_append_tag`). A line that begins a tag ends the tag before it. So
the tags of a comment can be cut in front of such a line, and the lines before it are read without
it.

**Comments around it** (`Block.toRecord_followedBy_docLine`). A wrapped tag has more lines than the
same tag on one line. The comments below are moved down, which shows in reports only. A comment
above may look for its item at the first line of the tag, and finds none there either way.

**Theorem (`extract_wrapped`).** A source where the words of a tag are laid over several lines has
the same records, routes and rejections as the source with the tag on one line.
-/

namespace DocRoutes

open Text

/-! ## Words -/

/-- A word of a payload: not empty, and without blanks. -/
def IsPlainWord (w : List Char) : Prop := w ≠ [] ∧ ∀ c ∈ w, isBlank c = false

instance (w : List Char) : Decidable (IsPlainWord w) :=
  decidable_of_iff (w ≠ [] ∧ w.all (!isBlank ·) = true) (by simp [IsPlainWord])

theorem IsPlainWord.trimmed {w : List Char} (h : IsPlainWord w) : Trimmed w :=
  trimmed_of_ends (fun c hc => h.2 c (List.mem_of_head? hc))
    fun c hc => h.2 c (List.mem_of_getLast? hc)

section Words

variable {words more : List (List Char)}

/-- The first two texts may be put together beforehand. -/
theorem join_cons_append (sep a b : List Char) (rest : List (List Char)) :
    join sep (a :: b :: rest) = join sep ((a ++ (sep ++ b)) :: rest) := by
  cases rest with
  | nil => rw [join_cons_cons, join_singleton, join_singleton]
  | cons c rest =>
    rw [join_cons_cons, join_cons_cons, join_cons_cons]
    simp only [List.append_assoc]

theorem join_append {sep : List Char} (hwords : words ≠ []) (hmore : more ≠ []) :
    join sep (words ++ more) = join sep words ++ (sep ++ join sep more) := by
  induction words with
  | nil => exact absurd rfl hwords
  | cons a rest ih =>
    cases rest with
    | nil =>
      obtain ⟨b, more, rfl⟩ := List.exists_cons_of_ne_nil hmore
      rw [List.singleton_append, join_cons_cons, join_singleton]
    | cons b rest =>
      have hrest := ih (List.cons_ne_nil b rest)
      rw [List.cons_append, List.cons_append, join_cons_cons, join_cons_cons, ← List.cons_append,
        hrest]
      simp only [List.append_assoc]

theorem join_words_ne_nil (h : ∀ w ∈ words, IsPlainWord w) (hne : words ≠ []) :
    join [' '] words ≠ [] := by
  obtain ⟨w, rest, rfl⟩ := List.exists_cons_of_ne_nil hne
  have hw : w ≠ [] := (h w List.mem_cons_self).1
  cases rest with
  | nil => rwa [join_singleton]
  | cons b rest =>
    rw [join_cons_cons]
    exact List.append_ne_nil_of_left_ne_nil hw _

theorem newline_not_mem_join_words (h : ∀ w ∈ words, IsPlainWord w) :
    '\n' ∉ join [' '] words :=
  not_mem_join (by decide) fun w hw => not_mem_of_isBlank (h w hw).2 rfl

theorem trimmed_join_words (h : ∀ w ∈ words, IsPlainWord w) : Trimmed (join [' '] words) := by
  have hnil : [] ∉ words := fun hmem => (h [] hmem).1 rfl
  exact trimmed_join (fun w hw => (h w hw).trimmed) (fun hhead => hnil (List.mem_of_head? hhead))
    fun hlast => hnil (List.mem_of_getLast? hlast)

/-- **Words of one line and of the next line.** -/
theorem joinPayload_words (hwords : ∀ w ∈ words, IsPlainWord w) (hmore : ∀ w ∈ more, IsPlainWord w)
    (rest : List (List Char)) :
    joinPayload (join [' '] words) (join [' '] more :: rest) =
      joinPayload (join [' '] (words ++ more)) rest := by
  by_cases hw : words = []
  · rw [hw]
    rfl
  by_cases hm : more = []
  · have hblank : join [' '] [] = ([] : List Char) := rfl
    rw [hm, List.append_nil, hblank]
    simp [joinPayload, List.filter_cons]
  have hall : join [' '] (words ++ more) ≠ [] := by
    refine join_words_ne_nil (fun w h => ?_) (List.append_ne_nil_of_left_ne_nil hw _)
    exact (List.mem_append.1 h).elim (hwords w) (hmore w)
  have hfirst := join_words_ne_nil hwords hw
  have hnext := join_words_ne_nil hmore hm
  simp only [joinPayload, List.filter_cons, List.isEmpty_eq_false_iff.2 hfirst,
    List.isEmpty_eq_false_iff.2 hnext, List.isEmpty_eq_false_iff.2 hall, Bool.not_false, if_true]
  rw [join_cons_append, join_append hw hm]

/-- **Words of any number of lines.** -/
theorem joinPayload_lines {lines : List (List (List Char))} (hwords : ∀ w ∈ words, IsPlainWord w)
    (hlines : ∀ line ∈ lines, ∀ w ∈ line, IsPlainWord w) (rest : List (List Char)) :
    joinPayload (join [' '] words) (lines.map (join [' ']) ++ rest) =
      joinPayload (join [' '] (words ++ lines.flatten)) rest := by
  induction lines generalizing words with
  | nil => rw [List.map_nil, List.nil_append, List.flatten_nil, List.append_nil]
  | cons line lines ih =>
    obtain ⟨hline, hlines⟩ := List.forall_mem_cons.1 hlines
    have hboth : ∀ w ∈ words ++ line, IsPlainWord w := fun w h =>
      (List.mem_append.1 h).elim (hwords w) (hline w)
    rw [List.map_cons, List.cons_append, joinPayload_words hwords hline, ih hboth hlines,
      List.flatten_cons, List.append_assoc]

end Words

/-! ## Tags of a comment -/

section Tags

variable {kind first text : List Char} {texts rest : List (List Char)}

/-- The lines that continue a tag end where the next tag begins. -/
theorem untagged_append_tag (h : tagLine? text = some (kind, first))
    (texts rest : List (List Char)) :
    untagged (texts ++ text :: rest) = untagged texts := by
  induction texts with
  | nil => simp [untagged, h]
  | cons t texts ih =>
    cases ht : tagLine? t with
    | none => simpa [untagged, ht] using ih
    | some d => simp [untagged, ht]

/-- **A tag begins a new part of the comment.** -/
theorem tagsFrom_append_tag (h : tagLine? text = some (kind, first)) (number : Nat)
    (texts rest : List (List Char)) :
    tagsFrom number (texts ++ text :: rest) =
      tagsFrom number texts ++ tagsFrom (number + texts.length) (text :: rest) := by
  induction texts generalizing number with
  | nil => rfl
  | cons t texts ih =>
    have hrest := ih (number + 1)
    rw [Nat.add_assoc, Nat.add_comm 1] at hrest
    cases ht : tagLine? t with
    | none => simp [tagsFrom, ht, hrest]
    | some d => simp [tagsFrom, ht, hrest, untagged_append_tag h]

end Tags

/-! ## Wrapped tags -/

/-- The text of a tag on one line. -/
def tagText (kind : List Char) (words : List (List Char)) : List Char :=
  join [' '] (('@' :: kind) :: words)

theorem tagLine?_tagText {kind : List Char} {words : List (List Char)} (hkind : IsWord kind)
    (hwords : ∀ w ∈ words, IsPlainWord w) :
    tagLine? (tagText kind words) = some (kind, join [' '] words) := by
  cases words with
  | nil =>
    have htext : tagText kind [] = '@' :: (kind ++ []) := by
      rw [tagText, join_singleton, List.append_nil]
    rw [htext, tagLine?_append hkind (by simp) List.not_mem_nil]
    rfl
  | cons w words =>
    have htext : tagText kind (w :: words) = '@' :: (kind ++ ' ' :: join [' '] (w :: words)) := by
      rw [tagText, join_cons_cons]
      rfl
    have htrim : trim (' ' :: join [' '] (w :: words)) = join [' '] (w :: words) :=
      trimmed_join_words hwords
    rw [htext, tagLine?_append hkind, htrim]
    · intro c hc
      cases hc
      rfl
    · exact newline_not_mem_join_words hwords

/-- The words of a tag, laid over the line of the tag and lines that continue it. -/
structure Wrapped (kind : List Char) (words texts : List (List Char)) : Prop where
  isWord : IsWord kind
  plain : ∀ w ∈ words, IsPlainWord w
  layout : ∃ (first : List (List Char)) (more : List (List (List Char))),
    words = first ++ more.flatten ∧
    texts.map trim = tagText kind first :: more.map (join [' ']) ∧
    ∀ line ∈ more, tagLine? (join [' '] line) = none

/-- A tag on one line. -/
theorem wrapped_singleton {kind : List Char} {words : List (List Char)} {text : List Char}
    (hkind : IsWord kind) (hwords : ∀ w ∈ words, IsPlainWord w)
    (htext : trim text = tagText kind words) : Wrapped kind words [text] where
  isWord := hkind
  plain := hwords
  layout := ⟨words, [], by simp, by simp [htext], nofun⟩

namespace Wrapped

variable {kind : List Char} {words texts : List (List Char)}

/-- The first line begins a tag. -/
theorem exists_tagLine (h : Wrapped kind words texts) :
    ∃ text rest first, texts.map trim = text :: rest ∧ tagLine? text = some (kind, first) := by
  obtain ⟨first, more, hwords, htexts, -⟩ := h.layout
  have hfirst : ∀ w ∈ first, IsPlainWord w := fun w hw =>
    h.plain w (hwords ▸ List.mem_append_left _ hw)
  exact ⟨_, _, _, htexts, tagLine?_tagText h.isWord hfirst⟩

/-- **The tag of the words.** Its payload is all words, whatever the lines, and what continues it
after them. -/
theorem tagsFrom_append (h : Wrapped kind words texts) (number : Nat) (trail : List (List Char)) :
    tagsFrom number (texts.map trim ++ trail) =
      ⟨number, kind, joinPayload (join [' '] words) (untagged trail)⟩ ::
        tagsFrom (number + texts.length) trail := by
  obtain ⟨first, more, hwords, htexts, hmore⟩ := h.layout
  have hfirst : ∀ w ∈ first, IsPlainWord w := fun w hw =>
    h.plain w (hwords ▸ List.mem_append_left _ hw)
  have hrest : ∀ line ∈ more, ∀ w ∈ line, IsPlainWord w := fun line hline w hw =>
    h.plain w (hwords ▸ List.mem_append_right _ (List.mem_flatten_of_mem hline hw))
  have hplain : ∀ text ∈ more.map (join [' ']), tagLine? text = none := by
    simpa using hmore
  have huntagged : untagged (more.map (join [' ']) ++ trail) =
      more.map (join [' ']) ++ untagged trail :=
    List.takeWhile_append_of_pos fun text htext => by rw [hplain text htext]; rfl
  have hlength : texts.length = more.length + 1 := by
    rw [← List.length_map (f := trim), htexts, List.length_cons, List.length_map]
  rw [htexts, List.cons_append, tagsFrom, tagLine?_tagText h.isWord hfirst]
  simp only [huntagged, joinPayload_lines hfirst hrest, ← hwords,
    DocRoutes.tagsFrom_append hplain, List.length_map, hlength]
  rw [Nat.add_right_comm, Nat.add_assoc]

end Wrapped

/-! ## Records -/

/-- The tag of a kind with a payload. -/
def tagOf (kind payload : List Char) : Tag := (NumberedTag.toTag ⟨0, kind, payload⟩).1

/-- The tags among trimmed lines. -/
def tagsOfTexts (texts : List (List Char)) : List Tag := (tagsFrom 0 texts).map (·.toTag.1)

theorem toTag_fst (number : Nat) (kind payload : List Char) :
    (NumberedTag.toTag ⟨number, kind, payload⟩).1 = tagOf kind payload := by
  have h := NumberedTag.toTag_moveDown number ⟨0, kind, payload⟩
  rw [NumberedTag.moveDown, Nat.zero_add] at h
  rw [h]
  rfl

theorem map_toTag_fst (number : Nat) (texts : List (List Char)) :
    (tagsFrom number texts).map (·.toTag.1) = tagsOfTexts texts := by
  rw [← Nat.zero_add number, tagsFrom_add, List.map_map, tagsOfTexts]
  refine List.map_congr_left fun t _ => ?_
  rw [Function.comp_apply, NumberedTag.toTag_moveDown]

theorem kind_tagOf (kind payload : List Char) : (tagOf kind payload).kind = .ofList kind := by
  by_cases hkind : String.ofList kind = Tag.paramKind
  · cases hfields : paramFields? payload <;> simp [tagOf, NumberedTag.toTag, hkind, hfields]
  · simp [tagOf, NumberedTag.toTag, hkind]

theorem DocRecord.addTags_append (r : DocRecord) (tags more : List Tag) :
    r.addTags (tags ++ more) = (r.addTags tags).addTags more :=
  List.foldl_append

/-- **A comment with a tag** has the record of what stands before the tag, with the tags from there
on added, and the same holds of its reports. -/
theorem Block.toRecord_append_tag {marker : Marker} {number : Nat}
    {lead rest texts : List (List Char)} {text kind first : List Char}
    (hrest : rest.map trim = text :: texts) (htag : tagLine? text = some (kind, first))
    (following : List (List Char)) :
    Block.toRecord ⟨marker, number, lead ++ rest, following⟩ =
      ((Block.toRecord ⟨marker, number, lead, following⟩).1.addTags (tagsOfTexts (rest.map trim)),
        (Block.toRecord ⟨marker, number, lead, following⟩).2 ++
          (tagsFrom (number + lead.length) (rest.map trim)).flatMap (·.toTag.2)) := by
  have htags : tagsFrom number (lead.map trim ++ rest.map trim) =
      tagsFrom number (lead.map trim) ++ tagsFrom (number + lead.length) (rest.map trim) := by
    rw [hrest, tagsFrom_append_tag htag, List.length_map]
  have huntagged : untagged (lead.map trim ++ rest.map trim) = untagged (lead.map trim) := by
    rw [hrest, untagged_append_tag htag]
  have hcontext : Block.context? ⟨marker, number, lead ++ rest, following⟩ =
      Block.context? ⟨marker, number, lead, following⟩ := rfl
  simp only [toRecord, List.map_append, huntagged, htags, hcontext, DocRecord.addTags_append,
    List.flatMap_append, List.map_map, List.flatMap_map]
  rw [← map_toTag_fst (number + lead.length)]
  rfl

/-- **The record of a comment with a wrapped tag.** -/
theorem Block.toRecord_wrapped {kind : List Char} {words texts : List (List Char)}
    (h : Wrapped kind words texts) (marker : Marker) (number : Nat)
    (lead trail following : List (List Char)) :
    (Block.toRecord ⟨marker, number, lead ++ (texts ++ trail), following⟩).1 =
      (Block.toRecord ⟨marker, number, lead, following⟩).1.addTags
        (tagOf kind (joinPayload (join [' '] words) (untagged (trail.map trim))) ::
          tagsOfTexts (trail.map trim)) := by
  obtain ⟨text, rest, first, htexts, htag⟩ := h.exists_tagLine
  have hrest : (texts ++ trail).map trim = text :: (rest ++ trail.map trim) := by
    rw [List.map_append, htexts, List.cons_append]
  rw [Block.toRecord_append_tag hrest htag, tagsOfTexts, List.map_append, h.tagsFrom_append,
    List.map_cons, map_toTag_fst]
  rfl

/-! ## Comments around it -/

/-- No item is found at a line of documentation, nor past it. -/
theorem Block.context?_followedBy_docLine {line : List Char} {d : Marker × List Char}
    (h : docLine? line = some d) (b : Block) (rest : List (List Char)) :
    (b.followedBy (line :: rest)).context? = b.context? := by
  have hbegin : mayBeginItem (trim line) = true := by
    rw [← Bool.not_eq_false, mayBeginItem_eq_false_iff]
    exact not_skipped_of_docLine? h
  have hname : itemName? (trim line) = none := by
    cases hname : itemName? (trim line) with
    | none => rfl
    | some name => exact absurd (lineDeclares_of_itemName? hname) (not_lineDeclares_of_docLine? h)
  cases hfind : (b.following.map trim).find? mayBeginItem with
  | none => simp [context?, followedBy, List.find?_append, hfind, hbegin, hname]
  | some text => simp [context?, followedBy, List.find?_append, hfind]

theorem Block.toRecord_followedBy_docLine {line : List Char} {d : Marker × List Char}
    (h : docLine? line = some d) (b : Block) (rest : List (List Char)) :
    (b.followedBy (line :: rest)).toRecord = b.toRecord := by
  rw [toRecord, context?_followedBy_docLine h]
  rfl

/-- The records of the comments among lines. -/
def recordsOf (lines : List (List Char)) : List DocRecord :=
  (Block.ofLines lines).map (·.toRecord.1)

theorem extract_fst (source : String) : (extract source).1 = recordsOf (lines source.toList) := by
  rw [extract, recordsOf, List.map_map]
  rfl

theorem Block.toRecord_fst_number (marker : Marker) (number : Nat)
    (texts following : List (List Char)) :
    (Block.toRecord ⟨marker, number, texts, following⟩).1 =
      (Block.toRecord ⟨marker, 0, texts, following⟩).1 := by
  have h := Block.toRecord_moveDown number ⟨marker, 0, texts, following⟩
  rw [Block.moveDown, Nat.zero_add] at h
  rw [h]

theorem map_toRecord_fst (number : Nat) (lines : List (List Char)) :
    (Block.ofLinesFrom number lines).map (·.toRecord.1) = recordsOf lines := by
  have hzero (number : Nat) : (Block.ofLinesFrom number lines).map (·.toRecord.1) =
      (Block.ofLinesFrom 0 lines).map (·.toRecord.1) := by
    rw [← Nat.zero_add number, Block.ofLinesFrom_add, List.map_map]
    refine List.map_congr_left fun b _ => ?_
    rw [Function.comp_apply, Block.toRecord_moveDown]
  rw [hzero, recordsOf, Block.ofLines, hzero 1]

/-- **What is read on either side of a comment.** -/
theorem Block.map_toRecord_isRun {marker : Marker} {above run texts below : List (List Char)}
    (hrun : IsRun marker run texts) (hne : texts ≠ []) (habove : ¬Ends marker above)
    (hbelow : ¬Begins marker below) (number : Nat) :
    (ofLinesFrom number (above ++ (run ++ below))).map toRecord =
      (ofLinesFrom number above).map toRecord ++
        toRecord ⟨marker, number + above.length, texts, below⟩ ::
          (ofLinesFrom (number + above.length + run.length) below).map toRecord := by
  have hsearch (b : Block) : (b.followedBy (run ++ below)).toRecord = b.toRecord := by
    cases hrun with
    | nil => exact absurd rfl hne
    | cons hline _ => exact toRecord_followedBy_docLine hline b _
  rw [ofLinesFrom_of_isRun hrun hne habove hbelow, List.map_append, List.map_cons, List.map_map]
  congr 1
  exact List.map_congr_left fun b _ => hsearch b

theorem recordsOf_isRun {marker : Marker} {above run texts below : List (List Char)}
    (hrun : IsRun marker run texts) (hne : texts ≠ []) (habove : ¬Ends marker above)
    (hbelow : ¬Begins marker below) :
    recordsOf (above ++ (run ++ below)) =
      recordsOf above ++ (Block.toRecord ⟨marker, 0, texts, below⟩).1 :: recordsOf below := by
  have hrecords := congrArg (List.map (·.1)) (Block.map_toRecord_isRun hrun hne habove hbelow 1)
  simp only [List.map_append, List.map_cons, List.map_map] at hrecords
  rw [Block.toRecord_fst_number] at hrecords
  rw [← map_toRecord_fst 1, ← map_toRecord_fst 1 above, ← map_toRecord_fst _ below]
  exact hrecords

/-- The lines with the marker that others begin with. -/
theorem exists_isRun_prefix (marker : Marker) (lines : List (List Char)) :
    ∃ run texts rest, lines = run ++ rest ∧ IsRun marker run texts ∧ ¬Begins marker rest := by
  by_cases h : Begins marker lines
  · obtain ⟨run, texts, rest, hlines, hrun, -, hrest⟩ := Block.exists_isRun_of_begins h
    exact ⟨run, texts, rest, hlines, hrun, hrest⟩
  · exact ⟨[], [], lines, rfl, .nil, h⟩

/-- The lines with the marker that others end in. -/
theorem exists_isRun_suffix (marker : Marker) (lines : List (List Char)) :
    ∃ before run texts, lines = before ++ run ∧ IsRun marker run texts ∧ ¬Ends marker before := by
  induction lines using List.reverseRecOn with
  | nil => exact ⟨[], [], [], rfl, .nil, not_ends_nil⟩
  | append_singleton lines line ih =>
    by_cases h : Ends marker (lines ++ [line])
    · obtain ⟨text, hline⟩ := (ends_append lines (List.cons_ne_nil line [])).1 h
      obtain ⟨before, run, texts, rfl, hrun, hbefore⟩ := ih
      exact ⟨before, run ++ [line], texts ++ [text], List.append_assoc ..,
        List.rel_append hrun (.cons hline .nil), hbefore⟩
    · exact ⟨lines ++ [line], [], [], (List.append_nil _).symm, .nil, h⟩

/-! ## Main result -/

/-- No line below continues a tag: the comment ends there, or the next tag begins. -/
def EndsTag (marker : Marker) (below : List (List Char)) : Prop :=
  ∀ text, below.head?.bind docLine? = some (marker, text) → tagLine? (trim text) ≠ none

theorem EndsTag.untagged_eq_nil {marker : Marker} {trail texts rest : List (List Char)}
    (h : EndsTag marker (trail ++ rest)) (htrail : IsRun marker trail texts) :
    untagged (texts.map trim) = [] := by
  cases htrail with
  | nil => rfl
  | @cons line text trail texts hline htrail =>
    have htag : tagLine? (trim text) ≠ none := h text hline
    rw [List.map_cons, untagged, List.takeWhile_cons_of_neg]
    simpa using htag

theorem Wrapped.ne_nil {kind : List Char} {words texts : List (List Char)}
    (h : Wrapped kind words texts) : texts ≠ [] := by
  obtain ⟨text, rest, first, htexts, -⟩ := h.exists_tagLine
  rintro rfl
  cases htexts

/-- **The records around a tag** follow from its words, whatever the lines of the tag are. -/
theorem exists_recordsOf_wrapped (marker : Marker) (kind : List Char)
    (words above below : List (List Char)) :
    ∃ earlier record later,
      (∀ wrapped texts, IsRun marker wrapped texts → Wrapped kind words texts →
        recordsOf (above ++ (wrapped ++ below)) = earlier ++ record :: later) ∧
      (EndsTag marker below → tagOf kind (join [' '] words) ∈ record.tagsOf (.ofList kind)) := by
  obtain ⟨above, lead, leadTexts, rfl, hlead, habove⟩ := exists_isRun_suffix marker above
  obtain ⟨trail, trailTexts, below, rfl, htrail, hbelow⟩ := exists_isRun_prefix marker below
  refine ⟨recordsOf above, (Block.toRecord ⟨marker, 0, leadTexts, below⟩).1.addTags
    (tagOf kind (joinPayload (join [' '] words) (untagged (trailTexts.map trim))) ::
      tagsOfTexts (trailTexts.map trim)), recordsOf below, ?_, ?_⟩
  · intro wrapped texts hrun hwrapped
    have hne : leadTexts ++ (texts ++ trailTexts) ≠ [] :=
      List.append_ne_nil_of_right_ne_nil _ (List.append_ne_nil_of_left_ne_nil hwrapped.ne_nil _)
    have hall : IsRun marker (lead ++ (wrapped ++ trail)) (leadTexts ++ (texts ++ trailTexts)) :=
      List.rel_append hlead (List.rel_append hrun htrail)
    have hlines : (above ++ lead) ++ (wrapped ++ (trail ++ below)) =
        above ++ ((lead ++ (wrapped ++ trail)) ++ below) := by
      simp only [List.append_assoc]
    rw [hlines, recordsOf_isRun hall hne habove hbelow, Block.toRecord_wrapped hwrapped]
  · intro hends
    rw [hends.untagged_eq_nil htrail, joinPayload_nil, DocRecord.tagsOf_addTags]
    refine List.mem_append_right _ (List.mem_filter.2 ⟨List.mem_cons_self, ?_⟩)
    simp [kind_tagOf]

/-- **Line breaks in a tag do not matter.** In one source the words of a tag are laid over several
lines of a comment, and in the other they stand on one line, with single spaces between them. Both
have the same records, the records declare the same routes or are rejected for the same reason, and
both sources document the same controller. Unless a line below continues it, the tag of these
records has the words as its payload, with fields as they are read from the payload. -/
theorem extract_wrapped {source source' : String} {above wrapped below : List (List Char)}
    {line text : List Char} {marker : Marker} {kind : List Char} {words texts : List (List Char)}
    (hsource : lines source.toList = above ++ (wrapped ++ below))
    (hrun : IsRun marker wrapped texts) (hwrapped : Wrapped kind words texts)
    (hsource' : lines source'.toList = above ++ line :: below)
    (hline : docLine? line = some (marker, text)) (htext : trim text = tagText kind words) :
    (extract source).1 = (extract source').1 ∧
      (extract source).1.map DocRecord.toRoute = (extract source').1.map DocRecord.toRoute ∧
      (readUnit .comments source).1 = (readUnit .comments source').1 ∧
      (EndsTag marker below → ∃ record ∈ (extract source').1,
        tagOf kind (join [' '] words) ∈ record.tagsOf (.ofList kind)) := by
  obtain ⟨earlier, record, later, hrecords, htag⟩ :=
    exists_recordsOf_wrapped marker kind words above below
  have hone : (extract source').1 = earlier ++ record :: later := by
    rw [extract_fst, hsource']
    exact hrecords [line] [text] (.cons hline .nil)
      (wrapped_singleton hwrapped.isWord hwrapped.plain htext)
  have hboth : (extract source).1 = (extract source').1 := by
    rw [hone, extract_fst, hsource, hrecords wrapped texts hrun hwrapped]
  refine ⟨hboth, by rw [hboth], by rw [readUnit_fst, readUnit_fst, hboth], fun hends => ?_⟩
  rw [hone]
  exact ⟨record, List.mem_append_right _ List.mem_cons_self, htag hends⟩

/-- A parameter whose types, name and description stand on different lines. -/
theorem wrapped_parameter :
    let head := "//! @module A\n/// @apiRoute get /a/:id\n/// @param"
    let tail := "\n/// @apiReturns {T}\nfn find() {}\n"
    let source := head ++ "\n///   {T|Null}\n///\n///\tid which\n/// one " ++ tail
    let source' := head ++ " {T|Null} id which one" ++ tail
    let words := ["{T|Null}", "id", "which", "one"].map String.toList
    Wrapped "param".toList words
        (["@param", "  {T|Null}", "", "\tid which", "one "].map String.toList) ∧
      (extract source).1 = (extract source').1 ∧
      (readUnit .comments source).1 = .ok ⟨"A", "",
        [⟨"find", "", .get, "/a/:id",
          [⟨"id", .path, false, some "which one", ["T", "Null"]⟩], ⟨"T", ""⟩⟩]⟩ := by
  intro head tail source source' words
  have hwords : ∀ w ∈ words, IsPlainWord w := by decide
  have hwrapped : Wrapped "param".toList words
      (["@param", "  {T|Null}", "", "\tid which", "one "].map String.toList) :=
    { isWord := by decide
      plain := hwords
      layout := ⟨[], [["{T|Null}".toList], [], ["id".toList, "which".toList], ["one".toList]],
        by decide, by decide, by decide⟩ }
  have hsource : lines source.toList =
      ["//! @module A", "/// @apiRoute get /a/:id"].map String.toList ++
        (["/// @param", "///   {T|Null}", "///", "///\tid which", "/// one "].map String.toList ++
          ["/// @apiReturns {T}", "fn find() {}"].map String.toList) := by decide +kernel
  have hsource' : lines source'.toList =
      ["//! @module A", "/// @apiRoute get /a/:id"].map String.toList ++
        "/// @param {T|Null} id which one".toList ::
          ["/// @apiReturns {T}", "fn find() {}"].map String.toList := by decide +kernel
  have hrun : IsRun .outer
      (["/// @param", "///   {T|Null}", "///", "///\tid which", "/// one "].map String.toList)
      (["@param", "  {T|Null}", "", "\tid which", "one "].map String.toList) :=
    .cons rfl (.cons rfl (.cons rfl (.cons rfl (.cons rfl .nil))))
  obtain ⟨hrecords, -, hunit, -⟩ :=
    extract_wrapped hsource hrun hwrapped hsource' rfl (show trim _ = tagText _ words by decide)
  refine ⟨hwrapped, hrecords, ?_⟩
  rw [hunit]
  decide +kernel

end DocRoutes
