import DocRoutes.Proofs.Wrapping

/-!
# Fields of parameters

The payload of a parameter is read as types in braces, a name and a description. What is written in
this form is read back, and from no payload are fields read that could not be written so.

**Writing** (`ParamText.paramFields?_trim`). The braces close at the first closing brace and the
name ends at the first blank. So braces, bars and blanks stand where the fields are separated, and
nowhere else, if no type holds a bar or a closing brace and the name is one word.

**Reading** (`isSplit_of_paramFields?`). Types are trimmed after they were cut at the bars, and
empty ones are dropped. The name is a word of what remains, and it does not begin with a brace.

**Lines** (`exists_extract_tagLine`). A line that begins a tag splits its comment. What is read from
the lines around it does not depend on its payload, neither the records nor the reports.

**Theorem (`extract_param`).** A parameter that is written with its fields is read with the same
fields. Every other parameter has either fields of this kind, or none, and is then reported once.
-/

namespace DocRoutes

open Text Declaration

/-! ## Parameters that are written -/

/-- A description, unless it is empty. -/
def present (description : String) : Option String :=
  if description = "" then none else some description

theorem of_mem_present {description d : String} (h : d ∈ present description) :
    d = description ∧ d ≠ "" := by
  by_cases hempty : description = ""
  · simp [present, hempty] at h
  · simp only [present, if_neg hempty, Option.mem_def, Option.some.injEq] at h
    exact ⟨h.symm, h ▸ hempty⟩

/-- The payload of a parameter: types in braces, a name and a description. Where there are no types,
the braces are empty or missing. -/
structure ParamText (types : List String) (name : List Char) (description : String)
    (braces payload : List Char) : Prop where
  fitTypes : ∀ type ∈ types, FitType type
  fitName : FitName name
  oneLine : OneLine description
  braces_eq : braces = bracesText types ∨ types = [] ∧ braces = []
  payload_eq : payload = braces ++ (name ++ ' ' :: description.toList)

namespace ParamText

variable {types : List String} {name braces payload : List Char} {description : String}

theorem present_fit (h : ParamText types name description braces payload) :
    ∀ d ∈ present description, OneLine d ∧ d ≠ "" := by
  intro d hd
  obtain ⟨rfl, hne⟩ := of_mem_present hd
  exact ⟨h.oneLine, hne⟩

theorem trimmed (h : ParamText types name description braces payload) :
    Trimmed (braces ++ (name ++ descriptionText (present description))) := by
  have htext := trimmed_nameText h.fitName h.present_fit
  have hne : name ++ descriptionText (present description) ≠ [] :=
    List.append_ne_nil_of_left_ne_nil h.fitName.nonempty _
  apply trimmed_of_ends
  · intro c hc
    rcases h.braces_eq with hbraces | ⟨-, hbraces⟩
    · rw [hbraces] at hc
      cases hc
      rfl
    · rw [hbraces] at hc
      exact htext.head hc
  · intro c hc
    rw [List.getLast?_append_of_ne_nil _ hne] at hc
    exact htext.last hc

/-- An empty description leaves no blank behind the name. -/
theorem trim_payload (h : ParamText types name description braces payload) :
    trim payload = braces ++ (name ++ descriptionText (present description)) := by
  have htrimmed := h.trimmed
  rw [h.payload_eq]
  by_cases hempty : description = ""
  · have hblank : ∀ c ∈ [' '], isBlank c = true := List.forall_mem_singleton.2 rfl
    have hcut := trim_append (a := []) (by simp) htrimmed hblank
    simpa [hempty, present, descriptionText] using hcut
  · simpa [Trimmed, hempty, present, descriptionText] using htrimmed

theorem typesField?_trim (h : ParamText types name description braces payload) :
    typesField? (trim payload) =
      some (types.map String.toList, name ++ descriptionText (present description)) := by
  rw [h.trim_payload]
  rcases h.braces_eq with hbraces | ⟨htypes, hbraces⟩
  · rw [hbraces]
    apply typesField?_bracesText h.fitTypes
    intro c hc
    exact (h.fitName.head hc).1
  · rw [hbraces, htypes]
    apply typesField?_of_head
    intro hhead
    exact (h.fitName.head hhead).2 rfl

/-- **Fields that are written are read back.** -/
theorem paramFields?_trim (h : ParamText types name description braces payload) :
    paramFields? (trim payload) = some ⟨types, .ofList name, present description⟩ :=
  paramFields?_of_typesField? h.fitName h.present_fit h.typesField?_trim

/-- Without braces it is the parameter of the name and the description. -/
theorem eq_param (h : ParamText types name description [] payload) :
    Tag.param (.ofList name) description =
      { kind := Tag.paramKind, payload := .ofList (trim payload), name := some (.ofList name),
        description := present description, types } := by
  have htypes : types = [] := by
    rcases h.braces_eq with hbraces | ⟨htypes, -⟩
    · cases hbraces
    · exact htypes
  have htext : (String.ofList name ++ " " ++ description).toList = payload := by
    simp [h.payload_eq]
  rw [Tag.param, Text.trimmed, htext, htypes]
  simp [present]

end ParamText

/-! ## Parameters that are read -/

/-- A tag with the fields of a parameter. -/
structure IsSplit (tag : Tag) : Prop where
  name : ∃ name ∈ tag.name, FitName name.toList
  types : ∀ type ∈ tag.types, FitType type
  description : ∀ d ∈ tag.description, OneLine d ∧ d ≠ ""

/-- What is left of a piece between bars, if it is not blank, is a type. -/
theorem fitType_trim {inner piece : List Char} (hfeed : '\n' ∉ inner) (hclose : '\x7d' ∉ inner)
    (hpiece : piece ∈ splitAt '|' inner) (hne : trim piece ≠ []) :
    FitType (.ofList (trim piece)) := by
  have hfeed : '\n' ∉ piece := fun hc => hfeed (subset_of_mem_splitAt hpiece hc)
  refine ⟨oneLine_trim hfeed, ?_, ?_, ?_⟩
  · intro hempty
    apply hne
    simpa using congrArg String.toList hempty
  · rw [String.toList_ofList]
    intro hc
    exact not_mem_of_mem_splitAt hpiece (mem_of_mem_trim hc)
  · rw [String.toList_ofList]
    intro hc
    exact hclose (subset_of_mem_splitAt hpiece (mem_of_mem_trim hc))

theorem fitTypes_of_typesField? {s rest : List Char} {types : List (List Char)} (hs : '\n' ∉ s)
    (h : typesField? s = some (types, rest)) :
    (∀ type ∈ types, FitType (.ofList type)) ∧ '\n' ∉ rest := by
  unfold typesField? at h
  split at h
  · next s =>
    split at h
    · next inner after hcut =>
      cases h
      obtain ⟨hclose, rfl⟩ := cutAt_eq_some hcut
      simp only [List.mem_cons, List.mem_append, not_or] at hs
      obtain ⟨-, hinner, -, hafter⟩ := hs
      refine ⟨?_, fun hmem => hafter ((List.dropWhile_sublist _).mem hmem)⟩
      intro type htype
      obtain ⟨htype, hne⟩ := List.mem_filter.1 htype
      obtain ⟨piece, hpiece, rfl⟩ := List.mem_map.1 htype
      exact fitType_trim hinner hclose hpiece (by simpa using hne)
    · cases h
  · cases h
    exact ⟨by simp, hs⟩

/-- **Only such fields are read** from a payload of one line. -/
theorem isSplit_of_paramFields? {payload : List Char} (hpayload : '\n' ∉ payload) {f : ParamFields}
    (h : paramFields? payload = some f) (kind text : String) :
    IsSplit ⟨kind, text, some f.name, f.description, f.types⟩ := by
  obtain ⟨⟨types, s⟩, htypes, h⟩ := Option.bind_eq_some_iff.1 h
  obtain ⟨hfit, hs⟩ := fitTypes_of_typesField? hpayload htypes
  dsimp only at h
  split at h
  · cases h
  · next hname =>
    cases h
    simp only [not_or] at hname
    obtain ⟨hne, hbrace, hfeed⟩ := hname
    refine ⟨⟨_, rfl, ?_⟩, ?_, ?_⟩
    · rw [String.toList_ofList]
      refine ⟨hne, ?_, hbrace⟩
      intro c hc
      have hword := List.mem_takeWhile_imp hc
      simpa using hword
    · intro type htype
      obtain ⟨t, ht, rfl⟩ := List.mem_map.1 htype
      exact hfit t ht
    · intro d hd
      by_cases hempty : trim (trimStart (dropWord s)) = []
      · simp [hempty] at hd
      · simp only [List.isEmpty_iff, hempty, if_false, Option.mem_def, Option.some.injEq] at hd
        subst hd
        refine ⟨oneLine_trim hfeed, ?_⟩
        simpa using hempty

example : paramFields? "{T|U}{id}".toList = none := by decide

/-! ## The line of a tag -/

/-- Lines after a tag that add nothing to it: those of the comment are blank up to the next tag. -/
def Uncontinued (marker : Marker) (below : List (List Char)) : Prop :=
  ∃ trail texts rest, below = trail ++ rest ∧ IsRun marker trail texts ∧ ¬Begins marker rest ∧
    ∀ text ∈ untagged (texts.map trim), text = []

/-- A source with a tag of a kind and a payload on the line between others. -/
def HasTagLine (source : String) (above : List (List Char)) (marker : Marker)
    (kind payload : List Char) (below : List (List Char)) : Prop :=
  ∃ line text sep, lines source.toList = above ++ line :: below ∧
    docLine? line = some (marker, text) ∧ isBlank sep = true ∧
    trim text = trim ('@' :: (kind ++ sep :: payload))

/-- Blank lines add nothing to a tag. -/
theorem tagsFrom_of_blank {text kind first : List Char} {rest : List (List Char)}
    (htag : tagLine? text = some (kind, first)) (hrest : ∀ text ∈ untagged rest, text = [])
    (number : Nat) :
    tagsFrom number (text :: rest) = ⟨number, kind, first⟩ :: tagsFrom (number + 1) rest := by
  have hblank : (untagged rest).filter (!·.isEmpty) = [] := by
    rw [List.filter_eq_nil_iff]
    intro text htext
    simp [hrest text htext]
  have hpayload : joinPayload first (untagged rest) = joinPayload first [] := by
    simp only [joinPayload, List.filter_cons, hblank, List.filter_nil]
  rw [joinPayload_nil] at hpayload
  simp [tagsFrom, htag, hpayload]

/-- **What is read around a tag** does not depend on its payload. -/
theorem exists_extract_tagLine {marker : Marker} {below : List (List Char)} {kind : List Char}
    (hbelow : Uncontinued marker below) (hkind : IsWord kind) (above : List (List Char)) :
    ∃ earlier record rest later before after, ∀ source payload,
      HasTagLine source above marker kind payload below → '\n' ∉ payload →
        let tag := NumberedTag.toTag ⟨above.length + 1, kind, trim payload⟩
        extract source = (earlier ++ DocRecord.addTags record (tag.1 :: rest) :: later,
          before ++ (tag.2 ++ after)) := by
  obtain ⟨above, lead, leadTexts, rfl, hlead, habove⟩ := exists_isRun_suffix marker above
  obtain ⟨trail, trailTexts, below, rfl, htrail, hstop, huntagged⟩ := hbelow
  let first := (Block.ofLinesFrom 1 above).map Block.toRecord
  let comment := Block.toRecord ⟨marker, 1 + above.length, leadTexts, below⟩
  let last := (Block.ofLinesFrom (1 + above.length + (lead.length + (trail.length + 1))) below).map
    Block.toRecord
  let number := (above ++ lead).length + 1
  refine ⟨first.map (·.1), comment.1, tagsOfTexts (trailTexts.map trim), last.map (·.1),
    first.flatMap (·.2) ++ comment.2,
    (tagsFrom (number + 1) (trailTexts.map trim)).flatMap (·.toTag.2) ++ last.flatMap (·.2), ?_⟩
  rintro source payload ⟨line, text, sep, hlines, hline, hsep, htext⟩ hpayload tag
  have htag : tagLine? (trim text) = some (kind, trim payload) :=
    htext ▸ tagLine?_trim hkind hsep hpayload
  have hnumber : 1 + above.length + leadTexts.length = number := by
    have hlength : lead.length = leadTexts.length := List.Forall₂.length_eq hlead
    simp only [number, List.length_append, hlength]
    omega
  -- The tags from the line on.
  have htags (n : Nat) : tagsFrom n ((text :: trailTexts).map trim) =
      ⟨n, kind, trim payload⟩ :: tagsFrom (n + 1) (trailTexts.map trim) :=
    tagsFrom_of_blank htag huntagged n
  have htexts : tagsOfTexts ((text :: trailTexts).map trim) =
      tag.1 :: tagsOfTexts (trailTexts.map trim) := by
    rw [tagsOfTexts, htags, List.map_cons, map_toTag_fst, toTag_fst, ← toTag_fst]
  have hcomment :
      Block.toRecord ⟨marker, 1 + above.length, leadTexts ++ text :: trailTexts, below⟩ =
      (comment.1.addTags (tag.1 :: tagsOfTexts (trailTexts.map trim)), comment.2 ++
        (tag.2 ++ (tagsFrom (number + 1) (trailTexts.map trim)).flatMap (·.toTag.2))) := by
    rw [Block.toRecord_append_tag rfl htag, htexts, htags, hnumber]
    rfl
  have hrun : IsRun marker (lead ++ line :: trail) (leadTexts ++ text :: trailTexts) :=
    List.rel_append hlead (.cons hline htrail)
  have hblocks := Block.map_toRecord_isRun hrun (by simp) habove hstop 1
  rw [hcomment, List.length_append, List.length_cons] at hblocks
  have hsource : lines source.toList = above ++ ((lead ++ line :: trail) ++ below) := by
    simp [hlines]
  rw [extract, Block.ofLines, hsource, hblocks]
  simp [first, last]

/-! ## Main result -/

theorem toTag_param (number : Nat) (payload : List Char) :
    NumberedTag.toTag ⟨number, Tag.paramKind.toList, payload⟩ =
      match paramFields? payload with
      | some f => (⟨Tag.paramKind, .ofList payload, some f.name, f.description, f.types⟩, [])
      | none => ({ kind := Tag.paramKind, payload := .ofList payload },
          [⟨number, .ofList payload⟩]) := by
  cases hfields : paramFields? payload <;> simp [NumberedTag.toTag, hfields]

/-- **The fields of a parameter.** A line of documentation begins a parameter, with nothing that
continues it. Its tag keeps the trimmed payload. If the payload was written with types, a name and a
description, then these are the fields of the tag, and no report is made. Without braces this is
the tag that is made from the name and the description. Whatever the payload is, either all fields
of the tag are well-formed, or the tag has no fields and the line is reported once. -/
theorem extract_param {marker : Marker} {below : List (List Char)}
    (hbelow : Uncontinued marker below) (above : List (List Char)) :
    ∃ earlier record rest later before after, ∀ source payload,
      HasTagLine source above marker Tag.paramKind.toList payload below → '\n' ∉ payload →
        ∃ tag reports,
          extract source = (earlier ++ DocRecord.addTags record (tag :: rest) :: later,
            before ++ (reports ++ after)) ∧
          tag.kind = Tag.paramKind ∧ tag.payload = .ofList (trim payload) ∧
          (∀ types name description braces, ParamText types name description braces payload →
            tag.types = types ∧ tag.name = some (.ofList name) ∧
              tag.description = present description ∧ reports = [] ∧
              (braces = [] → tag = Tag.param (.ofList name) description)) ∧
          (IsSplit tag ∧ reports = [] ∨
            tag = { kind := Tag.paramKind, payload := .ofList (trim payload) } ∧
              reports = [⟨above.length + 1, .ofList (trim payload)⟩]) := by
  have hkind : IsWord Tag.paramKind.toList := by decide
  obtain ⟨earlier, record, rest, later, before, after, hextract⟩ :=
    exists_extract_tagLine hbelow hkind above
  refine ⟨earlier, record, rest, later, before, after, ?_⟩
  intro source payload hline hpayload
  have htag := toTag_param (above.length + 1) (trim payload)
  refine ⟨_, _, hextract source payload hline hpayload, ?_⟩
  rw [htag]
  cases hfields : paramFields? (trim payload) with
  | none =>
    refine ⟨rfl, rfl, ?_, .inr ⟨rfl, rfl⟩⟩
    intro types name description braces h
    rw [h.paramFields?_trim] at hfields
    cases hfields
  | some f =>
    have htrim : '\n' ∉ trim payload := fun hc => hpayload (mem_of_mem_trim hc)
    refine ⟨rfl, rfl, ?_, .inl ⟨isSplit_of_paramFields? htrim hfields _ _, rfl⟩⟩
    intro types name description braces h
    rw [h.paramFields?_trim] at hfields
    cases hfields
    refine ⟨rfl, rfl, rfl, rfl, ?_⟩
    rintro rfl
    exact h.eq_param.symm

/-- A parameter with types, the same parameter without, and one that has no name. -/
theorem parameters_of_find :
    let above := ["//! @module A", "/// @apiRoute get /a/:id"].map String.toList
    let below := ["///", "/// @apiReturns {T}", "fn find() {}"].map String.toList
    let source (payload : String) := "//! @module A\n/// @apiRoute get /a/:id\n/// @param " ++
      payload ++ " \n///\n/// @apiReturns {T}\nfn find() {}\n"
    let payload := "{T|Null} id which one"
    Uncontinued .outer below ∧
      HasTagLine (source payload) above .outer Tag.paramKind.toList payload.toList below ∧
      ParamText ["T", "Null"] "id".toList "which one" (bracesText ["T", "Null"]) payload.toList ∧
      (∃ record ∈ (extract (source payload)).1, ∃ tag ∈ record.tagsOf Tag.paramKind,
        tag.types = ["T", "Null"] ∧ tag.name = some "id" ∧ tag.description = some "which one") ∧
      (∃ record ∈ (extract (source "id which one")).1,
        Tag.param "id" "which one" ∈ record.tagsOf Tag.paramKind) ∧
      ⟨3, "{T} {id}"⟩ ∈ (extract (source "{T} {id}")).2 := by
  intro above below source payload
  have hbelow : Uncontinued .outer below :=
    ⟨["///", "/// @apiReturns {T}"].map String.toList, ["", "@apiReturns {T}"].map String.toList,
      ["fn find() {}".toList], rfl, .cons rfl (.cons rfl .nil), not_begins_of_none rfl _, by decide⟩
  have hline : HasTagLine (source payload) above .outer Tag.paramKind.toList payload.toList below :=
    ⟨"/// @param {T|Null} id which one ".toList, _, ' ', by decide +kernel, rfl, rfl, by decide⟩
  have hplain : HasTagLine (source "id which one") above .outer Tag.paramKind.toList
      "id which one".toList below :=
    ⟨"/// @param id which one ".toList, _, ' ', by decide +kernel, rfl, rfl, by decide⟩
  have hnameless : HasTagLine (source "{T} {id}") above .outer Tag.paramKind.toList
      "{T} {id}".toList below :=
    ⟨"/// @param {T} {id} ".toList, _, ' ', by decide +kernel, rfl, rfl, by decide⟩
  have htext : ParamText ["T", "Null"] "id".toList "which one" (bracesText ["T", "Null"])
      payload.toList := ⟨by decide, by decide, by decide, .inl rfl, by decide⟩
  have hplainText : ParamText [] "id".toList "which one" [] "id which one".toList :=
    ⟨by decide, by decide, by decide, .inr ⟨rfl, rfl⟩, by decide⟩
  obtain ⟨earlier, record, rest, later, before, after, hextract⟩ := extract_param hbelow above
  have hmem {t : Tag} (ht : t.kind = Tag.paramKind) :
      t ∈ (record.addTags (t :: rest)).tagsOf Tag.paramKind := by
    simp [DocRecord.tagsOf_addTags, ht]
  refine ⟨hbelow, hline, htext, ?_, ?_, ?_⟩
  · obtain ⟨tag, reports, hsource, hkind, -, hfields, -⟩ := hextract _ _ hline (by decide)
    obtain ⟨htypes, hname, hdescription, -⟩ := hfields _ _ _ _ htext
    refine ⟨record.addTags (tag :: rest), ?_, tag, hmem hkind, htypes, hname, hdescription⟩
    simp [hsource]
  · obtain ⟨tag, reports, hsource, hkind, -, hfields, -⟩ := hextract _ _ hplain (by decide)
    obtain ⟨-, -, -, -, hparam⟩ := hfields _ _ _ _ hplainText
    have htag : tag = Tag.param "id" "which one" := hparam rfl
    refine ⟨record.addTags (tag :: rest), ?_, htag ▸ hmem hkind⟩
    simp [hsource]
  · obtain ⟨tag, reports, hsource, hkind, -, -, hends⟩ := hextract _ _ hnameless (by decide)
    have hnone : ∀ r ∈ (extract (source "{T} {id}")).1, ∀ t ∈ r.tagsOf Tag.paramKind,
        t.name = none := by decide +kernel
    rcases hends with ⟨⟨⟨name, hname, -⟩, -, -⟩, -⟩ | ⟨-, hreports⟩
    · have htag := hnone (record.addTags (tag :: rest)) (by simp [hsource]) tag (hmem hkind)
      rw [htag] at hname
      cases hname
    · have htrim : String.ofList (trim "{T} {id}".toList) = "{T} {id}" := by decide
      rw [htrim] at hreports
      simp [hsource, hreports, above]

end DocRoutes
