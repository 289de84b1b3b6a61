import DocRoutes.Proofs.ItemNames

/-!
# The grammar of returns tags

The payload of a returns tag consists of a type in braces and a description. Blanks may stand before
the type and before the description. The description is one line and goes up to the end.

**Readings** (`ReturnsText`). A description may hold braces as well. So a text can be read in
several ways: each closing brace that has one line behind it may be the one that ends the type.

**The shortest type** (`parseReturns_eq_some_iff`). Of all readings the one with the shortest type
is taken. Where the type can end at the first closing brace, it ends there.

**Overrunning types** (`Overruns`). The type cannot end at the first closing brace if it is empty,
or if more than one line stands behind the brace. It then goes on to a later closing brace of its
line, if this one has only one line behind it. So `{}` is refused alone, but in `{}} x` there is a
type.

**Theorem (`parseReturns_grammar`).** If a text does not overrun, then a type and a description are
read from it exactly if it is written in this form with a type that holds no closing brace.
-/

namespace DocRoutes

open Text

/-! ## Readings -/

/-- A description in a text: blanks, and then one line up to the end. -/
def IsDescription (text s : List Char) : Prop :=
  ∃ gap, s = gap ++ text ∧ (∀ c ∈ gap, isBlank c = true) ∧ '\n' ∉ text ∧ Flush text

/-- A type and a description behind an opening brace. -/
def ClosedType (type text body : List Char) : Prop :=
  type ≠ [] ∧ '\n' ∉ type ∧ ∃ rest, body = type ++ '\x7d' :: rest ∧ IsDescription text rest

/-- A type and a description in a text: blanks, the type in braces, and the description. -/
def ReturnsText (type text s : List Char) : Prop :=
  ∃ lead body, s = lead ++ '\x7b' :: body ∧ (∀ c ∈ lead, isBlank c = true) ∧
    ClosedType type text body

theorem parseReturnsText_eq_some_iff {s text : List Char} :
    parseReturnsText s = some text ↔ IsDescription text s := by
  rw [parseReturnsText]
  constructor
  · intro h
    split at h
    · cases h
    · next hfeed =>
      cases h
      refine ⟨s.takeWhile isBlank, List.takeWhile_append_dropWhile.symm, ?_, hfeed, ?_⟩
      · exact fun c hc => List.mem_takeWhile_imp hc
      · exact fun c hc => head?_trimStart hc
  · rintro ⟨gap, rfl, hgap, hfeed, hflush⟩
    rw [trimStart_append hgap, trimStart_eq_self hflush, if_neg hfeed]

theorem IsDescription.unique {s text text' : List Char} (h : IsDescription text s)
    (h' : IsDescription text' s) : text = text' := by
  rw [← parseReturnsText_eq_some_iff] at h h'
  exact Option.some.inj (h.symm.trans h')

theorem trimStart_brace {lead : List Char} (hlead : ∀ c ∈ lead, isBlank c = true)
    (body : List Char) : trimStart (lead ++ '\x7b' :: body) = '\x7b' :: body := by
  rw [trimStart_append hlead]
  exact trimStart_eq_self fun c hc => by cases hc; decide

theorem returnsText_brace {lead body type text : List Char}
    (hlead : ∀ c ∈ lead, isBlank c = true) :
    ReturnsText type text (lead ++ '\x7b' :: body) ↔ ClosedType type text body := by
  constructor
  · rintro ⟨lead', body', h, hlead', htype⟩
    have hbody := congrArg trimStart h
    rw [trimStart_brace hlead, trimStart_brace hlead'] at hbody
    cases hbody
    exact htype
  · exact fun htype => ⟨lead, body, rfl, hlead, htype⟩

/-! ## The shortest type -/

/-- Of what is read, no other type is shorter. -/
theorem parseType_eq_some {before s type text : List Char}
    (h : parseType before s = some (type, text)) :
    ∃ more rest, s = more ++ '\x7d' :: rest ∧ type = before.reverse ++ more ∧ type ≠ [] ∧
      '\n' ∉ more ∧ IsDescription text rest ∧
      ∀ first rest' text', s = first ++ '\x7d' :: rest' → (before ≠ [] ∨ first ≠ []) →
        IsDescription text' rest' → more.length ≤ first.length := by
  induction s generalizing before with
  | nil => cases h
  | cons c s ih =>
    rw [parseType] at h
    split at h
    · next closed hclosed =>
      cases h
      split at hclosed
      · next hc =>
        obtain ⟨rfl, hne⟩ := hc
        refine ⟨[], s, rfl, (List.append_nil _).symm, by simpa using hne, List.not_mem_nil,
          parseReturnsText_eq_some_iff.1 hclosed, ?_⟩
        exact fun _ _ _ _ _ _ => Nat.zero_le _
      · cases hclosed
    · next hclosed =>
      split at h
      · cases h
      next hc =>
      obtain ⟨more, rest, rfl, rfl, hne, hfeed, htext, hleast⟩ := ih h
      refine ⟨c :: more, rest, rfl, by simp, hne, ?_, htext, ?_⟩
      · intro hmem
        rcases List.mem_cons.1 hmem with heq | hmem
        · exact hc heq.symm
        · exact hfeed hmem
      · intro first rest' text' hs hbefore hdescription
        cases first with
        | nil =>
          -- the brace in front would have ended the type
          obtain ⟨rfl, rfl⟩ := List.cons.inj hs
          have hne : before ≠ [] := hbefore.resolve_right (not_not_intro rfl)
          rw [if_pos ⟨rfl, hne⟩, parseReturnsText_eq_some_iff.2 hdescription] at hclosed
          cases hclosed
        | cons d first =>
          obtain ⟨rfl, htail⟩ := List.cons.inj hs
          exact Nat.succ_le_succ
            (hleast first rest' text' htail (.inl (List.cons_ne_nil _ _)) hdescription)

theorem exists_parseType {before type rest text : List Char} (hne : before ≠ [] ∨ type ≠ [])
    (hfeed : '\n' ∉ type) (htext : IsDescription text rest) :
    ∃ r, parseType before (type ++ '\x7d' :: rest) = some r := by
  induction type generalizing before with
  | nil =>
    have hbefore : before ≠ [] := hne.resolve_right (not_not_intro rfl)
    rw [List.nil_append, parseType, if_pos ⟨rfl, hbefore⟩, parseReturnsText_eq_some_iff.2 htext]
    exact ⟨_, rfl⟩
  | cons c type ih =>
    obtain ⟨hc, hfeed⟩ := not_or.1 (mt List.mem_cons.2 hfeed)
    rw [List.cons_append, parseType]
    split
    · exact ⟨_, rfl⟩
    · rw [if_neg (Ne.symm hc)]
      exact ih (.inl (List.cons_ne_nil _ _)) hfeed

/-- Two types that are closed in one text are the same if they are equally long. -/
theorem ClosedType.unique {body type type' text text' : List Char}
    (h : ClosedType type text body) (h' : ClosedType type' text' body)
    (hlength : type.length = type'.length) : type = type' ∧ text = text' := by
  obtain ⟨-, -, rest, rfl, htext⟩ := h
  obtain ⟨-, -, rest', hbody, htext'⟩ := h'
  obtain ⟨rfl, hrest⟩ := List.append_inj hbody hlength
  cases hrest
  exact ⟨rfl, htext.unique htext'⟩

theorem parseType_eq_some_iff {body type text : List Char} :
    parseType [] body = some (type, text) ↔ ClosedType type text body ∧
      ∀ type' text', ClosedType type' text' body → type.length ≤ type'.length := by
  have hsound {type text : List Char} (h : parseType [] body = some (type, text)) :
      ClosedType type text body ∧
        ∀ type' text', ClosedType type' text' body → type.length ≤ type'.length := by
    obtain ⟨more, rest, hbody, rfl, hne, hfeed, htext, hleast⟩ := parseType_eq_some h
    refine ⟨⟨hne, hfeed, rest, hbody, htext⟩, ?_⟩
    rintro type' text' ⟨hne', -, rest', hbody', htext'⟩
    exact hleast type' rest' text' hbody' (.inr hne') htext'
  refine ⟨hsound, fun ⟨htype, hleast⟩ => ?_⟩
  obtain ⟨hne, hfeed, rest, rfl, htext⟩ := id htype
  obtain ⟨⟨type', text'⟩, hread⟩ := exists_parseType (.inr hne) hfeed htext
  obtain ⟨htype', hleast'⟩ := hsound hread
  have hlength : type.length = type'.length :=
    Nat.le_antisymm (hleast type' text' htype') (hleast' type text htype)
  obtain ⟨rfl, rfl⟩ := htype.unique htype' hlength
  exact hread

/-- A reading with the shortest type. -/
def IsShortest (type text s : List Char) : Prop :=
  ReturnsText type text s ∧ ∀ type' text', ReturnsText type' text' s → type.length ≤ type'.length

theorem parseReturnsChars_eq_some_iff {s type text : List Char} :
    parseReturnsChars s = some (type, text) ↔ IsShortest type text s := by
  constructor
  · intro h
    rw [parseReturnsChars] at h
    split at h
    · next body hbody =>
      have hs : s = s.takeWhile isBlank ++ '\x7b' :: body := by
        rw [← hbody, trimStart, List.takeWhile_append_dropWhile]
      have hlead : ∀ c ∈ s.takeWhile isBlank, isBlank c = true :=
        fun c hc => List.mem_takeWhile_imp hc
      obtain ⟨htype, hleast⟩ := parseType_eq_some_iff.1 h
      rw [hs]
      refine ⟨(returnsText_brace hlead).2 htype, fun type' text' htype' => ?_⟩
      exact hleast type' text' ((returnsText_brace hlead).1 htype')
    · cases h
  · rintro ⟨⟨lead, body, rfl, hlead, htype⟩, hleast⟩
    rw [parseReturnsChars, trimStart_brace hlead]
    refine parseType_eq_some_iff.2 ⟨htype, fun type' text' htype' => ?_⟩
    exact hleast type' text' ((returnsText_brace hlead).2 htype')

/-- **The shortest type is read.** -/
theorem parseReturns_eq_some_iff {s type text : String} :
    parseReturns s = some ⟨type, text⟩ ↔ IsShortest type.toList text.toList s.toList := by
  rw [parseReturns, Option.map_eq_some_iff, ← parseReturnsChars_eq_some_iff]
  constructor
  · rintro ⟨⟨type, text⟩, h, heq⟩
    cases heq
    rw [h, String.toList_ofList, String.toList_ofList]
  · intro h
    exact ⟨_, h, by simp⟩

theorem ReturnsText.exists_isShortest {s type text : List Char} (h : ReturnsText type text s) :
    ∃ type text, IsShortest type text s := by
  obtain ⟨lead, body, rfl, hlead, hne, hfeed, rest, rfl, htext⟩ := h
  obtain ⟨⟨type', text'⟩, hread⟩ := exists_parseType (.inr hne) hfeed htext
  refine ⟨type', text', parseReturnsChars_eq_some_iff.1 ?_⟩
  rw [parseReturnsChars, trimStart_brace hlead]
  exact hread

/-! ## Types that overrun a closing brace -/

/-- What stands before the one of two equal characters is the shorter part, or it goes on behind the
other one. -/
theorem length_le_or_exists_of_append_eq {c : Char} {a a' r r' : List Char}
    (h : a ++ c :: r = a' ++ c :: r') :
    a.length ≤ a'.length ∨ ∃ x, a = a' ++ c :: x ∧ r' = x ++ c :: r := by
  rcases List.append_eq_append_iff.1 h with ⟨x, rfl, -⟩ | ⟨x, rfl, hx⟩
  · exact .inl (by simp)
  · cases x with
    | nil => exact .inl (by simp)
    | cons d x =>
      obtain ⟨rfl, rfl⟩ := List.cons.inj hx
      exact .inr ⟨x, rfl, rfl⟩

/-- **The first closing brace.** A type that holds no closing brace is the shortest. -/
theorem ReturnsText.isShortest {s type text : List Char} (h : ReturnsText type text s)
    (hbrace : '\x7d' ∉ type) : IsShortest type text s := by
  refine ⟨h, fun type' text' h' => ?_⟩
  obtain ⟨lead, body, rfl, hlead, -, -, rest, rfl, -⟩ := h
  obtain ⟨-, -, rest', hbody, -⟩ := (returnsText_brace hlead).1 h'
  rcases length_le_or_exists_of_append_eq hbody with hle | ⟨x, rfl, -⟩
  · exact hle
  · exact absurd (by simp) hbrace

/-- A line feed that comes after the first visible character is part of the description. -/
theorem IsDescription.newline_not_mem {a b text : List Char} {c : Char}
    (h : IsDescription text (a ++ c :: b)) (hc : isBlank c = false) : '\n' ∉ b := by
  obtain ⟨gap, hs, hgap, hfeed, -⟩ := h
  rcases List.append_eq_append_iff.1 hs with ⟨x, rfl, hx⟩ | ⟨x, rfl, rfl⟩
  · cases x with
    | nil =>
      rw [List.nil_append] at hx
      exact fun hmem => hfeed (hx ▸ List.mem_cons_of_mem _ hmem)
    | cons d x =>
      obtain ⟨rfl, -⟩ := List.cons.inj hx
      rw [hgap c (by simp)] at hc
      cases hc
  · exact fun hmem => hfeed (by simp [hmem])

theorem isDescription_trimStart {s : List Char} (h : '\n' ∉ s) : IsDescription (trimStart s) s := by
  rw [← parseReturnsText_eq_some_iff, parseReturnsText, if_neg]
  exact fun hmem => h ((List.dropWhile_suffix _).subset hmem)

/-- A type can end at a closing brace if all that stands behind it is one line. -/
theorem closedType_of_newline_not_mem {type more rest : List Char} (hne : type ≠ [])
    (hfeed : '\n' ∉ type) (h : '\n' ∉ more ++ '\x7d' :: rest) :
    ClosedType type (trimStart (more ++ '\x7d' :: rest))
      (type ++ '\x7d' :: more ++ '\x7d' :: rest) :=
  ⟨hne, hfeed, _, by simp, isDescription_trimStart h⟩

/-- The type cannot end at the first closing brace, because it would be empty or because of a line
feed behind it, but it can end at a later one. -/
def Overruns (s : List Char) : Prop :=
  ∃ lead first second gap text,
    s = lead ++ '\x7b' :: (first ++ '\x7d' :: (second ++ '\x7d' :: (gap ++ text))) ∧
    (∀ c ∈ lead, isBlank c = true) ∧ '\x7d' ∉ first ∧ '\n' ∉ first ∧ '\n' ∉ second ∧
    (∀ c ∈ gap, isBlank c = true) ∧ '\n' ∉ text ∧ Flush text ∧ (first = [] ∨ '\n' ∈ gap)

theorem Overruns.exists_isShortest {s : List Char} (h : Overruns s) :
    ∃ type text, IsShortest type text s ∧ '\x7d' ∈ type := by
  obtain ⟨lead, first, second, gap, text, rfl, hlead, hbrace, hfirst, hsecond, hgap, htext, hflush,
    hend⟩ := h
  have hclosed : ClosedType (first ++ '\x7d' :: second) text
      (first ++ '\x7d' :: (second ++ '\x7d' :: (gap ++ text))) :=
    ⟨by simp, by simp [hfirst, hsecond], gap ++ text, by simp, gap, rfl, hgap, htext, hflush⟩
  obtain ⟨type, text', hshortest⟩ := ((returnsText_brace hlead).2 hclosed).exists_isShortest
  refine ⟨type, text', hshortest, ?_⟩
  by_contra htype
  obtain ⟨hne, -, rest, hbody, hrest⟩ := (returnsText_brace hlead).1 hshortest.1
  -- both stand before the first closing brace
  have hcut := congrArg (cutAt '\x7d') hbody
  rw [cutAt_append hbrace, cutAt_append htype] at hcut
  cases hcut
  have hfeed := hrest.newline_not_mem (by decide)
  exact hend.elim hne fun hmem => hfeed (List.mem_append_left _ hmem)

theorem IsShortest.overruns {s type text : List Char} (h : IsShortest type text s)
    (hbrace : '\x7d' ∈ type) : Overruns s := by
  obtain ⟨⟨lead, body, rfl, hlead, -, hfeed, rest, rfl, gap, rfl, hgap, htext, hflush⟩, hleast⟩ := h
  obtain ⟨first, second, rfl, hfirst⟩ := List.eq_append_cons_of_mem hbrace
  obtain ⟨hfeed, hsecond⟩ : '\n' ∉ first ∧ '\n' ∉ second := by simpa using hfeed
  refine ⟨lead, first, second, gap, text, by simp, hlead, hfirst, hfeed, hsecond, hgap, htext,
    hflush, ?_⟩
  by_contra hend
  obtain ⟨hne, hgapfeed⟩ := not_or.1 hend
  have hdescription : '\n' ∉ second ++ '\x7d' :: (gap ++ text) := by
    simp [hsecond, hgapfeed, htext]
  have hclosed := closedType_of_newline_not_mem hne hfeed hdescription
  have hle := hleast _ _ ((returnsText_brace hlead).2 hclosed)
  rw [List.length_append, List.length_cons] at hle
  omega

/-- On one line, only an empty type is overrun. -/
theorem overruns_iff_of_oneLine {s : List Char} (h : '\n' ∉ s) :
    Overruns s ↔ ∃ lead rest, s = lead ++ '\x7b' :: '\x7d' :: rest ∧
      (∀ c ∈ lead, isBlank c = true) ∧ '\x7d' ∈ rest := by
  constructor
  · rintro ⟨lead, first, second, gap, text, rfl, hlead, -, -, -, -, -, -, hend⟩
    have hfirst : first = [] := hend.resolve_right fun hmem => h (by simp [hmem])
    subst hfirst
    exact ⟨lead, second ++ '\x7d' :: (gap ++ text), rfl, hlead, by simp⟩
  · rintro ⟨lead, rest, rfl, hlead, hbrace⟩
    obtain ⟨second, rest, rfl⟩ := List.append_of_mem hbrace
    have hfeed : '\n' ∉ second ∧ '\n' ∉ rest := by
      constructor <;> exact fun hmem => h (by simp [hmem])
    obtain ⟨gap, hrest, hgap, htext, hflush⟩ := isDescription_trimStart hfeed.2
    refine ⟨lead, [], second, gap, trimStart rest, ?_, hlead, List.not_mem_nil, List.not_mem_nil,
      hfeed.1, hgap, htext, hflush, .inl rfl⟩
    rw [← hrest]
    rfl

/-! ## Main result -/

/-- What is added to the end is part of the description, also if it holds braces. -/
theorem IsShortest.append {s type text more : List Char} (h : IsShortest type text s)
    (hne : text ≠ []) (hmore : '\n' ∉ more) : IsShortest type (text ++ more) (s ++ more) := by
  obtain ⟨⟨lead, body, rfl, hlead, htype, hfeed, rest, rfl, gap, rfl, hgap, htext, hflush⟩,
    hleast⟩ := h
  have hmoreText : lead ++ '\x7b' :: (type ++ '\x7d' :: (gap ++ text)) ++ more =
      lead ++ '\x7b' :: (type ++ '\x7d' :: (gap ++ (text ++ more))) := by simp
  rw [hmoreText]
  refine ⟨(returnsText_brace hlead).2 ⟨htype, hfeed, _, rfl, gap, rfl, hgap, ?_, ?_⟩, ?_⟩
  · simp [htext, hmore]
  · intro c hc
    rw [List.head?_append_of_ne_nil _ hne] at hc
    exact hflush c hc
  · intro type' text' h'
    obtain ⟨htype', hfeed', rest', hbody, htext'⟩ := (returnsText_brace hlead).1 h'
    rcases length_le_or_exists_of_append_eq hbody with hle | ⟨x, rfl, rfl⟩
    · exact hle
    · -- a shorter type would have been read without the addition
      have hgapfeed := htext'.newline_not_mem (by decide)
      obtain ⟨-, hx⟩ : '\n' ∉ type' ∧ '\n' ∉ x := by simpa using hfeed
      have hdescription : '\n' ∉ x ++ '\x7d' :: (gap ++ text) := by
        simp only [List.mem_append, not_or] at hgapfeed
        simp [hx, hgapfeed]
      have hclosed := closedType_of_newline_not_mem htype' hfeed' hdescription
      exact hleast _ _ ((returnsText_brace hlead).2 hclosed)

/-- **The grammar of returns tags.** The reading with the shortest type is taken. If the text does
not overrun, these are exactly the readings whose type goes up to the first closing brace. If it
does, there is no such reading, and a type that holds a closing brace is read. A text of one line
overruns exactly if its first type is empty and a closing brace follows. Whatever is added to a
description, the type is the same. -/
theorem parseReturns_grammar (s : String) :
    (∀ type text, parseReturns s = some ⟨type, text⟩ ↔
      IsShortest type.toList text.toList s.toList) ∧
    (¬Overruns s.toList → ∀ type text, parseReturns s = some ⟨type, text⟩ ↔
      ReturnsText type.toList text.toList s.toList ∧ '\x7d' ∉ type.toList) ∧
    (Overruns s.toList →
      (∃ type text, parseReturns s = some ⟨type, text⟩ ∧ '\x7d' ∈ type.toList) ∧
        ∀ type text, ReturnsText type text s.toList → '\x7d' ∈ type) ∧
    ('\n' ∉ s.toList → (Overruns s.toList ↔ ∃ lead rest,
      s.toList = lead ++ '\x7b' :: '\x7d' :: rest ∧ (∀ c ∈ lead, isBlank c = true) ∧
        '\x7d' ∈ rest)) ∧
    ∀ type text more, parseReturns s = some ⟨type, text⟩ → text ≠ "" → '\n' ∉ more.toList →
      parseReturns (s ++ more) = some ⟨type, text ++ more⟩ := by
  refine ⟨fun type text => parseReturns_eq_some_iff, fun hoverruns type text => ?_,
    fun hoverruns => ⟨?_, fun type text htext => ?_⟩, overruns_iff_of_oneLine, ?_⟩
  · rw [parseReturns_eq_some_iff]
    exact ⟨fun h => ⟨h.1, fun hbrace => hoverruns (h.overruns hbrace)⟩, fun h => h.1.isShortest h.2⟩
  · obtain ⟨type, text, hshortest, hbrace⟩ := hoverruns.exists_isShortest
    refine ⟨.ofList type, .ofList text, parseReturns_eq_some_iff.2 ?_, ?_⟩
    · rwa [String.toList_ofList, String.toList_ofList]
    · rwa [String.toList_ofList]
  · by_contra hbrace
    obtain ⟨type', text', hshortest, hbrace'⟩ := hoverruns.exists_isShortest
    have hown := parseReturnsChars_eq_some_iff.2 (htext.isShortest hbrace)
    rw [parseReturnsChars_eq_some_iff.2 hshortest] at hown
    cases hown
    exact hbrace hbrace'
  · intro type text more h hne hmore
    have happend := (parseReturns_eq_some_iff.1 h).append (toList_ne_nil hne) hmore
    rwa [← String.toList_append, ← String.toList_append, ← parseReturns_eq_some_iff] at happend

/-- Braces in the description are not taken for a type. -/
theorem returns_with_braces :
    ¬Overruns " \x7bArray\x7d list".toList ∧
      parseReturns " \x7bArray\x7d list" = some ⟨"Array", "list"⟩ ∧
      parseReturns (" \x7bArray\x7d list" ++ " of \x7bid\x7d records") =
        some ⟨"Array", "list" ++ " of \x7bid\x7d records"⟩ ∧
      Overruns "\x7b\x7d\x7d x".toList ∧
      ∃ type text, parseReturns "\x7b\x7d\x7d x" = some ⟨type, text⟩ ∧ '\x7d' ∈ type.toList := by
  obtain ⟨-, hgrammar, -, hline, hmore⟩ := parseReturns_grammar " \x7bArray\x7d list"
  obtain ⟨-, -, hoverruns, hline', -⟩ := parseReturns_grammar "\x7b\x7d\x7d x"
  have hfits : ¬Overruns " \x7bArray\x7d list".toList := by
    rw [hline (by decide)]
    rintro ⟨lead, rest, h, hlead, -⟩
    have hbrace := congrArg trimStart h
    rw [trimStart_brace hlead] at hbrace
    cases hbrace
  have hread : parseReturns " \x7bArray\x7d list" = some ⟨"Array", "list"⟩ := by
    refine (hgrammar hfits "Array" "list").2 ⟨?_, by decide⟩
    refine ⟨[' '], "Array\x7d list".toList, by decide, by simp [isBlank], by decide, by decide, ?_⟩
    exact ⟨" list".toList, by decide, [' '], by decide, by simp [isBlank], by decide,
      fun c hc => by cases hc; decide⟩
  have hempty : Overruns "\x7b\x7d\x7d x".toList :=
    (hline' (by decide)).2 ⟨[], "\x7d x".toList, by decide, by simp, by decide⟩
  exact ⟨hfits, hread, hmore _ _ _ hread (by decide) (by decide), hempty, (hoverruns hempty).1⟩

/-- An empty type goes on to the next closing brace, and so does a type with two lines behind it. -/
theorem overrunning_types :
    parseReturns "\x7b\x7d\x7d x" = some ⟨"\x7d", "x"⟩ ∧
      ¬(ReturnsText "\x7d".toList "x".toList "\x7b\x7d\x7d x".toList ∧ '\x7d' ∉ "\x7d".toList) ∧
      parseReturns "\x7ba\x7d b\x7d\nc" = some ⟨"a\x7d b", "c"⟩ ∧
      ¬(ReturnsText "a\x7d b".toList "c".toList "\x7ba\x7d b\x7d\nc".toList ∧
        '\x7d' ∉ "a\x7d b".toList) :=
  ⟨by decide, fun h => h.2 (by decide), by decide, fun h => h.2 (by decide)⟩

end DocRoutes
