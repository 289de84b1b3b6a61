import DocRoutes.Doc.Extract
import DocRoutes.Proofs.Splitting
import DocRoutes.Route.Declaration

/-!
# Declarations as texts

A documentation comment is laid out as the lines of its description and one line for each
declaration. Reading a comment of this layout gives the description and the tags back.

**Declarations** (`Declaration.text`). A line consists of `@`, the kind, a space and the payload.
What a declaration may hold so that its line can be read is `Declaration.Fit`.

**Descriptions** (`FitDescription`). The lines of a description are trimmed, none is blank at the
start or at the end, and none begins a tag.

**Paths** (`exists_parsePath_iff`). A path is a text of one line that does not begin with a blank,
or else a single blank. Blanks before a path belong to the gap after the verb, and only where
nothing but blanks follows the verb is the last of them left for the path. So a path of either kind
is read again behind a word for its verb and blanks (`parseRouteChars_text`).

**Theorem (`toRecord_comment`).** The record of a comment has the description, the name of the item
after it, and the tags of its declarations in their order. No parameter is without a name.
-/

namespace DocRoutes

open Text

/-! ## Declarations -/

inductive Declaration where
  | controller (name : String)
  | route (verb : Verb) (path : String)
  /-- A parameter under the name that is written, with its marks. -/
  | param (types : List String) (raw : List Char) (description : Option String)
  | returns (type description : String)

/-- A text on one line without blanks at its ends. -/
def OneLine (s : String) : Prop := Trimmed s.toList ∧ '\n' ∉ s.toList

instance (s : String) : Decidable (OneLine s) :=
  inferInstanceAs (Decidable (Trimmed s.toList ∧ '\n' ∉ s.toList))

namespace Declaration

def kind : Declaration → String
  | controller _ => Tag.moduleKind
  | route .. => Tag.routeKind
  | param .. => Tag.paramKind
  | returns .. => Tag.returnsKind

/-- The types of a parameter, in braces and with a space after them. -/
def typesText (types : List String) : List Char :=
  if types = [] then []
  else '\x7b' :: (join ['|'] (types.map String.toList) ++ ['\x7d', ' '])

/-- Types in braces, with a space after them. The braces of no types are empty. -/
def bracesText (types : List String) : List Char :=
  '\x7b' :: (join ['|'] (types.map String.toList) ++ ['\x7d', ' '])

/-- The description of a parameter with a space before it. -/
def descriptionText (description : Option String) : List Char :=
  description.elim [] fun d => ' ' :: d.toList

def payload : Declaration → List Char
  | controller name => name.toList
  | route verb path => verb.name.toList ++ ' ' :: path.toList
  | param types raw description => typesText types ++ (raw ++ descriptionText description)
  | returns type description => '\x7b' :: (type.toList ++ '\x7d' :: ' ' :: description.toList)

/-- The line of a declaration. -/
def text (a : Declaration) : List Char := '@' :: (a.kind.toList ++ ' ' :: a.payload)

/-- The tag of a declaration. -/
def tag (a : Declaration) : Tag :=
  let plain : Tag := { kind := a.kind, payload := .ofList (trim a.payload) }
  match a with
  | param types raw description => { plain with name := some (.ofList raw), description, types }
  | _ => plain

/-- A type of a parameter that its line can hold. -/
structure FitType (type : String) : Prop where
  oneLine : OneLine type
  nonempty : type ≠ ""
  bars : '|' ∉ type.toList
  braces : '\x7d' ∉ type.toList

instance (type : String) : Decidable (FitType type) :=
  decidable_of_iff (OneLine type ∧ type ≠ "" ∧ '|' ∉ type.toList ∧ '\x7d' ∉ type.toList)
    ⟨fun h => ⟨h.1, h.2.1, h.2.2.1, h.2.2.2⟩, fun h => ⟨h.oneLine, h.nonempty, h.bars, h.braces⟩⟩

/-- A name that stands in a line as one word and does not open braces. -/
structure FitName (raw : List Char) : Prop where
  nonempty : raw ≠ []
  word : ∀ c ∈ raw, isBlank c = false
  braces : raw.head? ≠ some '\x7b'

instance (raw : List Char) : Decidable (FitName raw) :=
  decidable_of_iff (raw ≠ [] ∧ raw.all (!isBlank ·) = true ∧ raw.head? ≠ some '\x7b')
    ⟨fun h => ⟨h.1, by simpa using h.2.1, h.2.2⟩,
      fun h => ⟨h.nonempty, by simpa using h.word, h.braces⟩⟩

/-- What a declaration may hold so that its line can be read. -/
def Fit : Declaration → Prop
  | controller name => OneLine name ∧ name ≠ ""
  | route _ path => OneLine path ∧ path ≠ ""
  | param types raw description => (∀ type ∈ types, FitType type) ∧ FitName raw ∧
      ∀ d ∈ description, OneLine d ∧ d ≠ ""
  | returns type description => type ≠ "" ∧ '\x7d' ∉ type.toList ∧ '\n' ∉ type.toList ∧
      OneLine description

instance : (a : Declaration) → Decidable a.Fit
  | controller name => inferInstanceAs (Decidable (OneLine name ∧ name ≠ ""))
  | route _ path => inferInstanceAs (Decidable (OneLine path ∧ path ≠ ""))
  | param types raw description => inferInstanceAs (Decidable ((∀ type ∈ types, FitType type) ∧
      FitName raw ∧ ∀ d ∈ description, OneLine d ∧ d ≠ ""))
  | returns type description => inferInstanceAs (Decidable (type ≠ "" ∧ '\x7d' ∉ type.toList ∧
      '\n' ∉ type.toList ∧ OneLine description))

end Declaration

/-! ## Verbs and paths -/

/-- One line that is not empty, and that begins with a blank only if it is this blank alone. -/
structure IsPath (path : List Char) : Prop where
  nonempty : path ≠ []
  oneLine : '\n' ∉ path
  flush : (∀ c, path.head? = some c → isBlank c = false) ∨ path.length = 1

theorem parsePath_of_trimStart_ne_nil {s : List Char} (h : trimStart s ≠ []) :
    parsePath s = if '\n' ∈ trimStart s then none else some (trimStart s) := by
  rw [parsePath]
  split
  · next hnil => exact absurd hnil h
  · rfl

/-- A path is what comes after the blanks, or the last one of several blanks. -/
theorem parsePath_cases {s path : List Char} (h : parsePath s = some path) :
    ∃ gap, s = gap ++ path ∧ (∀ c ∈ gap, isBlank c = true) ∧
      ((∀ c, path.head? = some c → isBlank c = false) ∨ gap ≠ [] ∧ path.length = 1) := by
  by_cases hs : trimStart s = []
  · have hblank : ∀ c ∈ s, isBlank c = true := List.dropWhile_eq_nil_iff.1 hs
    rw [parsePath, hs] at h
    dsimp only at h
    split at h
    · next hlength =>
      obtain ⟨c, hlast, hc⟩ := Option.bind_eq_some_iff.1 h
      obtain ⟨gap, rfl⟩ := List.getLast?_eq_some_iff.1 hlast
      split at hc
      · cases hc
      · cases hc
        refine ⟨gap, rfl, fun d hd => hblank d (List.mem_append_left _ hd), .inr ⟨?_, rfl⟩⟩
        rintro rfl
        simp at hlength
    · cases h
  · rw [parsePath_of_trimStart_ne_nil hs] at h
    split at h
    · cases h
    · cases h
      refine ⟨s.takeWhile isBlank, ?_, fun c hc => List.mem_takeWhile_imp hc,
        .inl fun c hc => head?_trimStart hc⟩
      rw [trimStart, List.takeWhile_append_dropWhile]

theorem isPath_of_parsePath {s path : List Char} (h : parsePath s = some path) : IsPath path where
  nonempty := parsePath_ne_nil h
  oneLine := parsePath_oneLine h
  flush := by
    obtain ⟨gap, -, -, hflush | ⟨-, hlength⟩⟩ := parsePath_cases h
    · exact .inl hflush
    · exact .inr hlength

/-- A path is read behind blanks. -/
theorem parsePath_append {gap path : List Char} (hne : gap ≠ [])
    (hgap : ∀ c ∈ gap, isBlank c = true) (h : IsPath path) :
    parsePath (gap ++ path) = some path := by
  by_cases hflush : ∀ c, path.head? = some c → isBlank c = false
  · have htrim : trimStart (gap ++ path) = path :=
      (trimStart_append hgap).trans (trimStart_eq_self hflush)
    rw [parsePath_of_trimStart_ne_nil (htrim.symm ▸ h.nonempty), htrim, if_neg h.oneLine]
  · -- The path is a blank alone, and the last of at least two blanks.
    obtain ⟨c, rfl⟩ := List.length_eq_one_iff.1 (h.flush.resolve_left hflush)
    have hc : isBlank c = true := by simpa using hflush
    have htrim : trimStart (gap ++ [c]) = [] := by
      rw [trimStart_append hgap, trimStart, List.dropWhile_cons_of_pos hc, List.dropWhile_nil]
    have hlength : 2 ≤ (gap ++ [c]).length := by
      have hpos := List.length_pos_iff.2 hne
      rw [List.length_append, List.length_singleton]
      omega
    have hfeed : c ≠ '\n' := fun heq => h.oneLine (heq ▸ List.mem_singleton_self c)
    rw [parsePath, htrim]
    show (if _ then _ else _) = _
    rw [if_pos hlength, List.getLast?_concat, Option.bind_some, if_neg hfeed]

/-- **What is read as a path.** -/
theorem exists_parsePath_iff {path : List Char} :
    (∃ s, parsePath s = some path) ↔ IsPath path :=
  ⟨fun ⟨_, h⟩ => isPath_of_parsePath h,
    fun h => ⟨[' '] ++ path,
      parsePath_append (List.cons_ne_nil _ _) (List.forall_mem_singleton.2 rfl) h⟩⟩

/-- A verb and a path are read with blanks before them and between them. -/
theorem parseRouteChars_text {lead word gap path : List Char} {verb : Verb}
    (hlead : ∀ c ∈ lead, isBlank c = true) (hverb : Verb.ofName? (.ofList word) = some verb)
    (hword : ∀ c ∈ word, isBlank c = false) (hne : gap ≠ [])
    (hgap : ∀ c ∈ gap, isBlank c = true) (hpath : IsPath path) :
    parseRouteChars (lead ++ (word ++ (gap ++ path))) = some (verb, path) := by
  have hrest : ∀ c, (gap ++ path).head? = some c → isBlank c = true := by
    intro c hc
    rw [List.head?_append_of_ne_nil _ hne] at hc
    exact hgap c (List.mem_of_head? hc)
  have hstart : trimStart (lead ++ (word ++ (gap ++ path))) = word ++ (gap ++ path) := by
    rw [trimStart_append hlead]
    apply trimStart_eq_self
    intro c hc
    cases word with
    | nil => cases hverb
    | cons d word =>
      cases hc
      exact hword _ List.mem_cons_self
  rw [parseRouteChars, hstart, takeWord_append hword hrest, dropWord_append hword hrest, hverb,
    parsePath_append hne hgap hpath]
  rfl

theorem parseRoute_eq_some_iff {text path : String} {verb : Verb} :
    parseRoute text = some (verb, path) ↔
      parseRouteChars text.toList = some (verb, path.toList) := by
  rw [parseRoute, Option.map_eq_some_iff]
  constructor
  · rintro ⟨⟨verb, path⟩, h, heq⟩
    cases heq
    rw [h, String.toList_ofList]
  · intro h
    exact ⟨_, h, Prod.ext rfl String.ofList_toList⟩

/-- A verb and a path are read with a space between them. -/
theorem parseRoute_of_toList {text path : String} {word : List Char} {verb : Verb}
    (htext : text.toList = word ++ ' ' :: path.toList)
    (hverb : Verb.ofName? (.ofList word) = some verb) (hword : ∀ c ∈ word, isBlank c = false)
    (hpath : IsPath path.toList) : parseRoute text = some (verb, path) := by
  have hlead : ∀ c ∈ ([] : List Char), isBlank c = true := List.forall_mem_nil _
  have hgap : ∀ c ∈ [' '], isBlank c = true := List.forall_mem_singleton.2 rfl
  have hroute := parseRouteChars_text hlead hverb hword (List.cons_ne_nil _ _) hgap hpath
  rw [List.nil_append, List.singleton_append] at hroute
  rw [parseRoute_eq_some_iff, htext, hroute]

/-! ## Payloads -/

theorem oneLine_trim {s : List Char} (h : '\n' ∉ s) : OneLine (.ofList (trim s)) := by
  rw [OneLine, String.toList_ofList]
  exact ⟨trimmed_trim s, fun hc => h (mem_of_mem_trim hc)⟩

theorem OneLine.clean {s : String} (h : OneLine s) : Clean s.toList := h.1.clean h.2

theorem toList_ne_nil {s : String} (h : s ≠ "") : s.toList ≠ [] := fun heq =>
  h (String.toList_eq_nil_iff.1 heq)

/-- A text of word characters, at least one. -/
def IsWord (s : List Char) : Prop := s ≠ [] ∧ ∀ c ∈ s, isWordChar c = true

instance (s : List Char) : Decidable (IsWord s) :=
  decidable_of_iff (s ≠ [] ∧ s.all isWordChar = true) (and_congr_right fun _ => List.all_eq_true)

theorem IsWord.not_mem {s : List Char} (h : IsWord s) {c : Char} (hc : isWordChar c = false) :
    c ∉ s := fun hmem => by
  rw [h.2 c hmem] at hc
  cases hc

/-- The code points of blanks. -/
def blankCodes : List Nat :=
  [9, 10, 11, 12, 13, 0x20, 0x85, 0xA0, 0x1680, 0x2000, 0x2001, 0x2002, 0x2003, 0x2004, 0x2005,
   0x2006, 0x2007, 0x2008, 0x2009, 0x200A, 0x2028, 0x2029, 0x202F, 0x205F, 0x3000]

theorem mem_blankCodes {c : Char} (h : isBlank c = true) : c.toNat ∈ blankCodes := by
  simp only [isBlank, Bool.or_eq_true, Bool.and_eq_true, decide_eq_true_eq, beq_iff_eq] at h
  simp only [blankCodes, List.mem_cons, List.not_mem_nil, or_false]
  omega

theorem isWordChar_of_mem_blankCodes : ∀ n ∈ blankCodes, isWordChar (Char.ofNat n) = false := by
  decide +kernel

theorem isBlank_of_isWordChar {c : Char} (h : isWordChar c = true) : isBlank c = false := by
  cases hblank : isBlank c with
  | false => rfl
  | true =>
    have hword := isWordChar_of_mem_blankCodes _ (mem_blankCodes hblank)
    rw [Char.ofNat_toNat, h] at hword
    cases hword

theorem isWordChar_of_isBlank {c : Char} (h : isBlank c = true) : isWordChar c = false := by
  cases hc : isWordChar c with
  | false => rfl
  | true =>
    rw [isBlank_of_isWordChar hc] at h
    cases h

theorem Verb.oneWord (verb : Verb) : ∀ c ∈ verb.name.toList, isBlank c = false := by
  have hall : verb.name.toList.all (!isBlank ·) = true := by cases verb <;> decide
  simpa using hall

theorem not_mem_of_isBlank {s : List Char} (h : ∀ c ∈ s, isBlank c = false) {c : Char}
    (hc : isBlank c = true) : c ∉ s := fun hmem => by
  rw [h c hmem] at hc
  cases hc

theorem IsWord.isBlank {s : List Char} (h : IsWord s) : ∀ c ∈ s, isBlank c = false :=
  fun c hc => isBlank_of_isWordChar (h.2 c hc)

/-- The kind of a tag ends at the end of the line or at a blank. -/
theorem tagLine?_append {kind rest : List Char} (hkind : IsWord kind)
    (hrest : ∀ c, rest.head? = some c → isBlank c = true) (h : '\n' ∉ rest.tail) :
    tagLine? ('@' :: (kind ++ rest)) = some (kind, trim rest) := by
  have hstop : ∀ c, rest.head? = some c → isWordChar c = false := fun c hc =>
    isWordChar_of_isBlank (hrest c hc)
  rw [tagLine?, takeWordChars, dropWordChars, takeWhile_append_of_stop hkind.2 hstop,
    dropWhile_append_of_stop hkind.2 hstop]
  cases rest with
  | nil => simp [hkind.1, trim, trimStart, trimEnd]
  | cons c rest =>
    have hc : isBlank c = true := hrest c rfl
    have hfeed : '\n' ∉ trimStart rest := fun hmem => h ((List.dropWhile_sublist _).mem hmem)
    simp [hkind.1, hc, hfeed, trim_cons hc]

/-- **A line begins a tag** if a word stands behind its mark. -/
theorem tagLine?_trim {kind payload : List Char} {sep : Char} (hkind : IsWord kind)
    (hsep : isBlank sep = true) (h : '\n' ∉ payload) :
    tagLine? (trim ('@' :: (kind ++ sep :: payload))) = some (kind, trim payload) := by
  have hlast : ∀ c, ('@' :: kind).getLast? = some c → isBlank c = false := fun c hc => by
    rw [← List.singleton_append, List.getLast?_append_of_ne_nil _ hkind.1] at hc
    exact hkind.isBlank c (List.mem_of_getLast? hc)
  have hline : trim ('@' :: (kind ++ sep :: payload)) =
      '@' :: (kind ++ trimEnd (sep :: payload)) := by
    have hstart : trimStart ('@' :: (kind ++ sep :: payload)) = '@' :: kind ++ sep :: payload := rfl
    rw [trim, hstart, trimEnd_append_of_last hlast]
    rfl
  obtain ⟨b, hb⟩ := trimEnd_isPrefix (sep :: payload)
  have hrest : ∀ c rest, trimEnd (sep :: payload) = c :: rest → c = sep ∧ rest <+: payload := by
    intro c rest heq
    rw [heq, List.cons_append, List.cons.injEq] at hb
    exact ⟨hb.1, b, hb.2⟩
  rw [hline, tagLine?_append hkind, trim_trimEnd, trim_cons hsep]
  · intro c hc
    obtain ⟨rest, heq⟩ := List.head?_eq_some_iff.1 hc
    rw [(hrest c rest heq).1]
    exact hsep
  · cases heq : trimEnd (sep :: payload) with
    | nil => exact List.not_mem_nil
    | cons c rest => exact fun hmem => h ((hrest c rest heq).2.mem hmem)

namespace Declaration

theorem FitName.clean {raw : List Char} (h : FitName raw) : Clean raw :=
  ⟨not_mem_of_isBlank h.word rfl, fun hr => not_mem_of_isBlank h.word rfl (List.mem_of_getLast? hr)⟩

theorem FitName.head {raw : List Char} (h : FitName raw) {s : List Char} {c : Char}
    (hc : (raw ++ s).head? = some c) : isBlank c = false ∧ c ≠ '\x7b' := by
  obtain ⟨d, rest, hraw⟩ := List.exists_cons_of_ne_nil h.nonempty
  have hbraces := h.braces
  rw [hraw] at hc hbraces
  cases hc
  exact ⟨h.word _ (hraw ▸ List.mem_cons_self), fun heq => hbraces (congrArg some heq)⟩

theorem clean_descriptionText {description : Option String}
    (h : ∀ d ∈ description, OneLine d ∧ d ≠ "") : Clean (descriptionText description) := by
  cases description with
  | none => exact ⟨List.not_mem_nil, nofun⟩
  | some d => exact .cons (by decide) (by decide) (h d rfl).1.clean

theorem not_mem_typesText {types : List String} (h : ∀ type ∈ types, FitType type) :
    '\n' ∉ typesText types := by
  have hjoin : '\n' ∉ join ['|'] (types.map String.toList) := by
    refine not_mem_join (by decide) fun t ht => ?_
    obtain ⟨type, htype, rfl⟩ := List.mem_map.1 ht
    exact (h type htype).oneLine.2
  unfold typesText
  split
  · exact List.not_mem_nil
  · simp [hjoin]

theorem clean_payload {a : Declaration} (h : a.Fit) : Clean a.payload := by
  cases a with
  | controller name => exact h.1.clean
  | route verb path =>
    exact .append (not_mem_of_isBlank verb.oneWord rfl) (.cons (by decide) (by decide) h.1.clean)
      (List.cons_ne_nil _ _)
  | param types raw description =>
    obtain ⟨htypes, hraw, hdescription⟩ := h
    have htext : Clean (raw ++ descriptionText description) := by
      by_cases hempty : descriptionText description = []
      · rw [hempty, List.append_nil]
        exact hraw.clean
      · exact .append hraw.clean.1 (clean_descriptionText hdescription) hempty
    have hne : raw ++ descriptionText description ≠ [] :=
      List.append_ne_nil_of_left_ne_nil hraw.nonempty _
    exact .append (not_mem_typesText htypes) htext hne
  | returns type description =>
    obtain ⟨-, -, htype, hdescription⟩ := h
    refine .cons (by decide) (by decide) (.append htype ?_ (List.cons_ne_nil _ _))
    exact .cons (by decide) (by decide) (.cons (by decide) (by decide) hdescription.clean)

theorem head_payload {a : Declaration} (h : a.Fit) {c : Char} (hc : a.payload.head? = some c) :
    isBlank c = false := by
  cases a with
  | controller name => exact h.1.1.head hc
  | route verb path => cases verb <;> (cases hc; rfl)
  | param types raw description =>
    by_cases htypes : types = []
    · have hpayload : payload (.param types raw description) =
          raw ++ descriptionText description := by
        rw [payload, typesText, if_pos htypes, List.nil_append]
      exact (h.2.1.head (hpayload ▸ hc)).1
    · rw [payload, typesText, if_neg htypes] at hc
      cases hc
      rfl
  | returns type description =>
    cases hc
    rfl

theorem trimEnd_payload {a : Declaration} (h : a.Fit) : trimEnd a.payload = trim a.payload := by
  rw [trim, trimStart_eq_self fun c hc => head_payload h hc]

/-! ## Lines -/

theorem isWord_kind (a : Declaration) : IsWord a.kind.toList := by
  cases a with
  | controller => exact show IsWord Tag.moduleKind.toList by decide
  | route => exact show IsWord Tag.routeKind.toList by decide
  | param => exact show IsWord Tag.paramKind.toList by decide
  | returns => exact show IsWord Tag.returnsKind.toList by decide

theorem clean_text {a : Declaration} (h : a.Fit) : Clean a.text := by
  have hkind : '\n' ∉ a.kind.toList := (isWord_kind a).not_mem rfl
  refine .cons (by decide) (by decide) (.append hkind ?_ (List.cons_ne_nil _ _))
  exact .cons (by decide) (by decide) (clean_payload h)

/-- **The line of a declaration begins a tag.** -/
theorem tagLine?_text {a : Declaration} (h : a.Fit) :
    tagLine? (trim a.text) = some (a.kind.toList, trim a.payload) :=
  tagLine?_trim (isWord_kind a) rfl (clean_payload h).1

/-! ## Fields of parameters -/

/-- Types are read from between the bars. -/
theorem pieces_join_types {types : List String} (h : ∀ type ∈ types, FitType type) :
    ((splitAt '|' (join ['|'] (types.map String.toList))).map trim).filter (!·.isEmpty) =
      types.map String.toList := by
  by_cases htypes : types = []
  · rw [htypes]
    rfl
  have hpieces : types.map String.toList ≠ [] := mt List.map_eq_nil_iff.1 htypes
  have hsplit : splitAt '|' (join ['|'] (types.map String.toList)) = types.map String.toList := by
    refine splitAt_join hpieces fun t ht => ?_
    obtain ⟨type, htype, rfl⟩ := List.mem_map.1 ht
    exact (h type htype).bars
  have htrim : (types.map String.toList).map trim = types.map String.toList := by
    rw [List.map_map]
    exact List.map_congr_left fun type htype => (h type htype).oneLine.1
  rw [hsplit, htrim]
  refine List.filter_eq_self.2 fun t ht => ?_
  obtain ⟨type, htype, rfl⟩ := List.mem_map.1 ht
  simpa using (h type htype).nonempty

/-- **Types are read back from their braces**, and the blanks after the braces are dropped. -/
theorem typesField?_bracesText {types : List String} (h : ∀ type ∈ types, FitType type)
    {s : List Char} (hs : ∀ c, s.head? = some c → isBlank c = false) :
    typesField? (bracesText types ++ s) = some (types.map String.toList, s) := by
  have hbraces : '\x7d' ∉ join ['|'] (types.map String.toList) := by
    refine not_mem_join (by decide) fun t ht => ?_
    obtain ⟨type, htype, rfl⟩ := List.mem_map.1 ht
    exact (h type htype).braces
  have hcut : cutAt '\x7d' (join ['|'] (types.map String.toList) ++ '\x7d' :: ' ' :: s) =
      (join ['|'] (types.map String.toList), some (' ' :: s)) := cutAt_append hbraces _
  have hspace : trimStart (' ' :: s) = s := trimStart_eq_self hs
  have htext : bracesText types ++ s =
      '\x7b' :: (join ['|'] (types.map String.toList) ++ '\x7d' :: ' ' :: s) := by
    simp [bracesText]
  rw [htext, typesField?, hcut]
  show some _ = _
  rw [pieces_join_types h, hspace]

/-- No types are read where no brace opens. -/
theorem typesField?_of_head {s : List Char} (hs : s.head? ≠ some '\x7b') :
    typesField? s = some ([], s) := by
  unfold typesField?
  split
  · exact absurd rfl hs
  · rfl

theorem typesField?_typesText {types : List String} (h : ∀ type ∈ types, FitType type)
    {s : List Char} (hs : ∀ c, s.head? = some c → isBlank c = false ∧ c ≠ '\x7b') :
    typesField? (typesText types ++ s) = some (types.map String.toList, s) := by
  by_cases htypes : types = []
  · rw [typesText, if_pos htypes, htypes, List.nil_append]
    exact typesField?_of_head fun hhead => (hs _ hhead).2 rfl
  · have htext : typesText types = bracesText types := if_neg htypes
    rw [htext]
    exact typesField?_bracesText h fun c hc => (hs c hc).1

theorem trimStart_descriptionText {description : Option String}
    (h : ∀ d ∈ description, OneLine d ∧ d ≠ "") :
    trimStart (descriptionText description) = description.elim [] String.toList := by
  cases description with
  | none => rfl
  | some d => exact (h d rfl).1.1.trimStart

theorem trimmed_nameText {raw : List Char} {description : Option String} (hraw : FitName raw)
    (h : ∀ d ∈ description, OneLine d ∧ d ≠ "") :
    Trimmed (raw ++ descriptionText description) := by
  refine trimmed_of_ends (fun c hc => (hraw.head hc).1) fun c hc => ?_
  cases description with
  | none =>
    rw [descriptionText, Option.elim_none, List.append_nil] at hc
    exact hraw.word c (List.mem_of_getLast? hc)
  | some d =>
    have hd : d.toList ≠ [] := toList_ne_nil (h d rfl).2
    obtain ⟨b, rest, hcons⟩ := List.exists_cons_of_ne_nil hd
    rw [descriptionText, Option.elim_some,
      List.getLast?_append_of_ne_nil raw (List.cons_ne_nil _ _),
      hcons, List.getLast?_cons_cons, ← hcons] at hc
    exact (h d rfl).1.1.last hc

theorem trim_payload_param {types : List String} {raw : List Char} {description : Option String}
    (h : (param types raw description).Fit) :
    trim (param types raw description).payload =
      typesText types ++ (raw ++ descriptionText description) := by
  have htrimmed := trimmed_nameText h.2.1 h.2.2
  have hne : raw ++ descriptionText description ≠ [] :=
    List.append_ne_nil_of_left_ne_nil h.2.1.nonempty _
  rw [← trimEnd_payload h, payload, trimEnd_append (htrimmed.trimEnd.symm ▸ hne), htrimmed.trimEnd]

/-- The fields behind the types. -/
theorem paramFields?_of_typesField? {payload raw : List Char} {types : List String}
    {description : Option String} (hraw : FitName raw)
    (hdescription : ∀ d ∈ description, OneLine d ∧ d ≠ "")
    (h : typesField? payload =
      some (types.map String.toList, raw ++ descriptionText description)) :
    paramFields? payload = some ⟨types, .ofList raw, description⟩ := by
  have hrest : ∀ c, (descriptionText description).head? = some c → isBlank c = true := by
    cases description with
    | none => nofun
    | some d =>
      intro c hc
      cases hc
      rfl
  rw [paramFields?, h]
  show (if _ then none else some _) = _
  rw [takeWord_append hraw.word hrest, dropWord_append hraw.word hrest,
    trimStart_descriptionText hdescription, if_neg]
  · cases description with
    | none => simp [trim, trimEnd, trimStart]
    | some d =>
      have htrim : trim d.toList = d.toList := (hdescription d rfl).1.1
      simp [htrim, (hdescription d rfl).2]
  · rintro (hnil | hbrace | hfeed)
    · exact hraw.nonempty hnil
    · exact hraw.braces hbrace
    · cases description with
      | none => cases hfeed
      | some d => exact (hdescription d rfl).1.2 hfeed

/-- **The fields of a parameter.** -/
theorem paramFields?_payload {types : List String} {raw : List Char} {description : Option String}
    (h : (param types raw description).Fit) :
    paramFields? (trim (param types raw description).payload) =
      some ⟨types, .ofList raw, description⟩ := by
  rw [trim_payload_param h]
  obtain ⟨htypes, hraw, hdescription⟩ := h
  exact paramFields?_of_typesField? hraw hdescription
    (typesField?_typesText htypes fun c hc => hraw.head hc)

/-- **The tag of a declaration.** -/
theorem toTag_payload {a : Declaration} (h : a.Fit) (number : Nat) :
    NumberedTag.toTag ⟨number, a.kind.toList, trim a.payload⟩ = (a.tag, []) := by
  cases a with
  | param types raw description => simp [NumberedTag.toTag, paramFields?_payload h, tag, kind]
  | controller name => simp [NumberedTag.toTag, tag, kind, Tag.moduleKind, Tag.paramKind]
  | route verb path => simp [NumberedTag.toTag, tag, kind, Tag.routeKind, Tag.paramKind]
  | returns type description => simp [NumberedTag.toTag, tag, kind, Tag.returnsKind, Tag.paramKind]

end Declaration

/-! ## Descriptions -/

/-- The lines of a description; an empty one has none. -/
def descriptionLines (s : String) : List (List Char) :=
  if s = "" then [] else splitAt '\n' s.toList

/-- A description whose lines can be told from declarations and from blank lines around them. -/
structure FitDescription (s : String) : Prop where
  line : ∀ line ∈ descriptionLines s, Trimmed line ∧ tagLine? line = none
  first : (descriptionLines s).head? ≠ some []
  last : (descriptionLines s).getLast? ≠ some []

instance (s : String) : Decidable (FitDescription s) :=
  decidable_of_iff ((∀ line ∈ descriptionLines s, Trimmed line ∧ tagLine? line = none) ∧
      (descriptionLines s).head? ≠ some [] ∧ (descriptionLines s).getLast? ≠ some [])
    ⟨fun h => ⟨h.1, h.2.1, h.2.2⟩, fun h => ⟨h.line, h.first, h.last⟩⟩

theorem join_descriptionLines (s : String) : join ['\n'] (descriptionLines s) = s.toList := by
  unfold descriptionLines
  split
  · next h =>
    rw [h]
    rfl
  · exact join_splitAt '\n' s.toList

theorem clean_descriptionLines {s : String} (h : FitDescription s) :
    ∀ line ∈ descriptionLines s, Clean line := fun line hline => by
  refine (h.line line hline).1.clean ?_
  unfold descriptionLines at hline
  split at hline
  · cases hline
  · exact not_mem_of_mem_splitAt hline

theorem trim_descriptionLines {s : String} (h : FitDescription s) :
    trim (join ['\n'] (descriptionLines s)) = s.toList := by
  have htrimmed : Trimmed (join ['\n'] (descriptionLines s)) :=
    trimmed_join (fun line hline => (h.line line hline).1) h.first h.last
  rw [show trim (join ['\n'] (descriptionLines s)) = _ from htrimmed, join_descriptionLines]

/-! ## Comments -/

/-- The lines of a comment without their markers. -/
def commentTexts (description : String) (declarations : List Declaration) : List (List Char) :=
  descriptionLines description ++ declarations.map Declaration.text

section Comments

variable {description : String} {declarations : List Declaration}

theorem clean_commentTexts (hdescription : FitDescription description)
    (h : ∀ a ∈ declarations, a.Fit) :
    ∀ text ∈ commentTexts description declarations, Clean text := by
  intro text htext
  rcases List.mem_append.1 htext with htext | htext
  · exact clean_descriptionLines hdescription text htext
  · obtain ⟨a, ha, rfl⟩ := List.mem_map.1 htext
    exact Declaration.clean_text (h a ha)

theorem trim_commentTexts (hdescription : FitDescription description) :
    (commentTexts description declarations).map trim =
      descriptionLines description ++ declarations.map fun a => trim a.text := by
  have hlines : (descriptionLines description).map trim = descriptionLines description :=
    map_eq_self fun line hline => (hdescription.line line hline).1
  rw [commentTexts, List.map_append, hlines, List.map_map]
  rfl

theorem untagged_declarations (h : ∀ a ∈ declarations, a.Fit) :
    untagged (declarations.map fun a => trim a.text) = [] := by
  cases declarations with
  | nil => rfl
  | cons a rest =>
    rw [untagged, List.map_cons, List.takeWhile_cons_of_neg]
    rw [Declaration.tagLine?_text (h a List.mem_cons_self)]
    exact Bool.false_ne_true

theorem untagged_commentTexts (hdescription : FitDescription description)
    (h : ∀ a ∈ declarations, a.Fit) :
    untagged ((commentTexts description declarations).map trim) = descriptionLines description := by
  have hlines : ∀ line ∈ descriptionLines description, (tagLine? line).isNone = true :=
    fun line hline => by rw [(hdescription.line line hline).2]; rfl
  have hrest := untagged_declarations h
  rw [untagged] at hrest
  rw [trim_commentTexts hdescription, untagged, List.takeWhile_append_of_pos hlines, hrest,
    List.append_nil]

/-- Lines before the first tag give no tags. -/
theorem tagsFrom_append {texts : List (List Char)} (h : ∀ text ∈ texts, tagLine? text = none)
    (number : Nat) (rest : List (List Char)) :
    tagsFrom number (texts ++ rest) = tagsFrom (number + texts.length) rest := by
  induction texts generalizing number with
  | nil => rfl
  | cons text texts ih =>
    obtain ⟨htext, htexts⟩ := List.forall_mem_cons.1 h
    rw [List.cons_append, tagsFrom, htext]
    show tagsFrom (number + 1) (texts ++ rest) = _
    rw [ih htexts, List.length_cons, Nat.add_assoc, Nat.add_comm 1]

theorem joinPayload_nil (payload : List Char) : joinPayload payload [] = payload := by
  cases payload with
  | nil => rfl
  | cons c s => exact join_singleton [' '] (c :: s)

/-- Each declaration is read as its tag: the line after it adds nothing to its payload. -/
theorem tagsFrom_declarations (h : ∀ a ∈ declarations, a.Fit) (number : Nat) :
    (tagsFrom number (declarations.map fun a => trim a.text)).map (·.toTag) =
      declarations.map fun a => (a.tag, []) := by
  induction declarations generalizing number with
  | nil => rfl
  | cons a rest ih =>
    obtain ⟨ha, hrest⟩ := List.forall_mem_cons.1 h
    rw [List.map_cons, tagsFrom, Declaration.tagLine?_text ha]
    show NumberedTag.toTag _ :: _ = _
    rw [untagged_declarations hrest, joinPayload_nil,
      Declaration.toTag_payload ha, ih hrest, List.map_cons]

/-- Where no parameter is without a name there is none in all. -/
theorem flatMap_nameless {α β : Type} (f : α → β) (l : List α) :
    (l.map fun x => (f x, ([] : List NamelessParam))).flatMap (·.2) = [] := by
  refine List.flatMap_eq_nil_iff.2 fun t ht => ?_
  obtain ⟨x, -, rfl⟩ := List.mem_map.1 ht
  rfl

/-- **A comment is read back.** -/
theorem toRecord_comment {b : Block} (hdescription : FitDescription description)
    (h : ∀ a ∈ declarations, a.Fit) (htexts : b.texts = commentTexts description declarations) :
    b.toRecord =
      (({ description, context := b.context?.map .ofList } : DocRecord).addTags
        (declarations.map (·.tag)), []) := by
  have htags : (tagsFrom b.number (b.texts.map trim)).map (·.toTag) =
      declarations.map fun a => (a.tag, []) := by
    rw [htexts, trim_commentTexts hdescription,
      tagsFrom_append fun line hline => (hdescription.line line hline).2]
    exact tagsFrom_declarations h _
  have huntagged : untagged (b.texts.map trim) = descriptionLines description := by
    rw [htexts]
    exact untagged_commentTexts hdescription h
  rw [Block.toRecord, htags, huntagged, trim_descriptionLines hdescription, List.map_map,
    String.ofList_toList]
  rw [flatMap_nameless]
  rfl

end Comments

end DocRoutes
