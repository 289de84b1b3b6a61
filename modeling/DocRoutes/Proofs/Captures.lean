import DocRoutes.Http.Pattern
import DocRoutes.Route.Classify

/-!
# Names in a path, as parameters and as wildcards

A path is read twice. Where a parameter is documented, `:name` counts as a segment if no word
character touches it on either side. Where the path becomes a pattern, a colon or an asterisk
begins a wildcard anywhere, and its name goes on to the next slash.

Both readings are described here by where the name stands in the text of the path:
`namesSegment_iff` by `Mentions`, and `mem_names_pieces` by `Captures`. The two differ. In
`/users/:id.json` the name `id` is mentioned, but the wildcard is called `id.json`; in `/u:id` and
`/files/*rest` the wildcards' names are not mentioned. On a plain path, whose wildcards are colons
behind no word character with names of word characters, they agree (`mentions_iff_captures`).
-/

namespace DocRoutes

/-! ## Mentions -/

/-- Whether a text ends in no word character. -/
def endsBeyondWord (s : List Char) : Bool := beginsBeyondWord s.reverse

/-- `:name` stands in the path with no word character before and after it. -/
def Mentions (path name : List Char) : Prop :=
  name ≠ [] ∧ ∃ before after, path = before ++ ':' :: (name ++ after) ∧
    endsBeyondWord before = true ∧ beginsBeyondWord after = true

/-- Whether a text ends in a word character; `afterWord` is the answer for the empty text. -/
def endsInWord (afterWord : Bool) (s : List Char) : Bool :=
  s.foldl (fun _ c => Text.isWordChar c) afterWord

theorem endsInWord_append (afterWord : Bool) (s : List Char) (c : Char) :
    endsInWord afterWord (s ++ [c]) = Text.isWordChar c := by
  simp [endsInWord, List.foldl_append]

theorem endsBeyondWord_eq (s : List Char) : endsBeyondWord s = !endsInWord false s := by
  rcases List.eq_nil_or_concat s with rfl | ⟨s, c, rfl⟩
  · rfl
  · rw [List.concat_eq_append, endsInWord_append, endsBeyondWord, List.reverse_append]
    rfl

theorem hasSegment_iff {name s : List Char} {afterWord : Bool} :
    hasSegment name afterWord s = true ↔ ∃ before after, s = before ++ ':' :: (name ++ after) ∧
      endsInWord afterWord before = false ∧ beginsBeyondWord after = true := by
  induction s generalizing afterWord with
  | nil => simp [hasSegment]
  | cons c s ih =>
    rw [hasSegment, Bool.or_eq_true, ih]
    constructor
    · rintro (h | ⟨before, after, rfl, hbefore, hafter⟩)
      · split at h
        · next after hafter =>
          rw [Text.afterPrefix?_eq_some] at hafter
          simp only [Bool.and_eq_true, decide_eq_true_eq, Bool.not_eq_eq_eq_not, Bool.not_true] at h
          exact ⟨[], after, by rw [h.1.1, hafter]; rfl, h.1.2, h.2⟩
        · cases h
      · exact ⟨c :: before, after, rfl, hbefore, hafter⟩
    · rintro ⟨before, after, hs, hbefore, hafter⟩
      cases before with
      | nil =>
        obtain ⟨rfl, rfl⟩ := List.cons.inj hs
        left
        rw [Text.afterPrefix?_eq_some.2 rfl]
        simp [hafter, show afterWord = false from hbefore]
      | cons b before =>
        obtain ⟨rfl, rfl⟩ := List.cons.inj hs
        exact .inr ⟨before, after, rfl, hbefore, hafter⟩

/-- **The first reading.** A path has a segment for a parameter if it mentions the name. -/
theorem namesSegment_iff {path name : List Char} :
    namesSegment path name = true ↔ Mentions path name := by
  rw [namesSegment, Bool.and_eq_true, hasSegment_iff, Mentions]
  simp [endsBeyondWord_eq]

instance (path name : List Char) : Decidable (Mentions path name) :=
  decidable_of_iff _ namesSegment_iff

theorem source_classify_eq_path_iff {raw path : String} {verb : Verb}
    (hraw : localName? raw.toList = none) :
    (classify raw verb path).source = .path ↔
      Mentions path.toList (classify raw verb path).name.toList := by
  have hsource : ∀ name, sourceIn verb path.toList name = .path ↔ Mentions path.toList name := by
    intro name
    rw [← namesSegment_iff]
    unfold sourceIn
    split
    · next h => simp [h]
    · next h => cases verb <;> simp [h]
  rw [classify, classifyChars, hraw]
  cases bracketedName? raw.toList with
  | none => simpa using hsource raw.toList
  | some name => simpa using hsource name

/-! ## Captures -/

/-- A text with which a segment may end: it is empty or begins with a slash. -/
def EndsSegment (s : List Char) : Prop := s = [] ∨ s.head? = some '/'

/-- A colon or an asterisk stands in the path and then the name, up to the end of a segment. -/
def Captures (path name : List Char) : Prop :=
  name ≠ [] ∧ '/' ∉ name ∧ ∃ before mark after, path = before ++ mark :: (name ++ after) ∧
    isWildcardMark mark = true ∧ EndsSegment after

theorem takeSegment_append_dropSegment (s : List Char) : takeSegment s ++ dropSegment s = s :=
  List.takeWhile_append_dropWhile

theorem not_mem_takeSegment (s : List Char) : '/' ∉ takeSegment s := by
  intro h
  have hall : (takeSegment s).all (· ≠ '/') = true := List.all_takeWhile
  simpa using List.all_eq_true.1 hall _ h

theorem endsSegment_dropSegment (s : List Char) : EndsSegment (dropSegment s) := by
  cases h : dropSegment s with
  | nil => exact .inl rfl
  | cons c r =>
    have := List.head?_dropWhile_not (· ≠ '/') s
    rw [show s.dropWhile (· ≠ '/') = c :: r from h] at this
    exact .inr (by simpa using this)

theorem takeSegment_append {name : List Char} (hname : '/' ∉ name) (s : List Char) :
    takeSegment (name ++ s) = name ++ takeSegment s := by
  refine List.takeWhile_append_of_pos fun c hc => ?_
  simpa using fun h : c = '/' => hname (h ▸ hc)

theorem takeSegment_eq_nil {s : List Char} (h : EndsSegment s) : takeSegment s = [] := by
  rcases h with rfl | h
  · rfl
  · cases s with
    | nil => rfl
    | cons c r =>
      cases h
      rfl

theorem captures_nil (name : List Char) : ¬Captures [] name := by
  rintro ⟨-, -, before, mark, after, h, -⟩
  simp at h

theorem captures_cons {c : Char} {s name : List Char} :
    Captures (c :: s) name ↔
      (isWildcardMark c = true ∧ name = takeSegment s ∧ name ≠ []) ∨ Captures s name := by
  constructor
  · rintro ⟨hne, hslash, before, mark, after, h, hmark, hafter⟩
    cases before with
    | nil =>
      obtain ⟨rfl, rfl⟩ := List.cons.inj h
      rw [takeSegment_append hslash, takeSegment_eq_nil hafter, List.append_nil]
      exact .inl ⟨hmark, rfl, hne⟩
    | cons b before =>
      obtain ⟨rfl, rfl⟩ := List.cons.inj h
      exact .inr ⟨hne, hslash, before, mark, after, rfl, hmark, hafter⟩
  · rintro (⟨hmark, rfl, hne⟩ | ⟨hne, hslash, before, mark, after, rfl, hmark, hafter⟩)
    · refine ⟨hne, not_mem_takeSegment s, [], c, dropSegment s, ?_, hmark,
        endsSegment_dropSegment s⟩
      rw [takeSegment_append_dropSegment]
      rfl
    · exact ⟨hne, hslash, c :: before, mark, after, rfl, hmark, hafter⟩

instance decidableCaptures (name : List Char) : (path : List Char) → Decidable (Captures path name)
  | [] => isFalse (captures_nil name)
  | _ :: s =>
    have := decidableCaptures name s
    decidable_of_iff _ captures_cons.symm

/-- Characters that are no marks may be left out at the start. -/
theorem captures_append {t s name : List Char} (ht : t.any isWildcardMark = false) :
    Captures (t ++ s) name ↔ Captures s name := by
  induction t with
  | nil => exact Iff.rfl
  | cons c t ih =>
    rw [List.any_cons, Bool.or_eq_false_iff] at ht
    rw [List.cons_append, captures_cons, ih ht.2, ht.1]
    simp

theorem bind_eq_ok {ε α β : Type} {x : Except ε α} {f : α → Except ε β} {b : β} :
    x >>= f = .ok b ↔ ∃ a, x = .ok a ∧ f a = .ok b := by
  cases x with
  | error e => simp [bind, Except.bind]
  | ok a => simp [bind, Except.bind]

theorem wildcardName_eq_ok {name n : List Char} :
    wildcardName name = .ok n ↔ name = n ∧ n ≠ [] ∧ n.any isWildcardMark = false := by
  unfold wildcardName
  split
  · next h =>
    rw [List.isEmpty_iff] at h
    exact ⟨(nomatch ·), fun heq => absurd (heq.1.symm.trans h) heq.2.1⟩
  · next hne =>
    rw [List.isEmpty_iff] at hne
    split
    · next hmark =>
      refine ⟨(nomatch ·), fun heq => ?_⟩
      rw [heq.1, heq.2.2] at hmark
      cases hmark
    · next hmark =>
      constructor
      · intro heq
        cases heq
        exact ⟨rfl, hne, by simpa using hmark⟩
      · rintro ⟨rfl, -, -⟩
        rfl

/-- **The second reading.** The wildcards of a pattern are called by the names that its text
captures. -/
theorem mem_names_pieces {atStart : Bool} {s : List Char} {p : Pattern} {name : List Char}
    (h : Pattern.pieces atStart s = .ok p) : name ∈ p.names ↔ Captures s name := by
  -- the name of a wildcard holds no marks, so nothing is captured from inside of it
  fun_induction Pattern.pieces atStart s generalizing p with
  | case1 =>
    cases h
    exact ⟨(nomatch ·), fun hcap => absurd hcap (captures_nil name)⟩
  | case2 _ rest ih =>
    obtain ⟨n, hn, h⟩ := bind_eq_ok.1 h
    obtain ⟨q, hq, h⟩ := bind_eq_ok.1 h
    cases h
    obtain ⟨rfl, hne, hmark⟩ := wildcardName_eq_ok.1 hn
    have hrest : Captures rest name ↔ Captures (dropSegment rest) name := by
      have happend : Captures (takeSegment rest ++ dropSegment rest) name ↔ _ :=
        captures_append hmark
      rwa [takeSegment_append_dropSegment] at happend
    rw [captures_cons, hrest, ← ih hq]
    show name ∈ takeSegment rest :: q.names ↔ _
    rw [List.mem_cons]
    exact or_congr_left ⟨fun heq => ⟨rfl, heq, heq ▸ hne⟩, fun hcap => hcap.2.1⟩
  | case3 _ rest hend =>
    obtain ⟨n, hn, h⟩ := bind_eq_ok.1 h
    cases h
    obtain ⟨rfl, hne, hmark⟩ := wildcardName_eq_ok.1 hn
    have hall : takeSegment rest = rest := by
      have happend := takeSegment_append_dropSegment rest
      rwa [hend.2, List.append_nil] at happend
    have hrest : ¬Captures rest name := by
      rw [← List.append_nil rest, captures_append hmark]
      exact captures_nil name
    rw [captures_cons, hall]
    show name ∈ [rest] ↔ _
    rw [List.mem_singleton]
    exact ⟨fun heq => .inl ⟨rfl, heq, heq ▸ hne⟩, fun hcap => (hcap.resolve_right hrest).2.1⟩
  | case4 => cases h
  | case5 _ c rest hcolon hstar ih =>
    obtain ⟨q, hq, h⟩ := bind_eq_ok.1 h
    cases h
    have hc : isWildcardMark c = false := by simp [isWildcardMark, hcolon, hstar]
    rw [captures_cons, hc, ← ih hq]
    show name ∈ q.names ↔ _
    simp

theorem mem_names_parse {path : String} {p : Pattern} {name : List Char}
    (h : Pattern.parse path = .ok p) : name ∈ p.names ↔ Captures path.toList name := by
  obtain ⟨q, hq, h⟩ := bind_eq_ok.1 h
  split at h
  · cases h
  · cases h
    exact mem_names_pieces hq

/-! ## Where the readings agree -/

/-- Each wildcard of a path is a colon behind no word character, and its name is a word. -/
def Plain (path : List Char) : Prop :=
  ∀ before mark rest, path = before ++ mark :: rest → isWildcardMark mark = true →
    mark = ':' ∧ endsBeyondWord before = true ∧ (takeSegment rest).all Text.isWordChar = true

/-- On a plain path the readings agree about all names without slashes. -/
theorem mentions_iff_captures {path name : List Char} (h : Plain path) (hname : '/' ∉ name) :
    Mentions path name ↔ Captures path name := by
  constructor
  · rintro ⟨hne, before, after, rfl, hbefore, hafter⟩
    refine ⟨hne, hname, before, ':', after, rfl, rfl, ?_⟩
    obtain ⟨-, -, hword⟩ := h before ':' (name ++ after) rfl rfl
    cases after with
    | nil => exact .inl rfl
    | cons c after =>
      -- otherwise `c` would belong to the name of the wildcard, but it is no word character
      by_cases hc : c = '/'
      · exact .inr (by rw [hc]; rfl)
      · have hmem : c ∈ takeSegment (name ++ c :: after) := by
          rw [takeSegment, List.takeWhile_append_of_pos (by
            intro d hd
            simpa using fun heq : d = '/' => hname (heq ▸ hd)),
            List.takeWhile_cons_of_pos (by simpa using hc)]
          exact List.mem_append_right _ List.mem_cons_self
        rw [List.all_eq_true.1 hword c hmem |> fun hw => show beginsBeyondWord (c :: after) = false
          by rw [beginsBeyondWord, hw]; rfl] at hafter
        cases hafter
  · rintro ⟨hne, -, before, mark, after, rfl, hmark, hafter⟩
    obtain ⟨rfl, hbefore, -⟩ := h before mark (name ++ after) rfl hmark
    refine ⟨hne, before, after, rfl, hbefore, ?_⟩
    rcases hafter with rfl | hafter
    · rfl
    · cases after with
      | nil => rfl
      | cons c after =>
        cases hafter
        rfl

end DocRoutes
