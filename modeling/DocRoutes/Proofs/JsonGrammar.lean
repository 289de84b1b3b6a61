import Mathlib.Data.List.TakeWhile
import Mathlib.Tactic.SplitIfs
import DocRoutes.Json.Reader

/-!
# The grammar of JSON

The grammar says which texts stand for a value, without a reader.

* A *string* is a sequence of characters, each of which is written plainly or behind a backslash
  (`CharText`), between quotes.
* A *number* is a sign, digits, a fraction and an exponent (`LiteralText`), and it stands for the
  value of its literal.
* An *array* and an *object* are items with commas between them, between brackets (`ListText`).
  Blanks may stand around the items, the commas and the colons. Arrays and objects are nested up to a
  limit, and `ValueText` follows the levels.

Here the reader is compared with the grammar of strings and numbers. For each part there are two
directions. What the reader takes is a text of the grammar (`string_sound`, `literal_sound`), and it
takes each text of the grammar whatever comes after it (`StringText.string_append`,
`LiteralText.literal_append`). A number alone could be continued, so what comes after it must not do
so (`EndsNumber`).
-/

namespace DocRoutes.Json

open Text

/-! ## The grammar -/

/-! ### Blanks -/

def blanks : List Char := [' ', '\t', '\n', '\r']

/-- A text of blanks. -/
def Gap (s : List Char) : Prop := ∀ c ∈ s, c ∈ blanks

/-- A text of the grammar with blanks around it. -/
inductive Padded {α : Type} (Part : List Char → α → Prop) : List Char → α → Prop
  | intro {before text after : List Char} {x : α} :
      Gap before → Part text x → Gap after → Padded Part (before ++ text ++ after) x

/-! ### Strings -/

/-- The characters that a backslash stands in front of, and what they stand for then. -/
def escapes : List (Char × Char) :=
  [('"', '"'), ('\\', '\\'), ('/', '/'), ('b', '\x08'), ('f', '\x0c'), ('n', '\n'), ('r', '\r'),
    ('t', '\t')]

/-- Four hexadecimal digits and their number. -/
inductive UnitText : List Char → Nat → Prop
  | intro {a b c d : Char} {n : Nat} : hexNumber? [a, b, c, d] = some n → UnitText [a, b, c, d] n

/-- One character of a string as it is written. A character beyond 16 bits is a pair of surrogates,
and surrogates occur in such pairs only. -/
inductive CharText : List Char → Char → Prop
  | plain {c : Char} : c ≠ '"' → c ≠ '\\' → 0x20 ≤ c.toNat → CharText [c] c
  | escape {e c : Char} : (e, c) ∈ escapes → CharText ['\\', e] c
  | unit {t : List Char} {n : Nat} :
      UnitText t n → ¬(0xD800 ≤ n ∧ n < 0xE000) → CharText ('\\' :: 'u' :: t) (Char.ofNat n)
  | pair {t t' : List Char} {high low : Nat} :
      UnitText t high → 0xD800 ≤ high ∧ high < 0xDC00 →
      UnitText t' low → 0xDC00 ≤ low ∧ low < 0xE000 →
      CharText ('\\' :: 'u' :: t ++ '\\' :: 'u' :: t')
        (Char.ofNat (0x10000 + (high - 0xD800) * 0x400 + (low - 0xDC00)))

inductive CharsText : List Char → List Char → Prop
  | nil : CharsText [] []
  | cons {t ts cs : List Char} {c : Char} :
      CharText t c → CharsText ts cs → CharsText (t ++ ts) (c :: cs)

inductive StringText : List Char → String → Prop
  | intro {t cs : List Char} : CharsText t cs → StringText ('"' :: (t ++ ['"'])) (.ofList cs)

/-! ### Numbers -/

/-- At least one digit. -/
inductive DigitsText : List Char → List Nat → Prop
  | intro {t : List Char} : t ≠ [] → (∀ c ∈ t, c.isDigit = true) → DigitsText t (t.map digitValue)

/-- A zero stands alone before the point. -/
inductive WholeText : List Char → List Nat → Prop
  | intro {t : List Char} {ds : List Nat} :
      DigitsText t ds → (ds.head? = some 0 → ds.length = 1) → WholeText t ds

inductive FractionText : List Char → Option (List Nat) → Prop
  | absent : FractionText [] none
  | present {t : List Char} {ds : List Nat} : DigitsText t ds → FractionText ('.' :: t) (some ds)

inductive ExponentText : List Char → Option Int → Prop
  | absent : ExponentText [] none
  | unsigned {e : Char} {t : List Char} {ds : List Nat} :
      e = 'e' ∨ e = 'E' → DigitsText t ds → ExponentText (e :: t) (some (numberOfDigits ds))
  | plus {e : Char} {t : List Char} {ds : List Nat} :
      e = 'e' ∨ e = 'E' → DigitsText t ds → ExponentText (e :: '+' :: t) (some (numberOfDigits ds))
  | minus {e : Char} {t : List Char} {ds : List Nat} :
      e = 'e' ∨ e = 'E' → DigitsText t ds → ExponentText (e :: '-' :: t) (some (-numberOfDigits ds))

inductive UnsignedText (negative : Bool) : List Char → Literal → Prop
  | intro {t f e : List Char} {whole : List Nat} {fraction : Option (List Nat)}
      {exponent : Option Int} :
      WholeText t whole → FractionText f fraction → ExponentText e exponent →
      UnsignedText negative (t ++ f ++ e) ⟨negative, whole, fraction, exponent⟩

inductive LiteralText : List Char → Literal → Prop
  | unsigned {t : List Char} {l : Literal} : UnsignedText false t l → LiteralText t l
  | minus {t : List Char} {l : Literal} : UnsignedText true t l → LiteralText ('-' :: t) l

/-! ### Values -/

/-- Items with commas between them. -/
inductive ItemsText {α : Type} (Item : List Char → α → Prop) : List Char → List α → Prop
  | single {t : List Char} {x : α} : Padded Item t x → ItemsText Item t [x]
  | cons {t ts : List Char} {x : α} {xs : List α} :
      Padded Item t x → ItemsText Item ts xs → ItemsText Item (t ++ ',' :: ts) (x :: xs)

/-- A list between brackets: blanks alone, or items. -/
inductive ListText {α : Type} (opening closing : Char) (Item : List Char → α → Prop) :
    List Char → List α → Prop
  | empty {gap : List Char} :
      Gap gap → ListText opening closing Item (opening :: (gap ++ [closing])) []
  | items {t : List Char} {xs : List α} :
      ItemsText Item t xs → ListText opening closing Item (opening :: (t ++ [closing])) xs

/-- A key and a value with a colon between them. -/
inductive MemberText (Value : List Char → Json → Prop) : List Char → String × Json → Prop
  | intro {k gap gap' t : List Char} {key : String} {v : Json} :
      StringText k key → Gap gap → Gap gap' → Value t v →
      MemberText Value (k ++ gap ++ ':' :: (gap' ++ t)) (key, v)

/-- The members of an object, in the order of the text. -/
abbrev MembersText (Value : List Char → Json → Prop) :
    List Char → List (String × Json) → Prop :=
  ListText '\x7b' '\x7d' (MemberText Value)

/-- A value that is no array and no object. -/
inductive ScalarText : List Char → Json → Prop
  | null : ScalarText ['n', 'u', 'l', 'l'] .null
  | true : ScalarText ['t', 'r', 'u', 'e'] (.bool true)
  | false : ScalarText ['f', 'a', 'l', 's', 'e'] (.bool false)
  | str {t : List Char} {s : String} : StringText t s → ScalarText t (.str s)
  | number {t : List Char} {l : Literal} {v : Json} :
      LiteralText t l → l.value? = some v → ScalarText t v

/-- A value, with `Value` for the values inside it. -/
inductive NestedText (Value : List Char → Json → Prop) : List Char → Json → Prop
  | scalar {t : List Char} {v : Json} : ScalarText t v → NestedText Value t v
  | array {t : List Char} {vs : List Json} :
      ListText '[' ']' Value t vs → NestedText Value t (.arr vs)
  | object {t : List Char} {members : List (String × Json)} :
      MembersText Value t members → NestedText Value t (.object members)

/-- A value with at most `depth` arrays and objects inside one another. -/
def ValueText : Nat → List Char → Json → Prop
  | 0 => ScalarText
  | depth + 1 => NestedText (ValueText depth)

/-- **A JSON text**: a value with blanks around it. -/
def DocumentText : List Char → Json → Prop := Padded (ValueText maxDepth)

/-! ## Strings -/

theorem simpleEscape?_eq_some_iff {e c : Char} :
    simpleEscape? e = some c ↔ (e, c) ∈ escapes := by
  constructor
  · intro h
    unfold simpleEscape? at h
    split_ifs at h with hself
    · cases h
      rcases hself with rfl | rfl | rfl <;> simp [escapes]
    all_goals
      cases h
      simp_all [escapes]
  · intro h
    have hall : ∀ entry ∈ escapes, simpleEscape? entry.1 = some entry.2 := by decide
    exact hall _ h

theorem ne_u_of_mem_escapes {e c : Char} (h : (e, c) ∈ escapes) : e ≠ 'u' := by
  rintro rfl
  simp [escapes] at h

theorem codeUnit_sound {s rest : List Char} {n : Nat} (h : codeUnit s = some (n, rest)) :
    ∃ t, s = t ++ rest ∧ UnitText t n := by
  unfold codeUnit at h
  split at h
  · next a b c d tail =>
    obtain ⟨m, hm, heq⟩ := Option.map_eq_some_iff.1 h
    cases heq
    exact ⟨[a, b, c, d], rfl, .intro hm⟩
  · cases h

theorem UnitText.codeUnit_append {t : List Char} {n : Nat} (h : UnitText t n) (rest : List Char) :
    codeUnit (t ++ rest) = some (n, rest) := by
  cases h with
  | intro hn => simp [codeUnit, hn]

theorem unicodeEscape_sound {s rest : List Char} {c : Char} (h : unicodeEscape s = some (c, rest)) :
    ∃ t, s = t ++ rest ∧ CharText ('\\' :: 'u' :: t) c := by
  obtain ⟨⟨high, s'⟩, hhigh, hnext⟩ := Option.bind_eq_some_iff.1 h
  obtain ⟨t, rfl, ht⟩ := codeUnit_sound hhigh
  dsimp only at hnext
  split at hnext
  · next hsurrogate =>
    split at hnext
    · next s =>
      obtain ⟨⟨low, s'⟩, hlow, hpair⟩ := Option.bind_eq_some_iff.1 hnext
      obtain ⟨t', rfl, ht'⟩ := codeUnit_sound hlow
      split at hpair
      · next hsurrogate' =>
        simp only [Option.some.injEq, Prod.mk.injEq] at hpair
        rw [← hpair.1, ← hpair.2]
        exact ⟨t ++ '\\' :: 'u' :: t', by simp, .pair ht hsurrogate ht' hsurrogate'⟩
      · cases hpair
    · cases hnext
  · split at hnext
    · cases hnext
    · cases hnext
      exact ⟨t, rfl, .unit ht (by omega)⟩

theorem stringBody_unicodeEscape {c : Char} {s rest : List Char} (n : Nat)
    (h : unicodeEscape s = some (c, rest)) :
    stringBody (n + 1) ('\\' :: 'u' :: s) =
      (stringBody n rest).map fun body => (c :: body.1, body.2) := by
  rw [stringBody, h, Option.map_eq_bind]
  rfl

theorem stringBody_simpleEscape {e c : Char} (n : Nat) (s : List Char) (he : e ≠ 'u')
    (h : simpleEscape? e = some c) :
    stringBody (n + 1) ('\\' :: e :: s) =
      (stringBody n s).map fun body => (c :: body.1, body.2) := by
  rw [stringBody, h, Option.map_eq_bind]
  · rfl
  · simpa using he

theorem stringBody_plain {c : Char} (n : Nat) (s : List Char) (hquote : c ≠ '"') (hslash : c ≠ '\\')
    (hcontrol : ¬ c.toNat < 0x20) :
    stringBody (n + 1) (c :: s) = (stringBody n s).map fun body => (c :: body.1, body.2) := by
  rw [stringBody, Option.map_eq_bind, if_neg hquote, if_neg (by simp [hslash, hcontrol])]
  · rfl
  · simp [hslash]
  · simp [hslash]

/-- A written character is one step of the reader. -/
theorem CharText.stringBody_append {t : List Char} {c : Char} (h : CharText t c) (n : Nat)
    (s : List Char) :
    stringBody (n + 1) (t ++ s) = (stringBody n s).map fun body => (c :: body.1, body.2) := by
  cases h with
  | plain hquote hslash hcontrol => exact stringBody_plain n s hquote hslash (by omega)
  | escape hmem =>
    exact stringBody_simpleEscape n s (ne_u_of_mem_escapes hmem) (simpleEscape?_eq_some_iff.2 hmem)
  | @unit t code ht hcode =>
    have hhigh : ¬(0xD800 ≤ code ∧ code < 0xDC00) := by omega
    have hlow : ¬(0xDC00 ≤ code ∧ code < 0xE000) := by omega
    apply stringBody_unicodeEscape
    simp [unicodeEscape, ht.codeUnit_append, hhigh, hlow]
  | pair ht hhigh ht' hlow =>
    rw [List.cons_append, List.cons_append, List.append_assoc]
    apply stringBody_unicodeEscape
    simp [unicodeEscape, ht.codeUnit_append, ht'.codeUnit_append, hhigh, hlow]

theorem stringBody_sound {n : Nat} {s rest cs : List Char} (h : stringBody n s = some (cs, rest)) :
    ∃ t, s = t ++ '"' :: rest ∧ CharsText t cs := by
  fun_induction stringBody n s generalizing cs rest with
  | case1 => cases h
  | case2 => cases h
  | case3 n s ih =>
    obtain ⟨⟨c, s'⟩, hc, h⟩ := Option.bind_eq_some_iff.1 h
    obtain ⟨⟨cs, s''⟩, hcs, h⟩ := Option.bind_eq_some_iff.1 h
    cases h
    obtain ⟨t, rfl, ht⟩ := unicodeEscape_sound hc
    obtain ⟨ts, rfl, hts⟩ := ih _ hcs
    exact ⟨'\\' :: 'u' :: t ++ ts, by simp, .cons ht hts⟩
  | case4 n e s _ ih =>
    obtain ⟨c, hc, h⟩ := Option.bind_eq_some_iff.1 h
    obtain ⟨⟨cs, s'⟩, hcs, h⟩ := Option.bind_eq_some_iff.1 h
    cases h
    obtain ⟨ts, rfl, hts⟩ := ih hcs
    exact ⟨['\\', e] ++ ts, rfl, .cons (.escape (simpleEscape?_eq_some_iff.1 hc)) hts⟩
  | case5 n s =>
    cases h
    exact ⟨[], rfl, .nil⟩
  | case6 => cases h
  | case7 n c s _ _ hquote hc ih =>
    obtain ⟨⟨cs, s'⟩, hcs, h⟩ := Option.bind_eq_some_iff.1 h
    cases h
    obtain ⟨ts, rfl, hts⟩ := ih hcs
    obtain ⟨hslash, hcontrol⟩ := not_or.1 hc
    exact ⟨[c] ++ ts, rfl, .cons (.plain hquote hslash (Nat.le_of_not_lt hcontrol)) hts⟩

theorem CharsText.stringBody_append {t cs : List Char} (h : CharsText t cs) {n : Nat}
    (hn : cs.length < n) (rest : List Char) : stringBody n (t ++ '"' :: rest) = some (cs, rest) := by
  induction h generalizing n with
  | nil =>
    obtain ⟨n, rfl⟩ := Nat.exists_eq_add_one_of_ne_zero (Nat.ne_zero_of_lt hn)
    rfl
  | cons ht _ ih =>
    obtain ⟨n, rfl⟩ := Nat.exists_eq_add_one_of_ne_zero (Nat.ne_zero_of_lt hn)
    rw [List.append_assoc, ht.stringBody_append, ih (Nat.lt_of_succ_lt_succ hn), Option.map_some]

theorem CharText.ne_nil {t : List Char} {c : Char} (h : CharText t c) : t ≠ [] := by
  cases h <;> simp

theorem CharsText.length_le {t cs : List Char} (h : CharsText t cs) : cs.length ≤ t.length := by
  induction h with
  | nil => exact Nat.le_refl _
  | cons ht _ ih =>
    have hpos := List.length_pos_iff.2 ht.ne_nil
    rw [List.length_append, List.length_cons]
    omega

theorem string_sound {s rest : List Char} {x : String} (h : string s = some (x, rest)) :
    ∃ t, s = t ++ rest ∧ StringText t x := by
  unfold string at h
  split at h
  · obtain ⟨⟨cs, rest⟩, hcs, heq⟩ := Option.map_eq_some_iff.1 h
    cases heq
    obtain ⟨t, rfl, ht⟩ := stringBody_sound hcs
    exact ⟨'"' :: (t ++ ['"']), by simp, .intro ht⟩
  · cases h

theorem StringText.string_append {t : List Char} {x : String} (h : StringText t x)
    (rest : List Char) : string (t ++ rest) = some (x, rest) := by
  cases h with
  | @intro t cs ht =>
    have htext : '"' :: (t ++ ['"']) ++ rest = '"' :: (t ++ '"' :: rest) := by simp
    -- the reader bounds a string by what is left of the text
    have hbound : cs.length < (t ++ '"' :: rest).length := by
      have hlength := ht.length_le
      rw [List.length_append, List.length_cons]
      omega
    rw [htext, string, ht.stringBody_append hbound, Option.map_some]

/-! ## Numbers -/

/-- No digit comes next. -/
def EndsDigits (s : List Char) : Prop := ∀ c, s.head? = some c → c.isDigit = false

/-- Nothing comes next that a number could go on with. -/
def EndsNumber (s : List Char) : Prop :=
  ∀ c, s.head? = some c → c.isDigit = false ∧ c ≠ '.' ∧ c ≠ 'e' ∧ c ≠ 'E'

theorem EndsNumber.endsDigits {s : List Char} (h : EndsNumber s) : EndsDigits s :=
  fun c hc => (h c hc).1

theorem endsDigits_cons {c : Char} (h : c.isDigit = false) (s : List Char) :
    EndsDigits (c :: s) := by
  intro d hd
  cases hd
  exact h

theorem digits_sound {s rest : List Char} {ds : List Nat} (h : digits s = some (ds, rest)) :
    ∃ t, s = t ++ rest ∧ DigitsText t ds := by
  unfold digits at h
  split at h
  · cases h
  · next hne =>
    cases h
    refine ⟨_, List.takeWhile_append_dropWhile.symm, .intro hne ?_⟩
    exact fun c hc => List.mem_takeWhile_imp hc

theorem DigitsText.digits_append {t : List Char} {ds : List Nat} (h : DigitsText t ds)
    {rest : List Char} (hrest : EndsDigits rest) : digits (t ++ rest) = some (ds, rest) := by
  cases h with
  | intro hne hdigits =>
    have htake : rest.takeWhile Char.isDigit = [] ∧ rest.dropWhile Char.isDigit = rest := by
      cases rest with
      | nil => exact ⟨rfl, rfl⟩
      | cons c rest => simp [hrest c rfl]
    rw [digits, List.takeWhile_append_of_pos hdigits, List.dropWhile_append_of_pos hdigits, htake.1,
      htake.2, List.append_nil]
    cases t with
    | nil => exact absurd rfl hne
    | cons c t => rfl

/-- Digits begin with a digit. -/
theorem DigitsText.start {t : List Char} {ds : List Nat} (h : DigitsText t ds) :
    ∃ c tail, t = c :: tail ∧ c.isDigit = true := by
  cases h with
  | intro hne hdigits =>
    obtain ⟨c, tail, rfl⟩ := List.exists_cons_of_ne_nil hne
    exact ⟨c, tail, rfl, hdigits c List.mem_cons_self⟩

theorem wholeDigits_sound {s rest : List Char} {ds : List Nat}
    (h : wholeDigits s = some (ds, rest)) : ∃ t, s = t ++ rest ∧ WholeText t ds := by
  obtain ⟨⟨ds', s'⟩, hds, hzero⟩ := Option.bind_eq_some_iff.1 h
  dsimp only at hzero
  split at hzero
  · cases hzero
  · next hone =>
    cases hzero
    obtain ⟨t, rfl, ht⟩ := digits_sound hds
    have hpos : ds.length ≠ 0 := by
      obtain ⟨hne, -⟩ := ht
      simpa using hne
    refine ⟨t, rfl, .intro ht fun hhead => ?_⟩
    have hle : ¬1 < ds.length := fun hlt => hone ⟨hlt, hhead⟩
    omega

theorem WholeText.wholeDigits_append {t : List Char} {ds : List Nat} (h : WholeText t ds)
    {rest : List Char} (hrest : EndsDigits rest) : wholeDigits (t ++ rest) = some (ds, rest) := by
  cases h with
  | intro ht hzero =>
    have hone : ¬(1 < ds.length ∧ ds.head? = some 0) := by
      rintro ⟨hlt, hhead⟩
      rw [hzero hhead] at hlt
      exact Nat.lt_irrefl 1 hlt
    simp [wholeDigits, ht.digits_append hrest, hone]

theorem fractionDigits_sound {s rest : List Char} {fraction : Option (List Nat)}
    (h : fractionDigits s = some (fraction, rest)) :
    ∃ t, s = t ++ rest ∧ FractionText t fraction := by
  unfold fractionDigits at h
  split at h
  · obtain ⟨⟨ds, rest⟩, hds, heq⟩ := Option.map_eq_some_iff.1 h
    cases heq
    obtain ⟨t, rfl, ht⟩ := digits_sound hds
    exact ⟨'.' :: t, rfl, .present ht⟩
  · cases h
    exact ⟨[], rfl, .absent⟩

theorem FractionText.fractionDigits_append {t : List Char} {fraction : Option (List Nat)}
    (h : FractionText t fraction) {rest : List Char} (hrest : EndsDigits rest)
    (hpoint : rest.head? ≠ some '.') : fractionDigits (t ++ rest) = some (fraction, rest) := by
  cases h with
  | absent =>
    rw [List.nil_append, fractionDigits]
    rintro s rfl
    exact hpoint rfl
  | present ht => simp [fractionDigits, ht.digits_append hrest]

def signed (negative : Bool) (n : Int) : Int := if negative then -n else n

/-- An exponent behind its sign. -/
def exponentDigits (negative : Bool) : Reader (Option Int) := fun s =>
  (digits s).map fun (ds, rest) => (some (signed negative (numberOfDigits ds)), rest)

theorem exponentPart_minus {e : Char} (he : e = 'e' ∨ e = 'E') (s : List Char) :
    exponentPart (e :: '-' :: s) = exponentDigits true s := by
  rw [exponentPart, if_pos he]
  rfl

theorem exponentPart_plus {e : Char} (he : e = 'e' ∨ e = 'E') (s : List Char) :
    exponentPart (e :: '+' :: s) = exponentDigits false s := by
  rw [exponentPart, if_pos he]
  rfl

theorem exponentPart_unsigned {e : Char} (he : e = 'e' ∨ e = 'E') {s : List Char}
    (hminus : s.head? ≠ some '-') (hplus : s.head? ≠ some '+') :
    exponentPart (e :: s) = exponentDigits false s := by
  rw [exponentPart, if_pos he]
  · rfl
  · rintro s rfl
    exact hminus rfl
  · rintro s rfl
    exact hplus rfl

theorem exponentPart_absent {s : List Char} (h : s.head? ≠ some 'e' ∧ s.head? ≠ some 'E') :
    exponentPart s = some (none, s) := by
  cases s with
  | nil => rfl
  | cons c s => simp_all [exponentPart]

theorem exponentDigits_eq_some {negative : Bool} {s rest : List Char} {exponent : Option Int}
    (h : exponentDigits negative s = some (exponent, rest)) :
    ∃ t ds, s = t ++ rest ∧ DigitsText t ds ∧
      exponent = some (signed negative (numberOfDigits ds)) := by
  obtain ⟨⟨ds, rest⟩, hds, heq⟩ := Option.map_eq_some_iff.1 h
  cases heq
  obtain ⟨t, rfl, ht⟩ := digits_sound hds
  exact ⟨t, ds, rfl, ht, rfl⟩

theorem DigitsText.exponentDigits_append {t : List Char} {ds : List Nat} (h : DigitsText t ds)
    {rest : List Char} (hrest : EndsDigits rest) (negative : Bool) :
    exponentDigits negative (t ++ rest) =
      some (some (signed negative (numberOfDigits ds)), rest) := by
  rw [exponentDigits, h.digits_append hrest]
  rfl

theorem exponentPart_sound {s rest : List Char} {exponent : Option Int}
    (h : exponentPart s = some (exponent, rest)) :
    ∃ t, s = t ++ rest ∧ ExponentText t exponent := by
  by_cases habsent : s.head? ≠ some 'e' ∧ s.head? ≠ some 'E'
  · rw [exponentPart_absent habsent] at h
    cases h
    exact ⟨[], rfl, .absent⟩
  obtain ⟨e, s, rfl, he⟩ : ∃ e tail, s = e :: tail ∧ (e = 'e' ∨ e = 'E') := by
    cases s with
    | nil => simp at habsent
    | cons e tail => exact ⟨e, tail, rfl, by simpa [← not_or, or_comm] using habsent⟩
  by_cases hminus : s.head? = some '-'
  · obtain ⟨s, rfl⟩ := List.head?_eq_some_iff.1 hminus
    rw [exponentPart_minus he] at h
    obtain ⟨t, ds, rfl, ht, rfl⟩ := exponentDigits_eq_some h
    exact ⟨e :: '-' :: t, rfl, .minus he ht⟩
  by_cases hplus : s.head? = some '+'
  · obtain ⟨s, rfl⟩ := List.head?_eq_some_iff.1 hplus
    rw [exponentPart_plus he] at h
    obtain ⟨t, ds, rfl, ht, rfl⟩ := exponentDigits_eq_some h
    exact ⟨e :: '+' :: t, rfl, .plus he ht⟩
  · rw [exponentPart_unsigned he hminus hplus] at h
    obtain ⟨t, ds, rfl, ht, rfl⟩ := exponentDigits_eq_some h
    exact ⟨e :: t, rfl, .unsigned he ht⟩

theorem ExponentText.exponentPart_append {t : List Char} {exponent : Option Int}
    (h : ExponentText t exponent) {rest : List Char} (hrest : EndsNumber rest) :
    exponentPart (t ++ rest) = some (exponent, rest) := by
  cases h with
  | absent =>
    apply exponentPart_absent
    exact ⟨fun he => (hrest _ he).2.2.1 rfl, fun he => (hrest _ he).2.2.2 rfl⟩
  | minus he ht =>
    rw [List.cons_append, List.cons_append, exponentPart_minus he]
    exact ht.exponentDigits_append hrest.endsDigits true
  | plus he ht =>
    rw [List.cons_append, List.cons_append, exponentPart_plus he]
    exact ht.exponentDigits_append hrest.endsDigits false
  | unsigned he ht =>
    obtain ⟨c, tail, rfl, hc⟩ := ht.start
    rw [List.cons_append, exponentPart_unsigned he]
    · exact ht.exponentDigits_append hrest.endsDigits false
    all_goals
      intro heq
      cases heq
      cases hc

/-- A literal behind its sign. -/
def unsignedLiteral (negative : Bool) : Reader Literal := fun s => do
  let (whole, s) ← wholeDigits s
  let (fraction, s) ← fractionDigits s
  let (exponent, s) ← exponentPart s
  return (⟨negative, whole, fraction, exponent⟩, s)

theorem literal_minus (s : List Char) : literal ('-' :: s) = unsignedLiteral true s := rfl

theorem literal_unsigned {s : List Char} (h : s.head? ≠ some '-') :
    literal s = unsignedLiteral false s := by
  unfold literal
  split
  next negative s' hs =>
    split at hs
    · exact absurd rfl h
    · cases hs
      rfl

theorem unsignedLiteral_sound {negative : Bool} {s rest : List Char} {l : Literal}
    (h : unsignedLiteral negative s = some (l, rest)) :
    ∃ t, s = t ++ rest ∧ UnsignedText negative t l := by
  obtain ⟨⟨whole, s1⟩, hwhole, h1⟩ := Option.bind_eq_some_iff.1 h
  obtain ⟨⟨fraction, s2⟩, hfraction, h2⟩ := Option.bind_eq_some_iff.1 h1
  obtain ⟨⟨exponent, s3⟩, hexponent, h3⟩ := Option.bind_eq_some_iff.1 h2
  cases h3
  obtain ⟨t, rfl, ht⟩ := wholeDigits_sound hwhole
  obtain ⟨f, rfl, hf⟩ := fractionDigits_sound hfraction
  obtain ⟨e, rfl, he⟩ := exponentPart_sound hexponent
  exact ⟨t ++ f ++ e, by simp, .intro ht hf he⟩

theorem ExponentText.endsDigits_append {t : List Char} {exponent : Option Int}
    (h : ExponentText t exponent) {rest : List Char} (hrest : EndsNumber rest) :
    EndsDigits (t ++ rest) ∧ (t ++ rest).head? ≠ some '.' := by
  cases h with
  | absent => exact ⟨hrest.endsDigits, fun h => (hrest _ h).2.1 rfl⟩
  | unsigned he | plus he | minus he =>
    rcases he with rfl | rfl
    all_goals exact ⟨endsDigits_cons (by decide) _, by simp⟩

theorem FractionText.endsDigits_append {t : List Char} {fraction : Option (List Nat)}
    (h : FractionText t fraction) {rest : List Char} (hrest : EndsDigits rest) :
    EndsDigits (t ++ rest) := by
  cases h with
  | absent => exact hrest
  | present => exact endsDigits_cons (by decide) _

theorem UnsignedText.unsignedLiteral_append {negative : Bool} {t : List Char} {l : Literal}
    (h : UnsignedText negative t l) {rest : List Char} (hrest : EndsNumber rest) :
    unsignedLiteral negative (t ++ rest) = some (l, rest) := by
  cases h with
  | intro ht hf he =>
    obtain ⟨hafter, hpoint⟩ := he.endsDigits_append hrest
    rw [List.append_assoc, List.append_assoc, unsignedLiteral,
      ht.wholeDigits_append (hf.endsDigits_append hafter)]
    simp [hf.fractionDigits_append hafter hpoint, he.exponentPart_append hrest]

theorem UnsignedText.start {negative : Bool} {t : List Char} {l : Literal}
    (h : UnsignedText negative t l) : ∃ c tail, t = c :: tail ∧ c.isDigit = true := by
  cases h with
  | intro ht =>
    obtain ⟨ht⟩ := ht
    obtain ⟨c, tail, rfl, hc⟩ := ht.start
    exact ⟨c, _, rfl, hc⟩

theorem literal_sound {s rest : List Char} {l : Literal} (h : literal s = some (l, rest)) :
    ∃ t, s = t ++ rest ∧ LiteralText t l := by
  by_cases hminus : s.head? = some '-'
  · obtain ⟨s, rfl⟩ := List.head?_eq_some_iff.1 hminus
    obtain ⟨t, rfl, ht⟩ := unsignedLiteral_sound h
    exact ⟨'-' :: t, rfl, .minus ht⟩
  · rw [literal_unsigned hminus] at h
    obtain ⟨t, rfl, ht⟩ := unsignedLiteral_sound h
    exact ⟨t, rfl, .unsigned ht⟩

theorem LiteralText.literal_append {t : List Char} {l : Literal} (h : LiteralText t l)
    {rest : List Char} (hrest : EndsNumber rest) : literal (t ++ rest) = some (l, rest) := by
  cases h with
  | minus ht =>
    rw [List.cons_append, literal_minus]
    exact ht.unsignedLiteral_append hrest
  | unsigned ht =>
    rw [literal_unsigned]
    · exact ht.unsignedLiteral_append hrest
    · obtain ⟨c, tail, rfl, hc⟩ := ht.start
      intro heq
      cases heq
      cases hc

theorem LiteralText.start {t : List Char} {l : Literal} (h : LiteralText t l) :
    ∃ c tail, t = c :: tail ∧ (c = '-' ∨ c.isDigit = true) := by
  cases h with
  | minus => exact ⟨'-', _, rfl, .inl rfl⟩
  | unsigned ht =>
    obtain ⟨c, tail, rfl, hc⟩ := ht.start
    exact ⟨c, tail, rfl, .inr hc⟩

end DocRoutes.Json
