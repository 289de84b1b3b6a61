import DocRoutes.Http.Form
import DocRoutes.Proofs.Splitting
import DocRoutes.Proofs.Utf8

/-!
# The fields of a form

The grammar of forms says which fields a text stands for, without a reader.

* An encoded text stands for bytes (`EncodedBytes`), those of its characters in UTF-8, where a percent
  sign with two hexadecimal digits behind it is one byte.
* A word stands for a text (`FormWord`): it is the encoding of the bytes of this text, with `+` for
  the space.
* A field is two words with `=` between them, or one word alone (`FieldText`).
* A form is made of pieces with `&` between them (`FormText`). An empty piece is no field.

**Theorem (`formFields_eq`).** The fields of a text of the grammar are those that the grammar gives
it. The grammar has no words whose bytes are not UTF-8, and of these alone the theorem says nothing.
-/

namespace DocRoutes

open Text

/-! ## The grammar -/

/-- The bytes that an encoded text stands for. -/
inductive EncodedBytes : List Char → Bytes → Prop
  | nil : EncodedBytes [] []
  | escape {h l : Char} {high low : Nat} {s : List Char} {bytes : Bytes} :
      hexValue? h = some high → hexValue? l = some low → EncodedBytes s bytes →
      EncodedBytes ('%' :: h :: l :: s) (UInt8.ofNat (16 * high + low) :: bytes)
  /-- A percent sign without two digits stands for itself. -/
  | percent {s : List Char} {bytes : Bytes} :
      (∀ h l rest, s = h :: l :: rest → hexValue? h = none ∨ hexValue? l = none) →
      EncodedBytes s bytes → EncodedBytes ('%' :: s) (0x25 :: bytes)
  | char {c : Char} {s : List Char} {bytes : Bytes} :
      c ≠ '%' → EncodedBytes s bytes → EncodedBytes (c :: s) (String.utf8EncodeChar c ++ bytes)

/-- A text as it is written in a form. -/
def FormWord (s : List Char) (text : String) : Prop :=
  EncodedBytes (s.map fun c => if c = '+' then ' ' else c) (utf8Bytes text)

/-- The first `=` of a field ends its name. A field without `=` has an empty value. -/
inductive FieldText : List Char → String × String → Prop
  | pair {n v : List Char} {name value : String} :
      '=' ∉ n → FormWord n name → FormWord v value → FieldText (n ++ '=' :: v) (name, value)
  | bare {n : List Char} {name : String} : '=' ∉ n → FormWord n name → FieldText n (name, "")

/-- What stands between two `&`, with the fields in it: none or one. -/
inductive PieceText : List Char → List (String × String) → Prop
  | empty : PieceText [] []
  | field {s : List Char} {f : String × String} : s ≠ [] → FieldText s f → PieceText s [f]

/-- **The text of a form**, with its fields in order. -/
inductive FormText : List Char → List (String × String) → Prop
  | last {s : List Char} {fs : List (String × String)} : '&' ∉ s → PieceText s fs → FormText s fs
  | more {s rest : List Char} {fs more : List (String × String)} :
      '&' ∉ s → PieceText s fs → FormText rest more → FormText (s ++ '&' :: rest) (fs ++ more)

/-! ## Bytes -/

theorem percentDecode_char {c : Char} (h : c ≠ '%') (s : List Char) :
    percentDecode (c :: s) = String.utf8EncodeChar c ++ percentDecode s := by
  rw [percentDecode]
  rintro _ _ _ rfl
  exact absurd rfl h

theorem percentDecode_percent {s : List Char}
    (h : ∀ a b rest, s = a :: b :: rest → hexValue? a = none ∨ hexValue? b = none) :
    percentDecode ('%' :: s) = 0x25 :: percentDecode s := by
  match s with
  | [] | [_] => rfl
  | a :: b :: rest =>
    rw [percentDecode]
    rcases h a b rest rfl with ha | hb
    · rw [ha]
      rfl
    · rw [hb]
      cases hexValue? a <;> rfl

theorem EncodedBytes.percentDecode_eq {s : List Char} {bytes : Bytes} (h : EncodedBytes s bytes) :
    percentDecode s = bytes := by
  induction h with
  | nil => rfl
  | escape hhigh hlow _ ih => rw [percentDecode, hhigh, hlow, ih]
  | percent hdigits _ ih => rw [percentDecode_percent hdigits, ih]
  | char hc _ ih => rw [percentDecode_char hc, ih]

/-- Every text is encoded, and in one way only. -/
theorem encodedBytes_iff {s : List Char} {bytes : Bytes} :
    EncodedBytes s bytes ↔ percentDecode s = bytes := by
  refine ⟨fun h => h.percentDecode_eq, ?_⟩
  rintro rfl
  fun_induction percentDecode s with
  | case1 => exact .nil
  | case2 h l rest high low hlow hhigh ih => exact .escape hhigh hlow ih
  | case3 h l rest hdigits ih =>
    refine .percent ?_ ih
    rintro h' l' rest' heq
    cases heq
    by_contra hboth
    obtain ⟨hhigh, hlow⟩ := not_or.1 hboth
    obtain ⟨high, hhigh⟩ := Option.ne_none_iff_exists'.1 hhigh
    obtain ⟨low, hlow⟩ := Option.ne_none_iff_exists'.1 hlow
    exact hdigits high low hhigh hlow
  | case4 c rest hpercent ih =>
    by_cases hc : c = '%'
    · subst hc
      exact .percent (fun h l tail heq => absurd heq (hpercent h l tail rfl)) ih
    · exact .char hc ih

/-! ## Fields -/

/-- Where all bytes are well-formed, lenient decoding is strict decoding. -/
theorem utf8TextLenient_utf8Bytes (text : String) : utf8TextLenient (utf8Bytes text) = text := by
  have hunits : utf8Units (utf8Bytes text) = text.toList.map some :=
    decodeFrom_eq_map_some_iff.2 rfl
  rw [utf8TextLenient, hunits, List.map_map]
  simp

theorem FormWord.formText_eq {s : List Char} {text : String} (h : FormWord s text) :
    formText s = text := by
  rw [formText, EncodedBytes.percentDecode_eq h, utf8TextLenient_utf8Bytes]

theorem FieldText.formField_eq {s : List Char} {f : String × String} (h : FieldText s f) :
    formField s = f := by
  cases h with
  | pair hn hname hvalue =>
    rw [formField, cutAt_append hn]
    simp [hname.formText_eq, hvalue.formText_eq]
  | bare hn hname =>
    rw [formField, cutAt_of_not_mem hn]
    simp only [hname.formText_eq, Option.getD_none]
    rfl

theorem PieceText.map_formField {s : List Char} {fs : List (String × String)} (h : PieceText s fs) :
    ([s].filter (!·.isEmpty)).map formField = fs := by
  cases h with
  | empty => rfl
  | field hne hfield => simp [hne, hfield.formField_eq]

/-- **The fields of a form** are those that the grammar gives it. -/
theorem FormText.formFields_eq {s : List Char} {fs : List (String × String)} (h : FormText s fs) :
    formFields s = fs := by
  induction h with
  | last hs hpiece => rw [formFields, splitAt_of_not_mem hs, hpiece.map_formField]
  | @more s rest _ _ hs hpiece _ ih =>
    have hsplit : splitAt '&' (s ++ '&' :: rest) = [s] ++ splitAt '&' rest := splitAt_append hs rest
    rw [formFields, hsplit, List.filter_append, List.map_append, hpiece.map_formField, ← ih,
      formFields]

example : formFields "a=%C3%A9+b&&flag&a=%&=".toList =
    [("a", "é b"), ("flag", ""), ("a", "%"), ("", "")] := by
  decide +kernel

end DocRoutes
