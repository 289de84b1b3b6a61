import DocRoutes.Json.Writer
import DocRoutes.Proofs.JsonTexts
import DocRoutes.Proofs.Splitting

/-!
# Reading the layout in lines

**Theorem (`read?_pretty`).** A value without numbers, of no more than `maxDepth` arrays and objects
inside one another, is read back from its layout in lines, with the members of each object in key
order.

The layout is a text of the grammar (`Plain.valueText`), and the reader takes the texts of the
grammar. That the layout is one follows the nesting of the value. Each character of a string is
written as the grammar has it, escaped or not, and nothing is assumed of the characters. Items on
lines of their own are items with blanks before them, and the blanks before the closing bracket belong
to the last one.
-/

namespace DocRoutes.Json

open Text

/-! ## Strings -/

theorem unitText_of_one_digit {n : Nat} (h : n < 0x10) :
    UnitText (['0', '0', '0'] ++ hexDigits n) n := by
  have hdigits : ∀ n < 0x10, hexDigits n = [Nat.digitChar n] ∧
      hexNumber? ['0', '0', '0', Nat.digitChar n] = some n := by decide
  obtain ⟨hone, hnumber⟩ := hdigits n h
  rw [hone]
  exact .intro hnumber

theorem unitText_of_two_digits {n : Nat} (hlow : 0x10 ≤ n) (h : n < 0x20) :
    UnitText (['0', '0'] ++ hexDigits n) n := by
  have hdigits : ∀ n < 0x20, 0x10 ≤ n → hexDigits n = ['1', Nat.digitChar (n - 0x10)] ∧
      hexNumber? ['0', '0', '1', Nat.digitChar (n - 0x10)] = some n := by decide
  obtain ⟨htwo, hnumber⟩ := hdigits n h hlow
  rw [htwo]
  exact .intro hnumber

/-- A control character is no surrogate. -/
theorem UnitText.charText {t : List Char} {c : Char} (h : UnitText t c.toNat)
    (hcontrol : c.toNat < 0x20) : CharText ('\\' :: 'u' :: t) c := by
  have hchar : CharText ('\\' :: 'u' :: t) (Char.ofNat c.toNat) := .unit h (by omega)
  rwa [Char.ofNat_toNat] at hchar

/-- Whatever a character is written as, the grammar has it as this one character. -/
theorem charText_escapeChar (c : Char) : CharText (escapeChar c) c := by
  rw [escapeChar]
  split_ifs with hquote hslash hfeed hreturn htab hback hform hone htwo
  · exact .escape (by simp [escapes, hquote])
  · exact .escape (by simp [escapes, hslash])
  · exact .escape (by simp [escapes, hfeed])
  · exact .escape (by simp [escapes, hreturn])
  · exact .escape (by simp [escapes, htab])
  · exact .escape (by simp [escapes, hback])
  · exact .escape (by simp [escapes, hform])
  · exact (unitText_of_one_digit hone).charText (by omega)
  · exact (unitText_of_two_digits (by omega) htwo).charText htwo
  · exact .plain hquote hslash (by omega)

theorem charsText_flatMap_escapeChar (cs : List Char) : CharsText (cs.flatMap escapeChar) cs := by
  induction cs with
  | nil => exact .nil
  | cons c cs ih => exact .cons (charText_escapeChar c) ih

theorem stringText_stringChars (s : String) : StringText (stringChars s) s := by
  have htext : StringText (stringChars s) (.ofList s.toList) :=
    .intro (charsText_flatMap_escapeChar s.toList)
  rwa [String.ofList_toList] at htext

/-- **Every string is read back.** -/
theorem string_stringChars (s : String) (rest : List Char) :
    string (stringChars s ++ rest) = some (s, rest) :=
  (stringText_stringChars s).string_append rest

example : string (stringChars "a\"\\\n\x01\x1f/é" ++ [',']) = some ("a\"\\\n\x01\x1f/é", [',']) := by
  decide

/-! ## Lines -/

/-- Texts on lines of their own, with commas between them. -/
def laidOut (level : Nat) (texts : List (List Char)) : List Char :=
  join [','] (texts.map (newLine level ++ ·))

/-- Texts on lines of their own behind a bracket, up to the closing bracket. -/
def enclosed (level : Nat) (close : Char) : List (List Char) → List Char
  | [] => [close]
  | texts => laidOut (level + 1) texts ++ (newLine level ++ [close])

theorem laidOut_singleton (level : Nat) (text : List Char) :
    laidOut level [text] = newLine level ++ text := join_singleton ..

theorem laidOut_cons_cons (level : Nat) (text next : List Char) (texts : List (List Char)) :
    laidOut level (text :: next :: texts) =
      newLine level ++ text ++ ',' :: laidOut level (next :: texts) := join_cons_cons ..

theorem gap_newLine (level : Nat) : Gap (newLine level) := by
  intro c hc
  rcases List.mem_cons.1 hc with rfl | hc
  · simp [blanks]
  · simp [blanks, List.eq_of_mem_replicate hc]

section Items

variable {α β : Type} {Item : List Char → α → Prop} {level : Nat} {text : β → List Char} {x : β → α}

theorem Gap.padded {gap text : List Char} {x : α} (hgap : Gap gap) (h : Item text x) :
    Padded Item (gap ++ text) x := by
  have hpadded : Padded Item (gap ++ text ++ []) x := .intro hgap h gap_nil
  rwa [List.append_nil] at hpadded

theorem itemsText_laidOut {bs : List β} (h : ∀ b ∈ bs, Item (text b) (x b)) (hbs : bs ≠ [])
    (outer : Nat) : ItemsText Item (laidOut level (bs.map text) ++ newLine outer) (bs.map x) := by
  induction bs with
  | nil => exact absurd rfl hbs
  | cons b bs ih =>
    have hb := h b List.mem_cons_self
    cases bs with
    | nil =>
      rw [List.map_singleton, laidOut_singleton]
      exact .single (.intro (gap_newLine level) hb (gap_newLine outer))
    | cons next bs =>
      have hrest := ih (fun b hb => h b (List.mem_cons_of_mem _ hb)) (by simp)
      rw [List.map_cons, List.map_cons, laidOut_cons_cons, List.append_assoc, List.cons_append]
      exact .cons ((gap_newLine level).padded hb) hrest

/-- **Items on lines are a list**, behind the opening bracket and with the closing one. -/
theorem listText_enclosed {bs : List β} (h : ∀ b ∈ bs, Item (text b) (x b))
    (opening closing : Char) :
    ListText opening closing Item (opening :: enclosed level closing (bs.map text)) (bs.map x) := by
  cases bs with
  | nil => exact .empty gap_nil
  | cons b bs =>
    have htext : enclosed level closing ((b :: bs).map text) =
        laidOut (level + 1) ((b :: bs).map text) ++ newLine level ++ [closing] := by
      simp [enclosed]
    rw [htext]
    exact .items (itemsText_laidOut h (List.cons_ne_nil b bs) level)

end Items

/-! ## Arrays and objects -/

theorem prettyItems_eq (level : Nat) (items : List Json) :
    prettyItems level items = laidOut level (items.map (prettyChars level)) := by
  induction items with
  | nil => rfl
  | cons v rest ih =>
    cases rest with
    | nil => simp [prettyItems, laidOut_singleton]
    | cons w rest =>
      rw [prettyItems, ih]
      · simp [laidOut_cons_cons]
      · simp

/-- A member on its line. -/
def memberChars (level : Nat) (f : String × Json) : List Char :=
  stringChars f.1 ++ [':', ' '] ++ prettyChars level f.2

theorem prettyFields_eq (level : Nat) (fields : List (String × Json)) :
    prettyFields level fields = laidOut level (fields.map (memberChars level)) := by
  induction fields with
  | nil => rfl
  | cons f rest ih =>
    cases rest with
    | nil => simp [prettyFields, laidOut_singleton, memberChars]
    | cons g rest =>
      rw [prettyFields, ih]
      · simp [laidOut_cons_cons, memberChars]
      · simp

theorem prettyChars_arr (level : Nat) (items : List Json) :
    prettyChars level (.arr items) =
      '[' :: enclosed level ']' (items.map (prettyChars (level + 1))) := by
  cases items with
  | nil => rfl
  | cons v items => simp [prettyChars, prettyItems_eq, enclosed]

theorem prettyChars_obj (level : Nat) (fields : List (String × Json)) :
    prettyChars level (.obj fields) =
      '\x7b' :: enclosed level '\x7d' (fields.map (memberChars (level + 1))) := by
  cases fields with
  | nil => rfl
  | cons f fields => simp [prettyChars, prettyFields_eq, enclosed]

theorem memberText_memberChars {Value : List Char → Json → Prop} {level : Nat} {f : String × Json}
    {v : Json} (h : Value (prettyChars level f.2) v) :
    MemberText Value (memberChars level f) (f.1, v) := by
  have hspace : Gap [' '] := by simp [Gap, blanks]
  have htext : memberChars level f =
      stringChars f.1 ++ [] ++ ':' :: ([' '] ++ prettyChars level f.2) := by
    simp [memberChars]
  rw [htext]
  exact .intro (stringText_stringChars f.1) gap_nil hspace h

/-! ## Values -/

mutual

/-- The value with the members of its objects in key order, as a text gives them back. -/
def keyed : Json → Json
  | .arr items => .arr (keyedItems items)
  | .obj fields => object (keyedFields fields)
  | v => v

def keyedItems : List Json → List Json
  | [] => []
  | v :: rest => v.keyed :: keyedItems rest

def keyedFields : List (String × Json) → List (String × Json)
  | [] => []
  | (key, v) :: rest => (key, v.keyed) :: keyedFields rest

end

theorem keyedItems_eq (items : List Json) : keyedItems items = items.map keyed := by
  induction items with
  | nil => rfl
  | cons v rest ih => rw [keyedItems, ih, List.map_cons]

theorem keyedFields_eq (fields : List (String × Json)) :
    keyedFields fields = fields.map fun f => (f.1, f.2.keyed) := by
  induction fields with
  | nil => rfl
  | cons f rest ih => rw [keyedFields, ih, List.map_cons]

/-- A value without numbers, of at most `depth` arrays and objects inside one another. -/
inductive Plain : Nat → Json → Prop where
  | null (depth : Nat) : Plain depth .null
  | bool (depth : Nat) (b : Bool) : Plain depth (.bool b)
  | str (depth : Nat) (s : String) : Plain depth (.str s)
  | arr {depth : Nat} {items : List Json} (h : ∀ v ∈ items, Plain depth v) :
    Plain (depth + 1) (.arr items)
  | obj {depth : Nat} {fields : List (String × Json)} (h : ∀ f ∈ fields, Plain depth f.2) :
    Plain (depth + 1) (.obj fields)

theorem ScalarText.valueText {t : List Char} {v : Json} (h : ScalarText t v) (depth : Nat) :
    ValueText depth t v := by
  cases depth with
  | zero => exact h
  | succ depth => exact .scalar h

/-- The layout is a text of the grammar. -/
theorem Plain.valueText {depth : Nat} {v : Json} (h : Plain depth v) (level : Nat) :
    ValueText depth (prettyChars level v) v.keyed := by
  induction h generalizing level with
  | null depth => exact ScalarText.null.valueText depth
  | bool depth b =>
    cases b with
    | false => exact ScalarText.false.valueText depth
    | true => exact ScalarText.true.valueText depth
  | str depth s => exact (ScalarText.str (stringText_stringChars s)).valueText depth
  | arr h ih =>
    have hitems := fun v hv => ih v hv (level + 1)
    rw [prettyChars_arr, keyed, keyedItems_eq]
    exact .array (listText_enclosed hitems '[' ']')
  | obj h ih =>
    have hmembers := fun f hf => memberText_memberChars (ih f hf (level + 1))
    rw [prettyChars_obj, keyed, keyedFields_eq]
    exact .object (listText_enclosed hmembers '\x7b' '\x7d')

/-- **A value without numbers is read back from its layout**, with the members of its objects in
key order. -/
theorem read?_pretty {v : Json} (h : Plain maxDepth v) : read? v.pretty = some v.keyed := by
  rw [read?_eq_some_iff, pretty, String.toList_ofList]
  exact gap_nil.padded (h.valueText 0)

end DocRoutes.Json
