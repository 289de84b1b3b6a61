import DocRoutes.Proofs.PathArguments
import DocRoutes.Text.Utf8

/-!
# Decoding undoes encoding

**Theorem (`utf8Text?_eq_some_iff`).** Strict decoding gives a text exactly for the bytes that encode
this text, and for no others.

The decoder is a machine that takes one byte at a time. Between two characters it is in one state,
so that it is enough to look at one character: the bytes that bring the machine from this state back
to it (`IsSequence`) are those that encode a character (`isSequence_iff`).
-/

namespace DocRoutes.Text

/-! ## One character -/

/-- The bytes complete a character, and this is its code. -/
inductive PartialChar.Completes : PartialChar → Bytes → Nat → Prop
  | last {bits low high n : Nat} {b : UInt8} : low ≤ b.toNat → b.toNat ≤ high →
      n = 64 * bits + (b.toNat - 0x80) → Completes ⟨bits, 1, low, high⟩ [b] n
  | next {bits missing low high n : Nat} {b : UInt8} {t : Bytes} : low ≤ b.toNat → b.toNat ≤ high →
      Completes ⟨64 * bits + (b.toNat - 0x80), missing + 1, 0x80, 0xBF⟩ t n →
      Completes ⟨bits, missing + 2, low, high⟩ (b :: t) n

/-- The machine takes the bytes as one character, and this is its code. -/
inductive IsSequence : Bytes → Nat → Prop
  | single {b : UInt8} {p : PartialChar} : lead? b = some p → p.missing = 0 → IsSequence [b] p.bits
  | longer {b : UInt8} {p : PartialChar} {t : Bytes} {n : Nat} :
      lead? b = some p → p.Completes t n → IsSequence (b :: t) n

theorem PartialChar.Completes.decodeFrom_append {p : PartialChar} {t : Bytes} {n : Nat}
    (h : p.Completes t n) (rest : Bytes) :
    decodeFrom (some p) (t ++ rest) = some (Char.ofNat n) :: decodeFrom none rest := by
  induction h with
  | last hlow hhigh hn => simp [decodeFrom, decodeByte, hlow, hhigh, hn]
  | next hlow hhigh _ ih => simpa [decodeFrom, decodeByte, hlow, hhigh] using ih

theorem PartialChar.Completes.missing_ne_zero {p : PartialChar} {t : Bytes} {n : Nat}
    (h : p.Completes t n) : p.missing ≠ 0 := by
  cases h with
  | last => exact Nat.one_ne_zero
  | next => exact Nat.succ_ne_zero _

theorem IsSequence.decodeFrom_append {t : Bytes} {n : Nat} (h : IsSequence t n) (rest : Bytes) :
    decodeFrom none (t ++ rest) = some (Char.ofNat n) :: decodeFrom none rest := by
  cases h with
  | single hlead hmissing => simp [decodeFrom, decodeByte, startChar, hlead, hmissing]
  | longer hlead hcompletes =>
    have hmissing := hcompletes.missing_ne_zero
    have hrest := hcompletes.decodeFrom_append rest
    simpa [decodeFrom, decodeByte, startChar, hlead, hmissing] using hrest

/-- If nothing is ill-formed, the character that is incomplete is completed. -/
theorem exists_completes {p : PartialChar} {bytes : Bytes} (hmissing : p.missing ≠ 0)
    (h : none ∉ decodeFrom (some p) bytes) :
    ∃ t rest n, bytes = t ++ rest ∧ p.Completes t n := by
  induction bytes generalizing p with
  | nil => simp [decodeFrom] at h
  | cons b r ih =>
    obtain ⟨bits, missing, low, high⟩ := p
    by_cases hrange : low ≤ b.toNat ∧ b.toNat ≤ high
    · obtain ⟨hlow, hhigh⟩ := hrange
      match missing, hmissing with
      | 1, _ => exact ⟨[b], r, _, rfl, .last hlow hhigh rfl⟩
      | missing + 2, _ =>
        obtain ⟨t, rest, n, rfl, hcompletes⟩ := ih (Nat.succ_ne_zero _)
          (by simpa [decodeFrom, decodeByte, hlow, hhigh] using h)
        exact ⟨b :: t, rest, n, rfl, .next hlow hhigh hcompletes⟩
    · simp [decodeFrom, decodeByte, hrange] at h

/-- If nothing is ill-formed, a character stands at the beginning. -/
theorem exists_isSequence {bytes : Bytes} (hne : bytes ≠ []) (h : none ∉ decodeFrom none bytes) :
    ∃ t rest n, bytes = t ++ rest ∧ IsSequence t n := by
  obtain ⟨b, r, rfl⟩ := List.exists_cons_of_ne_nil hne
  cases hlead : lead? b with
  | none => simp [decodeFrom, decodeByte, startChar, hlead] at h
  | some p =>
    by_cases hmissing : p.missing = 0
    · exact ⟨[b], r, p.bits, rfl, .single hlead hmissing⟩
    · obtain ⟨t, rest, n, rfl, hcompletes⟩ := exists_completes hmissing
        (by simpa [decodeFrom, decodeByte, startChar, hlead, hmissing] using h)
      exact ⟨b :: t, rest, n, rfl, .longer hlead hcompletes⟩

/-! ## Its code -/

/-- The bytes of a code, as numbers. -/
def unitsOfCode (n : Nat) : List Nat :=
  if n < 0x80 then [n]
  else if n < 0x800 then [0xC0 + n / 64, 0x80 + n % 64]
  else if n < 0x10000 then [0xE0 + n / 4096, 0x80 + n / 64 % 64, 0x80 + n % 64]
  else [0xF0 + n / 262144, 0x80 + n / 4096 % 64, 0x80 + n / 64 % 64, 0x80 + n % 64]

theorem map_toNat_utf8EncodeChar (c : Char) :
    (String.utf8EncodeChar c).map UInt8.toNat = unitsOfCode c.toNat := by
  have hvalid : c.toNat < 0x110000 := by
    rcases c.valid with h | ⟨-, h⟩
    · exact Nat.lt_trans h (by decide)
    · exact h
  rw [String.utf8EncodeChar, unitsOfCode, ← Char.toNat]
  generalize c.toNat = n at hvalid
  split_ifs
  all_goals
    simp only [List.map_cons, List.map_nil, UInt8.toNat_ofNat', List.cons.injEq, and_true]
    omega

/-! ### What a lead byte asks for

The limits of the byte after a lead byte keep out the codes that fewer bytes would do for, the
surrogates, and the codes that are too large. -/

section Lead

variable {b : UInt8} {bits missing low high n : Nat} {t : Bytes}

theorem completes_zero : ¬PartialChar.Completes ⟨bits, 0, low, high⟩ t n :=
  fun h => h.missing_ne_zero rfl

theorem completes_one : PartialChar.Completes ⟨bits, 1, low, high⟩ t n ↔
    ∃ b, t = [b] ∧ (low ≤ b.toNat ∧ b.toNat ≤ high) ∧ n = 64 * bits + (b.toNat - 0x80) := by
  constructor
  · rintro ⟨hlow, hhigh, hn⟩
    exact ⟨_, rfl, ⟨hlow, hhigh⟩, hn⟩
  · rintro ⟨b, rfl, ⟨hlow, hhigh⟩, hn⟩
    exact .last hlow hhigh hn

theorem completes_more : PartialChar.Completes ⟨bits, missing + 2, low, high⟩ t n ↔
    ∃ b rest, t = b :: rest ∧ (low ≤ b.toNat ∧ b.toNat ≤ high) ∧
      PartialChar.Completes ⟨64 * bits + (b.toNat - 0x80), missing + 1, 0x80, 0xBF⟩ rest n := by
  constructor
  · rintro (_ | ⟨hlow, hhigh, hrest⟩)
    exact ⟨_, _, rfl, ⟨hlow, hhigh⟩, hrest⟩
  · rintro ⟨b, rest, rfl, ⟨hlow, hhigh⟩, hrest⟩
    exact .next hlow hhigh hrest

theorem isSequence_cons_iff {p : PartialChar} (h : lead? b = some p) :
    IsSequence (b :: t) n ↔ (p.missing = 0 ∧ t = [] ∧ n = p.bits) ∨ p.Completes t n := by
  constructor
  · rintro (⟨hlead, hmissing⟩ | ⟨hlead, hcompletes⟩)
    · cases h.symm.trans hlead
      exact .inl ⟨hmissing, rfl, rfl⟩
    · cases h.symm.trans hlead
      exact .inr hcompletes
  · rintro (⟨hmissing, rfl, rfl⟩ | hcompletes)
    · exact .single h hmissing
    · exact .longer h hcompletes

theorem isSequence_one (hb : b.toNat < 0x80) : IsSequence (b :: t) n ↔ t = [] ∧ n = b.toNat := by
  have hlead : lead? b = some ⟨b.toNat, 0, 0x80, 0xBF⟩ := by simp [lead?, hb]
  simp [isSequence_cons_iff hlead, completes_zero]

theorem isSequence_two (hb : b.toNat = 0xC0 + bits) (hlow : 2 ≤ bits) (hhigh : bits < 0x20) :
    IsSequence (b :: t) n ↔ ∃ b1, t = [b1] ∧ (0x80 ≤ b1.toNat ∧ b1.toNat ≤ 0xBF) ∧
      n = 64 * bits + (b1.toNat - 0x80) := by
  have hlead : lead? b = some ⟨bits, 1, 0x80, 0xBF⟩ := by grind [lead?]
  simp [isSequence_cons_iff hlead, completes_one]

theorem isSequence_three (hb : b.toNat = 0xE0 + bits) (hhigh : bits < 0x10) :
    IsSequence (b :: t) n ↔ ∃ b1 b2, t = [b1, b2] ∧
      (0x80 ≤ b1.toNat ∧ b1.toNat ≤ 0xBF ∧ (bits = 0 → 0xA0 ≤ b1.toNat) ∧
        (bits = 0xD → b1.toNat ≤ 0x9F)) ∧
      (0x80 ≤ b2.toNat ∧ b2.toNat ≤ 0xBF) ∧
      n = 64 * (64 * bits + (b1.toNat - 0x80)) + (b2.toNat - 0x80) := by
  have hlead : ∃ low high, lead? b = some ⟨bits, 2, low, high⟩ ∧ ∀ m, (low ≤ m ∧ m ≤ high ↔
      0x80 ≤ m ∧ m ≤ 0xBF ∧ (bits = 0 → 0xA0 ≤ m) ∧ (bits = 0xD → m ≤ 0x9F)) := by
    by_cases h0 : bits = 0
    · exact ⟨0xA0, 0xBF, by simp [lead?, hb, h0], by omega⟩
    by_cases hD : bits = 0xD
    · exact ⟨0x80, 0x9F, by simp [lead?, hb, hD], by omega⟩
    · exact ⟨0x80, 0xBF, by grind [lead?], by omega⟩
  obtain ⟨low, high, hlead, hlimits⟩ := hlead
  simp only [isSequence_cons_iff hlead, completes_more, Nat.reduceAdd, completes_one, hlimits,
    OfNat.ofNat_ne_zero, false_and, false_or]
  constructor
  · rintro ⟨b1, _, rfl, h1, b2, rfl, h2, hn⟩
    exact ⟨b1, b2, rfl, h1, h2, hn⟩
  · rintro ⟨b1, b2, rfl, h1, h2, hn⟩
    exact ⟨b1, _, rfl, h1, b2, rfl, h2, hn⟩

theorem isSequence_four (hb : b.toNat = 0xF0 + bits) (hhigh : bits ≤ 4) :
    IsSequence (b :: t) n ↔ ∃ b1 b2 b3, t = [b1, b2, b3] ∧
      (0x80 ≤ b1.toNat ∧ b1.toNat ≤ 0xBF ∧ (bits = 0 → 0x90 ≤ b1.toNat) ∧
        (bits = 4 → b1.toNat ≤ 0x8F)) ∧
      (0x80 ≤ b2.toNat ∧ b2.toNat ≤ 0xBF) ∧ (0x80 ≤ b3.toNat ∧ b3.toNat ≤ 0xBF) ∧
      n = 64 * (64 * (64 * bits + (b1.toNat - 0x80)) + (b2.toNat - 0x80)) + (b3.toNat - 0x80) := by
  have hlead : ∃ low high, lead? b = some ⟨bits, 3, low, high⟩ ∧ ∀ m, (low ≤ m ∧ m ≤ high ↔
      0x80 ≤ m ∧ m ≤ 0xBF ∧ (bits = 0 → 0x90 ≤ m) ∧ (bits = 4 → m ≤ 0x8F)) := by
    by_cases h0 : bits = 0
    · exact ⟨0x90, 0xBF, by simp [lead?, hb, h0], by omega⟩
    by_cases h4 : bits = 4
    · exact ⟨0x80, 0x8F, by simp [lead?, hb, h4], by omega⟩
    · have h1 : 0xF0 < b.toNat := by omega
      have h2 : b.toNat < 0xF4 := by omega
      exact ⟨0x80, 0xBF, by grind [lead?], by omega⟩
  obtain ⟨low, high, hlead, hlimits⟩ := hlead
  simp only [isSequence_cons_iff hlead, completes_more, Nat.reduceAdd, completes_one, hlimits,
    OfNat.ofNat_ne_zero, false_and, false_or]
  constructor
  · rintro ⟨b1, _, rfl, h1, b2, _, rfl, h2, b3, rfl, h3, hn⟩
    exact ⟨b1, b2, b3, rfl, h1, h2, h3, hn⟩
  · rintro ⟨b1, b2, b3, rfl, h1, h2, h3, hn⟩
    exact ⟨b1, _, rfl, h1, b2, _, rfl, h2, b3, rfl, h3, hn⟩

/-- The lead bytes of one, two, three and four bytes. -/
theorem IsSequence.lead_cases (h : IsSequence (b :: t) n) :
    b.toNat < 0x80 ∨ (∃ bits, b.toNat = 0xC0 + bits ∧ 2 ≤ bits ∧ bits < 0x20) ∨
      (∃ bits, b.toNat = 0xE0 + bits ∧ bits < 0x10) ∨ ∃ bits, b.toNat = 0xF0 + bits ∧ bits ≤ 4 := by
  have hrange : b.toNat < 0x80 ∨ 0xC2 ≤ b.toNat ∧ b.toNat < 0xF5 := by
    by_contra hout
    have hnone : lead? b = none := by
      simp only [lead?]
      split_ifs <;> first | rfl | omega
    cases h <;> simp_all
  rcases hrange with h1 | ⟨hlow, hhigh⟩
  · exact .inl h1
  by_cases h2 : b.toNat < 0xE0
  · exact .inr (.inl ⟨b.toNat - 0xC0, by omega⟩)
  by_cases h3 : b.toNat < 0xF0
  · exact .inr (.inr (.inl ⟨b.toNat - 0xE0, by omega⟩))
  · exact .inr (.inr (.inr ⟨b.toNat - 0xF0, by omega⟩))

end Lead

theorem IsSequence.map_toNat {t : Bytes} {n : Nat} (h : IsSequence t n) :
    n.isValidChar ∧ t.map UInt8.toNat = unitsOfCode n := by
  obtain ⟨b, t, rfl⟩ : ∃ b r, t = b :: r := by cases h <;> exact ⟨_, _, rfl⟩
  unfold Nat.isValidChar unitsOfCode
  rcases h.lead_cases with hb | ⟨bits, hb, hlow, hhigh⟩ | ⟨bits, hb, hhigh⟩ | ⟨bits, hb, hhigh⟩
  · obtain ⟨rfl, hn⟩ := (isSequence_one hb).1 h
    refine ⟨.inl (by omega), ?_⟩
    rw [if_pos (by omega), hn]
    rfl
  · obtain ⟨b1, rfl, h1, hn⟩ := (isSequence_two hb hlow hhigh).1 h
    refine ⟨.inl (by omega), ?_⟩
    rw [if_neg (by omega), if_pos (by omega)]
    simp only [List.map_cons, List.map_nil, List.cons.injEq, and_true]
    omega
  · obtain ⟨b1, b2, rfl, h1, h2, hn⟩ := (isSequence_three hb hhigh).1 h
    refine ⟨by omega, ?_⟩
    rw [if_neg (by omega), if_neg (by omega), if_pos (by omega)]
    simp only [List.map_cons, List.map_nil, List.cons.injEq, and_true]
    omega
  · obtain ⟨b1, b2, b3, rfl, h1, h2, h3, hn⟩ := (isSequence_four hb hhigh).1 h
    refine ⟨by omega, ?_⟩
    rw [if_neg (by omega), if_neg (by omega), if_neg (by omega)]
    simp only [List.map_cons, List.map_nil, List.cons.injEq, and_true]
    omega

theorem isSequence_of_map_toNat {t : Bytes} {n : Nat} (hvalid : n.isValidChar)
    (h : t.map UInt8.toNat = unitsOfCode n) : IsSequence t n := by
  unfold unitsOfCode at h
  split_ifs at h with h1 h2 h3
  · obtain ⟨b, rfl, hb⟩ : ∃ b, t = [b] ∧ b.toNat = n := by simpa [List.map_eq_cons_iff] using h
    exact (isSequence_one (hb ▸ h1)).2 ⟨rfl, hb.symm⟩
  · obtain ⟨b, b1, rfl, hb, hb1⟩ : ∃ b b1, t = [b, b1] ∧ b.toNat = 0xC0 + n / 64 ∧
        b1.toNat = 0x80 + n % 64 := by simpa [List.map_eq_cons_iff] using h
    exact (isSequence_two hb (by omega) (by omega)).2 ⟨b1, rfl, by omega, by omega⟩
  · obtain ⟨b, b1, b2, rfl, hb, hb1, hb2⟩ : ∃ b b1 b2, t = [b, b1, b2] ∧ b.toNat = 0xE0 + n / 4096 ∧
        b1.toNat = 0x80 + n / 64 % 64 ∧ b2.toNat = 0x80 + n % 64 := by
      simpa [List.map_eq_cons_iff] using h
    unfold Nat.isValidChar at hvalid
    exact (isSequence_three hb (by omega)).2 ⟨b1, b2, rfl, by omega, by omega, by omega⟩
  · obtain ⟨b, b1, b2, b3, rfl, hb, hb1, hb2, hb3⟩ : ∃ b b1 b2 b3, t = [b, b1, b2, b3] ∧
        b.toNat = 0xF0 + n / 262144 ∧ b1.toNat = 0x80 + n / 4096 % 64 ∧
        b2.toNat = 0x80 + n / 64 % 64 ∧ b3.toNat = 0x80 + n % 64 := by
      simpa [List.map_eq_cons_iff] using h
    unfold Nat.isValidChar at hvalid
    exact (isSequence_four hb (by omega)).2 ⟨b1, b2, b3, rfl, by omega, by omega, by omega, by omega⟩

/-- **The machine takes as one character what encodes one character.** -/
theorem isSequence_iff {t : Bytes} {n : Nat} :
    IsSequence t n ↔ ∃ c : Char, c.toNat = n ∧ t = String.utf8EncodeChar c := by
  constructor
  · intro h
    obtain ⟨hvalid, hunits⟩ := h.map_toNat
    have hcode : (Char.ofNat n).toNat = n := by rw [Char.toNat_ofNat, if_pos hvalid]
    refine ⟨Char.ofNat n, hcode, ?_⟩
    apply List.map_injective_iff.2 (fun _ _ => UInt8.toNat_inj.1)
    rw [hunits, map_toNat_utf8EncodeChar, hcode]
  · rintro ⟨c, rfl, rfl⟩
    exact isSequence_of_map_toNat c.valid (map_toNat_utf8EncodeChar c)

/-! ## Texts -/

theorem decodeFrom_utf8EncodeChar_append (c : Char) (rest : Bytes) :
    decodeFrom none (String.utf8EncodeChar c ++ rest) = some c :: decodeFrom none rest := by
  have hc : IsSequence (String.utf8EncodeChar c) c.toNat := isSequence_iff.2 ⟨c, rfl, rfl⟩
  rw [hc.decodeFrom_append, Char.ofNat_toNat]

theorem decodeFrom_eq_map_some_iff {bytes : Bytes} {cs : List Char} :
    decodeFrom none bytes = cs.map some ↔ bytes = cs.flatMap String.utf8EncodeChar := by
  constructor
  · intro h
    have hformed : none ∉ decodeFrom none bytes := by simp [h]
    induction cs generalizing bytes with
    | nil =>
      by_contra hne
      obtain ⟨t, rest, n, rfl, ht⟩ := exists_isSequence hne hformed
      rw [ht.decodeFrom_append] at h
      cases h
    | cons c cs ih =>
      have hne : bytes ≠ [] := by
        rintro rfl
        cases h
      obtain ⟨t, rest, n, rfl, ht⟩ := exists_isSequence hne hformed
      obtain ⟨d, rfl, rfl⟩ := isSequence_iff.1 ht
      rw [decodeFrom_utf8EncodeChar_append, List.map_cons] at h
      obtain ⟨hd, hrest⟩ := List.cons.inj h
      cases hd
      rw [List.flatMap_cons, ih hrest (by simp [hrest])]
  · rintro rfl
    induction cs with
    | nil => rfl
    | cons c cs ih =>
      rw [List.flatMap_cons, decodeFrom_utf8EncodeChar_append, ih, List.map_cons]

/-- **Decoding undoes encoding.** -/
theorem utf8Text?_eq_some_iff {bytes : Bytes} {s : String} :
    utf8Text? bytes = some s ↔ bytes = utf8Bytes s := by
  rw [utf8Bytes, ← decodeFrom_eq_map_some_iff, utf8Text?, Option.map_eq_some_iff]
  constructor
  · rintro ⟨cs, hcs, rfl⟩
    rw [String.toList_ofList, ← mapM_eq_some_iff.1 hcs, List.map_id]
    rfl
  · intro h
    refine ⟨s.toList, ?_, String.ofList_toList⟩
    rw [mapM_eq_some_iff, List.map_id]
    exact h

end DocRoutes.Text
