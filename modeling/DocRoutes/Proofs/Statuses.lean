import Mathlib
import DocRoutes.Handler.Dispatch

/-!
# The status of a failure

The status of a failure stands in one of its properties, as a number of any kind: an integer with or
without a sign, or a float. On its way to a status code it passes through 64 and then 16 bits.

**Values** (`Json.toRat?`). The number that a JSON value is, exactly. A float is a whole number of
units, so that its value is a fraction and nothing is rounded.

**Conversions** (`statusOf?_eq_some_iff`). What comes out of the conversions is a status exactly if
the value is its code: no number is cut, wrapped or rounded into one. For this the two kinds of
numbers are taken apart. An integer that 64 bits do not hold is rounded to a float, which then is
negative or too large, and a float that passes the checks is its own whole part.

**Building** (`Failure.built`). A failure gets its properties one after the other, and a property has
the value that it got last (`property?_built_eq_some_iff`).

Main result: `status_by_value`.
-/

namespace DocRoutes

/-! ## Values -/

namespace Binary64

/-- The exact value of a number. -/
def toRat (x : Binary64) : ℚ :=
  if x.negative then -(x.units / unit) else x.units / unit

theorem unit_pos : 0 < unit := by decide +kernel

theorem cast_div_eq_cast_iff {units d n : Nat} (hd : 0 < d) :
    (units / d : ℚ) = n ↔ units = n * d := by
  have hd' : (d : ℚ) ≠ 0 := by exact_mod_cast hd.ne'
  rw [div_eq_iff hd']
  norm_cast

theorem neg_cast_div_eq_cast_iff {units d n : Nat} (hd : 0 < d) :
    (-(units / d) : ℚ) = n ↔ units = n * d ∧ units = 0 := by
  have hquotient : (0 : ℚ) ≤ units / d := by positivity
  have hn : (0 : ℚ) ≤ n := by positivity
  constructor
  · intro h
    have hzero : (units / d : ℚ) = (0 : Nat) := by
      push_cast
      linarith
    have hunits : units = 0 := by simpa using (cast_div_eq_cast_iff hd).1 hzero
    have hn0 : n = 0 := by
      have : (n : ℚ) = 0 := by simp [← h, hunits]
      exact_mod_cast this
    simp [hunits, hn0]
  · rintro ⟨h, rfl⟩
    have hn0 : n = 0 := by simpa [hd.ne'] using h.symm
    simp [hn0]

theorem toRat_eq_cast_iff {x : Binary64} {n : Nat} :
    x.toRat = n ↔ x.units = n * unit ∧ (x.negative = false ∨ x.units = 0) := by
  cases hnegative : x.negative with
  | false =>
    rw [toRat, hnegative, if_neg Bool.false_ne_true, cast_div_eq_cast_iff unit_pos]
    simp
  | true =>
    rw [toRat, hnegative, if_pos rfl, neg_cast_div_eq_cast_iff unit_pos]
    simp

theorem isWhole_iff {x : Binary64} : x.isWhole = true ↔ ∃ n, x.units = n * unit := by
  rw [isWhole, decide_eq_true_eq, ← Nat.dvd_iff_mod_eq_zero]
  exact dvd_iff_exists_eq_mul_left

theorem isUpTo_iff {x : Binary64} {bound : Nat} :
    x.isUpTo bound = true ↔ (x.negative = false ∨ x.units = 0) ∧ x.units ≤ bound * unit := by
  simp only [isUpTo, Bool.and_eq_true, Bool.or_eq_true, Bool.not_eq_true', decide_eq_true_eq]

/-- The checks let a number pass exactly if its value is a natural number up to the bound. -/
theorem isWhole_and_isUpTo_iff {x : Binary64} {bound : Nat} :
    x.isWhole = true ∧ x.isUpTo bound = true ↔ ∃ n ≤ bound, x.toRat = (n : ℚ) := by
  simp only [isWhole_iff, isUpTo_iff, toRat_eq_cast_iff]
  constructor
  · rintro ⟨⟨n, hn⟩, hsign, hbound⟩
    rw [hn] at hbound
    exact ⟨n, Nat.le_of_mul_le_mul_right hbound unit_pos, hn, hsign⟩
  · rintro ⟨n, hle, hn, hsign⟩
    refine ⟨⟨n, hn⟩, hsign, ?_⟩
    rw [hn]
    exact Nat.mul_le_mul_right unit hle

theorem toNat_toUInt64 {x : Binary64} {n : Nat} (h : x.toRat = n) (hn : n < UInt64.size) :
    x.toUInt64.toNat = n := by
  obtain ⟨hunits, hsign⟩ := toRat_eq_cast_iff.1 h
  cases hnegative : x.negative with
  | false =>
    have hdiv : x.units / unit = n := by rw [hunits, Nat.mul_div_cancel n unit_pos]
    have hmin : min n (UInt64.size - 1) = n := Nat.min_eq_left (Nat.le_sub_one_of_lt hn)
    simp only [toUInt64, hnegative, hdiv, hmin]
    exact UInt64.toNat_ofNat_of_lt' hn
  | true =>
    have hzero : x.units = 0 := by simpa [hnegative] using hsign
    have hn0 : n = 0 := by
      rw [hzero] at hunits
      simpa [unit_pos.ne'] using hunits.symm
    simp [toUInt64, hnegative, hn0]

/-! ### Integers as floats -/

theorem step_le {n : Nat} (h : n ≠ 0) : step n ≤ n :=
  calc step n ≤ 2 ^ n.log2 := Nat.pow_le_pow_right (by decide) (Nat.sub_le _ _)
    _ ≤ n := Nat.log2_self_le h

/-- Rounding loses at most half of a number. -/
theorem le_two_mul_unitsOfNat (n : Nat) : n * unit ≤ 2 * unitsOfNat n := by
  by_cases hn : n * unit = 0
  · simp [hn]
  · have hstep := step_le hn
    have hround := @le_round (n * unit) 1 Nat.one_pos
    simp only [Nat.div_one, Nat.one_mul] at hround
    rw [unitsOfNat]
    omega

/-- An integer that 64 bits do not hold without a sign is not rounded to a small number. -/
theorem isUpTo_ofInt_eq_false {n : Int} (h : ¬(0 ≤ n ∧ n < UInt64.size)) (bound : Nat)
    (hbound : bound < UInt32.size) : (ofInt n).isUpTo bound = false := by
  have hround := le_two_mul_unitsOfNat n.natAbs
  by_cases hneg : n < 0
  · have hunits : unitsOfNat n.natAbs ≠ 0 := by
      intro hzero
      have hpos : 0 < n.natAbs * unit := Nat.mul_pos (by omega) unit_pos
      omega
    simp [isUpTo, ofInt, hneg, hunits]
  · have hlarge : UInt64.size * unit ≤ n.natAbs * unit := Nat.mul_le_mul_right unit (by omega)
    have hsmall : 2 * (bound * unit) < UInt64.size * unit := by
      rw [← Nat.mul_assoc]
      apply Nat.mul_lt_mul_of_pos_right _ unit_pos
      have : UInt32.size * 2 < UInt64.size := by decide
      omega
    have hover : ¬unitsOfNat n.natAbs ≤ bound * unit := by omega
    simp [isUpTo, ofInt, hover]

end Binary64

/-- The number that a value is, exactly. -/
def Json.toRat? : Json → Option ℚ
  | .int n => some n
  | .float x => some x.toRat
  | _ => none

/-! ## Conversions -/

/-- A number of 64 bits becomes the status of this code or none. -/
theorem Status.narrow?_bind_ofUInt16? {n : UInt64} {s : Status} :
    (narrow? n).bind ofUInt16? = some s ↔ n.toNat = s.code := by
  have hcode := s.high
  unfold narrow?
  split
  · next hn =>
    have hnarrow : n.toUInt16.toNat = n.toNat := by
      rw [UInt64.toNat_toUInt16]
      exact Nat.mod_eq_of_lt hn
    rw [Option.bind_some, ofUInt16?, ofNat?_eq_some_iff, hnarrow]
    exact eq_comm
  · next hn =>
    have hlarge : 999 < UInt16.size := by decide
    constructor
    · nofun
    · intro h
      omega

namespace Failure

/-- A value becomes a number of 64 bits that fits 16 bits exactly if it is this number. -/
theorem exists_statusNumber?_iff {v : Json} {n : Nat} (hn : n < UInt16.size) :
    (∃ w, statusNumber? v = some w ∧ w.toNat = n) ↔ v.toRat? = some (n : ℚ) := by
  have hsize : UInt16.size < UInt64.size := by decide
  cases v with
  | int i =>
    have hvalue : (Json.int i).toRat? = some (n : ℚ) ↔ i = n := by
      rw [Json.toRat?, Option.some.injEq]
      norm_cast
    rw [hvalue, statusNumber?, Json.uint64?]
    by_cases hrange : 0 ≤ i ∧ i < UInt64.size
    · rw [if_pos hrange]
      have hword : (UInt64.ofNat i.toNat).toNat = i.toNat :=
        UInt64.toNat_ofNat_of_lt' (by omega)
      simp only [Option.or, Option.some.injEq, exists_eq_left', hword]
      omega
    · have hfloat := Binary64.isUpTo_ofInt_eq_false hrange (UInt16.size - 1) (by decide)
      rw [if_neg hrange, Option.none_or, Json.float?]
      constructor
      · rintro ⟨w, hw, -⟩
        obtain ⟨x, hx, -⟩ := Option.map_eq_some_iff.1 hw
        obtain ⟨hx, hbound⟩ := Option.filter_eq_some_iff.1 hx
        obtain ⟨hx, -⟩ := Option.filter_eq_some_iff.1 hx
        cases hx
        rw [hfloat] at hbound
        cases hbound
      · intro h
        omega
  | float x =>
    have hvalue : (Json.float x).toRat? = some (n : ℚ) ↔ x.toRat = n := by
      rw [Json.toRat?, Option.some.injEq]
    have hnumber : statusNumber? (.float x) = (((some x).filter (·.isWhole)).filter
        (·.isUpTo (UInt16.size - 1))).map (·.toUInt64) := rfl
    rw [hvalue, hnumber]
    constructor
    · rintro ⟨w, hw, rfl⟩
      obtain ⟨y, hy, rfl⟩ := Option.map_eq_some_iff.1 hw
      obtain ⟨hy, hbound⟩ := Option.filter_eq_some_iff.1 hy
      obtain ⟨hy, hwhole⟩ := Option.filter_eq_some_iff.1 hy
      cases hy
      obtain ⟨k, hk, hx⟩ := Binary64.isWhole_and_isUpTo_iff.1 ⟨hwhole, hbound⟩
      rw [hx, Binary64.toNat_toUInt64 hx (by omega)]
    · intro hx
      obtain ⟨hwhole, hbound⟩ := Binary64.isWhole_and_isUpTo_iff.2
        ⟨n, Nat.le_sub_one_of_lt hn, hx⟩
      refine ⟨x.toUInt64, ?_, Binary64.toNat_toUInt64 hx (by omega)⟩
      rw [Option.filter_some_pos hwhole, Option.filter_some_pos hbound, Option.map_some]
  | null | bool | str | arr | obj => simp [statusNumber?, Json.uint64?, Json.float?, Json.toRat?]

/-- **The conversions keep the value.** A value stands for a status exactly if it is its code. -/
theorem statusOf?_eq_some_iff {v : Json} {s : Status} :
    statusOf? v = some s ↔ v.toRat? = some (s.code : ℚ) := by
  have hcode : s.code < UInt16.size := Nat.lt_of_le_of_lt s.high (by decide)
  rw [← exists_statusNumber?_iff hcode]
  rw [statusOf?, Option.bind_eq_bind, Option.bind_eq_some_iff]
  exact exists_congr fun w => and_congr_right fun _ => Status.narrow?_bind_ofUInt16?

/-! ## Building a failure -/

/-- One thing that is added to a failure. -/
inductive Update where
  | property (key : String) (value : Json)
  | status (code : Nat)
  | trace (text : String)

def update (f : Failure) : Update → Failure
  | .property key value => f.withProperty key value
  | .status code => f.withStatus code
  | .trace text => f.withTrace text

/-- A failure with a message, built step by step. -/
def built (message : String) (updates : List Update) : Failure :=
  updates.foldl update { message }

/-- The value that an update gives a property. -/
def Update.value? (p : String) : Update → Option Json
  | .property key value => if key = p then some value else none
  | .status code => if defaultStatusProperty = p then some (.ofNat code) else none
  | .trace _ => none

/-- A property gets this value, and no other value later. -/
def LastValue (updates : List Update) (p : String) (v : Json) : Prop :=
  ∃ before u after, updates = before ++ u :: after ∧ u.value? p = some v ∧
    ∀ later ∈ after, later.value? p = none

theorem property?_update (f : Failure) (u : Update) (p : String) :
    (f.update u).property? p = (u.value? p).or (f.property? p) := by
  cases u with
  | property key value =>
    by_cases h : key = p <;> simp [update, withProperty, property?, Update.value?, h]
  | status code =>
    by_cases h : defaultStatusProperty = p <;>
      simp [update, withStatus, withProperty, property?, Update.value?, h]
  | trace text => rfl

theorem property?_foldl (f : Failure) (updates : List Update) (p : String) :
    (updates.foldl update f).property? p =
      (updates.reverse.findSome? (·.value? p)).or (f.property? p) := by
  induction updates generalizing f with
  | nil => rfl
  | cons u rest ih =>
    rw [List.foldl_cons, ih, property?_update, List.reverse_cons, List.findSome?_append,
      Option.or_assoc]
    simp

/-- A property has the value that it got last. -/
theorem property?_built_eq_some_iff {message : String} {updates : List Update} {p : String}
    {v : Json} : (built message updates).property? p = some v ↔ LastValue updates p v := by
  have hempty : ({ message } : Failure).property? p = none := rfl
  rw [built, property?_foldl, hempty, Option.or_none]
  exact Keyed.findSome?_reverse_eq_some_iff

/-! ## Main result -/

theorem statusOf?_congr {v v' : Json} (h : v.toRat? = v'.toRat?) : statusOf? v = statusOf? v' := by
  apply Option.ext
  intro s
  rw [statusOf?_eq_some_iff, statusOf?_eq_some_iff, h]

theorem code_status_of_toRat? {f : Failure} {p : String} {v : Json} {n : Nat}
    (hv : f.property? p = some v) (hn : v.toRat? = some (n : ℚ)) (hlow : 100 ≤ n)
    (hhigh : n ≤ 999) : (f.status p).code = n := by
  have hstatus : statusOf? v = some ⟨n, hlow, hhigh⟩ := statusOf?_eq_some_iff.2 hn
  rw [status, hv, Option.bind_some, hstatus, Option.getD_some]

theorem code_status_of_forall {f : Failure} {p : String}
    (h : ∀ v, f.property? p = some v → ∀ n : Nat, v.toRat? = some (n : ℚ) →
      ¬(100 ≤ n ∧ n ≤ 999)) : (f.status p).code = 500 := by
  have hnone : (f.property? p).bind statusOf? = none := by
    apply Option.eq_none_iff_forall_ne_some.2
    intro s hs
    obtain ⟨v, hv, hs⟩ := Option.bind_eq_some_iff.1 hs
    exact h v hv s.code (statusOf?_eq_some_iff.1 hs) ⟨s.low, s.high⟩
  rw [status, hnone]
  rfl

/-- **The status of a failure is the value of a property.** However a failure was built, and whatever
property is asked for: if the value that the property got last is a number and the number is a whole
one between 100 and 999, then it is the status, and in every other case the status is 500. So the
status depends on the value of the number alone, and a response to a failure always has a status of
three digits. -/
theorem status_by_value (message : String) (updates : List Update) (p : String) :
    let f := built message updates
    (∀ v, LastValue updates p v → ∀ n : Nat, v.toRat? = some (n : ℚ) → 100 ≤ n → n ≤ 999 →
      (f.status p).code = n) ∧
    ((∀ v, LastValue updates p v → ∀ n : Nat, v.toRat? = some (n : ℚ) → ¬(100 ≤ n ∧ n ≤ 999)) →
      (f.status p).code = 500) ∧
    (∀ message' updates' v v' q, LastValue updates p v → LastValue updates' p v' →
      v.toRat? = some q → v'.toRat? = some q →
      (built message' updates').status p = f.status p) ∧
    ∀ policy : FailurePolicy, policy.statusProperty = p →
      (policy.response f).status = f.status p ∧
        100 ≤ (policy.response f).status.code ∧ (policy.response f).status.code ≤ 999 := by
  intro f
  refine ⟨?_, ?_, ?_, ?_⟩
  · intro v hv n hn hlow hhigh
    exact code_status_of_toRat? (property?_built_eq_some_iff.2 hv) hn hlow hhigh
  · intro h
    apply code_status_of_forall
    intro v hv
    exact h v (property?_built_eq_some_iff.1 hv)
  · intro message' updates' v v' q hv hv' hq hq'
    have hsame : statusOf? v' = statusOf? v := statusOf?_congr (hq'.trans hq.symm)
    rw [status, status, property?_built_eq_some_iff.2 hv, property?_built_eq_some_iff.2 hv',
      Option.bind_some, Option.bind_some, hsame]
  · rintro policy rfl
    exact ⟨rfl, (policy.response f).status.low, (policy.response f).status.high⟩

/-- An integer and a float of one value, set after other values, and a number between two statuses. -/
theorem status_of_three_failures :
    let float (halves : Nat) : Json := .float ⟨false, halves * (Binary64.unit / 2)⟩
    let taken := [.trace "users.rs:42", .status 418, .property "httpCode" (.int 409)]
    let gone := [.property "httpCode" (.str "410"), .property "httpCode" (float 818)]
    let between := [.status 404, .property "httpCode" (float 809)]
    ((built "taken" taken).status "httpCode").code = 409 ∧
      (built "gone" gone).status "httpCode" = (built "taken" taken).status "httpCode" ∧
      ((built "between" between).status "httpCode").code = 500 ∧
      (FailurePolicy.response {} (built "taken" taken)).status.code = 409 := by
  intro float taken gone between
  have hfloat (halves : Nat) : (float halves).toRat? = some (halves / 2 : ℚ) := by
    have hunit : Binary64.unit = 2 * (Binary64.unit / 2) := by decide +kernel
    have hpos : 0 < Binary64.unit / 2 := by decide +kernel
    simp only [float, Json.toRat?, Binary64.toRat]
    generalize Binary64.unit / 2 = half at hunit hpos
    rw [hunit, if_neg Bool.false_ne_true]
    push_cast
    field_simp
  have htaken : LastValue taken "httpCode" (.int 409) :=
    ⟨[.trace "users.rs:42", .status 418], .property "httpCode" (.int 409), [], rfl, rfl, nofun⟩
  have hgone : LastValue gone "httpCode" (float 818) :=
    ⟨[.property "httpCode" (.str "410")], .property "httpCode" (float 818), [], rfl, rfl, nofun⟩
  have hbetween (v : Json) (h : LastValue between "httpCode" v) : v = float 809 := by
    have hlast : (built "between" between).property? "httpCode" = some (float 809) := rfl
    exact Option.some.inj ((property?_built_eq_some_iff.2 h).symm.trans hlast)
  have hgoneValue : (float 818).toRat? = some (409 : ℚ) := by
    rw [hfloat]
    norm_num
  obtain ⟨hvalue, -, hsame, hresponse⟩ := status_by_value "taken" taken "httpCode"
  have hcode : ((built "taken" taken).status "httpCode").code = 409 :=
    hvalue _ htaken 409 rfl (by decide) (by decide)
  refine ⟨hcode, hsame "gone" gone _ _ 409 htaken hgone rfl hgoneValue, ?_, ?_⟩
  · apply (status_by_value "between" between "httpCode").2.1
    intro v hv n hn
    rw [hbetween v hv, hfloat] at hn
    have hn : (809 / 2 : ℚ) = n := Option.some.inj hn
    have hodd : 809 = 2 * n := by
      field_simp at hn
      exact_mod_cast hn
    omega
  · rw [(hresponse {} rfl).1, hcode]

end Failure

end DocRoutes
