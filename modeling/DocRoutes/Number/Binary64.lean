/-!
# Finite binary64 numbers

A finite binary64 number is a sign and a whole number of units of `2 ^ -1074`, the least positive
number of the format. Up to `2 ^ 53` units every number is on the grid; above, the grid is as wide
as 53 significant bits allow. Nothing here is approximate: a quotient of natural numbers is
rounded to the grid in exact arithmetic, a tie going to the even neighbour.

Main results: rounding errs by at most half a step of the grid (`round_le`, `le_round`), and a
number of units on the grid rounds to itself (`round_one_of_onGrid`).
-/

namespace DocRoutes

/-- The magnitude is `units / 2 ^ 1074`. -/
structure Binary64 where
  negative : Bool
  units : Nat
  deriving DecidableEq, Repr

namespace Binary64

/-- The number of units in one. -/
def unit : Nat := Nat.pow 2 1074

/-- The step of the grid at `n` units: one up to 53 bits, then `2 ^ (bits - 53)`. -/
def step (n : Nat) : Nat := Nat.pow 2 (n.log2 - 52)

theorem step_pos (n : Nat) : 0 < step n := Nat.two_pow_pos _

def OnGrid (n : Nat) : Prop := step n ∣ n

/-! ## Rounding -/

/-- The nearest whole number to `num / den`, a half going to the even neighbour. -/
def divNearest (num den : Nat) : Nat :=
  let q := num / den
  let r := num % den
  if den < 2 * r ∨ (2 * r = den ∧ q % 2 = 1) then q + 1 else q

theorem divNearest_le {num den : Nat} (h : 0 < den) :
    2 * (den * divNearest num den) ≤ 2 * num + den := by
  have hd := Nat.div_add_mod num den
  have hm := Nat.mod_lt num h
  simp only [divNearest]
  split
  · rw [Nat.mul_add]; omega
  · omega

theorem le_divNearest {num den : Nat} (h : 0 < den) :
    2 * num ≤ 2 * (den * divNearest num den) + den := by
  have hd := Nat.div_add_mod num den
  have hm := Nat.mod_lt num h
  simp only [divNearest]
  split
  · rw [Nat.mul_add]; omega
  · omega

theorem divNearest_eq_of_mul {num den k : Nat} (h : 0 < den) (hn : num = den * k) :
    divNearest num den = k := by
  subst hn
  simp [divNearest, Nat.mul_div_cancel_left k h]
  omega

/-- The number of units on the grid that is nearest to `num / den` units. -/
def round (num den : Nat) : Nat :=
  let s := step (num / den)
  s * divNearest num (den * s)

theorem round_le {num den : Nat} (h : 0 < den) :
    2 * (den * round num den) ≤ 2 * num + den * step (num / den) := by
  have := @divNearest_le num _ (Nat.mul_pos h (step_pos (num / den)))
  simpa [round, Nat.mul_assoc] using this

theorem le_round {num den : Nat} (h : 0 < den) :
    2 * num ≤ 2 * (den * round num den) + den * step (num / den) := by
  have := @le_divNearest num _ (Nat.mul_pos h (step_pos (num / den)))
  simpa [round, Nat.mul_assoc] using this

theorem round_one_of_onGrid {n : Nat} (h : OnGrid n) : round n 1 = n := by
  obtain ⟨k, hk⟩ := h
  have hd : divNearest n (1 * step n) = k := by
    rw [Nat.one_mul]
    exact divNearest_eq_of_mul (step_pos n) hk
  simp only [round, Nat.div_one, hd]
  exact hk.symm

/-! ## Reading decimals -/

/-- The least number of units that is too large for the format. -/
def tooLarge : Nat := unit * Nat.pow 2 1024

/-- The units of a natural number. -/
def unitsOfNat (n : Nat) : Nat := round (n * unit) 1

/-- The units of `significand * 10 ^ exponent`, computed in two steps: the significand and the
power of ten are rounded first, and then their product or quotient. A power of ten beyond the
format divides in portions of `10 ^ 308`. `none` if the number is too large. -/
def unitsOfDecimal? (significand : Nat) (exponent : Int) : Option Nat :=
  let f := unitsOfNat significand
  if 0 ≤ exponent then
    if f = 0 then some 0
    else if 308 < exponent then none
    else
      let product := round (f * unitsOfNat (Nat.pow 10 exponent.toNat)) unit
      if product < tooLarge then some product else none
  else some (shrink f (-exponent).toNat)
where
  /-- `f / 10 ^ e`, rounded at each portion. -/
  shrink (f e : Nat) : Nat :=
    if e ≤ 308 then round (f * unit) (unitsOfNat (Nat.pow 10 e))
    else if f = 0 then 0
    else shrink (round (f * unit) (unitsOfNat (Nat.pow 10 308))) (e - 308)
  termination_by e

/-- The number nearest to an integer. -/
def ofInt (n : Int) : Binary64 := ⟨n < 0, unitsOfNat n.natAbs⟩

/-! ## Whole numbers -/

/-- The natural number that a number is, if it is one; minus zero is zero. -/
def toNat? (x : Binary64) : Option Nat :=
  if x.units % unit = 0 ∧ (x.negative = false ∨ x.units = 0) then some (x.units / unit) else none

/-- Whether a number has no fraction. -/
def isWhole (x : Binary64) : Bool := x.units % unit = 0

/-- Whether a number lies between zero and `n`. Minus zero does. -/
def isUpTo (n : Nat) (x : Binary64) : Bool := (!x.negative || x.units = 0) && x.units ≤ n * unit

/-- The whole part in 64 bits. Of a number outside their range it is the nearest end. -/
def toUInt64 (x : Binary64) : UInt64 :=
  if x.negative then 0 else .ofNat (min (x.units / unit) (UInt64.size - 1))

end Binary64

end DocRoutes
