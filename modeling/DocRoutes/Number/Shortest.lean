import DocRoutes.Number.Binary64

/-!
# The shortest decimal of a binary64 number

A binary64 number is written with the fewest digits that read back as the same number, and among
decimals of that length with the nearest one. The decimals that read back are those in the
interval of the number, which reaches half a step of the grid to either side and holds its ends if
the significand is even. The search looks at decimal grids from coarse to fine; if a point of a
grid lies in the interval, then so does one of the number's two neighbours on that grid.

A number is written positionally while its decimal exponent is at least -5 and below 16, always
with a fraction (`1.0`), and otherwise with one digit before the point and a signed exponent
(`1.25e+16`).
-/

namespace DocRoutes.Binary64

/-! ## Digits -/

/-- A decimal `digits * 10 ^ exponent`. -/
structure Decimal where
  digits : Nat
  exponent : Int
  deriving DecidableEq, Repr

/-- The interval of a number, in quarters of a unit. Below a power of two the grid is finer, so
the lower half-step is half as long there. -/
def lowerEnd (units : Nat) : Nat :=
  if units = Nat.pow 2 52 * step units ∧ 1 < step units then 4 * units - step units
  else 4 * units - 2 * step units

def upperEnd (units : Nat) : Nat := 4 * units + 2 * step units

def significandIsEven (units : Nat) : Bool := units / step units % 2 == 0

/-- The nearer of the number's two neighbours on the grid of multiples of `10 ^ k`, of those that
lie in the interval. -/
def onGrid? (units : Nat) (k : Int) : Option Nat :=
  let scale := Nat.pow 10 (-k).toNat
  let width := 4 * unit * Nat.pow 10 k.toNat
  let value := 4 * units * scale
  let low := lowerEnd units * scale
  let high := upperEnd units * scale
  let inside (c : Nat) : Bool :=
    let x := c * width
    if significandIsEven units then low ≤ x && x ≤ high else low < x && x < high
  let c := value / width
  let below := value - c * width
  let above := (c + 1) * width - value
  match inside c, inside (c + 1) with
  | false, false => none
  | true, false => some c
  | false, true => some (c + 1)
  | true, true =>
    if below < above ∨ (below = above ∧ c % 2 = 0) then some c else some (c + 1)

/-- The first grid with a hit, of `n` grids from `10 ^ k` on downwards. -/
def searchGrids (units : Nat) (k : Int) : Nat → Decimal
  | 0 => ⟨(onGrid? units k).getD 0, k⟩
  | n + 1 =>
    match onGrid? units k with
    | some c => ⟨c, k⟩
    | none => searchGrids units (k - 1) n

/-- The shortest decimal of a positive number. The search starts one grid above the number's
leading digit, and seventeen digits always suffice. -/
def shortest (units : Nat) : Decimal :=
  let k := ((units.log2 : Int) - 1073) * 30103 / 100000 + 1
  searchGrids units k 20

/-! ## Text -/

/-- The text of a decimal. -/
def Decimal.text (d : Decimal) : String :=
  let ds := (Nat.repr d.digits).toList
  let n : Int := ds.length
  let e := n - 1 + d.exponent
  if -5 ≤ e ∧ e < 16 then
    if 0 ≤ d.exponent then
      .ofList (ds ++ List.replicate d.exponent.toNat '0' ++ ['.', '0'])
    else if 0 ≤ e then
      .ofList (ds.take (e + 1).toNat ++ ['.'] ++ ds.drop (e + 1).toNat)
    else
      .ofList (['0', '.'] ++ List.replicate (-e - 1).toNat '0' ++ ds)
  else
    let fraction := match ds.drop 1 with
      | [] => []
      | rest => '.' :: rest
    let sign := if 0 ≤ e then '+' else '-'
    .ofList (ds.take 1 ++ fraction ++ ['e', sign] ++ (Nat.repr e.natAbs).toList)

def text (x : Binary64) : String :=
  let magnitude := if x.units = 0 then "0.0" else (shortest x.units).text
  if x.negative then "-" ++ magnitude else magnitude

end DocRoutes.Binary64
