import DocRoutes.Keyed
import DocRoutes.Number.Binary64

/-!
# JSON values

A number is an integer of at most 64 bits or a finite binary64 number; the two kinds stay apart,
so `1` and `1.0` are different values. The members of an object are a list. Values that come from
a text or from `Json.object` have their members in key order, one for each key; a value that is
only to be printed may have them in any order.
-/

namespace DocRoutes

inductive Json where
  | null
  | bool (b : Bool)
  | int (n : Int)
  | float (x : Binary64)
  | str (s : String)
  | arr (items : List Json)
  | obj (fields : List (String × Json))
  deriving Inhabited, Repr, BEq

namespace Json

/-- An object with its members in key order; of members with one key the last wins. -/
def object (fields : List (String × Json)) : Json := .obj (Keyed.insertAll [] fields)

/-- The member of an object under a key. -/
def get? (key : String) : Json → Option Json
  | .obj fields => Keyed.get? key fields
  | _ => none

def string? : Json → Option String
  | .str s => some s
  | _ => none

def bool? : Json → Option Bool
  | .bool b => some b
  | _ => none

/-- The natural number that a value is: an integer, or a float without a fraction. -/
def nat? : Json → Option Nat
  | .int n => if 0 ≤ n then some n.toNat else none
  | .float x => x.toNat?
  | _ => none

/-- The integer that a value is, if 64 bits hold it without a sign. -/
def uint64? : Json → Option UInt64
  | .int n => if 0 ≤ n ∧ n < UInt64.size then some (.ofNat n.toNat) else none
  | _ => none

/-- The number that a value is, as a float; an integer is rounded. -/
def float? : Json → Option Binary64
  | .int n => some (.ofInt n)
  | .float x => some x
  | _ => none

def ofOption {α : Type} (f : α → Json) : Option α → Json
  | none => .null
  | some a => f a

def ofNat (n : Nat) : Json := .int n

@[simp] theorem nat?_ofNat (n : Nat) : (ofNat n).nat? = some n := by simp [ofNat, nat?]

end Json

end DocRoutes
