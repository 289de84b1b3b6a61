import DocRoutes.Json.Basic
import DocRoutes.Text.Hex
import DocRoutes.Text.Reader
import DocRoutes.Text.Utf8

/-!
# Reading JSON

`read?` wants one value with blanks around it and nothing else. Nesting is limited: a value with
more than `maxDepth` arrays and objects inside one another is refused.

Numbers without fraction and exponent that fit 64 bits are integers, and all others are floats;
minus zero is a float. The digits of a float are gathered as long as their number fits 64 bits.
Further digits before the point count as powers of ten, further digits after it are dropped.
-/

namespace DocRoutes.Json

open Text (Reader)

def maxDepth : Nat := 127

/-! ## Blanks and words -/

def isJsonBlank (c : Char) : Bool := c = ' ' || c = '\t' || c = '\n' || c = '\r'

def skipBlanks (s : List Char) : List Char := s.dropWhile isJsonBlank

/-- One given word. -/
def word (w : List Char) (v : Json) : Reader Json := fun s =>
  if w.isPrefixOf s then some (v, s.drop w.length) else none

/-! ## Strings -/

/-- The code unit that four hexadecimal digits stand for. -/
def codeUnit : Reader Nat
  | a :: b :: c :: d :: rest => (Text.hexNumber? [a, b, c, d]).map (·, rest)
  | _ => none

/-- The character behind `\u`: one code unit, or a pair of surrogates. -/
def unicodeEscape : Reader Char := fun s => do
  let (high, s) ← codeUnit s
  if 0xD800 ≤ high ∧ high < 0xDC00 then
    match s with
    | '\\' :: 'u' :: s =>
      let (low, s) ← codeUnit s
      if 0xDC00 ≤ low ∧ low < 0xE000 then
        some (Char.ofNat (0x10000 + (high - 0xD800) * 0x400 + (low - 0xDC00)), s)
      else none
    | _ => none
  else if 0xDC00 ≤ high ∧ high < 0xE000 then none
  else some (Char.ofNat high, s)

def simpleEscape? (c : Char) : Option Char :=
  if c = '"' ∨ c = '\\' ∨ c = '/' then some c
  else if c = 'b' then some '\x08'
  else if c = 'f' then some '\x0c'
  else if c = 'n' then some '\n'
  else if c = 'r' then some '\r'
  else if c = 't' then some '\t'
  else none

/-- The characters of a string up to the closing quote, of at most `n` characters. -/
def stringBody : Nat → Reader (List Char)
  | 0, _ => none
  | _ + 1, [] => none
  | n + 1, '\\' :: 'u' :: s => do
    let (c, s) ← unicodeEscape s
    let (cs, s) ← stringBody n s
    return (c :: cs, s)
  | n + 1, '\\' :: e :: s => do
    let c ← simpleEscape? e
    let (cs, s) ← stringBody n s
    return (c :: cs, s)
  | n + 1, c :: s =>
    if c = '"' then some ([], s)
    else if c = '\\' ∨ c.toNat < 0x20 then none
    else do
      let (cs, s) ← stringBody n s
      return (c :: cs, s)

def string : Reader String
  | '"' :: s => (stringBody s.length s).map fun (cs, rest) => (.ofList cs, rest)
  | _ => none

/-! ## Numbers -/

def digitValue (c : Char) : Nat := c.toNat - '0'.toNat

/-- At least one digit. -/
def digits : Reader (List Nat) := fun s =>
  match s.takeWhile Char.isDigit with
  | [] => none
  | ds => some (ds.map digitValue, s.dropWhile Char.isDigit)

/-- A number as it is written. -/
structure Literal where
  negative : Bool
  whole : List Nat
  fraction : Option (List Nat)
  exponent : Option Int

/-- Digits before the point: a zero alone, or digits that do not begin with zero. -/
def wholeDigits : Reader (List Nat) := fun s => do
  let (ds, rest) ← digits s
  if 1 < ds.length ∧ ds.head? = some 0 then none else some (ds, rest)

def fractionDigits : Reader (Option (List Nat))
  | '.' :: s => (digits s).map fun (ds, rest) => (some ds, rest)
  | s => some (none, s)

def numberOfDigits (ds : List Nat) : Nat := ds.foldl (fun n d => 10 * n + d) 0

def exponentPart : Reader (Option Int)
  | c :: s =>
    if c = 'e' ∨ c = 'E' then
      let (negative, s) := match s with
        | '-' :: s => (true, s)
        | '+' :: s => (false, s)
        | s => (false, s)
      (digits s).map fun (ds, rest) =>
        let n : Int := numberOfDigits ds
        (some (if negative then -n else n), rest)
    else some (none, c :: s)
  | [] => some (none, [])

def literal : Reader Literal := fun s => do
  let (negative, s) := match s with
    | '-' :: s => (true, s)
    | s => (false, s)
  let (whole, s) ← wholeDigits s
  let (fraction, s) ← fractionDigits s
  let (exponent, s) ← exponentPart s
  return (⟨negative, whole, fraction, exponent⟩, s)

/-- Take digits into a significand while it stays below `2 ^ 64`; the number of digits taken comes
with it. -/
def gather (significand : Nat) : List Nat → Nat × Nat
  | [] => (significand, 0)
  | d :: ds =>
    if 10 * significand + d < Nat.pow 2 64 then
      let (m, n) := gather (10 * significand + d) ds
      (m, n + 1)
    else (significand, 0)

/-- The number that a literal stands for; `none` if it is too large. -/
def Literal.value? (l : Literal) : Option Json :=
  let n := numberOfDigits l.whole
  let inRange := if l.negative then 0 < n ∧ n ≤ Nat.pow 2 63 else n < Nat.pow 2 64
  if l.fraction = none ∧ l.exponent = none ∧ inRange then
    some (.int (if l.negative then -n else n))
  else
    let (m, taken) := gather 0 l.whole
    let (m, places) := gather m (l.fraction.getD [])
    let exponent : Int := (l.whole.length - taken : Nat) - (places : Int) + l.exponent.getD 0
    (Binary64.unitsOfDecimal? m exponent).map fun units => .float ⟨l.negative, units⟩

def number : Reader Json := fun s => do
  let (l, s) ← literal s
  return (← l.value?, s)

/-! ## Arrays and objects -/

/-- At most `n` items with commas between them, up to the closing bracket. -/
def items {α : Type} (close : Char) (item : Reader α) : Nat → Reader (List α)
  | 0, _ => none
  | n + 1, s => do
    let (x, s) ← item (skipBlanks s)
    match skipBlanks s with
    | [] => none
    | c :: s =>
      if c = ',' then
        let (xs, s) ← items close item n s
        return (x :: xs, s)
      else if c = close then some ([x], s)
      else none

/-- What stands between brackets, after the opening one. -/
def bracketed {α : Type} (close : Char) (item : Reader α) : Reader (List α) := fun s =>
  match skipBlanks s with
  | [] => none
  | c :: rest => if c = close then some ([], rest) else items close item s.length s

def member (value : Reader Json) : Reader (String × Json) := fun s => do
  let (key, s) ← string s
  match skipBlanks s with
  | ':' :: s =>
    let (v, s) ← value (skipBlanks s)
    return ((key, v), s)
  | _ => none

/-- A value with at most `depth` arrays and objects inside one another. -/
def value : Nat → Reader Json
  | _, [] => none
  | depth, c :: s =>
    if c = '"' then (string (c :: s)).map fun (t, rest) => (.str t, rest)
    else if c = 'n' then word ['n', 'u', 'l', 'l'] .null (c :: s)
    else if c = 't' then word ['t', 'r', 'u', 'e'] (.bool true) (c :: s)
    else if c = 'f' then word ['f', 'a', 'l', 's', 'e'] (.bool false) (c :: s)
    else if c = '-' ∨ c.isDigit then number (c :: s)
    else match depth with
      | 0 => none
      | depth + 1 =>
        if c = '[' then
          (bracketed ']' (value depth) s).map fun (vs, rest) => (.arr vs, rest)
        else if c = '\x7b' then
          (bracketed '\x7d' (member (value depth)) s).map fun (fs, rest) => (object fs, rest)
        else none

/-- One value, with blanks around it. -/
def read? (s : String) : Option Json := do
  let (v, rest) ← value maxDepth (skipBlanks s.toList)
  if (skipBlanks rest).isEmpty then some v else none

/-- One value in UTF-8. -/
def readBytes? (bytes : Text.Bytes) : Option Json := Text.utf8Text? bytes >>= read?

end DocRoutes.Json
