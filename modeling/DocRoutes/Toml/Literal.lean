import DocRoutes.Text.Hex
import DocRoutes.Text.Reader

/-!
# TOML literals

Which words are truth values, integers, floats, dates and times. Digits may have single underscores
between them. Integers fit 64 bits with a sign, a float must not be too large for binary64, and a
date must be in the calendar.
-/

namespace DocRoutes.Toml

open Text

/-! ## Digits -/

/-- Digits with single underscores between them, read as digits alone. -/
def plainDigits? (isDigit : Char → Bool) : List Char → Option (List Char)
  | [] => none
  | [c] => if isDigit c then some [c] else none
  | c :: '_' :: rest => if isDigit c then (plainDigits? isDigit rest).map (c :: ·) else none
  | c :: rest => if isDigit c then (plainDigits? isDigit rest).map (c :: ·) else none

def numberInBase (base : Nat) (digits : List Char) : Nat :=
  digits.foldl (fun n c => base * n + (hexValue? c).getD 0) 0

def cutSign : List Char → Bool × List Char
  | '-' :: rest => (true, rest)
  | '+' :: rest => (false, rest)
  | rest => (false, rest)

/-- Decimal digits without a superfluous zero in front. -/
def wholeDigits? (s : List Char) : Option (List Char) :=
  match plainDigits? Char.isDigit s with
  | some ['0'] => some ['0']
  | some ('0' :: _) => none
  | digits => digits

/-! ## Numbers -/

def isBinaryDigit (c : Char) : Bool := c = '0' || c = '1'

def isOctalDigit (c : Char) : Bool := '0' ≤ c && c ≤ '7'

def isHexDigit (c : Char) : Bool := (hexValue? c).isSome

/-- An integer that is written in digits of another base than ten has no sign. -/
def isIntegerInBase (base : Nat) (isDigit : Char → Bool) (s : List Char) : Bool :=
  match plainDigits? isDigit s with
  | some digits => numberInBase base digits < Nat.pow 2 63
  | none => false

def isInteger (s : List Char) : Bool :=
  match s with
  | '0' :: 'x' :: digits => isIntegerInBase 16 isHexDigit digits
  | '0' :: 'o' :: digits => isIntegerInBase 8 isOctalDigit digits
  | '0' :: 'b' :: digits => isIntegerInBase 2 isBinaryDigit digits
  | s =>
    let (negative, digits) := cutSign s
    match wholeDigits? digits with
    | some digits =>
      let n := numberInBase 10 digits
      if negative then n ≤ Nat.pow 2 63 else n < Nat.pow 2 63
    | none => false

/-- A number as a float spells it: `digits` stand for a whole number, which the power of ten
shifts. -/
structure Decimal where
  negative : Bool
  digits : List Char
  exponent : Int

/-- The least number that binary64 rounds to infinity. -/
def infinityBound : Nat := Nat.pow 2 1024 - Nat.pow 2 970

/-- Whether the number without its sign is too large for binary64. The number of digits before the
point decides unless it is near the bound. -/
def Decimal.isTooLarge (d : Decimal) : Bool :=
  let n := numberInBase 10 d.digits
  let places := (d.digits.dropWhile (· = '0')).length + d.exponent
  if n = 0 ∨ places < 308 then false
  else if 310 < places then true
  else if 0 ≤ d.exponent then infinityBound ≤ n * Nat.pow 10 d.exponent.toNat
  else infinityBound * Nat.pow 10 (-d.exponent).toNat ≤ n

/-- What follows the mark of an exponent. -/
def exponent? (s : List Char) : Option Int :=
  let (negative, digits) := cutSign s
  (plainDigits? Char.isDigit digits).map fun digits =>
    let n : Int := numberInBase 10 digits
    if negative then -n else n

def cutExponent (s : List Char) : List Char × Option (List Char) :=
  let isMark := fun c => c = 'e' || c = 'E'
  match s.dropWhile (!isMark ·) with
  | [] => (s, none)
  | _ :: rest => (s.takeWhile (!isMark ·), some rest)

def cutPoint (s : List Char) : List Char × Option (List Char) :=
  match s.dropWhile (· != '.') with
  | [] => (s, none)
  | _ :: rest => (s.takeWhile (· != '.'), some rest)

/-- A float has a point, an exponent or both. -/
def decimal? (s : List Char) : Option Decimal := do
  let (negative, s) := cutSign s
  let (mantissa, exponent) := cutExponent s
  let (whole, fraction) := cutPoint mantissa
  if exponent.isNone ∧ fraction.isNone then none
  else
    let whole ← wholeDigits? whole
    let fraction ← match fraction with
      | some digits => plainDigits? Char.isDigit digits
      | none => some []
    let exponent ← match exponent with
      | some s => exponent? s
      | none => some 0
    return ⟨negative, whole ++ fraction, exponent - fraction.length⟩

/-- A negative float that is too large counts as minus infinity. -/
def isFloat (s : List Char) : Bool :=
  let (_, magnitude) := cutSign s
  if magnitude = "inf".toList ∨ magnitude = "nan".toList then true
  else match decimal? s with
    | some d => d.negative || !d.isTooLarge
    | none => false

/-! ## Dates and times -/

/-- A number of exactly `n` decimal digits. -/
def fixedDigits (n : Nat) : Reader Nat := fun s =>
  let digits := s.take n
  if digits.length = n ∧ digits.all Char.isDigit then
    some (numberInBase 10 digits, s.drop n)
  else none

def mark (c : Char) : Reader Unit
  | d :: rest => if d = c then some ((), rest) else none
  | [] => none

def isLeapYear (year : Nat) : Bool := year % 4 = 0 && (year % 100 ≠ 0 || year % 400 = 0)

def daysInMonth (year month : Nat) : Nat :=
  if month = 2 then if isLeapYear year then 29 else 28
  else if month = 4 ∨ month = 6 ∨ month = 9 ∨ month = 11 then 30
  else 31

def date : Reader Unit := fun s => do
  let (year, s) ← fixedDigits 4 s
  let (_, s) ← mark '-' s
  let (month, s) ← fixedDigits 2 s
  let (_, s) ← mark '-' s
  let (day, s) ← fixedDigits 2 s
  if 1 ≤ month ∧ month ≤ 12 ∧ 1 ≤ day ∧ day ≤ daysInMonth year month then some ((), s) else none

def hourAndMinute : Reader Unit := fun s => do
  let (hour, s) ← fixedDigits 2 s
  let (_, s) ← mark ':' s
  let (minute, s) ← fixedDigits 2 s
  if hour ≤ 23 ∧ minute ≤ 59 then some ((), s) else none

/-- A point and at least one digit, or nothing. -/
def secondFraction : Reader Unit
  | '.' :: s =>
    match s.takeWhile Char.isDigit with
    | [] => none
    | _ => some ((), s.dropWhile Char.isDigit)
  | s => some ((), s)

/-- The second 60 is a leap second. -/
def timeOfDay : Reader Unit := fun s => do
  let (_, s) ← hourAndMinute s
  let (_, s) ← mark ':' s
  let (second, s) ← fixedDigits 2 s
  if second ≤ 60 then secondFraction s else none

def isOffset (s : List Char) : Bool :=
  match s with
  | [] => true
  | c :: rest =>
    if c = 'Z' ∨ c = 'z' then rest.isEmpty
    else if c = '+' ∨ c = '-' then hourAndMinute rest == some ((), [])
    else false

/-- A time with or without an offset. -/
def isTimeWithOffset (s : List Char) : Bool :=
  match timeOfDay s with
  | some (_, rest) => isOffset rest
  | none => false

def isTime (s : List Char) : Bool := timeOfDay s == some ((), [])

def isDate (s : List Char) : Bool := date s == some ((), [])

/-- A date, alone or with a time after it. -/
def isDateTime (s : List Char) : Bool :=
  match date s with
  | some (_, []) => true
  | some (_, c :: rest) => (c = 'T' || c = 't') && isTimeWithOffset rest
  | none => false

/-! ## Words -/

def isLiteralWord (s : List Char) : Bool :=
  s = "true".toList || s = "false".toList || isInteger s || isFloat s || isDateTime s || isTime s

def isLiteralChar (c : Char) : Bool := c.isAlphanum || "+-._:".toList.contains c

def takeLiteral (s : List Char) : List Char := s.takeWhile isLiteralChar

def dropLiteral (s : List Char) : List Char := s.dropWhile isLiteralChar

/-- A literal is one word, or a date and a time with a space between them. -/
def literal : Reader (List Char) := fun s =>
  let first := takeLiteral s
  let rest := dropLiteral s
  if isDate first ∧ rest.head? = some ' ' ∧ isTimeWithOffset (takeLiteral rest.tail) then
    some (first ++ ' ' :: takeLiteral rest.tail, dropLiteral rest.tail)
  else if isLiteralWord first then some (first, rest)
  else none

end DocRoutes.Toml
