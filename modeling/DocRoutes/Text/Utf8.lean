/-!
# UTF-8

Decoding runs a small machine over the bytes: a lead byte says how many bytes follow and which
range the first of them must lie in. The result is a list of units, `some c` for a character and
`none` for an ill-formed piece, where a piece is as long as some well-formed sequence could still
have continued it. Strict decoding refuses any ill-formed piece; lenient decoding puts U+FFFD in
its place.
-/

namespace DocRoutes.Text

abbrev Bytes := List UInt8

def utf8Bytes (s : String) : Bytes := s.toList.flatMap String.utf8EncodeChar

/-- A character that is not yet complete: its bits so far, the number of bytes still to come, and
the range of the next one. -/
structure PartialChar where
  bits : Nat
  missing : Nat
  low : Nat := 0x80
  high : Nat := 0xBF
  deriving DecidableEq

/-- What a lead byte promises; `none` for a byte that begins no character. -/
def lead? (b : UInt8) : Option PartialChar :=
  let n := b.toNat
  if n < 0x80 then some ⟨n, 0, 0x80, 0xBF⟩
  else if n < 0xC2 then none
  else if n < 0xE0 then some ⟨n - 0xC0, 1, 0x80, 0xBF⟩
  else if n = 0xE0 then some ⟨0, 2, 0xA0, 0xBF⟩
  else if n = 0xED then some ⟨0xD, 2, 0x80, 0x9F⟩
  else if n < 0xF0 then some ⟨n - 0xE0, 2, 0x80, 0xBF⟩
  else if n = 0xF0 then some ⟨0, 3, 0x90, 0xBF⟩
  else if n < 0xF4 then some ⟨n - 0xF0, 3, 0x80, 0xBF⟩
  else if n = 0xF4 then some ⟨4, 3, 0x80, 0x8F⟩
  else none

/-- One byte between characters. -/
def startChar (b : UInt8) : List (Option Char) × Option PartialChar :=
  match lead? b with
  | none => ([none], none)
  | some p => if p.missing = 0 then ([some (Char.ofNat p.bits)], none) else ([], some p)

/-- One byte: the units that it completes, and the character that it leaves incomplete. -/
def decodeByte (state : Option PartialChar) (b : UInt8) : List (Option Char) × Option PartialChar :=
  match state with
  | none => startChar b
  | some p =>
    if p.low ≤ b.toNat ∧ b.toNat ≤ p.high then
      let bits := 64 * p.bits + (b.toNat - 0x80)
      if p.missing = 1 then ([some (Char.ofNat bits)], none)
      else ([], some ⟨bits, p.missing - 1, 0x80, 0xBF⟩)
    else
      let (units, next) := startChar b
      (none :: units, next)

def decodeFrom (state : Option PartialChar) : Bytes → List (Option Char)
  | [] => if state.isSome then [none] else []
  | b :: r =>
    let (units, next) := decodeByte state b
    units ++ decodeFrom next r

/-- The characters and the ill-formed pieces of a byte sequence, in order. -/
def utf8Units (bytes : Bytes) : List (Option Char) := decodeFrom none bytes

/-- Strict decoding. -/
def utf8Text? (bytes : Bytes) : Option String :=
  ((utf8Units bytes).mapM id).map String.ofList

/-- Lenient decoding: U+FFFD in place of each ill-formed piece. -/
def utf8TextLenient (bytes : Bytes) : String :=
  .ofList ((utf8Units bytes).map (·.getD '\uFFFD'))

example : utf8Text? [0x67, 0xC3, 0xAB, 0x74] = some "gët" := by decide +kernel
example : utf8TextLenient [0x61, 0xE2, 0x82, 0x62, 0xFF] = "a\uFFFDb\uFFFD" := by decide +kernel
example : utf8Text? [0xED, 0xA0, 0x80] = none := by decide +kernel

end DocRoutes.Text
