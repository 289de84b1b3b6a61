/-!
# Blanks, words and lines

White space is the Unicode property White_Space, everywhere in the library. Texts are lists of
characters while they are taken apart: trimming cuts blanks at the ends, `firstWord` cuts at the
first blank after the start, and `lines` cuts at line feeds.

Main results: `trim` ends in no blank on either side (`head?_trimStart`, `getLast?_trimEnd`), and a
text without blanks at its ends is its own trimming (`trimStart_eq_self`, `trimEnd_eq_self`).
-/

namespace DocRoutes.Text

/-- The Unicode property White_Space. -/
def isBlank (c : Char) : Bool :=
  let n := c.toNat
  (9 ≤ n && n ≤ 13) || n == 0x20 || n == 0x85 || n == 0xA0 || n == 0x1680 ||
    (0x2000 ≤ n && n ≤ 0x200A) || n == 0x2028 || n == 0x2029 || n == 0x202F || n == 0x205F ||
    n == 0x3000

/-! ## Trimming -/

def trimStart (s : List Char) : List Char := s.dropWhile isBlank

def trimEnd (s : List Char) : List Char := (s.reverse.dropWhile isBlank).reverse

def trim (s : List Char) : List Char := trimEnd (trimStart s)

/-- `trim` on strings. -/
def trimmed (s : String) : String := .ofList (trim s.toList)

theorem head?_trimStart {s : List Char} {c : Char} (h : (trimStart s).head? = some c) :
    isBlank c = false := by
  have := List.head?_dropWhile_not isBlank s
  rw [trimStart] at h
  simpa [h] using this

theorem getLast?_trimEnd {s : List Char} {c : Char} (h : (trimEnd s).getLast? = some c) :
    isBlank c = false := by
  rw [trimEnd, List.getLast?_reverse] at h
  exact head?_trimStart h

theorem trimStart_eq_self {s : List Char} (h : ∀ c, s.head? = some c → isBlank c = false) :
    trimStart s = s := by
  cases s with
  | nil => rfl
  | cons c r => simp [trimStart, h c rfl]

theorem trimEnd_eq_self {s : List Char} (h : ∀ c, s.getLast? = some c → isBlank c = false) :
    trimEnd s = s := by
  have := trimStart_eq_self (s := s.reverse) fun c hc => h c (by simpa using hc)
  rw [trimEnd, ← trimStart, this, List.reverse_reverse]

/-! ## Words -/

/-- The characters up to the next blank. -/
def takeWord (s : List Char) : List Char := s.takeWhile fun c => !isBlank c

def dropWord (s : List Char) : List Char := s.dropWhile fun c => !isBlank c

theorem takeWord_append_dropWord (s : List Char) : takeWord s ++ dropWord s = s :=
  List.takeWhile_append_dropWhile

/-- The first run of characters that are not blank; empty if there is none. -/
def firstWord (s : List Char) : List Char := takeWord (trimStart s)

/-! ## Pieces and lines -/

/-- The pieces between the separators: one more than there are separators. -/
def splitAt (sep : Char) : List Char → List (List Char)
  | [] => [[]]
  | c :: r =>
    if c = sep then [] :: splitAt sep r
    else match splitAt sep r with
      | [] => [[c]]
      | piece :: rest => (c :: piece) :: rest

/-- What follows the first separator, with what precedes it. -/
def cutAt (sep : Char) (s : List Char) : List Char × Option (List Char) :=
  match s.dropWhile (· != sep) with
  | [] => (s.takeWhile (· != sep), none)
  | _ :: r => (s.takeWhile (· != sep), some r)

/-- A line that a line feed ends gives up one carriage return at its end. -/
def dropReturn (line : List Char) : List Char :=
  if line.getLast? = some '\r' then line.dropLast else line

/-- The lines of a text. A line feed ends a line and may follow a carriage return; the last line
needs neither, and there is no empty line after the last line feed. -/
def lines (s : List Char) : List (List Char) :=
  let pieces := splitAt '\n' s
  let ended := pieces.dropLast.map dropReturn
  match pieces.getLast? with
  | none | some [] => ended
  | some last => ended ++ [last]

/-- Texts with `sep` between them. -/
def join (sep : List Char) (texts : List (List Char)) : List Char := (texts.intersperse sep).flatten

/-- Whether `s` begins with `p`; if so, what follows. -/
def afterPrefix? : List Char → List Char → Option (List Char)
  | [], s => some s
  | _ :: _, [] => none
  | p :: ps, c :: r => if p = c then afterPrefix? ps r else none

theorem afterPrefix?_eq_some {p s r : List Char} : afterPrefix? p s = some r ↔ s = p ++ r := by
  induction p generalizing s with
  | nil => simp [afterPrefix?, eq_comm]
  | cons a p ih =>
    cases s with
    | nil => simp [afterPrefix?]
    | cons c s =>
      by_cases h : a = c
      · simp [afterPrefix?, h, ih]
      · simp [afterPrefix?, h, Ne.symm h]

end DocRoutes.Text
