import DocRoutes.Text.Blank
import DocRoutes.Text.Width

/-!
# Tables in text

A table has a header and rows below it, drawn with round corners, a line under the header, and one
space on each side of a cell. A column is as wide as its widest cell. The header is centred, where
an odd space goes to the right, and all other cells begin at the left. A line feed in a cell begins
another line of it.
-/

namespace DocRoutes

open Text

/-- The lines of a cell. -/
abbrev Cell := List (List Char)

namespace Cell

def ofString (s : String) : Cell := splitAt '\n' s.toList

def width (c : Cell) : Nat := (c.map Text.width).foldl max 0

end Cell

inductive Alignment where
  | left
  | centre
  deriving DecidableEq, Repr

/-- Spaces around a line that make it as wide as its column. -/
def Alignment.pad (a : Alignment) (columns : Nat) (line : List Char) : List Char :=
  let room := columns - Text.width line
  let before := match a with
    | .left => 0
    | .centre => room / 2
  List.replicate before ' ' ++ line ++ List.replicate (room - before) ' '

theorem Alignment.width_pad (a : Alignment) {columns : Nat} {line : List Char}
    (h : Text.width line ≤ columns) : Text.width (a.pad columns line) = columns := by
  cases a <;> simp [pad, width_replicate_space] <;> omega

structure Table where
  header : List String
  rows : List (List String)

namespace Table

/-- The widths of the columns, one for each cell of the header. -/
def widths (t : Table) : List Nat :=
  let cellWidths (row : List String) : List Nat := row.map fun s => (Cell.ofString s).width
  t.rows.foldl (fun ws row => List.zipWith max ws (cellWidths row)) (cellWidths t.header)

/-- A rule between or around rows: its ends, and its crossings with the columns. -/
def rule (first crossing last : Char) (widths : List Nat) : List Char :=
  let spans := widths.map fun w => List.replicate (w + 2) '─'
  first :: join [crossing] spans ++ [last]

/-- A row, which has as many lines as its highest cell. -/
def row (a : Alignment) (widths : List Nat) (cells : List String) : List (List Char) :=
  let cells := cells.map Cell.ofString
  let height := (cells.map List.length).foldl max 0
  (List.range height).map fun i =>
    let texts := List.zipWith (fun w (c : Cell) => ' ' :: a.pad w (c.getD i []) ++ [' ']) widths cells
    '│' :: join ['│'] texts ++ ['│']

def lines (t : Table) : List (List Char) :=
  let ws := t.widths
  [rule '╭' '┬' '╮' ws] ++ row .centre ws t.header ++ [rule '├' '┼' '┤' ws] ++
    t.rows.flatMap (row .left ws) ++ [rule '╰' '┴' '╯' ws]

def render (t : Table) : String := .ofList (join ['\n'] t.lines)

end Table

end DocRoutes
