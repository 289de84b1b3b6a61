import DocRoutes.Toml.Literal
import DocRoutes.Toml.Table

/-!
# Reading TOML

A document is read line by line: a header, an assignment or nothing, then perhaps a comment. An
assignment goes over several lines if its value does. Nesting is limited: a value has at most
`maxDepth` arrays and braced tables inside one another, and a key at most as many parts.
-/

namespace DocRoutes.Toml

open Text

def maxDepth : Nat := 79

/-! ## Blanks and comments -/

def isTomlBlank (c : Char) : Bool := c = ' ' || c = '\t'

def skipBlanks (s : List Char) : List Char := s.dropWhile isTomlBlank

/-- Characters that may stand in comments: no control characters but the tab. -/
def isPlain (c : Char) : Bool := c = '\t' || (0x20 ≤ c.toNat && c.toNat ≠ 0x7F)

/-- What follows a line feed, or a carriage return with a line feed. -/
def afterNewline? : List Char → Option (List Char)
  | '\n' :: rest => some rest
  | '\r' :: '\n' :: rest => some rest
  | _ => none

def skipComment : List Char → List Char
  | '#' :: rest => rest.dropWhile isPlain
  | s => s

/-- Blanks and a comment up to the end of the line or of the document. -/
def afterLine? (s : List Char) : Option (List Char) :=
  match skipComment (skipBlanks s) with
  | [] => some []
  | rest => afterNewline? rest

/-- Blanks, newlines and comments that a newline ends, of at most `n` lines. -/
def skipLines : Nat → List Char → List Char
  | 0, s => s
  | n + 1, s =>
    let s := skipBlanks s
    match afterNewline? (skipComment s) with
    | some rest => skipLines n rest
    | none => s

def skipAllLines (s : List Char) : List Char := skipLines s.length s

/-! ## Strings -/

/-- The character that so many hexadecimal digits stand for. -/
def codePoint (digits : Nat) : Reader Char := fun s => do
  if s.length < digits then none
  else
    let n ← hexNumber? (s.take digits)
    if n.isValidChar then some (Char.ofNat n, s.drop digits) else none

/-- What follows a backslash. -/
def escaped : Reader Char
  | [] => none
  | c :: rest =>
    if c = '"' ∨ c = '\\' then some (c, rest)
    else if c = 'b' then some ('\x08', rest)
    else if c = 'f' then some ('\x0c', rest)
    else if c = 'n' then some ('\n', rest)
    else if c = 'r' then some ('\r', rest)
    else if c = 't' then some ('\t', rest)
    else if c = 'u' then codePoint 4 rest
    else if c = 'U' then codePoint 8 rest
    else none

/-- The two kinds of strings. -/
inductive Quotation where
  /-- Double quotes; a backslash begins an escape. -/
  | basic
  /-- Single quotes, with nothing escaped. -/
  | verbatim
  deriving DecidableEq

def Quotation.mark : Quotation → Char
  | .basic => '"'
  | .verbatim => '\''

/-- A string within one line, after its first quote; at most `n` characters. -/
def lineBody (q : Quotation) : Nat → Reader (List Char)
  | 0, _ => none
  | _ + 1, [] => none
  | n + 1, c :: s =>
    if c = q.mark then some ([], s)
    else if c = '\\' ∧ q = .basic then do
      let (c, s) ← escaped s
      let (cs, s) ← lineBody q n s
      return (c :: cs, s)
    else if isPlain c then do
      let (cs, s) ← lineBody q n s
      return (c :: cs, s)
    else none

/-- What a backslash at the end of a line hides: the newline, and all blanks and newlines up to the
next character. -/
def afterHiddenNewline? (s : List Char) : Option (List Char) :=
  (afterNewline? (skipBlanks s)).map fun rest => skip rest.length rest
where
  skip : Nat → List Char → List Char
    | 0, s => s
    | n + 1, s =>
      match afterNewline? (skipBlanks s) with
      | some rest => skip n rest
      | none => skipBlanks s

/-- A string over several lines, after its three quotes; at most `n` characters. Up to two quotes
stand for themselves, before the closing three as well. -/
def linesBody (q : Quotation) : Nat → Reader (List Char)
  | 0, _ => none
  | n + 1, s =>
    let quotes := (s.takeWhile (· = q.mark)).length
    if 3 ≤ quotes then
      let own := min (quotes - 3) 2
      some (s.take own, s.drop (own + 3))
    else match s with
      | [] => none
      | c :: rest =>
        match afterNewline? (c :: rest) with
        | some rest => do
          let (cs, s) ← linesBody q n rest
          return ('\n' :: cs, s)
        | none =>
          if c = '\\' ∧ q = .basic then
            match afterHiddenNewline? rest with
            | some rest => linesBody q n rest
            | none => do
              let (c, s) ← escaped rest
              let (cs, s) ← linesBody q n s
              return (c :: cs, s)
          else if isPlain c then do
            let (cs, s) ← linesBody q n rest
            return (c :: cs, s)
          else none

def quotationOf? (c : Char) : Option Quotation :=
  if c = '"' then some .basic else if c = '\'' then some .verbatim else none

/-- A string within one line. -/
def lineString : Reader String
  | [] => none
  | c :: s => do
    let q ← quotationOf? c
    let (cs, s) ← lineBody q (s.length + 1) s
    return (.ofList cs, s)

/-- A string of any kind. A newline directly after three quotes does not count. -/
def string : Reader String
  | a :: b :: c :: s =>
    if a = b ∧ b = c then do
      let q ← quotationOf? a
      let s := (afterNewline? s).getD s
      let (cs, s) ← linesBody q (s.length + 1) s
      return (.ofList cs, s)
    else lineString (a :: b :: c :: s)
  | s => lineString s

/-! ## Keys -/

def isBareKeyChar (c : Char) : Bool := c.isAlphanum || c = '_' || c = '-'

/-- One part of a key. -/
def keyPart : Reader String := fun s =>
  match s.takeWhile isBareKeyChar with
  | [] => lineString s
  | name => some (.ofList name, s.dropWhile isBareKeyChar)

/-- Parts with dots between them, and blanks around each; at most `n` parts. -/
def keyParts : Nat → Reader (List String)
  | 0, _ => none
  | n + 1, s => do
    let (part, s) ← keyPart (skipBlanks s)
    match skipBlanks s with
    | '.' :: s =>
      let (parts, s) ← keyParts n s
      return (part :: parts, s)
    | s => return ([part], s)

def key : Reader Key := fun s => do
  let (parts, s) ← keyParts maxDepth s
  match parts.getLast? with
  | some last => some (⟨parts.dropLast, last⟩, s)
  | none => none

/-! ## Values -/

/-- A key and its value. -/
def assignment (value : Reader Value) : Reader (Key × Value) := fun s => do
  let (k, s) ← key s
  match s with
  | '=' :: s =>
    let (v, s) ← value (skipBlanks s)
    return ((k, v), s)
  | _ => none

/-- At most `n` items up to the closing bracket, over any number of lines; a comma may stand after
the last one. -/
def arrayItems (value : Reader Value) : Nat → Reader (List Value)
  | 0, _ => none
  | n + 1, s =>
    match skipAllLines s with
    | ']' :: s => some ([], s)
    | s => do
      let (v, s) ← value s
      match skipAllLines s with
      | ']' :: s => return ([v], s)
      | ',' :: s =>
        let (vs, s) ← arrayItems value n s
        return (v :: vs, s)
      | _ => none

/-- At most `n` assignments with commas between them, up to the closing brace. -/
def bracedItems (value : Reader Value) : Nat → Reader (List (Key × Value))
  | 0, _ => none
  | n + 1, s => do
    let (item, s) ← assignment value s
    match skipBlanks s with
    | '\x7d' :: s => return ([item], s)
    | ',' :: s =>
      let (items, s) ← bracedItems value n s
      return (item :: items, s)
    | _ => none

/-- What stands in braces, after the opening one. -/
def braced (value : Reader Value) : Reader (List (Key × Value)) := fun s =>
  match skipBlanks s with
  | '\x7d' :: s => some ([], s)
  | s => bracedItems value (s.length + 1) s

/-- The table that assignments in braces make. -/
def bracedTable (items : List (Key × Value)) : Option Value :=
  let set (entries : Entries) (item : Key × Value) : Option Entries :=
    setPath entries item.1.path item.1.last item.2
  (items.foldlM set []).map (.table .braced)

/-- A value with at most `depth` arrays and braced tables inside one another. -/
def value : Nat → Reader Value
  | _, [] => none
  | depth, c :: s =>
    if c = '"' ∨ c = '\'' then (string (c :: s)).map fun (t, rest) => (.string t, rest)
    else if c = '[' ∨ c = '\x7b' then
      match depth with
      | 0 => none
      | depth + 1 =>
        if c = '[' then
          (arrayItems (value depth) (s.length + 1) s).map fun (vs, rest) => (.array vs, rest)
        else do
          let (items, rest) ← braced (value depth) s
          return (← bracedTable items, rest)
    else (literal (c :: s)).map fun (t, rest) => (.literal (.ofList t), rest)

/-! ## Documents -/

/-- A header, after its opening brackets: a key and the closing brackets. -/
def header (kind : HeaderKind) : Reader Line := fun s => do
  let (k, s) ← key s
  let line := Line.header kind (k.path ++ [k.last])
  match kind, s with
  | .single, ']' :: s => some (line, s)
  | .element, ']' :: ']' :: s => some (line, s)
  | _, _ => none

/-- The content of a line. -/
def lineContent : Reader Line := fun s =>
  match skipBlanks s with
  | '[' :: '[' :: s => header .element s
  | '[' :: s => header .single s
  | s =>
    match s with
    | [] => some (.blank, s)
    | c :: _ =>
      if c = '#' ∨ c = '\n' ∨ c = '\r' then some (.blank, s)
      else (assignment (value maxDepth) s).map fun ((k, v), s) => (.assignment k v, s)

/-- At most `n` lines. -/
def lines : Nat → List Char → Option (List Line)
  | _, [] => some []
  | 0, _ => none
  | n + 1, s => do
    let (line, s) ← lineContent s
    let s ← afterLine? s
    return line :: (← lines n s)

/-- A byte order mark in front of a document does not count. -/
def skipMark : List Char → List Char
  | '\uFEFF' :: s => s
  | s => s

/-- The table of a document. -/
def read? (text : String) : Option Entries := do
  let s := skipMark text.toList
  let d ← Document.ofLines (← lines s.length s)
  return d.root

end DocRoutes.Toml
