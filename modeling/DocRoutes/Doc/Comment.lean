import DocRoutes.Text.Word
import DocRoutes.Text.Blank

/-!
# Documentation comments

A documentation comment is a run of lines with one marker. `//!` lines document what encloses
them, `///` lines document the item that follows; four slashes are a plain comment. `Block.ofLines`
cuts the lines of a source into runs and keeps with each run the lines after it, where the name of
its item is looked up.

The item is on the first line after the run that is neither empty nor the beginning of an
attribute. It has a name if that line declares something: any of the qualifiers, in their order,
then a keyword, then the name.
-/

namespace DocRoutes

open Text

/-! ## Lines -/

inductive Marker where
  | inner
  | outer
  deriving DecidableEq, Repr

/-- One space after the marker belongs to it. -/
def dropSpace : List Char → List Char
  | ' ' :: s => s
  | s => s

/-- Marker and text of a line of documentation. -/
def docLine? (line : List Char) : Option (Marker × List Char) :=
  match trimStart line with
  | '/' :: '/' :: '!' :: text => some (.inner, dropSpace text)
  | '/' :: '/' :: '/' :: '/' :: _ => none
  | '/' :: '/' :: '/' :: text => some (.outer, dropSpace text)
  | _ => none

/-! ## Runs of lines -/

structure Block where
  marker : Marker
  /-- The number of the first line, counted from one. -/
  number : Nat
  texts : List (List Char)
  /-- The lines after the run. -/
  following : List (List Char)
  deriving DecidableEq, Repr

/-- Put one more line in front. -/
def Block.extend (b : Block) (number : Nat) (text : List Char) : Block :=
  { b with number := number, texts := text :: b.texts }

/-- The runs among the lines, where the first line has the given number. -/
def Block.ofLinesFrom (number : Nat) : List (List Char) → List Block
  | [] => []
  | line :: rest =>
    match docLine? line with
    | none => ofLinesFrom (number + 1) rest
    | some (marker, text) =>
      let alone : Block := ⟨marker, number, [text], rest⟩
      match rest.head?.bind docLine?, ofLinesFrom (number + 1) rest with
      | some (next, _), b :: bs =>
        if next = marker then b.extend number text :: bs else alone :: b :: bs
      | _, bs => alone :: bs

def Block.ofLines (lines : List (List Char)) : List Block := ofLinesFrom 1 lines

/-! ## Names of items -/

/-- At least one blank. -/
def someBlanks? : List Char → Option (List Char)
  | [] => none
  | c :: s => if isBlank c then some (trimStart s) else none

/-- A given word with blanks after it. -/
def keyword? (w : String) (s : List Char) : Option (List Char) :=
  (afterPrefix? w.toList s).bind someBlanks?

/-- `pub`, with or without a scope in parentheses. -/
def visibility? (s : List Char) : Option (List Char) :=
  (afterPrefix? "pub".toList s).bind fun s =>
    match s with
    | '(' :: s => (cutAt ')' s).2.bind someBlanks?
    | s => someBlanks? s

/-- `extern` and the word after it. -/
def linkage? (s : List Char) : Option (List Char) :=
  (keyword? "extern" s).bind fun s => someBlanks? (dropWord s)

/-- A name: a letter or an underscore, then word characters. -/
def identifier? : List Char → Option (List Char)
  | [] => none
  | c :: s => if c.isAlpha || c = '_' then some (c :: takeWordChars s) else none

def itemKeywords : List String :=
  ["fn", "struct", "enum", "mod", "trait", "const", "static", "type"]

def declared? (s : List Char) : Option (List Char) :=
  itemKeywords.findSome? fun w => (keyword? w s).bind identifier?

/-- Read on after a qualifier; without it if it is not there or if nothing fits after it. -/
def optionally {α : Type} (qualifier : List Char → Option (List Char))
    (next : List Char → Option α) (s : List Char) : Option α :=
  (qualifier s).bind next <|> next s

/-- The name that a line declares, the group of

`^\s*(?:pub(?:\([^)]*\))?\s+)?(?:const\s+)?(?:async\s+)?(?:unsafe\s+)?(?:extern\s+\S+\s+)?`
`(?:fn|struct|enum|mod|trait|const|static|type)\s+([A-Za-z_]\w*)`

in one piece, on a line that is trimmed already. -/
def itemName? : List Char → Option (List Char) :=
  optionally visibility? <| optionally (keyword? "const") <| optionally (keyword? "async") <|
    optionally (keyword? "unsafe") <| optionally linkage? declared?

/-- Whether an item may begin on a line. -/
def mayBeginItem (line : List Char) : Bool :=
  !line.isEmpty && (afterPrefix? "#[".toList line).isNone

/-- The name of the item that a run of documentation belongs to. -/
def Block.context? (b : Block) : Option (List Char) :=
  match b.marker with
  | .inner => none
  | .outer => ((b.following.map trim).find? mayBeginItem).bind itemName?

end DocRoutes
