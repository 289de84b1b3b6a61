import DocRoutes.Json.Basic
import DocRoutes.Number.Shortest
import DocRoutes.Text.Hex

/-!
# JSON text

Two layouts of a value: `compact` has no blanks at all, `pretty` puts each item and each member on
a line of its own, indented by two spaces per level. Members come in the order of the list.
-/

namespace DocRoutes.Json

/-! ## Strings -/

/-- A character inside a string: quotes, backslashes and the characters below U+0020 are escaped,
everything else stands for itself. -/
def escapeChar (c : Char) : List Char :=
  if c = '"' then ['\\', '"']
  else if c = '\\' then ['\\', '\\']
  else if c = '\n' then ['\\', 'n']
  else if c = '\r' then ['\\', 'r']
  else if c = '\t' then ['\\', 't']
  else if c = '\x08' then ['\\', 'b']
  else if c = '\x0c' then ['\\', 'f']
  else if c.toNat < 0x10 then ['\\', 'u', '0', '0', '0'] ++ Text.hexDigits c.toNat
  else if c.toNat < 0x20 then ['\\', 'u', '0', '0'] ++ Text.hexDigits c.toNat
  else [c]

def stringChars (s : String) : List Char := '"' :: s.toList.flatMap escapeChar ++ ['"']

/-! ## Compact layout -/

def scalarText : Json → String
  | .null => "null"
  | .bool b => if b then "true" else "false"
  | .int n => toString n
  | .float x => x.text
  | _ => ""

mutual

def compactChars : Json → List Char
  | .str s => stringChars s
  | .arr items => '[' :: compactItems items ++ [']']
  | .obj fields => '\x7b' :: compactFields fields ++ ['\x7d']
  | v => (scalarText v).toList

def compactItems : List Json → List Char
  | [] => []
  | [v] => compactChars v
  | v :: rest => compactChars v ++ ',' :: compactItems rest

def compactFields : List (String × Json) → List Char
  | [] => []
  | [(key, v)] => stringChars key ++ ':' :: compactChars v
  | (key, v) :: rest => stringChars key ++ ':' :: compactChars v ++ ',' :: compactFields rest

end

def compact (v : Json) : String := .ofList (compactChars v)

/-! ## Layout in lines -/

/-- A new line at a level. -/
def newLine (level : Nat) : List Char := '\n' :: List.replicate (2 * level) ' '

mutual

def prettyChars (level : Nat) : Json → List Char
  | .str s => stringChars s
  | .arr [] => ['[', ']']
  | .arr items => '[' :: prettyItems (level + 1) items ++ newLine level ++ [']']
  | .obj [] => ['\x7b', '\x7d']
  | .obj fields => '\x7b' :: prettyFields (level + 1) fields ++ newLine level ++ ['\x7d']
  | v => (scalarText v).toList

def prettyItems (level : Nat) : List Json → List Char
  | [] => []
  | [v] => newLine level ++ prettyChars level v
  | v :: rest => newLine level ++ prettyChars level v ++ ',' :: prettyItems level rest

def prettyFields (level : Nat) : List (String × Json) → List Char
  | [] => []
  | [(key, v)] => newLine level ++ stringChars key ++ [':', ' '] ++ prettyChars level v
  | (key, v) :: rest =>
    newLine level ++ stringChars key ++ [':', ' '] ++ prettyChars level v ++
      ',' :: prettyFields level rest

end

def pretty (v : Json) : String := .ofList (prettyChars 0 v)

end DocRoutes.Json
