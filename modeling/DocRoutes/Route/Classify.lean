import DocRoutes.Route.Basic
import DocRoutes.Text.Word

/-!
# Parameters by their names

The name of a parameter as documented carries marks. A leading underscore makes the parameter
local: `_name` or `_[name]`. Brackets make it optional: `[name]`. Where the value of any other
parameter stands follows from the route: in the path if the path has a segment `:name`, and
otherwise in the query of a `get` and in the body of a `post`.
-/

namespace DocRoutes

open Text

/-! ## Marks on names -/

/-- A name of word characters. -/
def wordName? (s : List Char) : Option (List Char) :=
  if s ≠ [] ∧ s.all isWordChar then some s else none

/-- The name between brackets, the group of `^\[(\w+)\]$`. -/
def bracketedName? : List Char → Option (List Char)
  | '[' :: s => if s.getLast? = some ']' then wordName? s.dropLast else none
  | _ => none

/-- The name behind an underscore, the group of `^_(?:(\w+)|\[(\w+)\])$` that matches. -/
def localName? : List Char → Option (List Char)
  | '_' :: s => wordName? s <|> bracketedName? s
  | _ => none

/-! ## Segments of a path -/

/-- Whether a text begins with no word character. -/
def beginsBeyondWord : List Char → Bool
  | [] => true
  | c :: _ => !isWordChar c

/-- Whether `:name` stands in the path with no word character on either side, a match of
`(?:^|\W):name(?:\W|$)` where the name stands for itself; `afterWord` says whether a word character
precedes. -/
def hasSegment (name : List Char) (afterWord : Bool) : List Char → Bool
  | [] => false
  | c :: rest =>
    let here := match afterPrefix? name rest with
      | some rest => c = ':' && !afterWord && beginsBeyondWord rest
      | none => false
    here || hasSegment name (isWordChar c) rest

/-- Whether the path has a segment for a parameter. -/
def namesSegment (path name : List Char) : Bool := !name.isEmpty && hasSegment name false path

/-! ## Classification -/

/-- Where a parameter without the local mark stands. -/
def sourceIn (verb : Verb) (path name : List Char) : Source :=
  if namesSegment path name then .path
  else match verb with
    | .get => .query
    | .post => .body

def classifyChars (raw : List Char) (verb : Verb) (path : List Char) : Param :=
  match localName? raw with
  | some name => { name := .ofList name, source := .local }
  | none =>
    match bracketedName? raw with
    | some name => { name := .ofList name, source := sourceIn verb path name, optional := true }
    | none => { name := .ofList raw, source := sourceIn verb path raw }

/-- The parameter that a documented name declares on a route. -/
def classify (raw : String) (verb : Verb) (path : String) : Param :=
  classifyChars raw.toList verb path.toList

/-- A parameter is local exactly if its name carries the local mark. -/
theorem classifyChars_source_eq_local {raw path : List Char} {verb : Verb} :
    (classifyChars raw verb path).source = .local ↔ (localName? raw).isSome := by
  unfold classifyChars
  split
  · next h => simp [h]
  · next h =>
    rw [h]
    split <;> simp [sourceIn] <;> split <;> cases verb <;> simp

end DocRoutes
