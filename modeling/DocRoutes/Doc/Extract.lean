import DocRoutes.Doc.Comment
import DocRoutes.Doc.Record

/-!
# Records from comments

In a documentation comment, the text before the first tag is the description. A tag begins on a
line of its own, `@kind payload`, and the lines up to the next tag continue its payload: they are
joined by spaces, and empty lines add nothing. The payload of a parameter tag consists of the
types in braces, which may be missing, the name, and the description.
-/

namespace DocRoutes

open Text

/-! ## Tags in a comment -/

/-- Kind and payload of the line that begins a tag, the groups of `^@(\w+)(?:\s+(.*))?$`; the
payload is trimmed. -/
def tagLine? : List Char → Option (List Char × List Char)
  | '@' :: s =>
    match takeWordChars s, dropWordChars s with
    | [], _ => none
    | kind, [] => some (kind, [])
    | kind, c :: rest =>
      if isBlank c ∧ '\n' ∉ trimStart rest then some (kind, trim rest) else none
  | _ => none

/-- A tag with the number of the line it begins on. -/
structure NumberedTag where
  number : Nat
  kind : List Char
  payload : List Char

/-- The payload on the first line, and what the lines after it add. -/
def joinPayload (first : List Char) (more : List (List Char)) : List Char :=
  join [' '] ((first :: more).filter (!·.isEmpty))

/-- The lines before the next tag. -/
def untagged (texts : List (List Char)) : List (List Char) :=
  texts.takeWhile fun text => (tagLine? text).isNone

/-- The tags among trimmed lines, where the first line has the given number. -/
def tagsFrom (number : Nat) : List (List Char) → List NumberedTag
  | [] => []
  | text :: rest =>
    match tagLine? text with
    | none => tagsFrom (number + 1) rest
    | some (kind, first) =>
      ⟨number, kind, joinPayload first (untagged rest)⟩ :: tagsFrom (number + 1) rest

/-! ## Fields of parameters -/

structure ParamFields where
  types : List String
  name : String
  description : Option String
  deriving DecidableEq, Repr

/-- The types between braces, separated by bars, and what follows; no types if no brace opens.
`none` if the brace does not close. -/
def typesField? : List Char → Option (List (List Char) × List Char)
  | '\x7b' :: s =>
    match cutAt '\x7d' s with
    | (types, some rest) =>
      some (((splitAt '|' types).map trim).filter (!·.isEmpty), trimStart rest)
    | (_, none) => none
  | s => some ([], s)

/-- The fields of the payload of a parameter tag, from the groups of
`^(?:\{([^}]*)\}\s*)?(\S+)(?:\s+(.*))?$`; `none` if it has no name. A name that begins with a
brace is none. -/
def paramFields? (payload : List Char) : Option ParamFields := do
  let (types, s) ← typesField? payload
  let name := takeWord s
  let description := trimStart (dropWord s)
  if name = [] ∨ name.head? = some '\x7b' ∨ '\n' ∈ description then none
  else some {
    types := types.map .ofList
    name := .ofList name
    description := if (trim description).isEmpty then none else some (.ofList (trim description)) }

/-- A parameter tag without a name. -/
structure NamelessParam where
  line : Nat
  payload : String
  deriving DecidableEq, Repr

/-- The tag with its fields. Only parameter tags have fields; one without a name is reported and
keeps its payload alone. -/
def NumberedTag.toTag (t : NumberedTag) : Tag × List NamelessParam :=
  let plain : Tag := { kind := .ofList t.kind, payload := .ofList t.payload }
  if plain.kind = Tag.paramKind then
    match paramFields? t.payload with
    | some f => ({ plain with name := some f.name, description := f.description, types := f.types }, [])
    | none => (plain, [⟨t.number, plain.payload⟩])
  else (plain, [])

/-! ## Records -/

/-- The record of one comment, and its parameter tags without a name. -/
def Block.toRecord (b : Block) : DocRecord × List NamelessParam :=
  let texts := b.texts.map trim
  let tags := (tagsFrom b.number texts).map (·.toTag)
  let record : DocRecord := {
    description := .ofList (trim (join ['\n'] (untagged texts)))
    context := b.context?.map .ofList }
  (record.addTags (tags.map (·.1)), tags.flatMap (·.2))

/-- The records of a source text in order, and all parameter tags without a name. -/
def extract (source : String) : List DocRecord × List NamelessParam :=
  let records := (Block.ofLines (lines source.toList)).map Block.toRecord
  (records.map (·.1), records.flatMap (·.2))

end DocRoutes
