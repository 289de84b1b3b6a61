import DocRoutes.Keyed
import DocRoutes.Text.Blank

/-!
# Documentation records

A record is what one documentation comment says: a description, the tags that follow it, and the
name of the item it documents, if there is one. Tags of one kind keep their order; the kinds
themselves are kept in key order.

Main results: adding a tag puts it after the earlier ones of its kind and leaves the other kinds
alone (`tagsOf_addTag`).
-/

namespace DocRoutes

/-! ## Tags -/

structure Tag where
  kind : String
  /-- What follows the kind. -/
  payload : String
  name : Option String := none
  description : Option String := none
  types : List String := []
  deriving DecidableEq, Repr

namespace Tag

/-- The kinds of tags that have a meaning here. -/
def moduleKind : String := "module"

def routeKind : String := "apiRoute"

def returnsKind : String := "apiReturns"

def paramKind : String := "param"

/-- A parameter tag from its name and its description. -/
def param (name description : String) : Tag where
  kind := paramKind
  payload := Text.trimmed (name ++ " " ++ description)
  name := some name
  description := if description.isEmpty then none else some description

end Tag

/-! ## Records -/

structure DocRecord where
  description : String
  tags : Dict (List Tag) := ∅
  /-- The name of the documented item. -/
  context : Option String := none

namespace DocRecord

def tagsOf (r : DocRecord) (kind : String) : List Tag := (r.tags.get? kind).getD []

def firstTag? (r : DocRecord) (kind : String) : Option Tag := (r.tagsOf kind).head?

/-- Put a tag after the others of its kind. -/
def addTag (r : DocRecord) (tag : Tag) : DocRecord :=
  { r with tags := r.tags.insert tag.kind (r.tagsOf tag.kind ++ [tag]) }

def addTags (r : DocRecord) (tags : List Tag) : DocRecord := tags.foldl addTag r

/-- The record that names the controller of its source. -/
def isModule (r : DocRecord) : Bool := (r.firstTag? Tag.moduleKind).isSome

@[simp] theorem tagsOf_addTag (r : DocRecord) (tag : Tag) (kind : String) :
    (r.addTag tag).tagsOf kind = r.tagsOf kind ++ if tag.kind = kind then [tag] else [] := by
  by_cases h : tag.kind = kind
  · subst h; simp [addTag, tagsOf]
  · simp [addTag, tagsOf, h]

theorem tagsOf_addTags (r : DocRecord) (tags : List Tag) (kind : String) :
    (r.addTags tags).tagsOf kind = r.tagsOf kind ++ tags.filter (·.kind = kind) := by
  induction tags generalizing r with
  | nil => simp [addTags]
  | cons t ts ih =>
    have := ih (r.addTag t)
    rw [addTags] at this ⊢
    rw [List.foldl_cons, this, tagsOf_addTag]
    by_cases h : t.kind = kind <;> simp [h]

end DocRecord

end DocRoutes
