import DocRoutes.Route.Basic

/-!
# Declarations of routes and of results

The payload of a route tag is a verb, blanks and a path; the payload of a returns tag is a type in
braces and a description. Case does not matter in the verb. A path and a description reach to the
end of the payload and hold no line feed.

Main results: every path is one line and is not empty (`parsePath_oneLine`, `parsePath_ne_nil`).
-/

namespace DocRoutes

open Text

/-! ## Routes -/

/-- The path that follows a verb, the group of `\s+(.+)$`: what comes after the blanks. If nothing
does, the last of at least two blanks is the path. A path holds no line feed. -/
def parsePath (s : List Char) : Option (List Char) :=
  match trimStart s with
  | [] =>
    if 2 ≤ s.length then
      s.getLast?.bind fun c => if c = '\n' then none else some [c]
    else none
  | path => if '\n' ∈ path then none else some path

theorem parsePath_oneLine {s path : List Char} (h : parsePath s = some path) : '\n' ∉ path := by
  unfold parsePath at h
  split at h
  · split at h
    · obtain ⟨c, _, hc⟩ := Option.bind_eq_some_iff.1 h
      split at hc
      · cases hc
      · cases hc; simpa using Ne.symm ‹_›
    · cases h
  · split at h
    · cases h
    · cases h; assumption

theorem parsePath_ne_nil {s path : List Char} (h : parsePath s = some path) : path ≠ [] := by
  unfold parsePath at h
  split at h
  · split at h
    · obtain ⟨c, _, hc⟩ := Option.bind_eq_some_iff.1 h
      split at hc
      · cases hc
      · cases hc; simp
    · cases h
  · next hne =>
    split at h
    · cases h
    · cases h; exact hne

/-- Verb and path of a route tag, the groups of `(?i)^\s*(post|get)\s+(.+)$`. -/
def parseRouteChars (payload : List Char) : Option (Verb × List Char) := do
  let s := trimStart payload
  let verb ← Verb.ofName? (.ofList (takeWord s))
  let path ← parsePath (dropWord s)
  return (verb, path)

def parseRoute (payload : String) : Option (Verb × String) :=
  (parseRouteChars payload.toList).map fun (verb, path) => (verb, .ofList path)

/-! ## Results -/

/-- The description after the type: blanks before it are dropped. -/
def parseReturnsText (s : List Char) : Option (List Char) :=
  let text := trimStart s
  if '\n' ∈ text then none else some text

/-- The type up to a closing brace, and the description after it, the groups of `(.+?)\}\s*(.*)$`.
The first brace that leaves a description without a line feed ends the type, and a type has at least
one character. -/
def parseType (type : List Char) : List Char → Option (List Char × List Char)
  | [] => none
  | c :: rest =>
    let closed := if c = '\x7d' ∧ type ≠ [] then parseReturnsText rest else none
    match closed with
    | some text => some (type.reverse, text)
    | none => if c = '\n' then none else parseType (c :: type) rest

/-- The groups of `^\s*\{(.+?)\}\s*(.*)$`. -/
def parseReturnsChars (payload : List Char) : Option (List Char × List Char) :=
  match trimStart payload with
  | '\x7b' :: rest => parseType [] rest
  | _ => none

/-- Type and description of a returns tag. -/
def parseReturns (payload : String) : Option Returns :=
  (parseReturnsChars payload.toList).map fun (type, text) => ⟨.ofList type, .ofList text⟩

end DocRoutes
