import DocRoutes.Text.Blank

/-!
# Path patterns

A pattern is a path in which `:name` stands for the rest of a segment and `*name`, at the end, for
the rest of the path. A parameter may follow other characters of its segment, as in `/u:id`; a
catch-all is a segment of its own. Both stand for at least one character.

Patterns of one table form a tree that branches at each character; all parameters at one place are
one branch, whatever their names. Two patterns conflict if this tree could not hold both: they end
in the same place, or they go on with different kinds of wildcards from the same place. Matching
tries the character first, then the parameter, then the catch-all, and goes back where a choice
leads nowhere.

Main results: conflict is symmetric (`conflict_comm`), and what is found is one of the candidates
(`find_mem`).
-/

namespace DocRoutes

open Text

/-! ## Patterns -/

inductive Piece where
  | char (c : Char)
  | param (name : List Char)
  | catchAll (name : List Char)
  deriving DecidableEq, Repr

abbrev Pattern := List Piece

def Piece.isWildcard : Piece → Bool
  | .char _ => false
  | _ => true

/-- The name of a wildcard. -/
def Piece.name? : Piece → Option (List Char)
  | .char _ => none
  | .param name | .catchAll name => some name

/-- Whether two pieces are the same branch: names of wildcards do not count. -/
def Piece.sameBranch : Piece → Piece → Bool
  | .char c, .char d => c = d
  | .param _, .param _ => true
  | .catchAll _, .catchAll _ => true
  | _, _ => false

/-- The names that a match gives values to. -/
def Pattern.names (p : Pattern) : List (List Char) := p.filterMap Piece.name?

/-! ## Reading patterns -/

/-- Why a path is no pattern. -/
inductive PatternError where
  | unnamedWildcard
  | twoWildcards
  | misplacedCatchAll
  | tooManyParams
  deriving DecidableEq, Repr

def PatternError.message : PatternError → String
  | .unnamedWildcard => "wildcards must have a name"
  | .twoWildcards => "only one wildcard is allowed per segment"
  | .misplacedCatchAll => "a catch-all must be the whole last segment"
  | .tooManyParams => "too many parameters"

def isWildcardMark (c : Char) : Bool := c = ':' || c = '*'

/-- A name is not empty and holds no further wildcard. -/
def wildcardName (name : List Char) : Except PatternError (List Char) :=
  if name.isEmpty then .error .unnamedWildcard
  else if name.any isWildcardMark then .error .twoWildcards
  else .ok name

def takeSegment (s : List Char) : List Char := s.takeWhile (· ≠ '/')

def dropSegment (s : List Char) : List Char := s.dropWhile (· ≠ '/')

theorem length_dropSegment_le (s : List Char) : (dropSegment s).length ≤ s.length :=
  (List.dropWhile_sublist _).length_le

/-- The pieces of a path; `atStart` says whether a segment begins here. -/
def Pattern.pieces (atStart : Bool) : List Char → Except PatternError Pattern
  | [] => .ok []
  | c :: rest =>
    if c = ':' then do
      let name ← wildcardName (takeSegment rest)
      let pieces ← pieces false (dropSegment rest)
      return .param name :: pieces
    else if c = '*' then
      if atStart ∧ dropSegment rest = [] then do
        let name ← wildcardName rest
        return [.catchAll name]
      else .error .misplacedCatchAll
    else do
      let pieces ← pieces (c = '/') rest
      return .char c :: pieces
termination_by s => s.length
decreasing_by
  · have := length_dropSegment_le rest
    simp only [List.length_cons]
    omega
  · simp

def maxParams : Nat := 25

def Pattern.parse (path : String) : Except PatternError Pattern := do
  let p ← pieces false path.toList
  if maxParams < p.countP (fun piece => piece matches .param _) then .error .tooManyParams
  else return p

/-! ## Conflicts -/

def Pattern.conflict : Pattern → Pattern → Bool
  | [], [] => true
  | a :: p, b :: q =>
    if a.sameBranch b then conflict p q else a.isWildcard && b.isWildcard
  | _, _ => false

theorem Piece.sameBranch_comm (a b : Piece) : a.sameBranch b = b.sameBranch a := by
  cases a <;> cases b <;> simp [sameBranch, eq_comm]

theorem Pattern.conflict_comm (p q : Pattern) : p.conflict q = q.conflict p := by
  induction p generalizing q with
  | nil => cases q <;> rfl
  | cons a p ih =>
    cases q with
    | nil => rfl
    | cons b q => simp [conflict, Piece.sameBranch_comm a b, ih q, Bool.and_comm]

/-! ## Matching -/

section Matching

variable {α : Type}

/-- Rest of a pattern, with what the pattern stands for. -/
abbrev Candidates (α : Type) := List (Pattern × α)

/-- The candidates that go on with a character. -/
def Candidates.afterChar (c : Char) (cs : Candidates α) : Candidates α :=
  cs.filterMap fun e =>
    match e.1 with
    | .char d :: rest => if c = d then some (rest, e.2) else none
    | _ => none

/-- The candidates that go on with a parameter. -/
def Candidates.afterParam (cs : Candidates α) : Candidates α :=
  cs.filterMap fun e =>
    match e.1 with
    | .param _ :: rest => some (rest, e.2)
    | _ => none

def Candidates.ended? (cs : Candidates α) : Option α :=
  cs.findSome? fun e =>
    match e.1 with
    | [] => some e.2
    | _ => none

def Candidates.catchAll? (cs : Candidates α) : Option α :=
  cs.findSome? fun e =>
    match e.1 with
    | .catchAll _ :: _ => some e.2
    | _ => none

/-- The first candidate in the order of branches that the path matches, with the texts that its
wildcards stand for. -/
def Candidates.find (cs : Candidates α) : List Char → Option (α × List (List Char))
  | [] => cs.ended?.map fun a => (a, [])
  | c :: rest =>
    if cs.isEmpty then none
    else
      ((find (cs.afterChar c) rest).or
        (if c = '/' then none
         else (find cs.afterParam (dropSegment rest)).map fun m =>
          (m.1, (c :: takeSegment rest) :: m.2))).or
        (cs.catchAll?.map fun a => (a, [c :: rest]))
termination_by s => s.length
decreasing_by
  all_goals
    have := length_dropSegment_le rest
    simp only [List.length_cons]
    omega

theorem Candidates.mem_of_afterChar {c : Char} {cs : Candidates α} {p : Pattern} {a : α}
    (h : (p, a) ∈ cs.afterChar c) : (.char c :: p, a) ∈ cs := by
  obtain ⟨e, he, hp⟩ := List.mem_filterMap.1 h
  obtain ⟨q, b⟩ := e
  match q with
  | .char d :: rest =>
    simp only at hp
    split at hp
    · next hc => subst hc; cases hp; exact he
    · cases hp
  | [] | .param _ :: _ | .catchAll _ :: _ => simp at hp

theorem Candidates.mem_of_afterParam {cs : Candidates α} {p : Pattern} {a : α}
    (h : (p, a) ∈ cs.afterParam) : ∃ name, (.param name :: p, a) ∈ cs := by
  obtain ⟨e, he, hp⟩ := List.mem_filterMap.1 h
  obtain ⟨q, b⟩ := e
  match q with
  | .param name :: rest => cases hp; exact ⟨name, he⟩
  | [] | .char _ :: _ | .catchAll _ :: _ => simp at hp

theorem Candidates.mem_of_findSome? {cs : Candidates α} {f : Pattern × α → Option α} {a : α}
    (hf : ∀ e b, f e = some b → e.2 = b) (h : cs.findSome? f = some a) : ∃ p, (p, a) ∈ cs := by
  obtain ⟨e, he, hb⟩ := List.exists_of_findSome?_eq_some h
  exact ⟨e.1, hf e a hb ▸ he⟩

theorem Candidates.find_mem {cs : Candidates α} {path : List Char} {a : α}
    {texts : List (List Char)} (h : cs.find path = some (a, texts)) : ∃ p, (p, a) ∈ cs := by
  fun_induction Candidates.find cs path generalizing texts with
  | case1 cs =>
    obtain ⟨b, hb, heq⟩ := Option.map_eq_some_iff.1 h
    cases heq
    exact mem_of_findSome? (fun e b he => by split at he <;> simp_all) hb
  | case2 => cases h
  | case3 cs c rest _ ihChar ihParam =>
    rcases Option.or_eq_some_iff.1 h with h | ⟨-, h⟩
    · rcases Option.or_eq_some_iff.1 h with h | ⟨-, h⟩
      · obtain ⟨p, hp⟩ := ihChar h
        exact ⟨_, mem_of_afterChar hp⟩
      · split at h
        · cases h
        · obtain ⟨m, hm, heq⟩ := Option.map_eq_some_iff.1 h
          cases heq
          obtain ⟨p, hp⟩ := ihParam hm
          obtain ⟨name, hn⟩ := mem_of_afterParam hp
          exact ⟨_, hn⟩
    · obtain ⟨b, hb, heq⟩ := Option.map_eq_some_iff.1 h
      cases heq
      exact mem_of_findSome? (fun e b he => by split at he <;> simp_all) hb

end Matching

end DocRoutes
