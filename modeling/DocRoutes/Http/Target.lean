import DocRoutes.Text.Blank

/-!
# Request targets

The target of a request is a path with perhaps a query. It may also be an absolute address, of
which only path and query count here, a bare authority, which has an empty path, or a star. A
fragment is dropped. Path and query may hold characters beyond ASCII as they are; of the ASCII
characters, those are refused that an address has to encode, with the delete character among them.
-/

namespace DocRoutes

open Text

structure Target where
  path : List Char
  query : List Char := []
  deriving DecidableEq, Repr

namespace Target

/-! ## Characters -/

/-- Neither blank nor a control character of ASCII. -/
def isVisible (c : Char) : Bool := 0x21 ≤ c.toNat && c.toNat ≠ 0x7F

def isPathChar (c : Char) : Bool :=
  isVisible c && c != '#' && c != '<' && c != '>' && c != '?' && c != '\x60'

def isQueryChar (c : Char) : Bool :=
  isVisible c && c != '"' && c != '#' && c != '<' && c != '>'

def isSchemeChar (c : Char) : Bool := c.isAlphanum || c = '+' || c = '-' || c = '.' || c = '~'

/-- The characters of an authority. -/
def isAuthorityChar (c : Char) : Bool :=
  c.isAlphanum || "!$&'()*+,-.:;=@[]_~%".toList.contains c

/-! ## Path and query -/

/-- What stands before the fragment. -/
def dropFragment (s : List Char) : List Char := s.takeWhile (· ≠ '#')

def ofPathAndQuery? (s : List Char) : Option Target :=
  let (path, query) := cutAt '?' (dropFragment s)
  let query := query.getD []
  if path.all isPathChar && query.all isQueryChar then some ⟨path, query⟩ else none

/-! ## Authorities -/

/-- What has been seen of an authority: colons and a percent sign since the last `@` or bracket, and
the brackets of an address. -/
structure AuthorityScan where
  colons : Nat := 0
  percent : Bool := false
  opened : Bool := false
  closed : Bool := false

/-- As many colons as an address between brackets may have. -/
def maxColons : Nat := 8

/-- One more character. What comes before an `@` or between brackets may hold colons, but no percent
sign comes before an opening bracket. -/
def AuthorityScan.step (s : AuthorityScan) (c : Char) : Option AuthorityScan :=
  if !isAuthorityChar c then none
  else if c = ':' then
    if s.colons < maxColons then some { s with colons := s.colons + 1 } else none
  else if c = '[' then
    if s.percent || s.opened then none else some { s with opened := true }
  else if c = ']' then
    if s.opened && !s.closed then some { s with closed := true, colons := 0, percent := false }
    else none
  else if c = '@' then some { s with colons := 0, percent := false }
  else if c = '%' then some { s with percent := true }
  else some s

/-- An authority ends in a host, which has at most one colon, before a number, and no percent
sign. -/
def isAuthority (s : List Char) : Bool :=
  match s.foldlM AuthorityScan.step {} with
  | none => false
  | some a => a.opened == a.closed && a.colons ≤ 1 && !a.percent && s.getLast? != some '@'

/-- The authority ends before the path, the query or the fragment. -/
def takeAuthority (s : List Char) : List Char := s.takeWhile fun c => c ≠ '/' && c ≠ '?' && c ≠ '#'

/-! ## Targets -/

def maxScheme : Nat := 64

/-- What follows the scheme of an absolute address. -/
def afterScheme? (s : List Char) : Option (List Char) :=
  let scheme := s.takeWhile isSchemeChar
  if scheme.length ≤ maxScheme then afterPrefix? [':', '/', '/'] (s.drop scheme.length) else none

/-- The longest target, in bytes. -/
def maxBytes : Nat := 65534

/-- The target of a request line; `none` for one that has to be refused. An absolute address
without a path has the path `/`. -/
def parse? (text : String) : Option Target :=
  if maxBytes < text.utf8ByteSize then none
  else match text.toList with
  | [] => none
  | ['*'] => some { path := ['*'] }
  | '/' :: rest => ofPathAndQuery? ('/' :: rest)
  | s =>
    match afterScheme? s with
    | none => if isAuthority s then some { path := [] } else none
    | some s =>
      let authority := takeAuthority s
      if authority.isEmpty || !isAuthority authority then none
      else (ofPathAndQuery? (s.drop authority.length)).map fun t =>
        if t.path.isEmpty then { t with path := ['/'] } else t

end Target

end DocRoutes
