/-!
# Status codes

A status code has three digits: it lies between 100 and 999.
-/

namespace DocRoutes

structure Status where
  code : Nat
  low : 100 ≤ code := by decide
  high : code ≤ 999 := by decide
  deriving DecidableEq, Repr

namespace Status

def ok : Status := { code := 200 }

def badRequest : Status := { code := 400 }

def notFound : Status := { code := 404 }

def methodNotAllowed : Status := { code := 405 }

def internalError : Status := { code := 500 }

def ofNat? (n : Nat) : Option Status :=
  if h : 100 ≤ n ∧ n ≤ 999 then some ⟨n, h.1, h.2⟩ else none

/-- A number in 16 bits, if it fits. -/
def narrow? (n : UInt64) : Option UInt16 :=
  if n.toNat < UInt16.size then some n.toUInt16 else none

def ofUInt16? (n : UInt16) : Option Status := ofNat? n.toNat

theorem ofNat?_eq_some_iff {n : Nat} {s : Status} : ofNat? n = some s ↔ s.code = n := by
  constructor
  · intro h
    unfold ofNat? at h
    split at h
    · cases h; rfl
    · cases h
  · rintro rfl
    simp [ofNat?, s.low, s.high]

end Status

end DocRoutes
