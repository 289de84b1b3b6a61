/-!
# Computations that suspend

A pending computation has ended with a result, or it has suspended and goes on with the rest when
it is resumed. Waiting for it resumes it until it ends; how far it was resumed before makes no
difference to the result (`wait_resume`). Waiting for several gives the results in their order,
whichever of them ended first (`wait_all`).
-/

namespace DocRoutes

inductive Pending (α : Type) where
  | done (result : α)
  | suspended (rest : Pending α)
  deriving Inhabited

namespace Pending

variable {α β : Type}

/-- Suspend `n` times before going on. -/
def after (n : Nat) (p : Pending α) : Pending α :=
  match n with
  | 0 => p
  | n + 1 => .suspended (after n p)

/-- Go on up to the next suspension. -/
def resume : Pending α → Pending α
  | .done a => .done a
  | .suspended p => p

/-- The result, once there is one. -/
def result? : Pending α → Option α
  | .done a => some a
  | .suspended _ => none

/-- Go on to the end. -/
def wait : Pending α → α
  | .done a => a
  | .suspended p => p.wait

def map (f : α → β) : Pending α → Pending β
  | .done a => .done (f a)
  | .suspended p => .suspended (p.map f)

/-- Go on with `f` once there is a result. -/
def bind (f : α → Pending β) : Pending α → Pending β
  | .done a => f a
  | .suspended p => .suspended (p.bind f)

/-- All results, in the order of the computations. -/
def all : List (Pending α) → Pending (List α)
  | [] => .done []
  | p :: rest => p.bind fun a => (all rest).map (a :: ·)

@[simp] theorem wait_resume (p : Pending α) : p.resume.wait = p.wait := by cases p <;> rfl

@[simp] theorem wait_after (n : Nat) (p : Pending α) : (p.after n).wait = p.wait := by
  induction n with
  | zero => rfl
  | succ n ih => exact ih

@[simp] theorem wait_map (f : α → β) (p : Pending α) : (p.map f).wait = f p.wait := by
  induction p with
  | done a => rfl
  | suspended p ih => exact ih

@[simp] theorem wait_bind (f : α → Pending β) (p : Pending α) : (p.bind f).wait = (f p.wait).wait := by
  induction p with
  | done a => rfl
  | suspended p ih => exact ih

@[simp] theorem wait_all (ps : List (Pending α)) : (all ps).wait = ps.map wait := by
  induction ps with
  | nil => rfl
  | cons p ps ih => simp [all, ih]

theorem wait_of_result? {p : Pending α} {a : α} (h : p.result? = some a) : p.wait = a := by
  cases p with
  | done b => simpa [result?, wait] using h
  | suspended p => simp [result?] at h

/-- Going on with one of several computations changes no result. -/
theorem map_wait_modify (ps : List (Pending α)) (index : Nat) :
    (ps.modify index resume).map wait = ps.map wait := by
  refine List.ext_getElem? fun i => ?_
  rw [List.getElem?_map, List.getElem?_map, List.getElem?_modify]
  by_cases h : index = i
  · cases ps[i]? <;> simp [h]
  · cases ps[i]? <;> simp [h]

end Pending

end DocRoutes
