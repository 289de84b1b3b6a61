import Mathlib.Algebra.GroupWithZero.Nat
import DocRoutes.Pending

/-!
# How often computations suspend

A computation suspends a number of times before it ends, and each step of it uses up one of these
(`sum_suspensions_modify`). So however several computations take turns, they all end, and as long as
one of them has not ended there is one that can go on (`all_ended_or_exists_suspended`).
-/

namespace DocRoutes.Pending

variable {α β : Type}

/-- How many times a computation suspends before it ends. -/
def suspensions : Pending α → Nat
  | .done _ => 0
  | .suspended rest => rest.suspensions + 1

theorem suspensions_map (f : α → β) (p : Pending α) : (p.map f).suspensions = p.suspensions := by
  induction p with
  | done a => rfl
  | suspended rest ih => exact congrArg (· + 1) ih

/-- Of several computations one goes on as long as not all have ended. -/
theorem all_ended_or_exists_suspended (ps : List (Pending α)) :
    (∀ p ∈ ps, ∃ a, p = .done a) ∨
      ∃ (index : Nat) (rest : Pending α), ps[index]? = some (.suspended rest) := by
  by_cases h : ∃ rest, Pending.suspended rest ∈ ps
  · obtain ⟨rest, hrest⟩ := h
    obtain ⟨index, hindex⟩ := List.mem_iff_getElem?.1 hrest
    exact .inr ⟨index, rest, hindex⟩
  · refine .inl fun p hp => ?_
    cases p with
    | done a => exact ⟨a, rfl⟩
    | suspended rest => exact absurd ⟨rest, hp⟩ h

/-- A sum after a change of one summand. -/
theorem sum_map_modify (measure : α → Nat) (f : α → α) {xs : List α} {index : Nat} {x : α}
    (h : xs[index]? = some x) :
    ((xs.modify index f).map measure).sum + measure x = (xs.map measure).sum + measure (f x) := by
  induction xs generalizing index with
  | nil => simp at h
  | cons y xs ih =>
    cases index with
    | zero =>
      obtain rfl : y = x := by simpa using h
      rw [List.modify_zero_cons, List.map_cons, List.map_cons, List.sum_cons, List.sum_cons]
      omega
    | succ index =>
      have hxs := @ih index (by simpa using h)
      rw [List.modify_succ_cons, List.map_cons, List.map_cons, List.sum_cons, List.sum_cons]
      omega

/-- Going on uses up one suspension. -/
theorem sum_suspensions_modify {ps : List (Pending α)} {index : Nat} {rest : Pending α}
    (h : ps[index]? = some (.suspended rest)) :
    ((ps.modify index resume).map suspensions).sum + 1 = (ps.map suspensions).sum := by
  have hsum := sum_map_modify suspensions resume h
  have hone : (Pending.suspended rest).suspensions = (resume (.suspended rest)).suspensions + 1 :=
    rfl
  omega

end DocRoutes.Pending
