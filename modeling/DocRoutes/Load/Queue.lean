import DocRoutes.Load.Loader

/-!
# The queue of loads

Loads are queued in the order in which they were requested, and each goes on by itself. Anyone may
wait for one of them, or for all from some place on, as often as they like; the outcomes come in
the order of the queue and do not depend on which load ended first.
-/

namespace DocRoutes

structure LoadQueue where
  units : List (Pending LoadOutcome) := []
  /-- How many times loads were requested, for whatever number of units. -/
  requests : Nat := 0

namespace LoadQueue

def request (q : LoadQueue) : LoadQueue := { q with requests := q.requests + 1 }

def wasRequested (q : LoadQueue) : Bool := 0 < q.requests

def size (q : LoadQueue) : Nat := q.units.length

def isEmpty (q : LoadQueue) : Bool := q.units.isEmpty

/-- Queue a load that was requested for a path; the second result is a handle to wait for. -/
def enqueue (q : LoadQueue) (path : String) (task : Pending LoadEnd) :
    LoadQueue × Pending LoadOutcome :=
  let unit := task.map (·.outcome path)
  ({ q with units := q.units ++ [unit] }, unit)

/-- One load goes on up to its next suspension. -/
def advance (q : LoadQueue) (index : Nat) : LoadQueue :=
  { q with units := q.units.modify index Pending.resume }

/-- The outcomes from a place in the queue on. -/
def settledFrom (q : LoadQueue) (start : Nat) : Pending (List LoadOutcome) :=
  .all (q.units.drop start)

def settled (q : LoadQueue) : Pending (List LoadOutcome) := q.settledFrom 0

theorem wait_settledFrom (q : LoadQueue) (start : Nat) :
    (q.settledFrom start).wait = (q.units.drop start).map Pending.wait := by
  simp [settledFrom]

end LoadQueue

end DocRoutes
