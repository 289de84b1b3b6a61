import DocRoutes.Controller.Basic
import DocRoutes.Log
import DocRoutes.Route.Basic

/-!
# The registry

The registry holds the documented controllers in the order in which they came, and one live
controller for each name. Another unit of the same name adds its methods to the live controller
and replaces those it defines again.
-/

namespace DocRoutes

/-- A unit that adds to a controller that is already there. -/
structure Merged where
  controller : String
  /-- How many methods came. -/
  methods : Nat
  deriving DecidableEq, Repr

def Merged.toLog (e : Merged) : Log.Event :=
  ⟨.debug, "Merging into existing controller",
    [("controller", e.controller), ("methods", toString e.methods)]⟩

structure Registry where
  docs : List ControllerDoc := []
  controllers : Dict Controller := ∅

namespace Registry

/-- Add a unit; what is reported with it. -/
def register (r : Registry) (doc : ControllerDoc) (c : Controller) : Registry × Option Merged :=
  match r.controllers.get? doc.name with
  | some live =>
    (⟨r.docs ++ [doc], r.controllers.insert doc.name (live.merge c)⟩, some ⟨doc.name, c.size⟩)
  | none => (⟨r.docs ++ [doc], r.controllers.insert doc.name c⟩, none)

def controller? (r : Registry) (name : String) : Option Controller := r.controllers.get? name

/-- The live method of a controller. -/
def method? (r : Registry) (controller method : String) : Option Method :=
  (r.controller? controller).bind (·.get? method)

def noSuchController (name : String) : Failure :=
  ({ message := "No such controller: " ++ name } : Failure).withStatus 404

def call (r : Registry) (controller method : String) (args : List Json) : Except Failure Json :=
  match r.controller? controller with
  | some c => c.call method args
  | none => .error (noSuchController controller)

@[simp] theorem docs_register (r : Registry) (doc : ControllerDoc) (c : Controller) :
    (r.register doc c).1.docs = r.docs ++ [doc] := by
  unfold register
  split <;> rfl

/-- A unit replaces the methods that it defines and leaves every other method alone. -/
theorem method?_register (r : Registry) (doc : ControllerDoc) (c : Controller)
    (controller method : String) :
    (r.register doc c).1.method? controller method =
      if doc.name = controller then (c.get? method).or (r.method? controller method)
      else r.method? controller method := by
  by_cases hname : doc.name = controller
  · subst hname
    cases hlive : r.controllers.get? doc.name <;>
      simp [register, method?, controller?, hlive]
  · cases hlive : r.controllers.get? doc.name <;>
      simp [register, method?, controller?, hlive, hname]

theorem call_of_method? {r : Registry} {controller method : String} {m : Method}
    (h : r.method? controller method = some m) (args : List Json) :
    r.call controller method args = m.invoke args := by
  obtain ⟨c, hc, hm⟩ := Option.bind_eq_some_iff.1 h
  simp [call, hc, Controller.call, hm]

end Registry

end DocRoutes
