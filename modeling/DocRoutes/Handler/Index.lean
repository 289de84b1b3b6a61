import DocRoutes.Handler.Chain

/-!
# The middleware index

Middleware is kept under keys in three tiers: the empty key for every route, the name of a
controller for its routes, and `controller.method` for one route. A route runs the three tiers in
this order, each in the order in which its handlers were added.
-/

namespace DocRoutes

structure MiddlewareIndex where
  tiers : Dict Chain := ∅

namespace MiddlewareIndex

def globalKey : String := ""

/-- The key of one route. -/
def routeKey (controller method : String) : String := controller ++ "." ++ method

/-- The handlers under exactly this key. -/
def get (m : MiddlewareIndex) (key : String) : Chain := (m.tiers.get? key).getD []

def addAll (m : MiddlewareIndex) (key : String) (handlers : Chain) : MiddlewareIndex :=
  ⟨m.tiers.insert key (m.get key ++ handlers)⟩

def add (m : MiddlewareIndex) (key : String) (h : Handler) : MiddlewareIndex := m.addAll key [h]

def chainFor (m : MiddlewareIndex) (controller method : String) : Chain :=
  m.get globalKey ++ m.get controller ++ m.get (routeKey controller method)

/-- How many handlers there are under all keys. -/
def size (m : MiddlewareIndex) : Nat := m.tiers.entries.foldl (fun n e => n + e.2.length) 0

@[simp] theorem get_addAll (m : MiddlewareIndex) (key other : String) (handlers : Chain) :
    (m.addAll key handlers).get other = m.get other ++ if key = other then handlers else [] := by
  by_cases h : key = other
  · subst h; simp [addAll, get]
  · simp [addAll, get, h]

end MiddlewareIndex

end DocRoutes
