import DocRoutes.Http.Status
import DocRoutes.Json.Basic

/-!
# Failures of methods

A method that fails gives a message, properties of any kind, and perhaps a trace. A trace is for
the log and is not sent to a client. One of the properties may hold the HTTP status.
-/

namespace DocRoutes

structure Failure where
  message : String
  properties : Dict Json := ∅
  trace : Option String := none

namespace Failure

/-- The property that holds the status unless a configuration names another one. -/
def defaultStatusProperty : String := "httpCode"

def withProperty (f : Failure) (key : String) (value : Json) : Failure :=
  { f with properties := f.properties.insert key value }

def withStatus (f : Failure) (status : Nat) : Failure :=
  f.withProperty defaultStatusProperty (.ofNat status)

def withTrace (f : Failure) (trace : String) : Failure := { f with trace := some trace }

def property? (f : Failure) (key : String) : Option Json := f.properties.get? key

/-- A value as a number of 64 bits: an integer, or a float without a fraction that 16 bits hold. -/
def statusNumber? (v : Json) : Option UInt64 :=
  v.uint64?.or <| ((v.float?.filter (·.isWhole)).filter (·.isUpTo (UInt16.size - 1))).map
    (·.toUInt64)

/-- The status that a value stands for. -/
def statusOf? (v : Json) : Option Status := do
  let number ← statusNumber? v
  let code ← Status.narrow? number
  Status.ofUInt16? code

/-- The status in a property: a whole number between 100 and 999, and 500 if it holds anything
else. -/
def status (f : Failure) (property : String) : Status :=
  ((f.property? property).bind statusOf?).getD .internalError

/-- The properties and the message, which wins over a property of its name. -/
def toJson (f : Failure) : Json := .obj (f.properties.insert "message" (.str f.message)).entries

end Failure

end DocRoutes
