/-!
# Log events

What a log line says: a level, a message, and named fields. The parts of the library that have
something to report describe it by a type of their own; an `Event` is its printed form.
-/

namespace DocRoutes.Log

inductive Level where
  | trace
  | debug
  | info
  | warn
  | error
  deriving DecidableEq, Repr

def Level.name : Level → String
  | .trace => "trace"
  | .debug => "debug"
  | .info => "info"
  | .warn => "warn"
  | .error => "error"

/-- Levels in order of weight. -/
def Level.rank : Level → Nat
  | .trace => 0
  | .debug => 1
  | .info => 2
  | .warn => 3
  | .error => 4

structure Event where
  level : Level
  message : String
  fields : List (String × String)
  deriving DecidableEq, Repr

/-- What stands for a text that is missing. -/
def orNone (text : Option String) : String := text.getD "<none>"

end DocRoutes.Log
