import DocRoutes.Controller.Failure
import DocRoutes.Pending

/-!
# Controllers

A controller gives its methods names. A method gets its arguments in order. The call itself may break
off with a panic; otherwise a computation has begun, which ends at once or after suspending, and
returns a value, fails, or breaks off. `Method.invoke` makes one result out of all this: a panic is a
failure that tells what the panic said.
-/

namespace DocRoutes

/-! ## Methods -/

/-- What a panic carries. -/
inductive Panic where
  | text (message : String)
  | other
  deriving DecidableEq, Repr

def Panic.toFailure (p : Panic) : Failure :=
  let detail := match p with
    | .text message => message
    | .other => "unknown panic payload"
  { message := "Controller method panicked: " ++ detail }

inductive Outcome where
  | returned (value : Json)
  | failed (failure : Failure)
  | panicked (panic : Panic)

def Outcome.toExcept : Outcome → Except Failure Json
  | .returned value => .ok value
  | .failed failure => .error failure
  | .panicked panic => .error panic.toFailure

/-- What a call of a method gives. -/
inductive Invocation where
  /-- The call broke off before there was a computation. -/
  | brokeOff (panic : Panic)
  | running (rest : Pending Outcome)

structure Method where
  call : List Json → Invocation

namespace Method

/-- A method that does its work within the call. -/
def immediate (f : List Json → Outcome) : Method where
  call args := match f args with
    | .panicked panic => .brokeOff panic
    | outcome => .running (.done outcome)

/-- A method that suspends once and then does its work. -/
def suspending (f : List Json → Outcome) : Method :=
  ⟨fun args => .running (.suspended (.done (f args)))⟩

def invoke (m : Method) (args : List Json) : Except Failure Json :=
  match m.call args with
  | .brokeOff panic => .error panic.toFailure
  | .running rest => rest.wait.toExcept

@[simp] theorem invoke_immediate (f : List Json → Outcome) (args : List Json) :
    (immediate f).invoke args = (f args).toExcept := by
  simp only [invoke, immediate]
  cases f args <;> rfl

@[simp] theorem invoke_suspending (f : List Json → Outcome) (args : List Json) :
    (suspending f).invoke args = (f args).toExcept := rfl

end Method

/-! ## Controllers -/

abbrev Controller := Dict Method

namespace Controller

def noSuchMethod (name : String) : Failure :=
  ({ message := "No such method: " ++ name } : Failure).withStatus 404

def call (c : Controller) (name : String) (args : List Json) : Except Failure Json :=
  match c.get? name with
  | some m => m.invoke args
  | none => .error (noSuchMethod name)

end Controller

end DocRoutes
