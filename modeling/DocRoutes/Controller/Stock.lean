import DocRoutes.Controller.Basic

/-!
# Stock methods

Methods for trying out routes: they give back their arguments or a fixed outcome.
-/

namespace DocRoutes.Method

/-- What a stock method does with its arguments. -/
inductive Stock where
  | echo
  | value (v : Json)
  | argument (index : Nat)
  | failing (failure : Failure)
  | panicking (panic : Panic)

def Stock.run : Stock → List Json → Outcome
  | .echo, args => .returned (.arr args)
  | .value v, _ => .returned v
  | .argument index, args => .returned (args[index]?.getD .null)
  | .failing failure, _ => .failed failure
  | .panicking panic, _ => .panicked panic

def stock (kind : Stock) (suspends : Bool) : Method :=
  if suspends then suspending kind.run else immediate kind.run

theorem invoke_stock (kind : Stock) (suspends : Bool) (args : List Json) :
    (stock kind suspends).invoke args = (kind.run args).toExcept := by
  cases suspends with
  | false => exact invoke_immediate kind.run args
  | true => exact invoke_suspending kind.run args

end DocRoutes.Method
