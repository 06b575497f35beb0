import Unsugar.Eval.Step

namespace Unsugar

/-! # Running a program

Requests are answered with a bound on how deeply they nest.  Running out of the
bound is a fault of its own, so a finished run never depends on it.
-/

/-- Answer a request, nesting requests at most `fuel` deep. -/
def Eval.run (program : Program) : (fuel : Nat) → {α : Type} → Request α → Eval α
  | 0, _, _ => Eval.fault .outOfFuel
  | fuel + 1, _, request => Eval.step program (Eval.run program fuel) request

namespace Program

/-- Requests may nest this deep; every turn of a loop counts. -/
def nestingBound : Nat := 1000000000

/-- How a call of a static method ends. -/
inductive CallOutcome where
  | value (value : Value)
  /-- An exception that nothing caught, with its text. -/
  | uncaught (message : String)
  | fault (cause : Fault)

def describeException (machine : Machine) : Value → String
  | .object address =>
    let object := machine.objects.getD address default
    match object.fields.lookup "Message" with
    | some (.str text) => "uncaught " ++ object.className ++ ": " ++ text
    | _ => "uncaught " ++ object.className
  | _ => "uncaught non-object"

def callStatic (program : Program) (typeName method : String) (args : List Value)
    (machine : Machine) : CallOutcome × Machine :=
  let call := Eval.run program nestingBound (.invoke (.type typeName) method args none)
  let (result, machine) := call machine
  match result with
  | .ok result => (.value result.value, machine)
  | .error (.throw value) => (.uncaught (describeException machine value), machine)
  | .error (.fault cause) => (.fault cause, machine)
  | .error _ => (.fault .escapedControl, machine)

end Program

def CompilationUnit.program (unit : CompilationUnit) : Program := ⟨unit.types⟩

end Unsugar
