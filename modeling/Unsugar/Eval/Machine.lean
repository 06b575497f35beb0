import Unsugar.Eval.Value

namespace Unsugar

/-! # The machine

The state that a program runs in: the store of objects, sequences, closures and
scopes, static fields, the text printed so far and the depth of calls.
-/

/-- Receiver and declaring type of the code that is running. -/
structure Frame where
  this : Value
  owner : Option String
  deriving Inhabited

structure Object where
  className : String
  fields : List (String × Value)
  isStruct : Bool
  deriving Inhabited

structure Sequence where
  items : List Value
  isArray : Bool
  deriving Inhabited

structure Closure where
  params : List String
  body : LambdaBody
  scope : Nat
  frame : Frame

structure Scope where
  vars : List (String × Value)
  parent : Option Nat
  deriving Inhabited

structure Machine where
  objects : Array Object := #[]
  sequences : Array Sequence := #[]
  closures : Array Closure := #[]
  scopes : Array Scope := #[]
  statics : List ((String × String) × Value) := []
  /-- Types whose static initializers have started. -/
  initialized : List String := []
  output : String := ""
  depth : Nat := 0

/-- Why a program cannot be run further.  These are not exceptions of the
    program: the tree is outside the language that runs, or a name leads
    nowhere. -/
inductive Fault where
  | rethrowOutsideCatch
  | localFunction
  | patternLabel
  | unboundName (name : String)
  | unboundFunction (name : String)
  | unboundAssignment (name : String)
  | indexedStore
  | noStaticMember (name typeName : String)
  | noMember (name typeName : String)
  | noStaticMethod (typeName method : String) (count : Nat)
  | noTupleMember (name : String)
  | callDepth
  | offsetOfNonIndex
  | consoleArguments
  | mathOnNonNumbers
  | formatHole (hole : String)
  | unknownType (name : String)
  | noConstructor (typeName : String) (count : Nat)
  | missingBody (owner : String)
  | escapedControl
  /-- A construct or value that has no meaning here. -/
  | unsupported (what : String)
  /-- The bound on evaluation steps was reached. -/
  | outOfFuel
  deriving DecidableEq, Repr

namespace Fault

/-- The text of a fault.  What `unsupported` names is not part of any
    promise. -/
def message : Fault → String
  | rethrowOutsideCatch => "rethrow outside a catch"
  | localFunction => "local function survived lowering"
  | patternLabel => "pattern label survived lowering"
  | unboundName name => "unbound name `" ++ name ++ "`"
  | unboundFunction name => "unbound function `" ++ name ++ "`"
  | unboundAssignment name => "assignment to unbound name `" ++ name ++ "`"
  | indexedStore => "unsupported indexed store"
  | noStaticMember name typeName =>
    "no static member `" ++ name ++ "` on `" ++ typeName ++ "`"
  | noMember name typeName => "no member `" ++ name ++ "` on `" ++ typeName ++ "`"
  | noStaticMethod typeName method count =>
    "no static method `" ++ typeName ++ "." ++ method ++ "` with " ++ toString count ++
      " arguments"
  | noTupleMember name => "tuple has no member `" ++ name ++ "`"
  | callDepth => "call depth exceeded"
  | offsetOfNonIndex => "GetOffset on a value that is not an Index"
  | consoleArguments => "unsupported Console arguments"
  | mathOnNonNumbers => "Math on non-numbers"
  | formatHole hole => "bad format hole `\x7b" ++ hole ++ "\x7d`"
  | unknownType name => "unknown type `" ++ name ++ "`"
  | noConstructor typeName count =>
    "no constructor of `" ++ typeName ++ "` takes " ++ toString count ++ " arguments"
  | missingBody owner => "`" ++ owner ++ "` member has no body"
  | escapedControl => "control flow escaped a method"
  | unsupported what => what
  | outOfFuel => "out of fuel"

def isNamed : Fault → Bool
  | unsupported _ | outOfFuel => false
  | _ => true

end Fault

/-- Ways to leave a computation early. -/
inductive Exit where
  | ret (value : Value)
  | breakLoop
  | continueLoop
  | throw (value : Value)
  | fault (cause : Fault)

/-- A computation on the machine.  Its effects stay when it is left early. -/
abbrev Eval := ExceptT Exit (StateM Machine)

namespace Eval

def exit {α : Type} (reason : Exit) : Eval α := throw reason

def fault {α : Type} (cause : Fault) : Eval α := exit (.fault cause)

def unsupported {α : Type} (what : String) : Eval α := fault (.unsupported what)

/-- Run to the end, normal or early. -/
def outcome {α : Type} (action : Eval α) : Eval (Except Exit α) :=
  fun machine =>
    let (result, machine) := action machine
    (.ok result, machine)

def resume {α : Type} : Except Exit α → Eval α
  | .ok value => pure value
  | .error reason => exit reason

end Eval

def assocSet {κ α : Type} [BEq κ] (key : κ) (value : α) : List (κ × α) → List (κ × α)
  | [] => [(key, value)]
  | (other, old) :: rest =>
    if other == key then (key, value) :: rest
    else (other, old) :: assocSet key value rest

namespace Machine

/-! ## Objects and sequences -/

def allocObject (className : String) (isStruct : Bool)
    (fields : List (String × Value)) : Eval Value := do
  let machine ← get
  let address := machine.objects.size
  set { machine with objects := machine.objects.push ⟨className, fields, isStruct⟩ }
  return .object address

def object (address : Nat) : Eval Object := return (← get).objects.getD address default

def modifyObject (address : Nat) (change : Object → Object) : Eval Unit :=
  modify fun machine =>
    { machine with objects := machine.objects.modify address change }

def setField (address : Nat) (name : String) (value : Value) : Eval Unit :=
  modifyObject address fun object =>
    { object with fields := assocSet name value object.fields }

def allocSequence (isArray : Bool) (items : List Value) : Eval Value := do
  let machine ← get
  let address := machine.sequences.size
  set { machine with sequences := machine.sequences.push ⟨items, isArray⟩ }
  return .list address

def sequence (address : Nat) : Eval Sequence :=
  return (← get).sequences.getD address default

def setItems (address : Nat) (items : List Value) : Eval Unit :=
  modify fun machine =>
    { machine with
      sequences := machine.sequences.modify address fun list => { list with items } }

def allocClosure (closure : Closure) : Eval Value := do
  let machine ← get
  let address := machine.closures.size
  set { machine with closures := machine.closures.push closure }
  return .closure address

/-- A struct is copied whenever it is stored; anything else is shared. -/
def copyStruct (value : Value) : Eval Value := do
  match value with
  | .object address =>
    let object ← object address
    if object.isStruct then allocObject object.className true object.fields
    else return value
  | _ => return value

def raise {α : Type} (className message : String) : Eval α := do
  Eval.exit (.throw (← allocObject className false [("Message", .str message)]))

def raiseNull {α : Type} : Eval α :=
  raise "NullReferenceException" "Object reference not set to an instance of an object."

def raiseIndex {α : Type} : Eval α :=
  raise "IndexOutOfRangeException" "Index was outside the bounds of the array."

def raiseCast {α : Type} : Eval α :=
  raise "InvalidCastException" "Specified cast is not valid."

/-! ## Scopes -/

def newScope (parent : Option Nat) : Eval Nat := do
  let machine ← get
  let address := machine.scopes.size
  set { machine with scopes := machine.scopes.push ⟨[], parent⟩ }
  return address

def rootScope : Eval Nat := newScope none

def childScope (parent : Nat) : Eval Nat := newScope (some parent)

def declareVar (scope : Nat) (name : String) (value : Value) : Eval Unit :=
  modify fun machine =>
    { machine with
      scopes := machine.scopes.modify scope fun entry =>
        { entry with vars := assocSet name value entry.vars } }

/-- The nearest scope, from `scope` outward, that declares a name.  Scopes are
    made after their parents, so `scope + 1` steps reach every one. -/
def findScope? (scopes : Array Scope) (name : String) : (steps scope : Nat) → Option Nat
  | 0, _ => none
  | steps + 1, scope =>
    match scopes[scope]? with
    | none => none
    | some entry =>
      if (entry.vars.lookup name).isSome then some scope
      else match entry.parent with
        | none => none
        | some parent => findScope? scopes name steps parent

def lookupVar? (scope : Nat) (name : String) : Eval (Option Value) := do
  let scopes := (← get).scopes
  match findScope? scopes name (scope + 1) scope with
  | none => return none
  | some home => return (scopes.getD home default).vars.lookup name

def assignVar (scope : Nat) (name : String) (value : Value) : Eval Bool := do
  match findScope? (← get).scopes name (scope + 1) scope with
  | none => return false
  | some home => do
    declareVar home name value
    return true

/-! ## Static fields, output and call depth -/

def static? (typeName name : String) : Eval (Option Value) :=
  return (← get).statics.lookup (typeName, name)

def setStatic (typeName name : String) (value : Value) : Eval Unit :=
  modify fun machine =>
    { machine with statics := assocSet (typeName, name) value machine.statics }

def print (text : String) : Eval Unit :=
  modify fun machine => { machine with output := machine.output ++ text }

/-- Calls may nest this deep. -/
def maxDepth : Nat := 256

/-- Run a call one level deeper and come back, however it ends. -/
def nested {α : Type} (call : Eval α) : Eval α := do
  if maxDepth ≤ (← get).depth then Eval.fault .callDepth
  modify fun machine => { machine with depth := machine.depth + 1 }
  let result ← Eval.outcome call
  modify fun machine => { machine with depth := machine.depth - 1 }
  Eval.resume result

end Machine

end Unsugar
