import Unsugar.Eval.Format
import Unsugar.Eval.Program

namespace Unsugar.Eval

/-! # Members, calls and construction -/

section Member

variable (program : Program) (recur : Answer)

def iterate : Value → Eval (List Value)
  | .list address => return (← Machine.sequence address).items
  | .str text => return text.toList.map Value.char
  | .null => Machine.raiseNull
  | _ => unsupported "cannot iterate over this value"

def asBool : Value → Eval Bool
  | .bool value => return value
  | _ => unsupported "condition is not a bool"

/-! ## Running code -/

def runBody (code : Code) (this : Value) (scope : Nat) : Eval Value :=
  Machine.nested do
    let frame : Frame := ⟨this, some code.owner⟩
    match code.body with
    | .none => fault (.missingBody code.owner)
    | .expr value => recur (.eval value scope frame)
    | .block body =>
      match ← outcome (recur (.exec body scope frame)) with
      | .ok _ => return .null
      | .error (.ret value) => return value
      | .error other => exit other

def bindParam (frame : Frame) (scope : Nat) (param : Param) (args : List Value) :
    Eval (Value × List Value) := do
  if param.passing = .variadic then
    return (← Machine.allocSequence true args, [])
  match args with
  | arg :: rest => return (Program.convertTo param.type arg, rest)
  | [] =>
    match param.default with
    | some default => return (← recur (.eval default scope frame), [])
    | none =>
      if param.passing = .out then return (← program.defaultOf param.type, [])
      else return (.null, [])

def bindParamsIn (frame : Frame) (scope : Nat) : List Param → List Value → Eval Unit
  | [], _ => return ()
  | param :: params, args => do
    let (value, rest) ← bindParam program recur frame scope param args
    Machine.declareVar scope param.name (← Machine.copyStruct value)
    bindParamsIn frame scope params rest

def bindParams (params : List Param) (args : List Value) (frame : Frame) : Eval Nat := do
  let scope ← Machine.rootScope
  bindParamsIn program recur frame scope params args
  return scope

def runMember (code : Code) (this : Value) (args : List Value) : Eval CallResult := do
  let scope ← bindParams program recur code.params args ⟨this, some code.owner⟩
  let value ← runBody recur code this scope
  return { value, params := some (code.params, scope) }

def declareArgs (scope : Nat) : List String → List Value → Eval Unit
  | name :: names, arg :: args => do
    Machine.declareVar scope name (← Machine.copyStruct arg)
    declareArgs scope names args
  | _, _ => return ()

def applyClosure (function : Value) (args : List Value) : Eval CallResult := do
  match function with
  | .closure address =>
    match (← get).closures[address]? with
    | none => unsupported "unknown closure"
    | some closure =>
      let value ← Machine.nested do
        let scope ← Machine.childScope closure.scope
        declareArgs scope closure.params args
        match closure.body with
        | .expr value => recur (.eval value scope closure.frame)
        | .block body =>
          match ← outcome (recur (.exec body scope closure.frame)) with
          | .ok _ => return .null
          | .error (.ret value) => return value
          | .error other => exit other
      return { value }
  | _ => unsupported "value is not callable"

/-! ## Static members -/

def staticStorage? (member : Member) : Option (TypeSyntax × String × Option Expr) :=
  if !member.isStatic then none
  else match member.kind with
    | .field type name init => some (type, name, init)
    | .property type name (some .none) _ init => some (type, name, init)
    | _ => none

def initialValue (type : TypeSyntax) (init : Option Expr) (frame : Frame) : Eval Value := do
  match init with
  | some init =>
    let scope ← Machine.rootScope
    return Program.convertTo type (← recur (.eval init scope frame))
  | none => program.defaultOf type

def ensureStatics (className : String) : Eval Unit := do
  if (← get).initialized.contains className then return
  modify fun machine =>
    { machine with initialized := className :: machine.initialized }
  match program.find? className with
  | none => return
  | some decl =>
    for (type, name, init) in decl.members.filterMap staticStorage? do
      let value ← initialValue program recur type init ⟨.null, some className⟩
      Machine.setStatic className name value

/-! ## Reading and writing members -/

def tupleIndex? (name : String) : Option Nat :=
  match name.toList with
  | 'I' :: 't' :: 'e' :: 'm' :: digits =>
    (readUnsigned? digits).bind fun number => if number = 0 then none else some (number - 1)
  | _ => none

def getStaticMember (className name : String) : Eval Value := do
  if program.declares className then
    ensureStatics program recur className
    match ← Machine.static? className name with
    | some value => return value
    | none =>
      match program.findGetter? className name with
      | some code => return (← runMember program recur code .null []).value
      | none => fault (.noStaticMember name className)
  else fault (.noStaticMember name className)

def getObjectMember (address : Nat) (name : String) : Eval Value := do
  let object ← Machine.object address
  match object.fields.lookup name with
  | some value => return value
  | none =>
    match program.findGetter? object.className name with
    | some code => return (← runMember program recur code (.object address) []).value
    | none => fault (.noMember name object.className)

def getMember (target : Value) (name : String) : Eval Value := do
  match target with
  | .type className => getStaticMember program recur className name
  | .null => if name == "HasValue" then return .bool false else Machine.raiseNull
  | .tuple items =>
    match (tupleIndex? name).bind fun index => items[index]? with
    | some value => return value
    | none => fault (.noTupleMember name)
  | .object address => getObjectMember program recur address name
  | other =>
    match other, name with
    | .str text, "Length" => return .int text.length
    | .list address, "Count" | .list address, "Length" =>
      return .int (← Machine.sequence address).items.length
    | .int _, "Value" | .double _, "Value" | .bool _, "Value" | .char _, "Value" =>
      return other
    | _, "HasValue" => return .bool true
    | _, _ => unsupported "no such member on this value"

def setMember (target : Value) (name : String) (value : Value) : Eval Unit := do
  let value ← Machine.copyStruct value
  match target with
  | .object address =>
    match program.findSetter? (← Machine.object address).className name with
    | some code =>
      let scope ← Machine.rootScope
      Machine.declareVar scope "value" value
      let _ ← runBody recur code target scope
    | none => Machine.setField address name value
  | .type className =>
    ensureStatics program recur className
    Machine.setStatic className name value
  | .null => Machine.raiseNull
  | _ => unsupported "cannot set a member on this value"

def position? (index : Int) (size : Nat) : Option Nat :=
  if 0 ≤ index ∧ index.toNat < size then some index.toNat else none

def getIndex (target : Value) (args : List Value) : Eval Value := do
  match target, args with
  | .list address, [.int index] =>
    let items := (← Machine.sequence address).items
    match (position? index items.length).bind fun index => items[index]? with
    | some value => return value
    | none => Machine.raiseIndex
  | .str text, [.int index] =>
    let chars := text.toList
    match (position? index chars.length).bind fun index => chars[index]? with
    | some char => return .char char
    | none => Machine.raiseIndex
  | .null, _ => Machine.raiseNull
  | _, _ => unsupported "unsupported indexer"

/-! ## Construction -/

def instanceStorage? (member : Member) : Option (TypeSyntax × String × Option Expr) :=
  if member.isStatic then none
  else match member.kind with
    | .field type name init => some (type, name, init)
    | .property type name getter setter init =>
      let isAuto : Option Body → Bool
        | some .none => true
        | _ => false
      if init.isSome || isAuto getter || isAuto setter then some (type, name, init)
      else none
    | _ => none

def initFields (className : String) (address : Nat) : Eval Unit := do
  for decl in (program.chain className).reverse do
    for (type, name, init) in decl.members.filterMap instanceStorage? do
      let value ← initialValue program recur type init ⟨.object address, some decl.name⟩
      Machine.setField address name value

def createBuiltin (name : String) (args : List Value) : Eval Value := do
  match name with
  | "List" =>
    let items ← match args.head? with
      | some (.list address) => iterate (.list address)
      | some (.str text) => iterate (.str text)
      | _ => pure []
    Machine.allocSequence false items
  | "object" => Machine.allocObject name false []
  | "Index" =>
    Machine.allocObject name false
      [("Value", args.headD (.int 0)), ("IsFromEnd", (args.drop 1).headD (.bool false))]
  | "Range" =>
    Machine.allocObject name false
      [("Start", args.headD .null), ("End", (args.drop 1).headD .null)]
  | name =>
    if name == "Exception" || (builtinBase? name).isSome then
      Machine.allocObject name false
        [("Message", args.headD (.str "Exception of this type was thrown."))]
    else fault (.unknownType name)

def create (type : TypeSyntax) (args : List Value) : Eval Value := do
  match type with
  | .named name _ =>
    match program.find? name with
    | none => createBuiltin name args
    | some decl =>
      let object ← Machine.allocObject name decl.kind.isValueType []
      match object with
      | .object address => initFields program recur name address
      | _ => pure ()
      recur (.construct name object args)
      return object
  | _ => unsupported "cannot instantiate this type"

/-- A constructor of a class that fits the arguments. -/
structure Ctor where
  params : List Param
  initializer : Option CtorInitializer
  body : Body

def ctorCandidate (machine : Machine) (args : List Value) (member : Member) :
    Option (Nat × Ctor) :=
  match member.kind with
  | .ctor params initializer body =>
    if member.isStatic then none
    else (program.overloadScore machine params args).map fun score =>
      (score, ⟨params, initializer, body⟩)
  | _ => none

def isInstanceCtor (member : Member) : Bool :=
  match member.kind with
  | .ctor .. => !member.isStatic
  | _ => false

/-- A base call of a class that derives from a built-in exception sets its
    message. -/
def initBuiltinBase (className : String) (object : Value) (args : List Value) :
    Eval Unit := do
  match object, args with
  | .object address, message :: _ =>
    if program.derives className "Exception" then
      Machine.setField address "Message" message
  | _, _ => return

/-- Hand on to the constructor that a constructor names, by default one of the
    base class. -/
def chainCtor (className : String) (object : Value) (initializer : Option CtorInitializer)
    (scope : Nat) (frame : Frame) : Eval Unit := do
  match initializer with
  | some init =>
    let args ← init.args.mapM fun arg => recur (.eval arg scope frame)
    match init.target with
    | .this => recur (.construct className object args)
    | .base =>
      match program.baseClass? className with
      | some base => recur (.construct base object args)
      | none => initBuiltinBase program className object args
  | none =>
    match program.baseClass? className with
    | some base => recur (.construct base object [])
    | none => return

def runCtor (className : String) (object : Value) (args : List Value) : Eval Unit := do
  match program.find? className with
  | none => return
  | some decl =>
    let machine ← get
    match Program.pickBest (decl.members.map (ctorCandidate program machine args)) with
    | none =>
      if decl.members.any isInstanceCtor || !args.isEmpty then
        fault (.noConstructor className args.length)
      match program.baseClass? className with
      | some base => recur (.construct base object [])
      | none => return
    | some ctor =>
      Machine.nested do
        let frame : Frame := ⟨object, some className⟩
        let scope ← bindParams program recur ctor.params args frame
        chainCtor program recur className object ctor.initializer scope frame
        match ctor.body with
        | .none => return
        | .expr value => let _ ← recur (.eval value scope frame)
        | .block body =>
          match ← outcome (recur (.exec body scope frame)) with
          | .ok _ | .error (.ret _) => return
          | .error other => exit other

end Member

end Unsugar.Eval
