import Unsugar.Eval.Builtin

namespace Unsugar.Eval

/-! # One step of evaluation

`step` answers a request with the help of something that answers smaller ones.
-/

section Step

variable (program : Program) (recur : Answer)

/-! ## Names and stores -/

/-- The meaning of a bare name: a variable, a field of the receiver, a static
    member of the running type, or a type. -/
def readName (name : String) (scope : Nat) (frame : Frame) : Eval Value := do
  match ← Machine.lookupVar? scope name with
  | some value => return value
  | none =>
    match ← fieldOf frame.this with
    | some value => return value
    | none =>
      match frame.owner.filter fun owner => program.hasStatic owner name with
      | some owner => getMember program recur (.type owner) name
      | none =>
        if program.knows name then return .type name else fault (.unboundName name)
where
  fieldOf : Value → Eval (Option Value)
    | .object address => return (← Machine.object address).fields.lookup name
    | _ => return none

/-- The receiver that a bare name falls back to. -/
def implicitReceiver? (frame : Frame) : Option Value :=
  match frame.this, frame.owner with
  | .object address, _ => some (.object address)
  | _, some owner => some (.type owner)
  | _, none => none

def storeName (name : String) (value : Value) (scope : Nat) (frame : Frame) : Eval Unit := do
  if ← Machine.assignVar scope name value then return
  match implicitReceiver? frame with
  | some receiver => setMember program recur receiver name value
  | none => fault (.unboundAssignment name)

def storeIndex (target : Value) (args : List Value) (value : Value) : Eval Unit := do
  match target, args with
  | .list address, [.int index] =>
    let items := (← Machine.sequence address).items
    match position? index items.length with
    | some index => Machine.setItems address (items.set index value)
    | none => Machine.raiseIndex
  | _, _ => fault .indexedStore

def evalAll (nodes : List Expr) (scope : Nat) (frame : Frame) : Eval (List Value) :=
  nodes.mapM fun node => recur (.eval node scope frame)

def store (target : Expr) (value : Value) (scope : Nat) (frame : Frame) : Eval Unit := do
  let value ← Machine.copyStruct value
  match target.kind with
  | .ident name => storeName program recur name value scope frame
  | .member receiver name =>
    let receiver ← recur (.eval receiver scope frame)
    setMember program recur receiver name value
  | .index receiver args =>
    let receiver ← recur (.eval receiver scope frame)
    let args ← evalAll recur args scope frame
    storeIndex receiver args value
  | .paren inner | .out inner => recur (.store inner value scope frame)
  | .discard => return
  | _ => unsupported "cannot assign to this expression"

/-! ## Calls -/

def invoke (target : Value) (method : String) (args : List Value)
    (start : Option String) : Eval CallResult := do
  let className ← match target with
    | .object address => pure (some (start.getD (← Machine.object address).className))
    | .type name => pure (if program.declares name then some name else none)
    | _ => pure none
  let machine ← get
  match className.bind fun name => program.findMethod? machine name method args with
  | some (code, true) =>
    ensureStatics program recur code.owner
    runMember program recur code .null args
  | some (code, false) => runMember program recur code target args
  | none => return { value := ← builtinMethod program recur target method args }

def callMember (receiver : Expr) (method : String) (args : List Value) (scope : Nat)
    (frame : Frame) : Eval CallResult := do
  let target ← recur (.eval receiver scope frame)
  match receiver.kind with
  | .base =>
    match frame.owner.bind program.baseClass? with
    | some start => recur (.invoke target method args (some start))
    | none => return { value := ← builtinMethod program recur target method args }
  | _ => recur (.invoke target method args none)

/-- Call a bare name: a function value in a variable, else a method. -/
def callName (name : String) (args : List Value) (scope : Nat) (frame : Frame) :
    Eval CallResult := do
  match ← Machine.lookupVar? scope name with
  | some function => recur (.apply function args)
  | none =>
    match implicitReceiver? frame with
    | some receiver => recur (.invoke receiver name args none)
    | none => fault (.unboundFunction name)

def writeBack (callee scope : Nat) (frame : Frame) : List Expr → List Param → Eval Unit
  | arg :: args, param :: params => do
    match arg.kind with
    | .out target =>
      match ← Machine.lookupVar? callee param.name with
      | some value => recur (.store target value scope frame)
      | none => pure ()
    | _ => pure ()
    writeBack callee scope frame args params
  | _, _ => return

def call (callee : Expr) (args : List Expr) (scope : Nat) (frame : Frame) : Eval Value := do
  let values ← evalAll recur args scope frame
  let result ← match callee.kind with
    | .member receiver name => callMember program recur receiver name values scope frame
    | .ident name => callName recur name values scope frame
    | _ =>
      let function ← recur (.eval callee scope frame)
      recur (.apply function values)
  match result.params with
  | some (params, inner) => writeBack recur inner scope frame args params
  | none => pure ()
  return result.value

/-! ## Expressions -/

def literalValue : Literal → Value
  | .int value => .int value
  | .float bits => .double bits
  | .bool value => .bool value
  | .char value => .char value
  | .str value => .str value
  | .null => .null

def evalBinary (op : BinaryOp) (left right : Expr) (scope : Nat) (frame : Frame) :
    Eval Value := do
  let leftValue ← recur (.eval left scope frame)
  match op, leftValue with
  | .and, .bool false => return leftValue
  | .or, .bool true => return leftValue
  | .coalesce, .null => recur (.eval right scope frame)
  | .coalesce, _ => return leftValue
  | _, _ =>
    let rightValue ← recur (.eval right scope frame)
    binary program recur op leftValue rightValue

def assign (op : Option BinaryOp) (target value : Expr) (scope : Nat) (frame : Frame) :
    Eval Value := do
  let result ← match op with
    | none => recur (.eval value scope frame)
    | some op =>
      let current ← recur (.eval target scope frame)
      let operand ← recur (.eval value scope frame)
      binary program recur op current operand
  recur (.store target result scope frame)
  return result

def evalCreate (type : TypeSyntax) (args : List Expr) (inits : List FieldInit)
    (scope : Nat) (frame : Frame) : Eval Value := do
  let args ← evalAll recur args scope frame
  let created ← create program recur type args
  for init in inits do
    let value ← recur (.eval init.value scope frame)
    setMember program recur created init.name value
  return created

def eval (node : Expr) (scope : Nat) (frame : Frame) : Eval Value := do
  match node.kind with
  | .literal value => return literalValue value
  | .ident name => readName program recur name scope frame
  | .self | .base => return frame.this
  | .typeRef (.named name _) => return .type name
  | .typeRef _ => unsupported "type used as a receiver"
  | .member receiver name =>
    let target ← recur (.eval receiver scope frame)
    getMember program recur target name
  | .call callee args => call program recur callee args scope frame
  | .index receiver args =>
    let target ← recur (.eval receiver scope frame)
    let args ← evalAll recur args scope frame
    getIndex target args
  | .unary op operand => unary op (← recur (.eval operand scope frame))
  | .binary op left right => evalBinary program recur op left right scope frame
  | .assign op target value => assign program recur op target value scope frame
  | .conditional cond yes no =>
    if ← asBool (← recur (.eval cond scope frame)) then recur (.eval yes scope frame)
    else recur (.eval no scope frame)
  | .typeTest subject type =>
    let value ← recur (.eval subject scope frame)
    return .bool (program.isInstance (← get) value type)
  | .cast type operand => program.cast (← recur (.eval operand scope frame)) type
  | .seq effects value =>
    let _ ← evalAll recur effects scope frame
    recur (.eval value scope frame)
  | .lambda _ params _ body =>
    Machine.allocClosure ⟨params.map (·.name), body, scope, frame⟩
  | .create type args inits => evalCreate program recur type args inits scope frame
  | .collection items =>
    Machine.allocSequence true (← evalAll recur items scope frame)
  | .throw value => exit (.throw (← recur (.eval value scope frame)))
  | .defaultOf type => program.defaultOf type
  | .tuple items => return .tuple (← evalAll recur items scope frame)
  | .out inner | .paren inner => recur (.eval inner scope frame)
  | _ => unsupported "expression survived lowering"

/-! ## Statements -/

/-- Run the body of a loop; whether the loop goes on. -/
def goesOn (body : Eval Unit) : Eval Bool := do
  match ← outcome body with
  | .ok _ | .error .continueLoop => return true
  | .error .breakLoop => return false
  | .error other => exit other

def condition (cond : Option Expr) (scope : Nat) (frame : Frame) : Eval Bool := do
  match cond with
  | none => return true
  | some cond => asBool (← recur (.eval cond scope frame))

def loop (cond : Option Expr) (step : List Expr) (body : Stmt) (scope : Nat)
    (frame : Frame) : Eval Unit := do
  if ← condition recur cond scope frame then
    if ← goesOn (recur (.exec body scope frame)) then
      let _ ← evalAll recur step scope frame
      recur (.loop cond step body scope frame)

def forEach (name : String) (body : Stmt) (scope : Nat) (frame : Frame) :
    List Value → Eval Unit
  | [] => return
  | item :: rest => do
    let inner ← Machine.childScope scope
    Machine.declareVar inner name item
    if ← goesOn (recur (.exec body inner frame)) then
      forEach name body scope frame rest

def execAll (nodes : List Stmt) (scope : Nat) (frame : Frame) : Eval Unit :=
  nodes.forM fun node => recur (.exec node scope frame)

/-- Whether a label other than `default` selects its section. -/
def labelHolds (value : Value) (pattern : Pattern) (guard : Option Expr) (scope : Nat)
    (frame : Frame) : Eval Bool := do
  match pattern.kind with
  | .constant constant =>
    let constant ← recur (.eval constant scope frame)
    if value.builtinEq constant then condition recur guard scope frame else return false
  | _ => fault .patternLabel

def isDefault : Label → Bool
  | .default => true
  | .case .. => false

def anyHolds (value : Value) (scope : Nat) (frame : Frame) : List Label → Eval Bool
  | [] => return false
  | .default :: rest => anyHolds value scope frame rest
  | .case pattern guard :: rest => do
    if ← labelHolds recur value pattern guard scope frame then return true
    anyHolds value scope frame rest

def selectSection (value : Value) (scope : Nat) (frame : Frame) :
    List Section → Eval (Option Section)
  | [] => return none
  | sect :: rest => do
    if ← anyHolds recur value scope frame sect.labels then return some sect
    selectSection value scope frame rest

/-- A switch over constants; the first section with a `default` label is taken
    when nothing else is. -/
def execSwitch (subject : Expr) (sections : List Section) (scope : Nat) (frame : Frame) :
    Eval Unit := do
  let value ← recur (.eval subject scope frame)
  let selected ← selectSection recur value scope frame sections
  let fallback := sections.find? fun sect => sect.labels.any isDefault
  match selected.or fallback with
  | none => return
  | some sect =>
    let inner ← Machine.childScope scope
    match ← outcome (execAll recur sect.body inner frame) with
    | .ok _ | .error .breakLoop => return
    | .error other => exit other

def declareLocal (type : TypeSyntax) (name : String) (init : Option Expr) (scope : Nat)
    (frame : Frame) : Eval Unit := do
  let value ← match init with
    | some init => pure (Program.convertTo type (← recur (.eval init scope frame)))
    | none => program.defaultOf type
  Machine.declareVar scope name (← Machine.copyStruct value)

def exec (node : Stmt) (scope : Nat) (frame : Frame) : Eval Unit := do
  match node.kind with
  | .block body => execAll recur body (← Machine.childScope scope) frame
  | .eval value => let _ ← recur (.eval value scope frame)
  | .declare type name init => declareLocal program recur type name init scope frame
  | .ifElse cond yes no =>
    if ← condition recur (some cond) scope frame then recur (.exec yes scope frame)
    else match no with
      | some other => recur (.exec other scope frame)
      | none => return
  | .whileLoop cond body => loop recur (some cond) [] body scope frame
  | .forLoop init cond step body =>
    let inner ← Machine.childScope scope
    execAll recur init inner frame
    loop recur cond step body inner frame
  | .forEach _ name iterable body =>
    let source ← recur (.eval iterable scope frame)
    forEach recur name body scope frame (← iterate source)
  | .ret none => exit (.ret .null)
  | .ret (some value) => exit (.ret (← recur (.eval value scope frame)))
  | .breakLoop => exit .breakLoop
  | .continueLoop => exit .continueLoop
  | .throw none => fault .rethrowOutsideCatch
  | .throw (some value) => exit (.throw (← recur (.eval value scope frame)))
  | .switch subject sections => execSwitch recur subject sections scope frame
  | .localFunction .. => fault .localFunction
  | .empty => return

def step : {α : Type} → Request α → Eval α
  | _, .eval node scope frame => eval program recur node scope frame
  | _, .exec node scope frame => exec program recur node scope frame
  | _, .loop cond step body scope frame => loop recur cond step body scope frame
  | _, .store target value scope frame => store program recur target value scope frame
  | _, .invoke target method args start => invoke program recur target method args start
  | _, .apply function args => applyClosure recur function args
  | _, .display value => display program recur value
  | _, .construct className object args => runCtor program recur className object args

end Step

end Unsugar.Eval
