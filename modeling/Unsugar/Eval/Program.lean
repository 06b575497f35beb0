import Unsugar.Eval.Machine

namespace Unsugar

/-! # Programs

The declarations of a unit as a running program sees them: classes by name,
members by name along the base chain, and which values belong to which types.
-/

structure Program where
  types : List TypeDecl

def builtinBase? : String → Option String
  | "SwitchExpressionException" => some "InvalidOperationException"
  | "InvalidOperationException" | "ArgumentNullException" | "NullReferenceException"
  | "InvalidCastException" | "IndexOutOfRangeException" | "DivideByZeroException" =>
    some "Exception"
  | _ => none

def builtinNames : List String :=
  ["object", "int", "long", "double", "bool", "char", "string", "List", "IEnumerable",
    "Func", "Action", "Index", "Range", "Console", "Math", "Exception"]

def isBuiltinType (name : String) : Bool :=
  builtinNames.contains name || (builtinBase? name).isSome

structure Code where
  owner : String
  params : List Param
  body : Body

namespace Program

def find? (program : Program) (name : String) : Option TypeDecl :=
  program.types.reverse.find? fun decl => decl.name == name

def declares (program : Program) (name : String) : Bool := (program.find? name).isSome

def knows (program : Program) (name : String) : Bool :=
  program.declares name || isBuiltinType name

def baseClass? (program : Program) (name : String) : Option String := do
  let decl ← program.find? name
  decl.bases.findSome? fun base =>
    match base with
    | .named base _ =>
      match program.find? base with
      | some decl => if decl.kind = .interfaceType then none else some base
      | none => none
    | _ => none

def chainFrom (program : Program) : (steps : Nat) → String → List TypeDecl
  | 0, _ => []
  | steps + 1, name =>
    match program.find? name with
    | none => []
    | some decl =>
      decl :: match program.baseClass? name with
        | none => []
        | some base => program.chainFrom steps base

/-- The declared class and its declared bases, nearest first. -/
def chain (program : Program) (name : String) : List TypeDecl :=
  program.chainFrom program.types.length name

/-- Whether a class is, derives from or implements `target`.  A chain of bases
    is no longer than the declared types and the built-in exceptions. -/
def derivesWithin (program : Program) (target : String) : (steps : Nat) → String → Bool
  | 0, name => name == target
  | steps + 1, name =>
    name == target ||
      match program.find? name with
      | some decl =>
        decl.bases.any fun base =>
          match base with
          | .named base _ => program.derivesWithin target steps base
          | _ => false
      | none =>
        match builtinBase? name with
        | some base => program.derivesWithin target steps base
        | none => false

def derives (program : Program) (name target : String) : Bool :=
  program.derivesWithin target (program.types.length + 3) name

/-! ## Types of values -/

def isInstance (program : Program) (machine : Machine) (value : Value) :
    TypeSyntax → Bool
  | .nullable inner => !value.isNull && program.isInstance machine value inner
  | .array _ =>
    match value with
    | .list address => (machine.sequences.getD address default).isArray
    | _ => false
  | .tuple elements =>
    match value with
    | .tuple items => items.length == elements.length
    | _ => false
  | .var | .dynamic => !value.isNull
  | .void | .absent => false
  | .named name _ =>
    match name, value with
    | _, .null => false
    | "object", _ => true
    | "int", .int _ | "long", .int _ | "double", .double _ | "bool", .bool _
    | "char", .char _ | "string", .str _ | "IEnumerable", .list _
    | "IEnumerable", .str _ | "Func", .closure _ | "Action", .closure _ => true
    | "List", .list address => !(machine.sequences.getD address default).isArray
    | name, .object address =>
      program.derives (machine.objects.getD address default).className name
    | _, _ => false

theorem isInstance_null (program : Program) (machine : Machine) : (type : TypeSyntax) →
    program.isInstance machine .null type = false
  | .nullable _ | .absent | .var | .dynamic | .void | .array _ | .tuple _ => rfl
  | .named .. => by rw [isInstance]

def accepts (program : Program) (machine : Machine) (value : Value) :
    TypeSyntax → Option Nat
  | .absent | .var | .dynamic => some 0
  | .nullable inner =>
    if value.isNull then some 1 else program.accepts machine value inner
  | .named name args =>
    if name == "object" || !program.knows name then some 0
    else
      match value with
      | .null =>
        if ["int", "long", "double", "bool", "char"].contains name then none else some 1
      | value =>
        let widens := match value with
          | .int _ => name == "double"
          | _ => false
        if widens || program.isInstance machine value (.named name args) then some 1
        else none
  | type =>
    if value.isNull || program.isInstance machine value type then some 1 else none

def fits (program : Program) (machine : Machine) : List Param → List Value → Option Nat
  | param :: params, arg :: args =>
    if param.passing = .variadic then some 0
    else do
      let fit ← program.accepts machine arg param.type
      let rest ← program.fits machine params args
      return fit + rest
  | _, _ => some 0

def overloadScore (program : Program) (machine : Machine) (params : List Param)
    (args : List Value) : Option Nat :=
  let variadic := match params.getLast? with
    | some param => param.passing == .variadic
    | none => false
  if params.length < args.length && !variadic then none
  else if (params.drop args.length).any fun param =>
      param.default.isNone && param.passing != .variadic then none
  else program.fits machine params args

/-- Keep the better of two scored candidates, the earlier one when equal. -/
def better {α : Type} : Option (Nat × α) → Option (Nat × α) → Option (Nat × α)
  | none, candidate => candidate
  | best, none => best
  | some best, some candidate =>
    if best.1 < candidate.1 then some candidate else some best

def pickBest {α : Type} (candidates : List (Option (Nat × α))) : Option α :=
  (candidates.foldl better none).map (·.2)

/-! ## Members -/

def methodCandidate (program : Program) (machine : Machine) (owner name : String)
    (args : List Value) (member : Member) : Option (Nat × (Code × Bool)) :=
  match member.kind with
  | .method declared _ params _ body =>
    match body with
    | .none => none
    | body =>
      if declared == name then
        (program.overloadScore machine params args).map fun score =>
          (score, ⟨owner, params, body⟩, member.isStatic)
      else none
  | _ => none

/-- The method that a call runs, and whether it is static: the best overload of
    the nearest class that has one. -/
def findMethod? (program : Program) (machine : Machine) (className name : String)
    (args : List Value) : Option (Code × Bool) :=
  (program.chain className).findSome? fun decl =>
    pickBest (decl.members.map (program.methodCandidate machine decl.name name args))

def findOperator? (program : Program) (className : String) (op : BinaryOp) :
    Option Code :=
  (program.chain className).findSome? fun decl =>
    decl.members.findSome? fun member =>
      match member.kind with
      | .operator declared params _ body =>
        if declared = op then some ⟨decl.name, params, body⟩ else none
      | _ => none

def accessors? (name : String) (decl : TypeDecl) : Option (Option Body × Option Body) :=
  decl.members.findSome? fun member =>
    match member.kind with
    | .property _ declared getter setter _ =>
      if declared == name then some (getter, setter) else none
    | _ => none

def accessorCode (owner : String) : Option Body → Option Code
  | none | some .none => none
  | some body => some ⟨owner, [], body⟩

def findProperty? (program : Program) (className name : String) :
    Option (String × Option Body × Option Body) :=
  (program.chain className).findSome? fun decl =>
    (accessors? name decl).map fun accessors => (decl.name, accessors)

def findGetter? (program : Program) (className name : String) : Option Code := do
  let (owner, getter, _) ← program.findProperty? className name
  accessorCode owner getter

def findSetter? (program : Program) (className name : String) : Option Code := do
  let (owner, _, setter) ← program.findProperty? className name
  accessorCode owner setter

def hasStatic (program : Program) (className name : String) : Bool :=
  match program.find? className with
  | none => false
  | some decl =>
    decl.members.any fun member => member.isStatic && member.kind.name? == some name

/-! ## Conversions and default values -/

def convertTo : TypeSyntax → Value → Value
  | .nullable inner, value => convertTo inner value
  | .named "double" _, .int value => .double (Binary64.ofInt value)
  | _, value => value

def storage? (member : Member) : Option (TypeSyntax × String) :=
  if member.isStatic then none
  else match member.kind with
    | .field type name _ | .property type name _ _ _ => some (type, name)
    | _ => none

def simpleDefault : TypeSyntax → Value
  | .named "int" _ | .named "long" _ => .int 0
  | .named "double" _ => .double 0
  | .named "bool" _ => .bool false
  | .named "char" _ => .char (Char.ofNat 0)
  | _ => .null

def structOf? (program : Program) : TypeSyntax → Option TypeDecl
  | .named name _ =>
    if ["int", "long", "double", "bool", "char"].contains name then none
    else (program.find? name).filter fun decl => decl.kind.isValueType
  | _ => none

/-- The value a variable of a type starts with: a struct holds the defaults of
    its fields. -/
def defaultWithin (program : Program) : (steps : Nat) → TypeSyntax → Eval Value
  | 0, type => return simpleDefault type
  | steps + 1, type => do
    match program.structOf? type with
    | none => return simpleDefault type
    | some decl =>
      let object ← Machine.allocObject decl.name true []
      match object with
      | .object address =>
        for (type, field) in decl.members.filterMap storage? do
          Machine.setField address field (← program.defaultWithin steps type)
      | _ => pure ()
      return object

/-- The default of any type; structs nest no deeper than there are declared
    types. -/
def defaultOf (program : Program) (type : TypeSyntax) : Eval Value :=
  program.defaultWithin (program.types.length + 1) type

def cast (program : Program) (value : Value) : TypeSyntax → Eval Value
  | .nullable inner => if value.isNull then return value else program.cast value inner
  | .named name args => do
    match name, value with
    | "int", .double bits | "long", .double bits =>
      return .int (wrap32 (Binary64.truncate bits))
    | "int", .char char | "long", .char char => return .int char.toNat
    | "double", .int value => return .double (Binary64.ofInt value)
    | "char", .int code =>
      if 0 ≤ code ∧ code.toNat.isValidChar then return .char (Char.ofNat code.toNat)
      else Machine.raiseCast
    | _, .null => return .null
    | name, value =>
      if program.knows name &&
          !program.isInstance (← get) value (.named name args) then
        Machine.raiseCast
      else return value
  | _ => return value

end Program

/-! ## Requests

Evaluation is described one step at a time.  A step answers a request and may
make further requests; the interpreter ties the steps together under a bound on
how deeply requests nest.
-/

/-- Result of a call, with the scope of its parameters when the caller can write
    `out` arguments back. -/
structure CallResult where
  value : Value
  params : Option (List Param × Nat) := none

/-- What evaluation can ask for, indexed by the sort of answer. -/
inductive Request : Type → Type where
  | eval (node : Expr) (scope : Nat) (frame : Frame) : Request Value
  | exec (node : Stmt) (scope : Nat) (frame : Frame) : Request Unit
  /-- Go on with a loop whose opening statements have run. -/
  | loop (cond : Option Expr) (step : List Expr) (body : Stmt) (scope : Nat)
      (frame : Frame) : Request Unit
  /-- Store a value that is already copied into what an expression denotes. -/
  | store (target : Expr) (value : Value) (scope : Nat) (frame : Frame) : Request Unit
  /-- Call a method on a value.  The search starts at `start`, if given, else at
      the class of the value. -/
  | invoke (target : Value) (method : String) (args : List Value)
      (start : Option String) : Request CallResult
  | apply (function : Value) (args : List Value) : Request CallResult
  | display (value : Value) : Request String
  | construct (className : String) (object : Value) (args : List Value) : Request Unit

abbrev Answer := ∀ {α : Type}, Request α → Eval α

end Unsugar
