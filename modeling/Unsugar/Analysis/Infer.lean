import Unsugar.Analysis.Scope

namespace Unsugar

/-! # Inference

A walk through a tree that gives every expression a type.  Types are found from
the bottom up and guided by the type that the context expects; what cannot be
resolved stays unknown.  The walk is no type checker and rejects nothing.
-/

namespace Infer

/-! ## Rules for a single node -/

def literalType : Literal → Ty
  | .int _ => .int
  | .float _ => .double
  | .bool _ => .bool
  | .char _ => .char
  | .str _ => .string
  | .null => .null

def finish (node : Expr) (type expected : Ty) : Infer Ty := do
  record node.mark type expected
  recordConstant node
  return type

/-- The type that a library name stands for; a declaration can hide it. -/
def named (name : String) : Infer Ty :=
  return ((← types).names.lookup? name).getD .unknown

/-- The receiver of the innermost conditional access. -/
def receiver : Infer Ty := return (← read).receivers.headD .unknown

/-- Whether an expression that has been analyzed stands for a type. -/
def isTypeReceiver (node : Expr) : Infer Bool := do
  match node.kind with
  | .typeRef _ => return true
  | _ =>
    match ((← get).facts.get node.id).resolution.found with
    | some reference => return reference.kind = .type
    | none => return false

def signatureOf (type : Ty) : Infer (Ty × List Ty) := do
  let data := (← types).data type
  if data.shape = .delegate then return LibraryGeneric.signature data.args
  else return (.unknown, [])

def methodParams (method : Reference) (arity : Nat) : Infer (List Ty) := do
  match method.container with
  | none => return []
  | some container =>
    let members := (← types).candidates container method.name
    return ((members.find? fun (_, member) => member.params.length = arity).map
      fun (_, member) => member.params).getD []

def calleeSignature (callee : Option Reference) (arity : Nat) : Infer (Ty × List Ty) := do
  match callee with
  | none => return (.unknown, [])
  | some reference =>
    if reference.kind = .method then
      return (reference.type, ← methodParams reference arity)
    else signatureOf reference.type

/-- Parameters of the constructor that creation with this many arguments calls:
    the primary one, or the first that is declared. -/
def ctorParams (type : Ty) (arity : Nat) : Infer (List Ty) := do
  let types ← types
  let primary := types.primaryParams type
  if primary.length = arity ∧ 0 < arity then return primary.map (·.2)
  let name := (types.data type).name
  let members := (types.names.decls.filter fun decl => decl.name == name).flatMap (·.members)
  return (members.findSome? fun member =>
    match member.kind with
    | .ctor params _ _ =>
      if params.length = arity then
        some (params.map fun param => types.names.bind param.type)
      else none
    | _ => none).getD []

def memberType (type : Ty) (name : String) : Infer Ty :=
  return (((← types).findMember? type name).map (·.type)).getD .unknown

def componentsOf (type : Ty) : Infer (List Ty) := do
  let data := (← types).data type
  match type with
  | .tuple elements => return elements
  | _ => return data.components.map (·.type)

/-- What a subscript yields: a part of the receiver for a range, else an
    element. -/
def elementAccess (receiver : Ty) (args : List Ty) : Infer Ty := do
  let range ← named "Range"
  if args = [range] ∧ range ≠ .unknown then return receiver
  else return (← types).elementOf receiver

def functionType (params : List Ty) (result : Ty) : Infer Ty := do
  let names := (← types).names
  if result = .void then return names.apply "Action" params
  else return names.apply "Func" (params ++ [result])

def commonType (left right : Ty) : Infer Ty := do
  let types ← types
  if left = right then return left
  else if left = .null then return types.names.nullableOf right
  else if right = .null then return types.names.nullableOf left
  else if left = .unknown then return right
  else if right = .unknown then return left
  else if (types.classify left right).isImplicit then return right
  else if (types.classify right left).isImplicit then return left
  else return .unknown

def rank? : Ty → Option Nat
  | .char | .int => some 1
  | .long => some 2
  | .double => some 3
  | _ => none

def promote (left right : Ty) : Ty :=
  if left = .bool ∧ right = .bool then .bool
  else
    match rank? left, rank? right with
    | some left, some right =>
      match max left right with
      | 1 => .int
      | 2 => .long
      | _ => .double
    | _, _ => .unknown

def bindOr (type : TypeSyntax) (fallback : Ty) : Infer Ty := do
  match type with
  | .absent | .var => return fallback
  | _ => return (← types).names.bind type

def bind (type : TypeSyntax) : Infer Ty := return (← types).names.bind type

def valueExpected (type : Ty) : Ty := if type = .void then .unknown else type

/-- Declare the names of local functions before the list that holds them is
    analyzed, so that they can call each other. -/
def declareLocalFunction (node : Stmt) : Infer Unit := do
  match node.kind with
  | .localFunction name _ params ret _ =>
    let result ← bind ret
    let paramTypes ← params.mapM fun param => do
      let type ← bind param.type
      return if param.passing = .byValue then type else .unknown
    declareAt node.mark name .localFunction (← functionType paramTypes result)
  | _ => return

def designate (mark : Mark) (name : String) (type : Ty) : Infer Unit := do
  if name == "" || name == "_" then return
  declareAt mark name .localVariable type

/-- Run the body of a function that promises `result`; its result, or the first
    one seen when nothing is promised. -/
def inFunction (result : Ty) (body : Infer Ty) : Infer Ty := do
  let outer := (← get).observed
  modify fun state => { state with observed := none }
  let seen ← withReader (fun env => { env with result }) body
  modify fun state => { state with observed := outer }
  return if result = .unknown then seen else result

/-- Note a result; only the first one that is not `null` counts. -/
def observe (type : Ty) : Infer Unit :=
  modify fun state =>
    if state.observed.isNone && type != .null then { state with observed := some type }
    else state

/-- What the arms of a switch have shown so far. -/
structure ArmTypes where
  common : Option Ty := none
  sawNull : Bool := false
  conflict : Bool := false

namespace ArmTypes

def add (seen : ArmTypes) (type : Ty) : Infer ArmTypes := do
  if type = .unknown then return seen
  else if type = .null then return { seen with sawNull := true }
  else
    match seen.common with
    | none => return { seen with common := some type }
    | some previous =>
      let common ← commonType previous type
      if common = .unknown then return { seen with conflict := true }
      else return { seen with common := some common }

def result (seen : ArmTypes) (expected : Ty) : Infer Ty := do
  match seen.common with
  | none => return expected
  | some type =>
    if seen.conflict then return expected
    else if seen.sawNull then return (← types).names.nullableOf type
    else return type

end ArmTypes

end Infer

open Infer

mutual

def Pattern.narrow (types : Universe) (subject : Ty) : Pattern → Ty
  | ⟨_, kind⟩ => kind.narrow types subject

def PatternKind.narrow (types : Universe) (subject : Ty) : PatternKind → Ty
  | .declaration .absent _ | .declaration .var _ | .type .absent | .type .var => subject
  | .declaration type _ | .type type => types.names.bind type
  | .recursive .absent _ _ _ => subject
  | .recursive type _ _ _ => types.names.bind type
  | .paren inner => inner.narrow types subject
  | .and left right => right.narrow types (left.narrow types subject)
  | _ => subject

end

mutual

def Expr.infer : Expr → Ty → Infer Ty
  | ⟨mark, kind⟩, expected => do
    let type ← kind.infer mark expected
    finish ⟨mark, kind⟩ type expected

def ExprKind.infer (mark : Mark) : ExprKind → Ty → Infer Ty
  | .literal value, _ => return literalType value
  | .ident name, _ => return valueType (← resolveAt mark name none)
  | .self, _ => return (← read).currentType.getD .unknown
  | .base, _ => do
    match (← read).currentType with
    | some type => return ((← types).data type).base.getD .unknown
    | none => return .unknown
  | .typeRef type, _ => do
    let type ← bind type
    let reference : Reference :=
      { name := ((← types).data type).name, kind := .type, type, isStatic := true }
    update mark fun facts => { facts with resolution := { found := some reference } }
    return type
  | .member receiver name, _ => do
    let type ← receiver.infer .unknown
    return valueType (← memberAt mark type name none (← isTypeReceiver receiver))
  | .conditionalAccess receiver access, _ => do
    let type ← receiver.infer .unknown
    let result ← withReader
      (fun env => { env with receivers := Universe.underlying type :: env.receivers })
      (access.infer .unknown)
    if result = .void ∨ result = .unknown then return result
    else return (← types).names.nullableOf result
  | .memberBinding name, _ => do
    return valueType (← memberAt mark (← receiver) name none false)
  | .elementBinding args, _ => do
    let type ← receiver
    elementAccess type (← inferEach args [])
  | .call callee args, _ => do
    let (result, params) ← callee.inferCallee args.length
    let _ ← inferEach args params
    return result
  | .index receiver args, _ => do
    let type ← receiver.infer .unknown
    elementAccess type (← inferEach args [])
  | .fromEnd value, _ => do
    let _ ← value.infer .int
    named "Index"
  | .range start stop, _ => do
    let index ← named "Index"
    inferOption start index
    inferOption stop index
    named "Range"
  | .unary .not operand, _ => do
    let _ ← operand.infer .bool
    return .bool
  | .unary _ operand, _ => operand.infer .unknown
  | .binary op left right, expected => do
    if op.isLogical then
      let _ ← left.infer .bool
      let _ ← right.infer .bool
      return .bool
    else if op = .coalesce then
      let leftType ← left.infer expected
      let inner := Universe.underlying leftType
      let rightType ← right.infer inner
      if rightType = .null ∨ (← types).shape rightType = .nullable then return leftType
      else return inner
    else if op.isComparison then
      let leftType ← left.infer .unknown
      let _ ← right.infer (if leftType = .null then .unknown else leftType)
      return .bool
    else
      let leftType ← left.infer .unknown
      let rightType ← right.infer .unknown
      if op = .add ∧ (leftType = .string ∨ rightType = .string) then return .string
      else return promote leftType rightType
  | .assign none ⟨target, .tuple elements⟩ value, _ => do
    let type ← value.infer .unknown
    inferTargets elements (← componentsOf type)
    record target type .unknown
    return type
  | .assign _ ⟨target, .discard⟩ value, _ => do
    let type ← value.infer .unknown
    record target type .unknown
    return type
  | .assign op target value, _ => do
    let type ← target.infer .unknown
    let _ ← value.infer (if op.isNone then type else .unknown)
    return type
  | .conditional cond yes no, expected => do
    let _ ← cond.infer .bool
    let yesType ← yes.infer expected
    let noType ← no.infer expected
    let common ← commonType yesType noType
    return if common = .unknown then expected else common
  | .isPattern subject pattern, _ => do
    let type ← subject.infer .unknown
    pattern.infer type
    return .bool
  | .typeTest subject _, _ => do
    let _ ← subject.infer .unknown
    return .bool
  | .cast type operand, _ => do
    let _ ← operand.infer .unknown
    bind type
  | .seq effects value, expected => do
    let _ ← inferEach effects []
    value.infer expected
  | .lambda _ params _ body, expected => do
    let isDelegate := ((← types).data expected).shape = .delegate
    let (expectedResult, expectedParams) ← signatureOf expected
    let (paramTypes, result) ← inScope do
      let paramTypes ← declareLambdaParams params expectedParams
      let result ← inFunction expectedResult (body.infer expectedResult)
      return (paramTypes, result)
    if isDelegate then return expected else functionType paramTypes result
  | .create type args inits, expected => do
    let created ← match type with
      | .absent => pure expected
      | type => bind type
    let _ ← inferEach args (← ctorParams created args.length)
    inferInits inits created
    return created
  | .copyWith receiver inits, expected => do
    let type ← receiver.infer expected
    inferInits inits type
    return type
  | .collection items, expected => do
    let first ← inferItems items ((← types).elementOf expected)
    return if expected = .unknown then .array (first.getD .object) else expected
  | .spread value, _ => value.infer .unknown
  | .switch subject arms, expected => do
    let type ← subject.infer .unknown
    (← inferArms arms type expected {}).result expected
  | .throw value, expected => do
    let _ ← value.infer .unknown
    return expected
  | .defaultOf type, expected =>
    match type with
    | .absent => return expected
    | type => bind type
  | .tuple items, expected => return .tuple (← inferEach items (← componentsOf expected))
  | .await value, _ => do
    let _ ← value.infer .unknown
    return .unknown
  | .interpolated parts, _ => do
    inferParts parts
    return .string
  | .declaration type name, expected => do
    let declared ← bindOr type expected
    declareAt mark name .localVariable declared
    return declared
  | .discard, expected => return expected
  | .out inner, expected => inner.infer expected
  | .paren inner, expected => inner.infer expected

/-- Result and parameter types of what is called.  A name is resolved with the
    number of arguments in view. -/
def Expr.inferCallee : Expr → Nat → Infer (Ty × List Ty)
  | ⟨mark, .ident name⟩, arity => do
    let callee ← resolveAt mark name (some arity)
    record mark (valueType callee) .unknown
    calleeSignature callee arity
  | ⟨mark, .member receiver name⟩, arity => do
    let type ← receiver.infer .unknown
    let callee ← memberAt mark type name (some arity) (← isTypeReceiver receiver)
    record mark (valueType callee) .unknown
    calleeSignature callee arity
  | ⟨mark, .memberBinding name⟩, arity => do
    let callee ← memberAt mark (← receiver) name (some arity) false
    record mark (valueType callee) .unknown
    calleeSignature callee arity
  | ⟨mark, kind⟩, _ => do
    let type ← kind.infer mark .unknown
    signatureOf (← finish ⟨mark, kind⟩ type .unknown)

def inferEach : List Expr → List Ty → Infer (List Ty)
  | [], _ => return []
  | node :: rest, expected => do
    let type ← node.infer (expected.headD .unknown)
    return type :: (← inferEach rest expected.tail)

def inferOption : Option Expr → Ty → Infer Unit
  | none, _ => return
  | some node, expected => do
    let _ ← node.infer expected

def inferTargets : List Expr → List Ty → Infer Unit
  | [], _ => return
  | ⟨mark, .tuple nested⟩ :: rest, components => do
    let component := components.headD .unknown
    inferTargets nested (← componentsOf component)
    record mark component .unknown
    inferTargets rest components.tail
  | node :: rest, components => do
    let _ ← match node.kind with
      | .declaration .. | .discard => node.infer (components.headD .unknown)
      | _ => node.infer .unknown
    inferTargets rest components.tail

def inferItems : List Expr → Ty → Infer (Option Ty)
  | [], _ => return none
  | node :: rest, expected => do
    let type ← match node.kind with
      | .spread _ => pure ((← types).elementOf (← node.infer .unknown))
      | _ => node.infer expected
    let first ← inferItems rest expected
    return if type = .unknown ∨ type = .null then first else some type

def inferInits : List FieldInit → Ty → Infer Unit
  | [], _ => return
  | ⟨name, value⟩ :: rest, type => do
    let _ ← value.infer (← memberType type name)
    inferInits rest type

def inferArms : List Arm → Ty → Ty → ArmTypes → Infer ArmTypes
  | [], _, _, seen => return seen
  | ⟨_, pattern, guard, result⟩ :: rest, subject, expected, seen => do
    let type ← inScope do
      pattern.infer subject
      inferOption guard .bool
      result.infer expected
    let seen ← match result.kind with
      | .throw _ => pure seen
      | _ => seen.add type
    inferArms rest subject expected seen

def inferParts : List Part → Infer Unit
  | [] => return
  | .text _ :: rest => inferParts rest
  | .hole value alignment _ :: rest => do
    let _ ← value.infer .unknown
    inferOption alignment .int
    inferParts rest

/-- The result of a function body, as far as it shows. -/
def LambdaBody.infer : LambdaBody → Ty → Infer Ty
  | .expr value, result => value.infer (valueExpected result)
  | .block body, _ => do
    body.infer
    return (← get).observed.getD .void

def declareLambdaParams : List Param → List Ty → Infer (List Ty)
  | [], _ => return []
  | ⟨type, name, _, _⟩ :: rest, expected => do
    let type ← match type with
      | .absent => pure (expected.headD .unknown)
      | type => bind type
    let _ ← declare name .parameter type
    return type :: (← declareLambdaParams rest expected.tail)

def Stmt.infer : Stmt → Infer Unit
  | ⟨mark, kind⟩ => kind.infer mark

def StmtKind.infer (mark : Mark) : StmtKind → Infer Unit
  | .block body => inScope do
      body.forM declareLocalFunction
      inferStmts body
  | .eval value => do
    let _ ← value.infer .unknown
  | .declare type name none => do
    declareAt mark name .localVariable (← bindOr type .unknown)
  | .declare type name (some init) => do
    let declared ← bindOr type .unknown
    let initType ← init.infer declared
    declareAt mark name .localVariable
      (if declared = .unknown ∧ initType ≠ .null then initType else declared)
  | .ifElse cond yes no => do
    let _ ← cond.infer .bool
    inScope yes.infer
    inferBranch? no
  | .whileLoop cond body => do
    let _ ← cond.infer .bool
    inScope body.infer
  | .forLoop init cond step body => inScope do
      inferStmts init
      inferOption cond .bool
      let _ ← inferEach step []
      inScope body.infer
  | .forEach type name iterable body => do
    let element := (← types).elementOf (← iterable.infer .unknown)
    let declared ← bindOr type element
    inScope do
      declareAt mark name .localVariable declared
      inScope body.infer
  | .ret none => return
  | .ret (some value) => do
    observe (← value.infer (valueExpected (← read).result))
  | .throw value => inferOption value .unknown
  | .switch subject sections => do
    let type ← subject.infer .unknown
    inferSections sections type
  | .localFunction _ _ params ret body => do
    let result ← bind ret
    inScope do
      inferParams params
      body.inferFunction result
  | .breakLoop => return
  | .continueLoop => return
  | .empty => return

def inferStmts : List Stmt → Infer Unit
  | [] => return
  | node :: rest => do
    node.infer
    inferStmts rest

def inferBranch? : Option Stmt → Infer Unit
  | none => return
  | some node => inScope node.infer

def inferSections : List Section → Ty → Infer Unit
  | [], _ => return
  | ⟨labels, body⟩ :: rest, subject => do
    inScope do
      inferLabels labels subject
      inferStmts body
    inferSections rest subject

def inferLabels : List Label → Ty → Infer Unit
  | [], _ => return
  | .default :: rest, subject => inferLabels rest subject
  | .case pattern guard :: rest, subject => do
    pattern.infer subject
    inferOption guard .bool
    inferLabels rest subject

def inferParams : List Param → Infer Unit
  | [] => return
  | ⟨type, name, _, default⟩ :: rest => do
    let type ← bind type
    inferOption default type
    let _ ← declare name .parameter type
    inferParams rest

def Body.inferFunction : Body → Ty → Infer Unit
  | .none, _ => return
  | .expr value, result => do
    let _ ← inFunction result (value.infer (valueExpected result))
  | .block body, result => do
    let _ ← inFunction result (do body.infer; return .void)

/-- Analyze a pattern against a value of type `subject`. -/
def Pattern.infer : Pattern → Ty → Infer Unit
  | ⟨mark, kind⟩, subject => kind.infer mark subject

def PatternKind.infer (mark : Mark) : PatternKind → Ty → Infer Unit
  | .constant value, subject => do
    let _ ← value.infer subject
  | .relational _ value, subject => do
    let _ ← value.infer subject
  | .declaration type name, subject => do
    designate mark name (← bindOr type subject)
  | .var name, subject => designate mark name subject
  | .recursive type positional properties designation, subject => do
    let matched ← match type with
      | .absent => pure subject
      | type => bind type
    inferPatterns positional (← componentsOf matched)
    inferProperties properties matched
    designate mark designation matched
  | .list elements designation, subject => do
    inferElements elements subject ((← types).elementOf subject)
    designate mark designation subject
  | .slice none, _ => return
  | .slice (some inner), subject => inner.infer subject
  | .not inner, subject => inner.infer subject
  | .paren inner, subject => inner.infer subject
  | .and left right, subject => do
    left.infer subject
    right.infer (left.narrow (← types) subject)
  | .or left right, subject => do
    left.infer subject
    right.infer subject
  | .type _, _ => return
  | .discard, _ => return

def inferPatterns : List Pattern → List Ty → Infer Unit
  | [], _ => return
  | node :: rest, subjects => do
    node.infer (subjects.headD .unknown)
    inferPatterns rest subjects.tail

def inferProperties : List PropertyPattern → Ty → Infer Unit
  | [], _ => return
  | ⟨path, inner⟩ :: rest, type => do
    inner.infer (← path.foldlM memberType type)
    inferProperties rest type

def inferElements : List Pattern → Ty → Ty → Infer Unit
  | [], _, _ => return
  | node :: rest, whole, element => do
    match node.kind with
    | .slice _ => node.infer whole
    | _ => node.infer element
    inferElements rest whole element

end

end Unsugar
