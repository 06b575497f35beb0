import Unsugar.Lower.PrimaryConstructor

namespace Unsugar.Pass

/-! # Records and `with`

A record becomes a class or struct with a property for each positional parameter
and members that compare, hash, print and copy it.  Members that are written by
hand are kept and not made again.
-/

/-- `r with { A = e }` becomes a function, called at once, that copies `r`, sets
    the members and returns the copy.  Values are copied by assignment. -/
def lowerCopyWith (node receiver : Expr) (inits : List FieldInit) : Pass Expr := do
  let span := node.span
  let ownType ← typeOf node
  let type ← if ownType = .unknown then typeOf receiver else pure ownType
  let copy ← fresh "c"
  let value :=
    if (← types).isValueType type then receiver else span.methodCall receiver "__Clone" []
  let written ← syntaxOf type
  let sets := inits.map fun init =>
    span.assignStmt (span.member (span.ident copy) init.name) init.value
  replace node (span.immediate written
    (span.declare written copy (some value) :: sets ++ [span.ret (span.ident copy)]))

structure RecordShape where
  name : String
  typeParams : List String
  params : List Param
  isStruct : Bool
  span : Span

namespace RecordShape

variable (shape : RecordShape)

def selfType : TypeSyntax := .named shape.name (shape.typeParams.map .simple)

def ownMember (name : String) : Expr := shape.span.member shape.span.self name

def objectCall (method : String) (args : List Expr) : Expr :=
  shape.span.methodCall (shape.span.typeRef (.simple "object")) method args

def isNull (value : Expr) : Expr :=
  shape.objectCall "ReferenceEquals" [value, shape.span.nullLit]

def method (name : String) (params : List Param) (ret : TypeSyntax) (body : List Stmt)
    (modifiers : List Modifier) : Member :=
  ⟨.method name [] params ret (.block (shape.span.block body)), modifiers, shape.span⟩

def implied (members : List Member) : List Param :=
  shape.params.filter fun param =>
    !members.any fun member => member.kind.name? == some param.name

def properties (members : List Member) : List Member :=
  (shape.implied members).map fun param =>
    ⟨.property param.type param.name (some .none) (some .none) none, [.isPublic], shape.span⟩

def assigns (members : List Member) : List Stmt :=
  (shape.implied members).map fun param =>
    shape.span.assignStmt (shape.ownMember param.name) (shape.span.ident param.name)

def emptyCtor : Member :=
  ⟨.ctor [] none (.block (shape.span.block [])), [.isPublic], shape.span⟩

def deconstruct : Member :=
  let span := shape.span
  let outs := shape.params.map fun param => (⟨param.type, param.name, .out, none⟩ : Param)
  let body := shape.params.map fun param =>
    span.assignStmt (span.ident param.name) (shape.ownMember param.name)
  shape.method "Deconstruct" outs .void body [.isPublic]

def equalsObject : Member :=
  let span := shape.span
  let subject := span.ident "obj"
  let test := span.typeTest subject shape.selfType
  let call := span.methodCall span.self "Equals" [span.cast shape.selfType subject]
  shape.method "Equals" [.plain (.simple "object") "obj"] (.simple "bool")
    [span.ret (span.binary .and test call)] [.isPublic, .isOverride]

/-- Components are compared one by one, after a test for `null` for classes. -/
def equalsSelf : Member :=
  let span := shape.span
  let other := span.ident "other"
  let notNull := if shape.isStruct then [] else [span.unary .not (shape.isNull other)]
  let same := shape.params.map fun param =>
    shape.objectCall "Equals" [shape.ownMember param.name, span.member other param.name]
  shape.method "Equals" [.plain shape.selfType "other"] (.simple "bool")
    [span.ret (span.conjunction (notNull ++ same))] [.isPublic]

def componentHash (types : Universe) (param : Param) : Expr :=
  let span := shape.span
  let value := shape.ownMember param.name
  let hash := span.methodCall value "GetHashCode" []
  if types.isPlainValue (types.names.bind param.type) then hash
  else span.conditional (span.binary .eq value span.nullLit) (span.intLit 0) hash

def hash (types : Universe) : Member :=
  let span := shape.span
  let current := span.ident "hash"
  let steps := shape.params.map fun param =>
    let scaled := span.binary .mul current (span.intLit 31)
    span.assignStmt current (span.binary .add scaled (shape.componentHash types param))
  shape.method "GetHashCode" [] (.simple "int")
    (span.declare (.simple "int") "hash" (some (span.intLit 17)) :: steps ++ [span.ret current])
    [.isPublic, .isOverride]

def operator (op : BinaryOp) (result : Expr) : Member :=
  let params : List Param := [.plain shape.selfType "left", .plain shape.selfType "right"]
  ⟨.operator op params (.simple "bool") (.block (shape.span.block [shape.span.ret result])),
    [.isPublic, .isStatic], shape.span⟩

def eqOperator : Member :=
  let span := shape.span
  let left := span.ident "left"
  let right := span.ident "right"
  let equals := span.methodCall left "Equals" [right]
  shape.operator .eq
    (if shape.isStruct then equals
      else span.conditional (shape.isNull left) (shape.isNull right) equals)

def neOperator : Member :=
  let span := shape.span
  let equal := span.binary .eq (span.ident "left") (span.ident "right")
  shape.operator .notEq (span.unary .not (span.paren equal))

def printMembers : Member :=
  let span := shape.span
  let pieces := (shape.params.zipIdx).flatMap fun (param, index) =>
    let label := (if index = 0 then "" else ", ") ++ param.name ++ " = "
    [span.strLit label, shape.ownMember param.name]
  let result := match pieces with
    | [] => span.strLit ""
    | first :: rest => rest.foldl (span.binary .add) first
  shape.method "__PrintMembers" [] (.simple "string") [span.ret result] [.isProtected]

def toText : Member :=
  let span := shape.span
  let result :=
    if shape.params.isEmpty then span.strLit (shape.name ++ " \x7b \x7d")
    else
      let members := span.methodCall span.self "__PrintMembers" []
      let head := span.binary .add (span.strLit (shape.name ++ " \x7b ")) members
      span.binary .add head (span.strLit " \x7d")
  shape.method "ToString" [] (.simple "string") [span.ret result] [.isPublic, .isOverride]

/-- A copy of all fields; structs are copied when they are returned. -/
def clone : Member :=
  let span := shape.span
  let result :=
    if shape.isStruct then span.self
    else span.cast shape.selfType (span.methodCall span.self "MemberwiseClone" [])
  shape.method "__Clone" [] shape.selfType [span.ret result] [.isPublic]

end RecordShape

def isMethod (name : String) (test : List Param → Bool) (member : Member) : Bool :=
  match member.kind with
  | .method written _ params _ _ => written == name && test params
  | _ => false

def isOperator (op : BinaryOp) (member : Member) : Bool :=
  match member.kind with
  | .operator written _ _ _ => written == op
  | _ => false

def isEmptyCtor (member : Member) : Bool :=
  match member.kind with
  | .ctor params _ _ => params.isEmpty
  | _ => false

def takes (name : String) : List Param → Bool
  | [param] => param.type.isNamed name
  | _ => false

def RecordShape.methods (shape : RecordShape) (types : Universe) (written : List Member) :
    List Member :=
  let missing (test : Member → Bool) (member : Member) : List Member :=
    if written.any test then [] else [member]
  let positional (members : List Member) : List Member :=
    if shape.params.isEmpty then [] else members
  positional (missing isEmptyCtor shape.emptyCtor) ++
    positional (missing (isMethod "Deconstruct" fun _ => true) shape.deconstruct) ++
    missing (isMethod "Equals" (takes "object")) shape.equalsObject ++
    missing (isMethod "Equals" fun params => takes shape.name params && !takes "object" params)
      shape.equalsSelf ++
    missing (isMethod "GetHashCode" List.isEmpty) (shape.hash types) ++
    missing (isOperator .eq) shape.eqOperator ++
    missing (isOperator .notEq) shape.neOperator ++
    missing (isMethod "__PrintMembers" List.isEmpty) shape.printMembers ++
    missing (isMethod "ToString" List.isEmpty) shape.toText ++
    missing (isMethod "__Clone" List.isEmpty) shape.clone

def lowerRecord (index : Nat) (decl : TypeDecl) : Pass TypeDecl := do
  let isStruct := decl.kind == .recordStruct
  let shape : RecordShape :=
    ⟨decl.name, decl.typeParams, decl.primary.getD [], isStruct, decl.span⟩
  markChanged
  let types ← types
  let members :=
    shape.properties decl.members ++ decl.members ++ shape.methods types decl.members
  lowerPrimary index (shape.assigns decl.members)
    { decl with kind := if isStruct then .structType else .classType, members }

end Unsugar.Pass
