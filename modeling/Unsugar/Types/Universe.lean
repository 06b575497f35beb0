import Unsugar.Types.Binding
import Unsugar.Text.Casing

namespace Unsugar

/-! # The types of a unit

What the types of a unit have: members, bases, components, and the conversions
between them.
-/

structure Universe where
  names : TypeNames
  definitions : Array TypeData
  /-- Parameters of the primary constructor of each declaration. -/
  primaries : Array (List (String × Ty))
  /-- Generic types that the unit writes down, and those they come with. -/
  written : List Ty

/-! ## Declarations -/

def TypeNames.basesOf (names : TypeNames) (decl : TypeDecl) : Ty × List Ty :=
  match decl.bases.map names.bind with
  | [] => (.object, [])
  | first :: rest =>
    if names.shape first = .classType ∧ decl.kind ≠ .interfaceType then (first, rest)
    else (.object, first :: rest)

def TypeNames.primaryOf (names : TypeNames) (decl : TypeDecl) : List (String × Ty) :=
  (decl.primary.getD []).map fun param => (param.name, names.bind param.type)

/-- The member that a deconstruction parameter reads: the first whose name is
    that of the parameter up to case. -/
def componentMember (declaredSoFar : List MemberInfo) (decl : TypeDecl) (param : String) : String :=
  let stored := decl.members.filterMap fun member =>
    match member.kind with
    | .field _ name _ | .property _ name _ _ _ => some name
    | _ => none
  let wanted := Casing.toLower param
  ((declaredSoFar.map (·.name) ++ stored).find? fun name =>
    Casing.toLower name == wanted).getD param

/-- Members and components known while a declaration is read. -/
structure Outline where
  members : List MemberInfo
  components : List Component

/-- A method that hands out the parts of a value. -/
def isDeconstructor (name : String) (params : List Param) : Bool :=
  name == "Deconstruct" && !params.isEmpty && params.all fun param => param.passing == .out

namespace Outline

def ofPrimary (names : TypeNames) (decl : TypeDecl) : Outline :=
  if decl.kind.isRecord then
    let params := names.primaryOf decl
    { members := params.map fun (name, type) => .ofProperty name type
      components := params.map fun (name, type) => ⟨name, type⟩ }
  else ⟨[], []⟩

def addMember (outline : Outline) (member : MemberInfo) : Outline :=
  { outline with members := outline.members ++ [member] }

/-- Add what a member declares.  A type without components gets them from the
    first deconstructor. -/
def add (names : TypeNames) (decl : TypeDecl) (outline : Outline) (member : Member) : Outline :=
  let isStatic := member.isStatic
  match member.kind with
  | .field type name _ =>
    outline.addMember { name, kind := .field, type := names.bind type, isStatic }
  | .property type name _ _ _ =>
    outline.addMember { name, kind := .property, type := names.bind type, isStatic }
  | .method name _ params ret _ =>
    let components :=
      if isDeconstructor name params && outline.components.isEmpty then
        params.map fun param =>
          ⟨componentMember outline.members decl param.name, names.bind param.type⟩
      else outline.components
    let method := MemberInfo.ofMethod name (names.bind ret)
      (params.map fun param => names.bind param.type) isStatic
    { outline with components }.addMember method
  | .ctor .. | .operator .. => outline

end Outline

def TypeDecl.header (decl : TypeDecl) : TypeData where
  name := decl.name
  shape := decl.kind.shape
  args := decl.typeParams.map Ty.param
  base := some .object
  isValueType := decl.kind.isValueType

def TypeNames.define (names : TypeNames) (decl : TypeDecl) : TypeData :=
  let (base, interfaces) := names.basesOf decl
  let outline := decl.members.foldl (Outline.add names decl) (Outline.ofPrimary names decl)
  { decl.header with
    base := some base
    interfaces
    members := outline.members
    components := outline.components }

def Ty.enumerableOf (element : Ty) : Ty := .applied "IEnumerable" [element]

/-- The generic types that one written type stands for: itself, and for an array
    or a library list also what enumerates it. -/
def TypeNames.generics (names : TypeNames) : Ty → List Ty
  | .applied name args =>
    match names.template name with
    | .library .list => [.applied name args, .enumerableOf (args.headD .unknown)]
    | _ => [.applied name args]
  | .array element => [.enumerableOf element]
  | _ => []

/-- The types of a unit whose forms wrote down `vocabulary`.  Enumerations of
    `char` need not be written, because every `string` is one. -/
def Universe.ofUnit (unit : CompilationUnit) (vocabulary : Vocabulary) : Universe :=
  let names := unit.typeNames vocabulary
  { names
    definitions := (unit.types.map names.define).toArray
    primaries := (unit.types.map names.primaryOf).toArray
    written := .enumerableOf .char ::
      (vocabulary.types.flatMap TypeSyntax.parts).flatMap fun type =>
        names.generics (names.bind type) }

namespace Universe

variable (types : Universe)

/-! ## Facts about a type -/

/-- Replace type parameters in members and components.  The base and the
    interfaces stay those of the open form. -/
def instantiate (data : TypeData) (params : List String) (args : List Ty) : TypeData :=
  let replace := types.names.substitute (instantiation params args)
  { data with
    args
    members := data.members.map fun member =>
      { member with type := replace member.type, params := member.params.map replace }
    components := data.components.map fun component =>
      { component with type := replace component.type } }

def typeParamsOf (index : Nat) : List String :=
  (types.names.decls[index]?.map (·.typeParams)).getD []

def data (type : Ty) : TypeData :=
  match type with
  | .unknown => .unknown
  | .prim kind => kind.data
  | .library kind => kind.data
  | .declared index => types.definitions[index]?.getD .unknown
  | .param name => .ofParam name
  | .applied name args =>
    match types.names.template name with
    | .library kind => kind.data type args
    | .full index =>
      types.instantiate (types.definitions[index]?.getD .unknown)
        (types.typeParamsOf index) args
    | .header index =>
      match types.names.decls[index]? with
      | some decl => { decl.header with args }
      | none => .unknown
    | .missing => .unknown
  | .array element => .ofArray element
  | .nullable inner => .ofNullable inner
  | .tuple elements => .ofTuple elements

def shape (type : Ty) : TypeShape := types.names.shape type

def isValueType (type : Ty) : Bool := types.names.isValueType type

/-- Parameters of the primary constructor.  A generic type that the unit writes
    down, or that comes with one it writes down, has none. -/
def primaryParams (type : Ty) : List (String × Ty) :=
  match type with
  | .declared index => types.primaries[index]?.getD []
  | .applied name args =>
    match types.names.template name with
    | .full index =>
      if types.written.contains type then []
      else
        let replace :=
          types.names.substitute (instantiation (types.typeParamsOf index) args)
        (types.primaries[index]?.getD []).map fun (param, type) => (param, replace type)
    | _ => []
  | _ => []

def elementOf (type : Ty) : Ty :=
  match type with
  | .nullable _ => .unknown
  | _ => (types.data type).element.getD .unknown

def underlying : Ty → Ty
  | .nullable inner => inner
  | type => type

/-! ## Members -/

/-- Searches along bases look at this many types. -/
def chainLimit : Nat := 65

/-- A type and its bases, nearest first.  The search does not leave an interface
    or a type parameter when `stopEarly` is set. -/
def chain (stopEarly : Bool) : (limit : Nat) → Ty → List Ty
  | 0, _ => []
  | limit + 1, type =>
    let shape := types.shape type
    if stopEarly && (shape == .interfaceType || shape == .typeParam) then [type]
    else
      match (types.data type).base with
      | some base => type :: chain stopEarly limit base
      | none => [type]

def ownMembers (name : String) (type : Ty) : List (Ty × MemberInfo) :=
  ((types.data type).members.filter fun member => member.name == name).map fun member =>
    (type, member)

/-- The members with this name that a type shows: those of the nearest type along
    its bases that has any.  All types but unknown ones have the members of
    `object`. -/
def candidates (type : Ty) (name : String) : List (Ty × MemberInfo) :=
  let found := (types.chain true chainLimit type).findSome? fun step =>
    match types.ownMembers name step with
    | [] => none
    | members => some members
  match found with
  | some members => members
  | none =>
    if type = .object ∨ types.shape type = .unknown then []
    else types.ownMembers name .object

def findMember? (type : Ty) (name : String) : Option MemberInfo :=
  let declared (step : Ty) := (types.data step).members.find? fun member => member.name == name
  match (types.chain true chainLimit type).findSome? declared with
  | some member => some member
  | none => if type = .object ∨ types.shape type = .unknown then none else declared .object

/-- The first member with this name along the bases alone. -/
def findInherited? (type : Ty) (name : String) : Option MemberInfo :=
  (types.chain false chainLimit type).findSome? fun step =>
    (types.data step).members.find? fun member => member.name == name

/-! ## Conversions -/

/-- A search through bases and interfaces visits this many types. -/
def visitLimit : Nat := 257

/-- Whether `target` is met when the types of a stack and all they lead to are
    visited, at most `limit` of them. -/
def reaches (target : Ty) : (limit : Nat) → List Ty → Bool
  | 0, _ | _, [] => false
  | limit + 1, type :: rest =>
    if type = target then true
    else
      let data := types.data type
      reaches target limit (data.interfaces.reverse ++ data.base.toList ++ rest)

/-- Whether a type is, derives from or implements another. -/
def isSubtype (type target : Ty) : Bool := types.reaches target visitLimit [type]

def isNumericWidening : Ty → Ty → Bool
  | .int, .long | .int, .double | .long, .double | .char, .int | .char, .long
  | .char, .double => true
  | _, _ => false

def isNumeric : Ty → Bool
  | .int | .long | .double | .char => true
  | _ => false

def classifyNull (target : Ty) : Conversion :=
  match target with
  | .nullable _ => .implicitNullable
  | _ => if types.isValueType target then .none else .implicitReference

def isOpen (type : Ty) : Bool :=
  types.shape type == .interfaceType || types.shape type == .typeParam

def classify (source target : Ty) : Conversion :=
  if source = target then .identity
  else if source.isUnknown || target.isUnknown then .explicit
  else if source = .null then types.classifyNull target
  else if target = .nullable source then .implicitNullable
  else if isNumericWidening source target then .implicitNumeric
  else if types.isSubtype source target then
    if types.isValueType source then .boxing else .implicitReference
  else if isNumeric source && isNumeric target then .explicit
  else if types.isSubtype target source || types.isOpen target || types.isOpen source then
    .explicit
  else .none

end Universe

end Unsugar
