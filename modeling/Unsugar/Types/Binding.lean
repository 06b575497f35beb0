import Unsugar.Types.Library
import Unsugar.Syntax.Vocabulary

namespace Unsugar

/-! # Binding type syntax

Which type a piece of type syntax means, given the declarations in scope.  A
declared name hides a library name, and of several declarations of one name the
last one counts.  A qualified name that is not known as it stands is known by
its last segment.
-/

structure TypeNames where
  decls : List TypeDecl
  /-- Every name that is a type parameter somewhere in the unit. -/
  typeParams : List String

def lastIndex? {α : Type} (test : α → Bool) (items : List α) : Option Nat :=
  go 0 items
where
  go (index : Nat) : List α → Option Nat
    | [] => none
    | item :: rest => (go (index + 1) rest).or (if test item then some index else none)

def lastSegment (name : String) : String :=
  String.ofList (name.toList.reverse.takeWhile (· ≠ '.')).reverse

def TypeDeclKind.shape : TypeDeclKind → TypeShape
  | classType | recordClass => .classType
  | structType | recordStruct => .structType
  | interfaceType => .interfaceType

inductive GenericDef where
  | library (kind : LibraryGeneric)
  | declared (index : Nat)
  deriving DecidableEq, Repr, Inhabited

namespace TypeNames

variable (names : TypeNames)

def plainDecl? (name : String) : Option Nat :=
  lastIndex? (fun decl => decl.name == name && decl.typeParams.isEmpty) names.decls

def genericDecl? (name : String) : Option Nat :=
  lastIndex? (fun decl => decl.name == name && !decl.typeParams.isEmpty) names.decls

def builtin? (name : String) : Option Ty :=
  if name == "dynamic" then some .unknown
  else ((Primitive.ofName? name).map Ty.prim).or ((LibraryType.ofName? name).map Ty.library)

def byName? (name : String) : Option Ty :=
  ((names.plainDecl? name).map Ty.declared).or (builtin? name)

def lookup? (name : String) : Option Ty :=
  match names.byName? name with
  | some type => some type
  | none =>
    let last := lastSegment name
    if last == name then none else names.byName? last

def typeParam? (name : String) : Option Ty :=
  if names.typeParams.contains name then some (.param name) else none

def generic? (name : String) : Option GenericDef :=
  ((names.genericDecl? name).map GenericDef.declared).or
    ((LibraryGeneric.ofName? name).map GenericDef.library)

def apply (name : String) (args : List Ty) : Ty :=
  match names.generic? (lastSegment name) with
  | some _ => .applied name args
  | none => .unknown

/-- What an applied type is made from.  A generic declaration that is written
    with a qualified name is known by its header only. -/
inductive Template where
  | library (kind : LibraryGeneric)
  | full (index : Nat)
  | header (index : Nat)
  | missing

def template (name : String) : Template :=
  match names.genericDecl? name with
  | some index => .full index
  | none =>
    match names.generic? (lastSegment name) with
    | some (.library kind) => .library kind
    | some (.declared index) => .header index
    | none => .missing

def declKind? (index : Nat) : Option TypeDeclKind :=
  names.decls[index]?.map (·.kind)

def shape : Ty → TypeShape
  | .unknown => .unknown
  | .prim kind => kind.shape
  | .library kind => kind.shape
  | .declared index => ((names.declKind? index).map (·.shape)).getD .unknown
  | .param _ => .typeParam
  | .applied name _ =>
    match names.template name with
    | .library kind => kind.shape
    | .full index | .header index => ((names.declKind? index).map (·.shape)).getD .unknown
    | .missing => .unknown
  | .array _ => .array
  | .nullable _ => .nullable
  | .tuple _ => .tuple

def isValueType (type : Ty) : Bool :=
  match type with
  | .prim kind => kind.isValueType
  | .library kind => kind.isValueType
  | .nullable _ | .tuple _ => true
  | .declared _ | .applied .. => names.shape type == .structType
  | .unknown | .param _ | .array _ => false

def nullableOf (inner : Ty) : Ty :=
  if names.isValueType inner && names.shape inner != .nullable then .nullable inner else inner

/-- A name without arguments.  A bare `Action` takes nothing and returns
    nothing. -/
def bindName (name : String) : Ty :=
  match (names.lookup? name).or (names.typeParam? name) with
  | some type => type
  | none =>
    if names.generic? name == some (.library .action) then .applied name [] else .unknown

mutual

def bind : TypeSyntax → Ty
  | .absent | .var | .dynamic => .unknown
  | .void => .void
  | .named name [] => names.bindName name
  | .named name (first :: rest) => names.apply name (bind first :: bindAll rest)
  | .array element => .array (bind element)
  | .nullable inner => names.nullableOf (bind inner)
  | .tuple elements => .tuple (bindAll elements)

def bindAll : List TypeSyntax → List Ty
  | [] => []
  | type :: rest => bind type :: bindAll rest

end

def appliedForm (name : String) (args : List Ty) : String × List Ty :=
  match names.template name with
  | .library kind => (kind.name, kind.arguments args)
  | .full index | .header index => ((names.decls[index]?.map (·.name)).getD name, args)
  | .missing => (name, args)

mutual

/-- Replace type parameters by types.  A generic type that does not mention any
    of them stays as it was written. -/
def substitute (map : List (String × Ty)) : Ty → Ty
  | .param name => (map.lookup name).getD (.param name)
  | .array element => .array (substitute map element)
  | .nullable inner => names.nullableOf (substitute map inner)
  | .tuple elements => .tuple (substituteAll map elements)
  | .applied name args =>
    let (_, old) := names.appliedForm name args
    let (form, new) := names.appliedForm name (substituteAll map args)
    if new = old then .applied name args else names.apply form new
  | .unknown => .unknown
  | .prim kind => .prim kind
  | .library kind => .library kind
  | .declared index => .declared index

def substituteAll (map : List (String × Ty)) : List Ty → List Ty
  | [] => []
  | type :: rest => substitute map type :: substituteAll map rest

end

end TypeNames

/-- Type parameters with their arguments; of parameters with the same name the
    last one counts. -/
def instantiation (params : List String) (args : List Ty) : List (String × Ty) :=
  (params.zip args).reverse

def TypeDecl.allTypeParams (decl : TypeDecl) : List String :=
  decl.typeParams ++ decl.members.flatMap fun member =>
    match member.kind with
    | .method _ typeParams _ _ _ => typeParams
    | _ => []

def CompilationUnit.typeNames (unit : CompilationUnit) (vocabulary : Vocabulary) : TypeNames where
  decls := unit.types
  typeParams := unit.types.flatMap TypeDecl.allTypeParams ++ vocabulary.typeParams

end Unsugar
