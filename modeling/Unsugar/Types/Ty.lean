namespace Unsugar

/-! # Types

A type is a term: two types are the same exactly when the terms are.  What a
type has (members, a base, an element) depends on the declarations it is used
with, and is worked out from the term when it is asked for.
-/

inductive Primitive where
  | object
  | bool
  | int
  | long
  | double
  | char
  | string
  | void
  | null
  deriving DecidableEq, Repr, Inhabited

inductive LibraryType where
  | index
  | range
  | exception
  | invalidOperation
  | switchExpression
  | argumentNull
  | console
  | math
  deriving DecidableEq, Repr, Inhabited

inductive Ty where
  /-- The type of anything that cannot be resolved. -/
  | unknown
  | prim (kind : Primitive)
  | library (kind : LibraryType)
  /-- The declaration with this index in its unit; for a generic declaration,
      its open form. -/
  | declared (index : Nat)
  | param (name : String)
  /-- A generic type with its arguments, under the name it was written with. -/
  | applied (name : String) (args : List Ty)
  | array (element : Ty)
  | nullable (inner : Ty)
  | tuple (elements : List Ty)
  deriving Repr, Inhabited

namespace Ty

@[match_pattern] abbrev object : Ty := .prim .object
@[match_pattern] abbrev bool : Ty := .prim .bool
@[match_pattern] abbrev int : Ty := .prim .int
@[match_pattern] abbrev long : Ty := .prim .long
@[match_pattern] abbrev double : Ty := .prim .double
@[match_pattern] abbrev char : Ty := .prim .char
@[match_pattern] abbrev string : Ty := .prim .string
@[match_pattern] abbrev void : Ty := .prim .void
@[match_pattern] abbrev null : Ty := .prim .null

mutual

/-- Whether two types are the same term. -/
def same : Ty → Ty → Bool
  | unknown, unknown => true
  | prim left, prim right => left == right
  | library left, library right => left == right
  | declared left, declared right => left == right
  | param left, param right => left == right
  | applied left leftArgs, applied right rightArgs =>
    left == right && sameAll leftArgs rightArgs
  | array left, array right => left.same right
  | nullable left, nullable right => left.same right
  | tuple left, tuple right => sameAll left right
  | _, _ => false

def sameAll : List Ty → List Ty → Bool
  | [], [] => true
  | left :: lefts, right :: rights => left.same right && sameAll lefts rights
  | _, _ => false

end

mutual

theorem same_refl : (type : Ty) → type.same type = true
  | unknown => rfl
  | prim _ | library _ | declared _ | param _ => by simp [same]
  | applied _ args => by simp [same, sameAll_refl args]
  | array element => by simp [same, same_refl element]
  | nullable inner => by simp [same, same_refl inner]
  | tuple elements => by simp [same, sameAll_refl elements]

theorem sameAll_refl : (types : List Ty) → sameAll types types = true
  | [] => rfl
  | type :: rest => by simp [sameAll, same_refl type, sameAll_refl rest]

end

mutual

theorem eq_of_same : (left right : Ty) → left.same right = true → left = right
  | unknown, right, equal => by cases right <;> simp_all [same]
  | prim _, right, equal => by cases right <;> simp_all [same]
  | library _, right, equal => by cases right <;> simp_all [same]
  | declared _, right, equal => by cases right <;> simp_all [same]
  | param _, right, equal => by cases right <;> simp_all [same]
  | applied _ leftArgs, right, equal => by
    cases right with
    | applied _ rightArgs =>
      simp only [same, Bool.and_eq_true, beq_iff_eq] at equal
      rw [equal.1, eq_of_sameAll leftArgs rightArgs equal.2]
    | _ => simp [same] at equal
  | array left, right, equal => by
    cases right with
    | array right => rw [eq_of_same left right (by simpa [same] using equal)]
    | _ => simp [same] at equal
  | nullable left, right, equal => by
    cases right with
    | nullable right => rw [eq_of_same left right (by simpa [same] using equal)]
    | _ => simp [same] at equal
  | tuple lefts, right, equal => by
    cases right with
    | tuple rights => rw [eq_of_sameAll lefts rights (by simpa [same] using equal)]
    | _ => simp [same] at equal

theorem eq_of_sameAll : (lefts rights : List Ty) → sameAll lefts rights = true → lefts = rights
  | [], rights, equal => by cases rights <;> simp_all [sameAll]
  | left :: lefts, rights, equal => by
    cases rights with
    | nil => simp [sameAll] at equal
    | cons right rights =>
      simp only [sameAll, Bool.and_eq_true] at equal
      rw [eq_of_same left right equal.1, eq_of_sameAll lefts rights equal.2]

end

instance : DecidableEq Ty := fun left right =>
  if equal : left.same right = true then
    isTrue (eq_of_same left right equal)
  else
    isFalse fun same => equal (same ▸ same_refl left)

def isUnknown (type : Ty) : Bool := type == unknown

end Ty

inductive TypeShape where
  | primitive
  | classType
  | structType
  | interfaceType
  | array
  | tuple
  | nullable
  /-- `Func` and `Action`; the arguments are parameters, then the result. -/
  | delegate
  | typeParam
  | null
  | void
  | unknown
  deriving DecidableEq, Repr, Inhabited

def TypeShape.name : TypeShape → String
  | primitive => "Primitive"
  | classType => "Class"
  | structType => "Struct"
  | interfaceType => "Interface"
  | array => "Array"
  | tuple => "Tuple"
  | nullable => "Nullable"
  | delegate => "Delegate"
  | typeParam => "TypeParam"
  | null => "Null"
  | void => "Void"
  | unknown => "Unknown"

inductive SymbolKind where
  | localVariable
  | parameter
  | primaryParameter
  | field
  | property
  | method
  | localFunction
  | type
  deriving DecidableEq, Repr, Inhabited

def SymbolKind.name : SymbolKind → String
  | localVariable => "Local"
  | parameter => "Parameter"
  | primaryParameter => "PrimaryParameter"
  | field => "Field"
  | property => "Property"
  | method => "Method"
  | localFunction => "LocalFunction"
  | type => "Type"

def SymbolKind.isTypeMember : SymbolKind → Bool
  | field | property | method => true
  | _ => false

structure MemberInfo where
  name : String
  kind : SymbolKind
  type : Ty
  params : List Ty := []
  isStatic : Bool := false
  deriving DecidableEq, Repr, Inhabited

/-- A positional component that a type can be taken apart into, and the member
    that is read to obtain it. -/
structure Component where
  member : String
  type : Ty
  deriving DecidableEq, Repr, Inhabited

structure TypeData where
  name : String
  shape : TypeShape
  /-- Generic arguments, elements of a tuple, or signature of a delegate. -/
  args : List Ty := []
  /-- Element of an array, of a nullable or of an enumeration. -/
  element : Option Ty := none
  base : Option Ty := none
  interfaces : List Ty := []
  members : List MemberInfo := []
  components : List Component := []
  isValueType : Bool := false
  deriving DecidableEq, Repr, Inhabited

inductive Conversion where
  | identity
  | implicitReference
  /-- From a value type to a base or interface. -/
  | boxing
  | implicitNumeric
  | implicitNullable
  /-- Requires a cast, which may fail. -/
  | explicit
  | none
  deriving DecidableEq, Repr, Inhabited

namespace Conversion

def name : Conversion → String
  | identity => "Identity"
  | implicitReference => "ImplicitReference"
  | boxing => "Boxing"
  | implicitNumeric => "ImplicitNumeric"
  | implicitNullable => "ImplicitNullable"
  | explicit => "Explicit"
  | none => "None"

def isIdentityOrReference : Conversion → Bool
  | identity | implicitReference => true
  | _ => false

def isImplicit : Conversion → Bool
  | explicit | none => false
  | _ => true

end Conversion

end Unsugar
