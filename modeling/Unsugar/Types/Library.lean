import Unsugar.Types.Ty

namespace Unsugar

/-! # Library types

The types that every unit can refer to without declaring them.
-/

def MemberInfo.ofMethod (name : String) (result : Ty) (params : List Ty)
    (isStatic : Bool) : MemberInfo :=
  { name, kind := .method, type := result, params, isStatic }

def MemberInfo.ofProperty (name : String) (type : Ty) : MemberInfo :=
  { name, kind := .property, type }

namespace Primitive

def name : Primitive → String
  | object => "object"
  | bool => "bool"
  | int => "int"
  | long => "long"
  | double => "double"
  | char => "char"
  | string => "string"
  | void => "void"
  | null => "null"

def shape : Primitive → TypeShape
  | object | string => .classType
  | bool | int | long | double | char => .primitive
  | void => .void
  | null => .null

def isValueType (kind : Primitive) : Bool := kind.shape == .primitive

open MemberInfo in
def members : Primitive → List MemberInfo
  | object => [
      ofMethod "Equals" .bool [.object] false,
      ofMethod "GetHashCode" .int [] false,
      ofMethod "ToString" .string [] false,
      ofMethod "Equals" .bool [.object, .object] true,
      ofMethod "ReferenceEquals" .bool [.object, .object] true]
  | string => [
      ofProperty "Length" .int,
      ofMethod "Substring" .string [.int, .int] false,
      ofMethod "Contains" .bool [.string] false,
      ofMethod "IndexOf" .int [.string] false,
      ofMethod "Format" .string [.string] true,
      ofMethod "Concat" .string [.object] true]
  | int | long | double | char => [ofMethod "CompareTo" .int [.object] false]
  | bool | void | null => []

def data (kind : Primitive) : TypeData where
  name := kind.name
  shape := kind.shape
  isValueType := kind.isValueType
  members := kind.members
  base :=
    match kind with
    | object | void | null => none
    | _ => some .object
  element :=
    match kind with
    | string => some .char
    | _ => none
  interfaces :=
    match kind with
    | string => [.applied "IEnumerable" [.char]]
    | _ => []

/-- Names of primitive types; `null` has a type without a name. -/
def ofName? : String → Option Primitive
  | "object" | "Object" => some object
  | "bool" | "Boolean" => some bool
  | "int" | "Int32" => some int
  | "long" | "Int64" => some long
  | "double" | "Double" => some double
  | "char" | "Char" => some char
  | "string" | "String" => some string
  | "void" => some void
  | _ => none

end Primitive

namespace LibraryType

def name : LibraryType → String
  | index => "Index"
  | range => "Range"
  | exception => "Exception"
  | invalidOperation => "InvalidOperationException"
  | switchExpression => "SwitchExpressionException"
  | argumentNull => "ArgumentNullException"
  | console => "Console"
  | math => "Math"

def ofName? (text : String) : Option LibraryType :=
  [index, range, exception, invalidOperation, switchExpression, argumentNull, console,
    math].find? fun kind => kind.name == text

def isValueType : LibraryType → Bool
  | index | range => true
  | _ => false

open MemberInfo in
def members : LibraryType → List MemberInfo
  | index => [
      ofProperty "Value" .int,
      ofProperty "IsFromEnd" .bool,
      ofMethod "GetOffset" .int [.int] false]
  | range => [
      ofProperty "Start" (.library .index),
      ofProperty "End" (.library .index)]
  | exception => [ofProperty "Message" .string]
  | invalidOperation | switchExpression | argumentNull => []
  | console => [
      ofMethod "WriteLine" .void [.object] true,
      ofMethod "Write" .void [.object] true]
  | math => [
      ofMethod "Max" .int [.int, .int] true,
      ofMethod "Min" .int [.int, .int] true,
      ofMethod "Abs" .int [.int] true]

def base : LibraryType → Ty
  | invalidOperation | argumentNull => .library .exception
  | switchExpression => .library .invalidOperation
  | _ => .object

def shape (kind : LibraryType) : TypeShape :=
  if kind.isValueType then .structType else .classType

def data (kind : LibraryType) : TypeData where
  name := kind.name
  shape := kind.shape
  base := some kind.base
  members := kind.members
  isValueType := kind.isValueType

end LibraryType

/-- Library types that take arguments. -/
inductive LibraryGeneric where
  | list
  | enumerable
  | func
  | action
  deriving DecidableEq, Repr, Inhabited

namespace LibraryGeneric

def name : LibraryGeneric → String
  | list => "List"
  | enumerable => "IEnumerable"
  | func => "Func"
  | action => "Action"

def ofName? : String → Option LibraryGeneric
  | "List" => some list
  | "IEnumerable" => some enumerable
  | "Func" => some func
  | "Action" => some action
  | _ => none

def shape : LibraryGeneric → TypeShape
  | list => .classType
  | enumerable => .interfaceType
  | func | action => .delegate

/-- The arguments that a use of the type goes by: one element for a sequence,
    and a signature that ends with the result for a function. -/
def arguments : LibraryGeneric → List Ty → List Ty
  | list, args | enumerable, args => [args.headD .unknown]
  | func, args => args
  | action, args => args ++ [.void]

def signature (args : List Ty) : Ty × List Ty :=
  match args.getLast? with
  | some result => (result, args.dropLast)
  | none => (.void, [])

open MemberInfo in
def data (kind : LibraryGeneric) (self : Ty) (args : List Ty) : TypeData :=
  let args := kind.arguments args
  let element := args.headD .unknown
  match kind with
  | list => {
      name := kind.name
      shape := kind.shape
      args
      element := some element
      base := some .object
      interfaces := [.applied "IEnumerable" [element]]
      members := [
        ofProperty "Count" .int,
        ofMethod "Add" .void [element] false,
        ofMethod "AddRange" .void [.applied "IEnumerable" [element]] false,
        ofMethod "ToArray" (.array element) [] false,
        ofMethod "Contains" .bool [element] false,
        ofMethod "Slice" self [.int, .int] false] }
  | enumerable => {
      name := kind.name
      shape := kind.shape
      args
      element := some element }
  | func | action =>
    let (result, params) := signature args
    { name := kind.name
      shape := kind.shape
      args
      base := some .object
      members := [ofMethod "Invoke" result params false] }

end LibraryGeneric

namespace TypeData

def unknown : TypeData := { name := "dynamic", shape := .unknown }

def ofParam (name : String) : TypeData := { name, shape := .typeParam }

open MemberInfo in
def ofArray (element : Ty) : TypeData where
  name := "Array"
  shape := .array
  element := some element
  base := some .object
  interfaces := [.applied "IEnumerable" [element]]
  members := [
    ofProperty "Length" .int,
    ofMethod "Slice" (.array element) [.int, .int] false]

open MemberInfo in
def ofNullable (inner : Ty) : TypeData where
  name := "Nullable"
  shape := .nullable
  element := some inner
  base := some .object
  members := [ofProperty "HasValue" .bool, ofProperty "Value" inner]
  isValueType := true

def tupleItems : Nat → List Ty → List Component
  | _, [] => []
  | number, type :: rest => ⟨"Item" ++ toString number, type⟩ :: tupleItems (number + 1) rest

def ofTuple (elements : List Ty) : TypeData where
  name := "ValueTuple"
  shape := .tuple
  args := elements
  base := some .object
  members := (tupleItems 1 elements).map fun item =>
    { name := item.member, kind := .field, type := item.type }
  components := tupleItems 1 elements
  isValueType := true

end TypeData

end Unsugar
