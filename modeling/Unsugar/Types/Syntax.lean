import Unsugar.Types.Universe

namespace Unsugar

/-! # Type syntax for types

How a type is written down, and what is read off a type to build code for it.
-/

namespace TypeNames

variable (names : TypeNames)

/-- How an applied type is written, given its arguments and how they are
    written.  A function type does not write a result of `void`. -/
def appliedSyntax (name : String) (args : List Ty) (written : List TypeSyntax) : TypeSyntax :=
  match names.template name with
  | .library .list => .named "List" [written.headD .dynamic]
  | .library .enumerable => .named "IEnumerable" [written.headD .dynamic]
  | .library .func =>
    .named "Func" (if args.getLast? = some .void then written.dropLast else written)
  | .library .action => .named "Action" written
  | .full index | .header index =>
    .named ((names.decls[index]?.map (·.name)).getD name) written
  | .missing => .dynamic

mutual

def syntaxOf : Ty → TypeSyntax
  | .unknown => .dynamic
  | .void => .void
  | .null => .simple "object"
  | .prim kind => .simple kind.name
  | .library kind => .simple kind.name
  | .declared index =>
    match names.decls[index]? with
    | some decl => .named decl.name (decl.typeParams.map .simple)
    | none => .dynamic
  | .param name => .simple name
  | .applied name args => names.appliedSyntax name args (syntaxAll args)
  | .array element => .array (syntaxOf element)
  | .nullable inner => .nullable (syntaxOf inner)
  | .tuple elements => .tuple (syntaxAll elements)

def syntaxAll : List Ty → List TypeSyntax
  | [] => []
  | type :: rest => syntaxOf type :: syntaxAll rest

end

/-- The type of a local variable with an initializer, `var` if nothing else can
    be written. -/
def localSyntax (type : Ty) : TypeSyntax :=
  if type = .unknown ∨ type = .null then .var else names.syntaxOf type

end TypeNames

namespace Universe

variable (types : Universe)

def isReferenceSubtype (type target : Ty) : Bool :=
  target == .object || types.isSubtype type target

/-- How a value of one type becomes one of another, judged for a value that is
    no expression of the program. -/
def classifyTypes (source target : Ty) : Conversion :=
  if source = target then .identity
  else if source.isUnknown || target.isUnknown then .explicit
  else if types.isValueType source then
    if target = .object then .boxing else .explicit
  else if types.isReferenceSubtype source target then .implicitReference
  else .explicit

/-- Members that hold `count` positional components, with their types.  Without
    such components, items of a tuple are assumed. -/
def components (type : Ty) (count : Nat) : List (String × Ty) :=
  let known := (types.data type).components
  if known.length = count then known.map fun component => (component.member, component.type)
  else (TypeData.tupleItems 1 (List.replicate count .unknown)).map fun component =>
    (component.member, component.type)

def lengthMember (type : Ty) : String :=
  if type ≠ .unknown ∧ (types.findMember? type "Count").isSome then "Count" else "Length"

def isPlainValue (type : Ty) : Bool :=
  types.isValueType type && types.shape type != .nullable

def isNamed (type : Ty) (name : String) : Bool :=
  type != .unknown && (types.data type).name == name

end Universe

end Unsugar
