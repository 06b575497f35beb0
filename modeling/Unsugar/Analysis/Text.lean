import Unsugar.Analysis.Facts
import Unsugar.Digest

namespace Unsugar

/-! # Texts of analyses

Types, constants and what names refer to, as messages show them.
-/

/-! ## Text of types

Types and members as messages show them.  A function type lists its result last.
-/

def angled : List String → String
  | [] => ""
  | args => "<" ++ ", ".intercalate args ++ ">"

namespace TypeNames

variable (names : TypeNames)

def appliedText (name : String) (args : List String) : String :=
  match names.template name with
  | .library .list => "List<" ++ args.headD "dynamic" ++ ">"
  | .library .enumerable => "IEnumerable<" ++ args.headD "dynamic" ++ ">"
  | .library .func => "Func" ++ angled args
  | .library .action => "Action" ++ angled (args ++ ["void"])
  | .full index | .header index =>
    (names.decls[index]?.map (·.name)).getD name ++ angled args
  | .missing => "dynamic"

def declaredText (index : Nat) : String :=
  match names.decls[index]? with
  | some decl => decl.name ++ angled decl.typeParams
  | none => "dynamic"

mutual

def text : Ty → String
  | .unknown => "dynamic"
  | .prim kind => kind.name
  | .library kind => kind.name
  | .declared index => names.declaredText index
  | .param name => name
  | .applied name args => names.appliedText name (textAll args)
  | .array element => text element ++ "[]"
  | .nullable inner => text inner ++ "?"
  | .tuple elements => "(" ++ ", ".intercalate (textAll elements) ++ ")"

def textAll : List Ty → List String
  | [] => []
  | type :: rest => text type :: textAll rest

end

def memberText (member : MemberInfo) : String :=
  (if member.isStatic then "static " else "") ++ member.kind.name ++ " " ++ member.name ++
    "(" ++ ", ".intercalate (names.textAll member.params) ++ "): " ++ names.text member.type

end TypeNames

/-! ## Text of constants and of what names refer to -/

/-- A constant with its sort; a float shows its exact bits. -/
def Constant.text : Constant → String
  | int value => "Int " ++ toString value
  | float bits => "Float " ++ hexWord bits
  | bool value => "Bool " ++ toString value
  | char value => "Char " ++ String.singleton value
  | str value => "Str " ++ value
  | null => "Null"

def Reference.text (names : TypeNames) (reference : Reference) : String :=
  reference.kind.name ++ " " ++ reference.name ++ ": " ++ names.text reference.type ++
    (match reference.container with
      | some container => " in " ++ names.text container
      | none => "") ++
    (if reference.isStatic then " static" else "")

end Unsugar
