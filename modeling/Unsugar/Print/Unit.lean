import Unsugar.Print.Tree
import Unsugar.Syntax.Children

namespace Unsugar

/-! # Printing declarations -/

def renderModifiers (modifiers : List Modifier) : String :=
  String.join <| Modifier.keywords.filterMap fun (modifier, keyword) =>
    if modifiers.contains modifier then some (keyword ++ " ") else none

/-- Whether an accessor can stand on one line. -/
def Body.isShort : Option Body → Bool
  | some (.block _) => false
  | _ => true

def renderShortAccessor (depth : Nat) (keyword : String) : Option Body → String
  | none => ""
  | some (.expr value) => " " ++ keyword ++ " => " ++ value.render depth Level.lowest ++ ";"
  | some _ => " " ++ keyword ++ ";"

def renderLongAccessor (depth : Nat) (keyword : String) : Option Body → String
  | none => ""
  | some body => indentText depth ++ keyword ++ body.render depth

def renderAccessors (depth : Nat) : Option Body → Option Body → String
  | some (.expr value), none => " => " ++ value.render depth Level.lowest ++ ";"
  | getter, setter =>
    if Body.isShort getter && Body.isShort setter then
      " \x7b" ++ renderShortAccessor depth "get" getter ++
        renderShortAccessor depth "set" setter ++ " \x7d"
    else
      "\n" ++ indentText depth ++ "\x7b\n" ++
        renderLongAccessor (depth + 1) "get" getter ++
        renderLongAccessor (depth + 1) "set" setter ++ indentText depth ++ "\x7d"

def renderParamList (depth : Nat) (params : List Param) : String :=
  "(" ++ commaList (renderParams depth params) ++ ")"

def MemberKind.render (depth : Nat) (typeName : String) : MemberKind → String
  | .field type name init =>
    type.render ++ " " ++ name ++ renderInit? depth init ++ ";\n"
  | .property type name getter setter init =>
    type.render ++ " " ++ name ++ renderAccessors depth getter setter ++
      (if init.isSome then renderInit? depth init ++ ";" else "") ++ "\n"
  | .method name typeParams params ret body =>
    ret.render ++ " " ++ name ++ angleList typeParams ++ renderParamList depth params ++
      body.render depth
  | .ctor params initializer body =>
    typeName ++ renderParamList depth params ++
      (match initializer with
      | none => ""
      | some ⟨.base, args⟩ => " : base(" ++ commaList (renderExprs depth args) ++ ")"
      | some ⟨.this, args⟩ => " : this(" ++ commaList (renderExprs depth args) ++ ")") ++
      body.render depth
  | .operator op params ret body =>
    ret.render ++ " operator " ++ op.symbol ++ renderParamList depth params ++
      body.render depth

def Member.render (depth : Nat) (typeName : String) (member : Member) : String :=
  indentText depth ++ renderModifiers member.modifiers ++ member.kind.render depth typeName

def renderBases (depth : Nat) (baseArgs : Option (List Expr)) : List TypeSyntax → String
  | [] => ""
  | first :: rest =>
    " : " ++ first.render ++
      (match baseArgs with
      | none => ""
      | some args => "(" ++ commaList (renderExprs depth args) ++ ")") ++
      String.join (rest.map fun base => ", " ++ base.render)

def TypeDecl.render (decl : TypeDecl) : String :=
  renderModifiers decl.modifiers ++ decl.kind.keyword ++ " " ++ decl.name ++
    angleList decl.typeParams ++ (decl.primary.map (renderParamList 0)).getD "" ++
    renderBases 0 decl.baseArgs decl.bases ++ "\n\x7b\n" ++
    "\n".intercalate (decl.members.map (Member.render 1 decl.name)) ++ "\x7d\n"

def Using.render (directive : Using) : String :=
  (if directive.isStatic then "using static " else "using ") ++ directive.path ++ ";\n"

def CompilationUnit.text (unit : CompilationUnit) : String :=
  String.join (unit.usings.map Using.render) ++ (if unit.usings.isEmpty then "" else "\n") ++
    (match unit.namespaceName with
    | none => ""
    | some name => "namespace " ++ name ++ ";\n\n") ++
    "\n".intercalate (unit.types.map TypeDecl.render)

def nodeText : Node → String
  | .expr node => node.text
  | .stmt node => node.text
  | .pattern node => node.text

end Unsugar
