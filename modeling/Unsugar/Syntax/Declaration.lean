import Unsugar.Syntax.Tree

namespace Unsugar

/-! # Declarations

Members, type declarations and the compilation unit that holds them.
-/

inductive Modifier where
  | isPublic
  | isPrivate
  | isProtected
  | isInternal
  | isStatic
  | isConst
  | isReadonly
  | isAbstract
  | isVirtual
  | isOverride
  | isSealed
  | isAsync
  | isPartial
  deriving DecidableEq, Repr, Inhabited

namespace Modifier

def keywords : List (Modifier × String) :=
  [(isPublic, "public"), (isPrivate, "private"), (isProtected, "protected"),
    (isInternal, "internal"), (isStatic, "static"), (isConst, "const"),
    (isReadonly, "readonly"), (isAbstract, "abstract"), (isVirtual, "virtual"),
    (isOverride, "override"), (isSealed, "sealed"), (isAsync, "async"),
    (isPartial, "partial")]

def ofKeyword? (keyword : String) : Option Modifier :=
  (keywords.find? fun entry => entry.2 == keyword).map (·.1)

end Modifier

inductive TypeDeclKind where
  | classType
  | structType
  | interfaceType
  | recordClass
  | recordStruct
  deriving DecidableEq, Repr, Inhabited

namespace TypeDeclKind

def isRecord : TypeDeclKind → Bool
  | recordClass | recordStruct => true
  | _ => false

def isValueType : TypeDeclKind → Bool
  | structType | recordStruct => true
  | _ => false

def keyword : TypeDeclKind → String
  | classType => "class"
  | structType => "struct"
  | interfaceType => "interface"
  | recordClass => "record"
  | recordStruct => "record struct"

def ofKeyword? (keyword : String) : Option TypeDeclKind :=
  [classType, structType, interfaceType, recordClass, recordStruct].find?
    fun kind => kind.keyword == keyword

end TypeDeclKind

/-- Which constructor a constructor hands on to first. -/
inductive CtorTarget where
  | base
  | this
  deriving DecidableEq, Repr, Inhabited

structure CtorInitializer where
  target : CtorTarget
  args : List Expr

inductive MemberKind where
  | field (type : TypeSyntax) (name : String) (init : Option Expr)
  /-- An accessor with body `none` is automatic; an arrow property is a getter
      with an expression body. -/
  | property (type : TypeSyntax) (name : String) (getter setter : Option Body)
      (init : Option Expr)
  | method (name : String) (typeParams : List String) (params : List Param)
      (ret : TypeSyntax) (body : Body)
  | ctor (params : List Param) (initializer : Option CtorInitializer) (body : Body)
  | operator (op : BinaryOp) (params : List Param) (ret : TypeSyntax) (body : Body)

def MemberKind.name? : MemberKind → Option String
  | field _ name _ | property _ name _ _ _ | method name _ _ _ _ => some name
  | ctor .. | operator .. => none

structure Member where
  kind : MemberKind
  modifiers : List Modifier
  span : Span

def Member.has (member : Member) (modifier : Modifier) : Bool :=
  member.modifiers.contains modifier

def Member.isStatic (member : Member) : Bool :=
  member.has .isStatic || member.has .isConst

structure TypeDecl where
  name : String
  kind : TypeDeclKind
  modifiers : List Modifier
  typeParams : List String
  primary : Option (List Param)
  bases : List TypeSyntax
  /-- Arguments handed to the first base. -/
  baseArgs : Option (List Expr)
  members : List Member
  span : Span

def TypeDecl.findMember? (decl : TypeDecl) (name : String) : Option Member :=
  decl.members.find? fun member => member.kind.name? == some name

structure Using where
  path : String
  isStatic : Bool
  span : Span

structure CompilationUnit where
  usings : List Using
  namespaceName : Option String
  types : List TypeDecl

/-- Synthesized names are `__` followed by a hint and a number that is used only
    once. -/
def freshName (hint : String) (number : Nat) : String :=
  "__" ++ hint ++ toString number

end Unsugar
