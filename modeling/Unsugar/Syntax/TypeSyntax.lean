namespace Unsugar

/-! # Type syntax

Types as they are written.  `absent` stands where the source leaves a type out:
an implicitly typed lambda parameter, a target-typed `default`, a recursive
pattern without a type.
-/

inductive TypeSyntax where
  | absent
  | var
  /-- The type of anything that cannot be resolved. -/
  | dynamic
  | void
  /-- A name, possibly qualified, with its type arguments. -/
  | named (name : String) (args : List TypeSyntax)
  | array (element : TypeSyntax)
  | nullable (inner : TypeSyntax)
  | tuple (elements : List TypeSyntax)
  deriving Repr, Inhabited

namespace TypeSyntax

def simple (name : String) : TypeSyntax := .named name []

def isPresent : TypeSyntax → Bool
  | absent => false
  | _ => true

def isVar : TypeSyntax → Bool
  | var => true
  | _ => false

def isNamed (name : String) : TypeSyntax → Bool
  | named written _ => written == name
  | _ => false

mutual

/-- The source text of a type.  A type left out reads `var`. -/
def render : TypeSyntax → String
  | absent | var => "var"
  | dynamic => "dynamic"
  | void => "void"
  | named name [] => name
  | named name (first :: rest) =>
    name ++ "<" ++ first.render ++ renderRest rest ++ ">"
  | array element => element.render ++ "[]"
  | nullable inner => inner.render ++ "?"
  | tuple [] => "()"
  | tuple (first :: rest) => "(" ++ first.render ++ renderRest rest ++ ")"

def renderRest : List TypeSyntax → String
  | [] => ""
  | type :: rest => ", " ++ type.render ++ renderRest rest

end

mutual

/-- Number of type nodes, counting no node for a type left out. -/
def size : TypeSyntax → Nat
  | absent => 0
  | var | dynamic | void => 1
  | named _ args => sizeAll args + 1
  | array inner | nullable inner => inner.size + 1
  | tuple elements => sizeAll elements + 1

def sizeAll : List TypeSyntax → Nat
  | [] => 0
  | type :: rest => type.size + sizeAll rest

end

end TypeSyntax

end Unsugar
