import Unsugar.Syntax.Children

namespace Unsugar

/-! # Vocabulary

The type syntax and the type parameters that a unit writes down.  A pass may
drop the function that declares a type parameter while uses of the parameter
stay, and may write down a type that no node keeps, so the vocabulary of a unit
also holds what its earlier forms and the passes over them wrote.
-/

mutual

def TypeSyntax.parts : TypeSyntax → List TypeSyntax
  | .absent => []
  | .named name args => .named name args :: partsAll args
  | .array element => .array element :: element.parts
  | .nullable inner => .nullable inner :: inner.parts
  | .tuple elements => .tuple elements :: partsAll elements
  | other => [other]

def TypeSyntax.partsAll : List TypeSyntax → List TypeSyntax
  | [] => []
  | type :: rest => type.parts ++ partsAll rest

end

structure Vocabulary where
  typeParams : List String := []
  types : List TypeSyntax := []

namespace Vocabulary

def merge (left right : Vocabulary) : Vocabulary :=
  ⟨left.typeParams ++ right.typeParams, left.types ++ right.types⟩

end Vocabulary

def MemberKind.types : MemberKind → List TypeSyntax
  | .field type _ _ | .property type _ _ _ _ => [type]
  | .method _ _ params ret _ | .operator _ params ret _ => paramTypes params ++ [ret]
  | .ctor params _ _ => paramTypes params

def TypeDecl.types (decl : TypeDecl) : List TypeSyntax :=
  decl.bases ++ paramTypes (decl.primary.getD []) ++
    decl.members.flatMap fun member => member.kind.types

def Node.typeParams : Node → List String
  | .stmt ⟨_, .localFunction _ typeParams _ _ _⟩ => typeParams
  | _ => []

def CompilationUnit.vocabulary (unit : CompilationUnit) : Vocabulary :=
  let nodes := unit.reachable
  { typeParams := nodes.flatMap Node.typeParams
    types := unit.types.flatMap TypeDecl.types ++ nodes.flatMap Node.types }

/-- A unit with what its earlier forms left behind: the number that the next
    synthesized name gets, and their vocabulary. -/
structure Tree where
  unit : CompilationUnit
  nextName : Nat := 0
  vocabulary : Vocabulary := {}

def Tree.fresh (tree : Tree) (hint : String) : String × Tree :=
  (freshName hint tree.nextName, { tree with nextName := tree.nextName + 1 })

end Unsugar
