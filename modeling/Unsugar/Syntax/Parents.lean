import Unsugar.Syntax.Numbering

namespace Unsugar

/-! # Parents

Trees only point down.  `ParentMap` records for every node of a numbered unit
what owns it.
-/

inductive Parent where
  | none
  | node (parent : Node)
  | owner (owner : Owner)
  deriving Inhabited

/-- The owner of every numbered node, as a list from identity to parent. -/
structure ParentMap where
  entries : List (Nat × Parent)

namespace ParentMap

def entriesFor (parent : Parent) (nodes : List Node) : List (Nat × Parent) :=
  nodes.filterMap fun node => node.id.map fun id => (id, parent)

def entriesBelow (root : Node) : List (Nat × Parent) :=
  (root.reachable true).flatMap fun node => entriesFor (.node node) node.children

def entriesOf (owner : Owner) (roots : List Node) : List (Nat × Parent) :=
  entriesFor (.owner owner) roots ++ roots.flatMap entriesBelow

def ofMembers (type : Nat) : Nat → List Member → List (Nat × Parent)
  | _, [] => []
  | index, member :: rest =>
    entriesOf (.member type index) member.kind.roots ++ ofMembers type (index + 1) rest

def ofTypes : Nat → List TypeDecl → List (Nat × Parent)
  | _, [] => []
  | index, decl :: rest =>
    entriesOf (.header index) decl.headerRoots ++ ofMembers index 0 decl.members ++
      ofTypes (index + 1) rest

def ofUnit (unit : CompilationUnit) : ParentMap := ⟨ofTypes 0 unit.types⟩

def parentOf (map : ParentMap) (id : Option Nat) : Parent :=
  match id with
  | Option.none => .none
  | some id => (map.entries.lookup id).getD .none

def parent (map : ParentMap) (node : Node) : Parent := map.parentOf node.id

/-- Climb from a node for at most `steps` parents: the ancestors passed, nearest
    first, and what owns the last of them. -/
def climb (map : ParentMap) : (steps : Nat) → Node → List Node × Parent
  | 0, node => ([], map.parent node)
  | steps + 1, node =>
    match map.parent node with
    | .node parent =>
      let (passed, owner) := map.climb steps parent
      (parent :: passed, owner)
    | other => ([], other)

def height (map : ParentMap) : Nat := map.entries.length

def ancestors (map : ParentMap) (node : Node) : List Node :=
  (map.climb map.height node).1

def rootOwner (map : ParentMap) (node : Node) : Parent :=
  (map.climb map.height node).2

def enclosingMember? (map : ParentMap) (node : Node) : Option (Nat × Nat) :=
  match map.rootOwner node with
  | .owner (.member type member) => some (type, member)
  | _ => Option.none

end ParentMap

end Unsugar
