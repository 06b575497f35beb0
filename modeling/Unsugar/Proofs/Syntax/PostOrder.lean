import Mathlib.Data.List.Perm.Basic
import Unsugar.Proofs.Syntax.Rebuilds

open List

namespace Unsugar

/-! # The order of a rebuild

A rebuild asks its rules about every node of a unit once, and about the children
of a node before the node.  Rules that only note what they are asked about show
that order, and it is the post-order of the subtrees of the unit.
-/

/-- Rules that keep every node and note it. -/
def Rules.record : Rules (StateM (List Node)) where
  expr := fun _ node kind => do
    modify (· ++ [.expr node])
    return { node with kind }
  stmt := fun _ node kind => do
    modify (· ++ [.stmt node])
    return [{ node with kind }]
  pattern := fun _ node kind => do
    modify (· ++ [.pattern node])
    return { node with kind }

/-- The nodes of a unit in the order in which a rebuild comes to them. -/
def CompilationUnit.postOrder (unit : CompilationUnit) : List Node :=
  ((unit.rebuild Rules.record).run []).2

/-! ## Subtrees in post-order -/

def Node.postOrder (node : Node) : List Node :=
  (node.children.attach.flatMap fun child => child.1.postOrder) ++ [node]
termination_by (node.reachable true).length
decreasing_by exact Node.length_reachable_lt child.2

theorem Node.postOrder_eq (node : Node) :
    node.postOrder = node.children.flatMap Node.postOrder ++ [node] := by
  rw [Node.postOrder, flatMap_subtype fun _ _ => rfl, unattach_attach]

theorem Node.postOrder_perm (node : Node) : node.postOrder.Perm (node.reachable true) := by
  induction node using Node.childInduction with
  | step node ih =>
    rw [node.postOrder_eq, node.reachable_eq]
    exact perm_append_singleton .. |>.trans ((List.Perm.flatMap_left _ ih).cons node)

/-- No node comes before one of its children. -/
def ChildrenFirst (nodes : List Node) : Prop :=
  ∀ before node after, nodes = before ++ node :: after → ∀ child ∈ node.children, child ∈ before

/-- Nodes may follow others that have the children which do not come first among them. -/
theorem ChildrenFirst.followed {left right : List Node} (first : ChildrenFirst left)
    (second : ∀ before node after, right = before ++ node :: after →
      ∀ child ∈ node.children, child ∈ left ++ before) : ChildrenFirst (left ++ right) := by
  intro before node after split child isChild
  obtain ⟨rest, rfl, isRight⟩ | ⟨rest, rfl, isRest⟩ := append_eq_append_iff.mp split
  · exact second rest node after isRight child isChild
  · cases rest with
    | nil => simpa using second [] node after isRest.symm child isChild
    | cons head rest =>
      obtain ⟨rfl, -⟩ := List.cons.inj isRest
      exact first before node rest rfl child isChild

theorem ChildrenFirst.append {left right : List Node} (first : ChildrenFirst left)
    (second : ChildrenFirst right) : ChildrenFirst (left ++ right) :=
  first.followed fun before node after split child isChild =>
    mem_append_right _ (second before node after split child isChild)

theorem ChildrenFirst.flatMap {nodes : List Node} {below : Node → List Node}
    (each : ∀ node ∈ nodes, ChildrenFirst (below node)) : ChildrenFirst (nodes.flatMap below) := by
  induction nodes with
  | nil =>
    intro before node after split
    cases before <;> cases split
  | cons node rest ih =>
    rw [flatMap_cons]
    exact (each node mem_cons_self).append
      (ih fun other isOther => each other (mem_cons_of_mem _ isOther))

theorem Node.mem_postOrder (node : Node) : node ∈ node.postOrder := by
  rw [node.postOrder_eq]
  exact mem_append_right _ mem_cons_self

theorem Node.childrenFirst_postOrder (node : Node) : ChildrenFirst node.postOrder := by
  induction node using Node.childInduction with
  | step node ih =>
    rw [node.postOrder_eq]
    refine (ChildrenFirst.flatMap ih).followed fun before other after split child isChild => ?_
    obtain ⟨rfl, isOther⟩ | ⟨-, isOther⟩ := singleton_eq_append_iff.mp split
    · obtain ⟨rfl, -⟩ := List.cons.inj isOther
      rw [append_nil]
      exact mem_flatMap.mpr ⟨child, isChild, child.mem_postOrder⟩
    · cases isOther

/-! ## Units in post-order -/

theorem run_bind {α β : Type} {action : StateM (List Node) α} (next : α → StateM (List Node) β)
    {seen : List Node} :
    (action >>= next).run seen = (next (action.run seen).1).run (action.run seen).2 := rfl

/-- What a recording adds is the post-order of the nodes it comes to. -/
def recording : Rebuilding Rules.record Rules.record where
  holds view action _ same :=
    ∀ seen, action.run seen = (same, seen ++ (view same).nodes.flatMap Node.postOrder)
  pure {_ view value} isBare seen := by
    simp [Parts.nodes, isBare]
    rfl
  both build isFirst isSecond splits seen := by
    rw [run_bind, isFirst, run_bind, isSecond, splits, Parts.append_nodes, flatMap_append,
      ← append_assoc]
    rfl
  expr site node isKind seen := by
    obtain ⟨mark, kind⟩ := node
    have below := (Node.expr ⟨mark, kind⟩).postOrder_eq
    rw [run_bind, isKind]
    simp [Content.of, ExprKind.content, below, Node.children, Rules.record]
    rfl
  stmt site node view inPlace isKind seen := by
    obtain ⟨mark, kind⟩ := node
    have below := (Node.stmt ⟨mark, kind⟩).postOrder_eq
    rw [run_bind, isKind]
    obtain rfl | rfl := inPlace <;>
      simp [Content.of, Node.ofStmts, Stmt.gather, below, Node.children, Rules.record] <;> rfl
  pattern site node isKind seen := by
    obtain ⟨mark, kind⟩ := node
    have below := (Node.pattern ⟨mark, kind⟩).postOrder_eq
    rw [run_bind, isKind]
    simp [Content.of, below, Node.children, Rules.record]
    rfl

namespace CompilationUnit

variable (unit : CompilationUnit)

theorem postOrder_eq : unit.postOrder = unit.roots.flatMap Node.postOrder := by
  have recorded := unit.rebuild_along recording []
  rw [postOrder, recorded, unit.parts_nodes]
  rfl

theorem postOrder_perm : unit.postOrder.Perm unit.reachable := by
  rw [postOrder_eq, unit.reachable_eq]
  exact List.Perm.flatMap_left _ fun root _ => root.postOrder_perm

theorem childrenFirst_postOrder : ChildrenFirst unit.postOrder := by
  rw [postOrder_eq]
  exact .flatMap fun root _ => root.childrenFirst_postOrder

end CompilationUnit

end Unsugar
