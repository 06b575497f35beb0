import Unsugar.Proofs.Hoist.Bindings

open List

namespace Unsugar

/-! # What lists are going to declare

A name is queued at most once for each point.  But every item of a list can be a point
of its own, and what is queued for all of them goes into the one list.  The load of a
list says how often it is going to declare a name, so that what a unit repeats once
everything is installed can be counted before.
-/

open Node

def StmtKind.itemLists : StmtKind → List (List Stmt)
  | .block body => [body]
  | .switch _ sections => sections.map (·.body)
  | _ => []

def Node.itemLists : Node → List (List Stmt)
  | stmt node => node.kind.itemLists
  | _ => []

def CompilationUnit.Repeats (unit : CompilationUnit) (name : String) : Prop :=
  ∃ node ∈ unit.reachable, ∃ body ∈ node.itemLists, 2 ≤ body.countP (Stmt.declaresName name)

section Loads

variable (cover : Cover) (wrapped : List Nat) (name : String)

/-- How often a list declares the name on account of one of its items: the item itself,
    unless it moves into a block, and what is inserted before it. -/
def Cover.itemLoad (node : Stmt) : Nat :=
  (node.declaresName name && !node.id.any wrapped.contains).toNat +
    node.id.elim 0 fun id => cover.before.count id

def Cover.listLoad (body : List Stmt) : Nat := (body.map (cover.itemLoad wrapped name)).sum

/-- How often the block does that is going to be made around a statement. -/
def Cover.blockLoad (node : Stmt) : Nat :=
  (node.id.any cover.around.contains).toNat + (node.declaresName name).toNat

/-- How often the body of a lambda does.  A body with an identity can still move into
    a block, so it counts as a declaration. -/
def Cover.bodyLoad : LambdaBody → Nat
  | .expr _ => 0
  | .block node =>
    if node.id.isSome then 1
    else match node.kind with
      | .block body => cover.listLoad wrapped name body
      | _ => (node.declaresName name).toNat

def Node.loads : Node → List Nat
  | stmt node => cover.blockLoad name node :: node.kind.itemLists.map (cover.listLoad wrapped name)
  | expr ⟨_, .lambda label _ _ body⟩ =>
    [(label.elim 0 fun id => cover.inside.count id) + cover.bodyLoad wrapped name body]
  | _ => []

/-- Some list of the node may declare the name twice. -/
def Node.Crowds (node : Node) : Prop := ∃ load ∈ node.loads cover wrapped name, 2 ≤ load

/-- Some statement list of the node does declare the name twice. -/
def Node.FillsList (node : Node) : Prop :=
  ∃ load ∈ node.itemLists.map (cover.listLoad wrapped name), 2 ≤ load

def CompilationUnit.Crowds (unit : CompilationUnit) : Prop :=
  ∃ node ∈ unit.reachable, node.Crowds cover wrapped name

def CompilationUnit.FillsList (unit : CompilationUnit) : Prop :=
  ∃ node ∈ unit.reachable, node.FillsList cover wrapped name

end Loads

/-! ## Subtrees in which a node passes a test -/

theorem ExprKind.exists_children_rebuild (rules : Rules Id) (site : Site) (kind : ExprKind)
    (holds : Node → Prop) : (∃ child ∈ (kind.rebuild rules site : Id ExprKind).children, holds child) ↔
      ∃ child ∈ kind.children, holds (child.rebuilt rules site) := by
  rw [kind.children_rebuild]
  simp

theorem Rules.Local.exists_children_rebuild {rules : Rules Id} {atExpr : Expr → Expr}
    {atStmt : Stmt → Stmt} (isLocal : rules.Local atExpr atStmt) (site : Site) (kind : StmtKind)
    (holds : Node → Prop) : (∃ child ∈ (kind.rebuild rules site : Id StmtKind).children, holds child) ↔
      ∃ child ∈ kind.children, holds (child.rebuilt rules site) := by
  rw [isLocal.children_rebuild]
  simp

def Node.Meets (test : Node → Prop) (node : Node) : Prop :=
  ∃ below ∈ node.reachable true, test below

section Meets

variable {test other : Node → Prop}

theorem Node.meets_iff {node : Node} :
    node.Meets test ↔ test node ∨ ∃ child ∈ node.children, child.Meets test := by
  unfold Meets
  rw [node.reachable_eq]
  simp only [mem_cons, mem_flatMap]
  constructor
  · rintro ⟨below, rfl | ⟨child, isChild, isBelow⟩, passes⟩
    · exact .inl passes
    · exact .inr ⟨child, isChild, below, isBelow, passes⟩
  · rintro (passes | ⟨child, isChild, below, isBelow, passes⟩)
    · exact ⟨node, .inl rfl, passes⟩
    · exact ⟨below, .inr ⟨child, isChild, isBelow⟩, passes⟩

theorem CompilationUnit.meets_iff {unit : CompilationUnit} :
    (∃ node ∈ unit.reachable, test node) ↔ ∃ root ∈ unit.roots, root.Meets test := by
  rw [unit.reachable_eq]
  simp only [mem_flatMap]
  constructor
  · rintro ⟨node, ⟨root, isRoot, isBelow⟩, passes⟩
    exact ⟨root, isRoot, node, isBelow, passes⟩
  · rintro ⟨root, isRoot, node, isBelow, passes⟩
    exact ⟨node, ⟨root, isRoot, isBelow⟩, passes⟩

theorem CompilationUnit.meets_rebuild {unit : CompilationUnit} {rules : Rules Id} :
    (∃ node ∈ (unit.rebuild rules : Id CompilationUnit).reachable, test node) ↔
      ∃ place ∈ unit.places, (place.2.rebuilt rules place.1).Meets test := by
  rw [CompilationUnit.meets_iff, unit.roots_rebuild]
  simp

namespace Rules.Local

variable {rules : Rules Id} {atExpr : Expr → Expr} {atStmt : Stmt → Stmt}
  (isLocal : rules.Local atExpr atStmt) (fits : Node → Prop)

include isLocal

theorem meets_of_rebuilt (onExpr : ∀ (site : Site) (mark : Mark) (kind : ExprKind),
      (Node.expr (atExpr ⟨mark, kind.rebuild rules site⟩)).Meets test → other (.expr ⟨mark, kind⟩) ∨
        ∃ child ∈ kind.children, (child.rebuilt rules site).Meets test)
    (onStmt : ∀ (site : Site) (mark : Mark) (kind : StmtKind), fits (.stmt ⟨mark, kind⟩) →
      (Node.stmt (atStmt ⟨mark, kind.rebuild rules site⟩)).Meets test → other (.stmt ⟨mark, kind⟩) ∨
        ∃ child ∈ kind.children, (child.rebuilt rules site).Meets test)
    (onPattern : ∀ node, ¬ test (.pattern node)) (node : Node)
    (fit : ∀ below ∈ node.reachable true, fits below) (site : Site)
    (meets : (node.rebuilt rules site).Meets test) : node.Meets other := by
  induction node using Node.childInduction generalizing site with
  | step node ih =>
    rw [node.reachable_eq] at fit
    have here := fit node mem_cons_self
    have onChild (site : Site) (child : Node) (isChild : child ∈ node.children)
        (meets : (child.rebuilt rules site).Meets test) : node.Meets other := by
      refine Node.meets_iff.2 (.inr ⟨child, isChild, ih child isChild ?_ site meets⟩)
      exact fun below isBelow => fit below (mem_cons_of_mem _
        (mem_flatMap.2 ⟨child, isChild, isBelow⟩))
    cases node with
    | expr node =>
      obtain ⟨mark, kind⟩ := node
      rw [Node.rebuilt, isLocal.rebuilt_expr] at meets
      rcases onExpr _ _ _ meets with passes | ⟨child, isChild, meets⟩
      · exact Node.meets_iff.2 (.inl passes)
      · exact onChild _ child isChild meets
    | stmt node =>
      obtain ⟨mark, kind⟩ := node
      rw [Node.rebuilt, isLocal.rebuilt_stmt] at meets
      rcases onStmt _ _ _ here meets with passes | ⟨child, isChild, meets⟩
      · exact Node.meets_iff.2 (.inl passes)
      · exact onChild _ child isChild meets
    | pattern node =>
      obtain ⟨mark, kind⟩ := node
      rw [Node.rebuilt, isLocal.rebuilt_pattern, Node.meets_iff] at meets
      rcases meets with passes | ⟨child, isChild, meets⟩
      · exact absurd passes (onPattern _)
      · have isChild : child ∈ (kind.rebuild rules _ : Id PatternKind).children := isChild
        rw [PatternKind.children_rebuild] at isChild
        obtain ⟨inner, isInner, rfl⟩ := mem_map.1 isChild
        exact onChild _ inner isInner meets

theorem meets_rebuilt (onExpr : ∀ (site : Site) (mark : Mark) (kind : ExprKind),
      (other (.expr ⟨mark, kind⟩) ∨ ∃ child ∈ kind.children, (child.rebuilt rules site).Meets test) →
        (Node.expr (atExpr ⟨mark, kind.rebuild rules site⟩)).Meets test)
    (onStmt : ∀ (site : Site) (mark : Mark) (kind : StmtKind), fits (.stmt ⟨mark, kind⟩) →
      (other (.stmt ⟨mark, kind⟩) ∨ ∃ child ∈ kind.children, (child.rebuilt rules site).Meets test) →
        (Node.stmt (atStmt ⟨mark, kind.rebuild rules site⟩)).Meets test)
    (onPattern : ∀ node, ¬ other (.pattern node)) (node : Node)
    (fit : ∀ below ∈ node.reachable true, fits below) (site : Site) (meets : node.Meets other) :
    (node.rebuilt rules site).Meets test := by
  induction node using Node.childInduction generalizing site with
  | step node ih =>
    rw [node.reachable_eq] at fit
    have here := fit node mem_cons_self
    have onChild (site : Site) (child : Node) (isChild : child ∈ node.children)
        (meets : child.Meets other) : (child.rebuilt rules site).Meets test := by
      refine ih child isChild ?_ site meets
      exact fun below isBelow => fit below (mem_cons_of_mem _
        (mem_flatMap.2 ⟨child, isChild, isBelow⟩))
    have below (site : Site) (meets : ∃ child ∈ node.children, child.Meets other) :
        ∃ child ∈ node.children, (child.rebuilt rules site).Meets test := by
      obtain ⟨child, isChild, meets⟩ := meets
      exact ⟨child, isChild, onChild site child isChild meets⟩
    cases node with
    | expr node =>
      obtain ⟨mark, kind⟩ := node
      rw [Node.rebuilt, isLocal.rebuilt_expr]
      exact onExpr _ _ _ ((Node.meets_iff.1 meets).imp_right (below _))
    | stmt node =>
      obtain ⟨mark, kind⟩ := node
      rw [Node.rebuilt, isLocal.rebuilt_stmt]
      exact onStmt _ _ _ here ((Node.meets_iff.1 meets).imp_right (below _))
    | pattern node =>
      obtain ⟨mark, kind⟩ := node
      rw [Node.rebuilt, isLocal.rebuilt_pattern]
      rcases Node.meets_iff.1 meets with passes | meets
      · exact absurd passes (onPattern _)
      · obtain ⟨child, isChild, meets⟩ := below (site.below (.pattern ⟨mark, kind⟩)) meets
        refine Node.meets_iff.2 (.inr ⟨_, ?_, meets⟩)
        change _ ∈ (kind.rebuild rules _ : Id PatternKind).children
        rw [PatternKind.children_rebuild]
        exact mem_map_of_mem isChild

end Rules.Local

end Meets

/-! ## Loads of rebuilt nodes -/

namespace Rules.Local

variable {rules : Rules Id} {atExpr : Expr → Expr} {atStmt : Stmt → Stmt}
  (isLocal : rules.Local atExpr atStmt) {cover after : Cover} {wrapped moved : List Nat}
  {name : String} (site : Site)
  (sameItem : ∀ node : Stmt, after.itemLoad moved name (node.rebuilt rules site) =
    cover.itemLoad wrapped name node)

include sameItem

theorem listLoad_rebuilt {body : List Stmt} :
    after.listLoad moved name (body.map (·.rebuilt rules site)) =
      cover.listLoad wrapped name body := by
  unfold Cover.listLoad
  rw [map_map]
  congr 2
  funext node
  exact sameItem node

include isLocal

theorem listLoads_rebuild (kind : StmtKind) :
    (kind.rebuild rules site : Id StmtKind).itemLists.map (after.listLoad moved name) =
      kind.itemLists.map (cover.listLoad wrapped name) := by
  cases kind with
  | block body =>
    change [after.listLoad moved name (rebuildStmts rules site body : Id (List Stmt))] = _
    rw [isLocal.rebuildStmts_eq, listLoad_rebuilt site sameItem]
    rfl
  | switch subject sections =>
    change ((rebuildSections rules site sections : Id (List Section)).map _).map _ = _
    rw [isLocal.rebuildSections_eq, StmtKind.itemLists]
    simp [Function.comp_def, listLoad_rebuilt site sameItem]
  | _ => rfl

end Rules.Local

theorem Rules.Local.bodyLoad_rebuild {rules : Rules Id} {atExpr : Expr → Expr}
    {atStmt : Stmt → Stmt} (isLocal : rules.Local atExpr atStmt) {cover after : Cover}
    {wrapped moved : List Nat} {name : String}
    (sameItem : ∀ (site : Site) (node : Stmt), after.itemLoad moved name (node.rebuilt rules site) =
    cover.itemLoad wrapped name node) {site : Site} {body : LambdaBody} :
    after.bodyLoad moved name (body.rebuild rules site : Id LambdaBody) =
      cover.bodyLoad wrapped name body := by
  cases body with
  | expr value => rfl
  | block node =>
    obtain ⟨mark, kind⟩ := node
    change after.bodyLoad moved name (.block (Stmt.gather _ (Stmt.rebuildMany rules site _))) = _
    rw [isLocal.gather_rebuildMany, isLocal.rebuilt_stmt]
    cases noId : mark.id with
    | some id => simp [Cover.bodyLoad, Stmt.id, isLocal.mark, noId]
    | none =>
      have noId' : Stmt.id ⟨mark, kind.rebuild rules (site.below (.stmt ⟨mark, kind⟩))⟩ = none :=
        noId
      rw [isLocal.anonymous _ noId']
      cases kind with
      | block body =>
        simp only [Cover.bodyLoad, Stmt.id, noId, Option.isSome_none, Bool.false_eq_true, if_false]
        change after.listLoad moved name (rebuildStmts rules _ body : Id (List Stmt)) = _
        rw [isLocal.rebuildStmts_eq, listLoad_rebuilt _ (sameItem _)]
      | _ => rfl

namespace Rules.Local

variable {rules : Rules Id} {atExpr : Expr → Expr} {atStmt : Stmt → Stmt}
  (isLocal : rules.Local atExpr atStmt) {cover after : Cover} {wrapped moved : List Nat}
  {name : String}
  (sameItem : ∀ (site : Site) (node : Stmt), after.itemLoad moved name (node.rebuilt rules site) =
    cover.itemLoad wrapped name node)

include isLocal sameItem

theorem loads_rebuild_expr (sameInside : after.inside = cover.inside) {site : Site} {mark : Mark}
    {kind : ExprKind} :
    (Node.expr ⟨mark, kind.rebuild rules site⟩).loads after moved name =
      (Node.expr ⟨mark, kind⟩).loads cover wrapped name := by
  cases kind with
  | lambda label params isAsync body =>
    change [_ + after.bodyLoad moved name (body.rebuild rules site : Id LambdaBody)] = _
    rw [isLocal.bodyLoad_rebuild sameItem, sameInside]
    rfl
  | _ => rfl

omit isLocal sameItem in
theorem declaresName_rebuild {site : Site} {mark : Mark} {kind : StmtKind} :
    Stmt.declaresName name ⟨mark, (kind.rebuild rules site : Id StmtKind)⟩ =
      Stmt.declaresName name ⟨mark, kind⟩ := by
  cases kind <;> rfl

theorem loads_rebuild_stmt (site : Site) (mark : Mark) (kind : StmtKind) :
    (Node.stmt ⟨mark, kind.rebuild rules site⟩).loads after moved name =
      after.blockLoad name ⟨mark, kind⟩ :: kind.itemLists.map (cover.listLoad wrapped name) := by
  have sameLists := isLocal.listLoads_rebuild site (sameItem site) kind
  change after.blockLoad name ⟨mark, (kind.rebuild rules site : Id StmtKind)⟩ ::
    (kind.rebuild rules site : Id StmtKind).itemLists.map (after.listLoad moved name) = _
  rw [sameLists, Cover.blockLoad, declaresName_rebuild]
  rfl

end Rules.Local

end Unsugar
