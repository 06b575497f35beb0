import Unsugar.Syntax.Rebuild

open List

namespace Unsugar

/-! # Subtrees

The subtree of a node is the node followed by the subtrees of its children, so a
property of all nodes can be proved from the children up.
-/

/-! ## Reachable nodes -/

open Node

section Reachable

variable {intoPatterns : Bool}

theorem exprsReachable_eq {nodes : List Expr} :
    exprsReachable intoPatterns nodes = (ofExprs nodes).flatMap (reachable intoPatterns) := by
  induction nodes with
  | nil => rfl
  | cons node rest ih => rw [exprsReachable, ih]; rfl

theorem exprReachable?_eq {node : Option Expr} :
    exprReachable? intoPatterns node = (ofExpr? node).flatMap (reachable intoPatterns) := by
  cases node with
  | none => rfl
  | some node => simp [exprReachable?, ofExpr?, reachable]

theorem stmtsReachable_eq {nodes : List Stmt} :
    stmtsReachable intoPatterns nodes = (ofStmts nodes).flatMap (reachable intoPatterns) := by
  induction nodes with
  | nil => rfl
  | cons node rest ih => rw [stmtsReachable, ih]; rfl

theorem stmtReachable?_eq {node : Option Stmt} :
    stmtReachable? intoPatterns node = (ofStmt? node).flatMap (reachable intoPatterns) := by
  cases node with
  | none => rfl
  | some node => simp [stmtReachable?, ofStmt?, reachable]

theorem patternsReachable_eq {nodes : List Pattern} :
    patternsReachable intoPatterns nodes = (nodes.map pattern).flatMap (reachable intoPatterns) := by
  induction nodes with
  | nil => rfl
  | cons node rest ih => rw [patternsReachable, ih]; rfl

theorem propertiesReachable_eq {properties : List PropertyPattern} :
    propertiesReachable intoPatterns properties =
      (properties.map fun property => pattern property.pattern).flatMap (reachable intoPatterns) := by
  induction properties with
  | nil => rfl
  | cons property rest ih =>
    obtain ⟨path, inner⟩ := property
    rw [propertiesReachable, ih]
    rfl

theorem paramsReachable_eq {params : List Param} :
    paramsReachable intoPatterns params = (ofParams params).flatMap (reachable intoPatterns) := by
  induction params with
  | nil => rfl
  | cons param rest ih =>
    obtain ⟨type, name, passing, default⟩ := param
    rw [paramsReachable, ih, exprReachable?_eq]
    simp [ofParams]

theorem LambdaBody.reachable_eq (body : LambdaBody) :
    body.reachable intoPatterns = (ofLambdaBody body).flatMap (Node.reachable intoPatterns) := by
  cases body <;> simp [LambdaBody.reachable, ofLambdaBody, Node.reachable]

theorem Body.reachable_eq (body : Body) :
    body.reachable intoPatterns = (ofBody body).flatMap (Node.reachable intoPatterns) := by
  cases body <;> simp [Body.reachable, ofBody, Node.reachable]

theorem initsReachable_eq {inits : List FieldInit} :
    initsReachable intoPatterns inits = (ofInits inits).flatMap (reachable intoPatterns) := by
  induction inits with
  | nil => rfl
  | cons init rest ih =>
    obtain ⟨name, value⟩ := init
    rw [initsReachable, ih]
    rfl

theorem armsReachable_eq {arms : List Arm} :
    armsReachable intoPatterns arms = (arms.flatMap ofArm).flatMap (reachable intoPatterns) := by
  induction arms with
  | nil => rfl
  | cons arm rest ih =>
    obtain ⟨span, tested, guard, result⟩ := arm
    rw [armsReachable, ih, exprReachable?_eq]
    simp [ofArm, reachable]

theorem partsReachable_eq {parts : List Part} :
    partsReachable intoPatterns parts = (parts.flatMap ofPart).flatMap (reachable intoPatterns) := by
  induction parts with
  | nil => rfl
  | cons part rest ih =>
    cases part with
    | text text => rw [partsReachable, ih]; rfl
    | hole value alignment format =>
      rw [partsReachable, ih, exprReachable?_eq]
      simp [ofPart, reachable]

theorem labelsReachable_eq {labels : List Label} :
    labelsReachable intoPatterns labels = (labels.flatMap ofLabel).flatMap (reachable intoPatterns) := by
  induction labels with
  | nil => rfl
  | cons label rest ih =>
    cases label with
    | default => rw [labelsReachable, ih]; rfl
    | case tested guard =>
      rw [labelsReachable, ih, exprReachable?_eq]
      simp [ofLabel, reachable]

theorem sectionsReachable_eq {sections : List Section} :
    sectionsReachable intoPatterns sections =
      (sections.flatMap ofSection).flatMap (reachable intoPatterns) := by
  induction sections with
  | nil => rfl
  | cons sect rest ih =>
    obtain ⟨labels, body⟩ := sect
    rw [sectionsReachable, ih, labelsReachable_eq, stmtsReachable_eq]
    simp [ofSection]

theorem ExprKind.reachable_eq (kind : ExprKind) :
    kind.reachable intoPatterns = kind.children.flatMap (Node.reachable intoPatterns) := by
  cases kind <;> simp [ExprKind.reachable, ExprKind.children, Node.reachable, exprsReachable_eq,
      exprReachable?_eq, paramsReachable_eq, LambdaBody.reachable_eq, initsReachable_eq,
      armsReachable_eq, partsReachable_eq]

theorem StmtKind.reachable_eq (kind : StmtKind) :
    kind.reachable intoPatterns = kind.children.flatMap (Node.reachable intoPatterns) := by
  cases kind <;> simp [StmtKind.reachable, StmtKind.children, Node.reachable, exprsReachable_eq,
      exprReachable?_eq, stmtsReachable_eq, stmtReachable?_eq, paramsReachable_eq,
      Body.reachable_eq, sectionsReachable_eq]

theorem PatternKind.reachable_eq (kind : PatternKind) :
    kind.reachable intoPatterns = kind.children.flatMap (Node.reachable intoPatterns) := by
  cases kind with
  | slice inner =>
    cases inner <;> simp [PatternKind.reachable, PatternKind.children, Node.reachable]
  | _ =>
    simp [PatternKind.reachable, PatternKind.children, Node.reachable, patternsReachable_eq,
      propertiesReachable_eq]

end Reachable

theorem Node.reachable_eq (node : Node) :
    node.reachable true = node :: node.children.flatMap (Node.reachable true) := by
  cases node with
  | expr node =>
    obtain ⟨mark, kind⟩ := node
    rw [Node.reachable, Expr.reachable, kind.reachable_eq]
    rfl
  | stmt node =>
    obtain ⟨mark, kind⟩ := node
    rw [Node.reachable, Stmt.reachable, kind.reachable_eq]
    rfl
  | pattern node =>
    obtain ⟨mark, kind⟩ := node
    rw [Node.reachable, Pattern.reachable, if_pos rfl, kind.reachable_eq]
    rfl

theorem Node.reachable_outside {node : Node} (outside : node.isPattern = false) :
    node.reachable false = node :: node.children.flatMap (Node.reachable false) := by
  cases node with
  | expr node =>
    obtain ⟨mark, kind⟩ := node
    rw [Node.reachable, Expr.reachable, kind.reachable_eq]
    rfl
  | stmt node =>
    obtain ⟨mark, kind⟩ := node
    rw [Node.reachable, Stmt.reachable, kind.reachable_eq]
    rfl
  | pattern node => cases outside

theorem Pattern.reachable_outside (node : Pattern) : (pattern node).reachable false = [] := by
  obtain ⟨mark, kind⟩ := node
  rw [Node.reachable, Pattern.reachable, if_neg Bool.false_ne_true]

theorem Node.length_reachable_lt {node child : Node} (isChild : child ∈ node.children) :
    (child.reachable true).length < (node.reachable true).length := by
  obtain ⟨before, after, split⟩ := append_of_mem isChild
  rw [node.reachable_eq, split]
  simp only [flatMap_append, flatMap_cons, length_cons, length_append]
  omega

theorem Node.childInduction {motive : Node → Prop}
    (step : ∀ node, (∀ child ∈ node.children, motive child) → motive node) (node : Node) :
    motive node :=
  step node fun child isChild =>
    have := Node.length_reachable_lt isChild
    childInduction step child
termination_by (node.reachable true).length

/-! ## Roots of a unit -/

def memberPlaces (type : Nat) : Nat → List Member → List (Site × Node)
  | _, [] => []
  | index, member :: rest =>
    member.kind.roots.map (Prod.mk ⟨.member type index, []⟩) ++ memberPlaces type (index + 1) rest

def typePlaces : Nat → List TypeDecl → List (Site × Node)
  | _, [] => []
  | index, decl :: rest =>
    decl.headerRoots.map (Prod.mk ⟨.header index, []⟩) ++ memberPlaces index 0 decl.members ++
      typePlaces (index + 1) rest

def memberRoots (members : List Member) : List Node := members.flatMap (·.kind.roots)

def CompilationUnit.roots (unit : CompilationUnit) : List Node :=
  unit.types.flatMap fun decl => decl.headerRoots ++ memberRoots decl.members

def CompilationUnit.places (unit : CompilationUnit) : List (Site × Node) := typePlaces 0 unit.types

theorem memberPlaces_roots {type index : Nat} {members : List Member} :
    (memberPlaces type index members).map Prod.snd = memberRoots members := by
  induction members generalizing index with
  | nil => rfl
  | cons member rest ih =>
    simp [memberPlaces, memberRoots, ih, Function.comp_def]

theorem CompilationUnit.places_roots (unit : CompilationUnit) :
    unit.places.map Prod.snd = unit.roots := by
  have fromIndex (index : Nat) (types : List TypeDecl) : (typePlaces index types).map Prod.snd =
        types.flatMap fun decl => decl.headerRoots ++ memberRoots decl.members := by
    induction types generalizing index with
    | nil => rfl
    | cons decl rest ih =>
      simp [typePlaces, memberPlaces_roots, ih, Function.comp_def]
  exact fromIndex 0 unit.types

theorem CompilationUnit.reachable_eq (unit : CompilationUnit) :
    unit.reachable = unit.roots.flatMap (Node.reachable true) := by
  unfold reachable roots
  rw [flatMap_assoc]
  congr 1
  funext decl
  simp only [TypeDecl.reachable, memberRoots, flatMap_append, flatMap_assoc]
  rfl

end Unsugar
