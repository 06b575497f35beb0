import Unsugar.Proofs.Syntax.Subtrees

open List

namespace Unsugar

/-! # Rebuilds by local rules

Rules are local if they look at a node without its site and leave one statement
for each.  The children of a rebuilt node are then its children rebuilt, one by
one and in the same order.
-/

open Node

/-- Rules that say for each node on its own what becomes of it. -/
structure Rules.Local (rules : Rules Id) (atExpr : Expr → Expr) (atStmt : Stmt → Stmt) : Prop where
  expr (site : Site) (node : Expr) (kind : ExprKind) :
    rules.expr site node kind = atExpr ⟨node.mark, kind⟩
  stmt (site : Site) (node : Stmt) (kind : StmtKind) :
    rules.stmt site node kind = [atStmt ⟨node.mark, kind⟩]
  pattern (site : Site) (node : Pattern) (kind : PatternKind) :
    rules.pattern site node kind = ⟨node.mark, kind⟩
  mark (node : Stmt) : (atStmt node).mark = node.mark
  /-- Statements without an identity stay. -/
  anonymous (node : Stmt) : node.id = none → atStmt node = node

def Expr.rebuilt (rules : Rules Id) (site : Site) (node : Expr) : Expr :=
  (node.rebuild rules site : Id Expr)

def Stmt.rebuilt (rules : Rules Id) (site : Site) (node : Stmt) : Stmt :=
  (node.rebuild rules site : Id Stmt)

def Pattern.rebuilt (rules : Rules Id) (site : Site) (node : Pattern) : Pattern :=
  (node.rebuild rules site : Id Pattern)

def Node.rebuilt (rules : Rules Id) (site : Site) : Node → Node
  | expr node => expr (node.rebuilt rules site)
  | stmt node => stmt (node.rebuilt rules site)
  | pattern node => pattern (node.rebuilt rules site)

namespace Rules.Local

variable {rules : Rules Id} {atExpr : Expr → Expr} {atStmt : Stmt → Stmt}
  (isLocal : rules.Local atExpr atStmt) (site : Site)

include isLocal

theorem rebuilt_expr (mark : Mark) (kind : ExprKind) : Expr.rebuilt rules site ⟨mark, kind⟩ =
      atExpr ⟨mark, kind.rebuild rules (site.below (.expr ⟨mark, kind⟩))⟩ := by
  rw [Expr.rebuilt, Expr.rebuild]
  exact isLocal.expr ..

theorem rebuildMany_eq (node : Stmt) :
    (node.rebuildMany rules site : Id (List Stmt)) = [node.rebuilt rules site] := by
  obtain ⟨mark, kind⟩ := node
  have single := isLocal.stmt site ⟨mark, kind⟩ (kind.rebuild rules (site.below (.stmt ⟨mark, kind⟩)))
  rw [Stmt.rebuilt, Stmt.rebuild, Stmt.rebuildMany]
  change rules.stmt site ⟨mark, kind⟩ _ = [Stmt.gather _ (rules.stmt site ⟨mark, kind⟩ _)]
  rw [single]
  rfl

theorem rebuilt_stmt (mark : Mark) (kind : StmtKind) : Stmt.rebuilt rules site ⟨mark, kind⟩ =
      atStmt ⟨mark, kind.rebuild rules (site.below (.stmt ⟨mark, kind⟩))⟩ := by
  have many := isLocal.rebuildMany_eq site ⟨mark, kind⟩
  rw [Stmt.rebuildMany] at many
  have single := isLocal.stmt site ⟨mark, kind⟩ (kind.rebuild rules (site.below (.stmt ⟨mark, kind⟩)))
  exact (List.cons.inj (many.symm.trans single)).1

theorem rebuilt_pattern (mark : Mark) (kind : PatternKind) :
    Pattern.rebuilt rules site ⟨mark, kind⟩ =
      ⟨mark, kind.rebuild rules (site.below (.pattern ⟨mark, kind⟩))⟩ := by
  rw [Pattern.rebuilt, Pattern.rebuild]
  exact isLocal.pattern ..

theorem gather_rebuildMany {node : Stmt} :
    node.gather (node.rebuildMany rules site : Id (List Stmt)) = node.rebuilt rules site := by
  rw [isLocal.rebuildMany_eq]
  rfl

theorem rebuildStmts_eq {nodes : List Stmt} :
    (rebuildStmts rules site nodes : Id (List Stmt)) = nodes.map (·.rebuilt rules site) := by
  induction nodes with
  | nil => rfl
  | cons node rest ih =>
    rw [rebuildStmts]
    change List.append (node.rebuildMany rules site : Id (List Stmt))
      (rebuildStmts rules site rest : Id (List Stmt)) = _
    rw [ih, isLocal.rebuildMany_eq]
    rfl

theorem rebuildSections_eq {sections : List Section} :
    (rebuildSections rules site sections : Id (List Section)) = sections.map fun sect =>
        ⟨(rebuildLabels rules site sect.labels : Id (List Label)),
          sect.body.map (·.rebuilt rules site)⟩ := by
  induction sections with
  | nil => rfl
  | cons sect rest ih =>
    obtain ⟨labels, body⟩ := sect
    rw [map_cons, ← ih, ← isLocal.rebuildStmts_eq]
    rfl

end Rules.Local

section Children

variable (rules : Rules Id) (site : Site)

theorem ofExprs_rebuild {nodes : List Expr} :
    ofExprs (rebuildExprs rules site nodes : Id (List Expr)) =
      (ofExprs nodes).map (Node.rebuilt rules site) := by
  induction nodes with
  | nil => rfl
  | cons node rest ih => exact congrArg (_ :: ·) ih

theorem ofExpr?_rebuild {node : Option Expr} :
    ofExpr? (rebuildExpr? rules site node : Id (Option Expr)) =
      (ofExpr? node).map (Node.rebuilt rules site) := by
  cases node <;> rfl

theorem ofStmt?_rebuild {node : Option Stmt} :
    ofStmt? (rebuildStmt? rules site node : Id (Option Stmt)) =
      (ofStmt? node).map (Node.rebuilt rules site) := by
  cases node <;> rfl

theorem ofEachStmt_rebuild {nodes : List Stmt} :
    ofStmts (rebuildEachStmt rules site nodes : Id (List Stmt)) =
      (ofStmts nodes).map (Node.rebuilt rules site) := by
  induction nodes with
  | nil => rfl
  | cons node rest ih => exact congrArg (_ :: ·) ih

theorem ofPatterns_rebuild {nodes : List Pattern} :
    (rebuildPatterns rules site nodes : Id (List Pattern)).map pattern =
      (nodes.map pattern).map (Node.rebuilt rules site) := by
  induction nodes with
  | nil => rfl
  | cons node rest ih => exact congrArg (_ :: ·) ih

theorem ofProperties_rebuild {properties : List PropertyPattern} :
    (rebuildProperties rules site properties : Id (List PropertyPattern)).map
        (fun property => pattern property.pattern) =
      (properties.map fun property => pattern property.pattern).map (Node.rebuilt rules site) := by
  induction properties with
  | nil => rfl
  | cons property rest ih =>
    obtain ⟨path, inner⟩ := property
    exact congrArg (_ :: ·) ih

theorem ofParams_rebuild {params : List Param} :
    ofParams (rebuildParams rules site params : Id (List Param)) =
      (ofParams params).map (Node.rebuilt rules site) := by
  induction params with
  | nil => rfl
  | cons param rest ih =>
    obtain ⟨type, name, passing, default⟩ := param
    change ofExpr? (rebuildExpr? rules site default : Id (Option Expr)) ++
      ofParams (rebuildParams rules site rest : Id (List Param)) = _
    rw [ih, ofExpr?_rebuild]
    simp [ofParams]

theorem ofLambdaBody_rebuild {body : LambdaBody} :
    ofLambdaBody (body.rebuild rules site : Id LambdaBody) =
      (ofLambdaBody body).map (Node.rebuilt rules site) := by
  cases body <;> rfl

theorem ofBody_rebuild {body : Body} :
    ofBody (body.rebuild rules site : Id Body) = (ofBody body).map (Node.rebuilt rules site) := by
  cases body <;> rfl

theorem ofInits_rebuild {inits : List FieldInit} :
    ofInits (rebuildInits rules site inits : Id (List FieldInit)) =
      (ofInits inits).map (Node.rebuilt rules site) := by
  induction inits with
  | nil => rfl
  | cons init rest ih =>
    obtain ⟨name, value⟩ := init
    exact congrArg (_ :: ·) ih

theorem ofArms_rebuild {arms : List Arm} :
    (rebuildArms rules site arms : Id (List Arm)).flatMap ofArm =
      (arms.flatMap ofArm).map (Node.rebuilt rules site) := by
  induction arms with
  | nil => rfl
  | cons arm rest ih =>
    obtain ⟨span, tested, guard, result⟩ := arm
    change (pattern (tested.rebuilt rules site) ::
      ofExpr? (rebuildExpr? rules site guard : Id (Option Expr)) ++
        [expr (result.rebuilt rules site)]) ++
          (rebuildArms rules site rest : Id (List Arm)).flatMap ofArm = _
    rw [ih, ofExpr?_rebuild]
    simp [ofArm, Node.rebuilt]

theorem ofParts_rebuild {parts : List Part} :
    (rebuildParts rules site parts : Id (List Part)).flatMap ofPart =
      (parts.flatMap ofPart).map (Node.rebuilt rules site) := by
  induction parts with
  | nil => rfl
  | cons part rest ih =>
    cases part with
    | text text => exact ih
    | hole value alignment format =>
      change (expr (value.rebuilt rules site) ::
        ofExpr? (rebuildExpr? rules site alignment : Id (Option Expr))) ++
          (rebuildParts rules site rest : Id (List Part)).flatMap ofPart = _
      rw [ih, ofExpr?_rebuild]
      simp [ofPart, Node.rebuilt]

theorem ofLabels_rebuild {labels : List Label} :
    (rebuildLabels rules site labels : Id (List Label)).flatMap ofLabel =
      (labels.flatMap ofLabel).map (Node.rebuilt rules site) := by
  induction labels with
  | nil => rfl
  | cons label rest ih =>
    cases label with
    | default => exact ih
    | case tested guard =>
      change (pattern (tested.rebuilt rules site) ::
        ofExpr? (rebuildExpr? rules site guard : Id (Option Expr))) ++
          (rebuildLabels rules site rest : Id (List Label)).flatMap ofLabel = _
      rw [ih, ofExpr?_rebuild]
      simp [ofLabel, Node.rebuilt]

theorem ExprKind.children_rebuild (kind : ExprKind) :
    (kind.rebuild rules site : Id ExprKind).children =
      kind.children.map (Node.rebuilt rules site) := by
  cases kind with
  | elementBinding items | collection items | tuple items => exact ofExprs_rebuild rules site
  | call head args | index head args => exact congrArg (_ :: ·) (ofExprs_rebuild rules site)
  | range start stop =>
    rw [ExprKind.children, map_append, ← ofExpr?_rebuild, ← ofExpr?_rebuild]
    rfl
  | seq effects value =>
    rw [ExprKind.children, map_append, ← ofExprs_rebuild]
    rfl
  | lambda id params isAsync body =>
    rw [ExprKind.children, map_append, ← ofParams_rebuild, ← ofLambdaBody_rebuild]
    rfl
  | create type args inits =>
    rw [ExprKind.children, map_append, ← ofExprs_rebuild, ← ofInits_rebuild]
    rfl
  | copyWith receiver inits => exact congrArg (_ :: ·) (ofInits_rebuild rules site)
  | switch subject arms => exact congrArg (_ :: ·) (ofArms_rebuild rules site)
  | interpolated parts => exact ofParts_rebuild rules site
  | _ => rfl

theorem PatternKind.children_rebuild (kind : PatternKind) :
    (kind.rebuild rules site : Id PatternKind).children =
      kind.children.map (Node.rebuilt rules site) := by
  cases kind with
  | recursive type positional properties designation =>
    rw [PatternKind.children, map_append, ← ofPatterns_rebuild, ← ofProperties_rebuild]
    rfl
  | list elements designation => exact ofPatterns_rebuild rules site
  | slice inner => cases inner <;> rfl
  | _ => rfl

theorem MemberKind.roots_rebuild (kind : MemberKind) :
    (kind.rebuild rules site : Id MemberKind).roots = kind.roots.map (Node.rebuilt rules site) := by
  cases kind with
  | field type name init => exact ofExpr?_rebuild rules site
  | property type name getter setter init =>
    have accessor (body : Option Body) :
        ((rebuildBody? rules site body : Id (Option Body)).map ofBody).getD [] =
          ((body.map ofBody).getD []).map (Node.rebuilt rules site) := by
      cases body with
      | none => rfl
      | some body => exact ofBody_rebuild rules site
    rw [MemberKind.roots, map_append, map_append, ← accessor, ← accessor,
      ← ofExpr?_rebuild]
    rfl
  | method name typeParams params ret body | operator op params ret body =>
    rw [MemberKind.roots, map_append, ← ofParams_rebuild, ← ofBody_rebuild]
    rfl
  | ctor params initializer body =>
    cases initializer with
    | none =>
      rw [MemberKind.roots, map_append, map_append, ← ofParams_rebuild,
        ← ofBody_rebuild]
      rfl
    | some initializer =>
      obtain ⟨target, args⟩ := initializer
      rw [MemberKind.roots, map_append, map_append, ← ofParams_rebuild,
        ← ofBody_rebuild]
      change _ ++ ofExprs (rebuildExprs rules site args : Id (List Expr)) ++ _ = _
      rw [ofExprs_rebuild]
      rfl

end Children

theorem memberRoots_rebuild {rules : Rules Id} {type index : Nat} {members : List Member} :
    memberRoots (rebuildMembers rules type index members : Id (List Member)) =
      (memberPlaces type index members).map fun place => place.2.rebuilt rules place.1 := by
  induction members generalizing index with
  | nil => rfl
  | cons member rest ih =>
    change (member.kind.rebuild rules ⟨.member type index, []⟩ : Id MemberKind).roots ++
      memberRoots (rebuildMembers rules type (index + 1) rest : Id (List Member)) = _
    rw [ih, MemberKind.roots_rebuild]
    simp [memberPlaces, Function.comp_def]

def rebuildOption {m : Type → Type} [Monad m] {α : Type} (rebuild : α → m α) :
    Option α → m (Option α)
  | none => pure none
  | some value => some <$> rebuild value

theorem TypeDecl.rebuild_eq {m : Type → Type} [Monad m] (rules : Rules m) (type : Nat)
    (decl : TypeDecl) :
    decl.rebuild rules type = (do
      let primary ← rebuildOption (rebuildParams rules ⟨.header type, []⟩) decl.primary
      let baseArgs ← rebuildOption (rebuildExprs rules ⟨.header type, []⟩) decl.baseArgs
      let members ← rebuildMembers rules type 0 decl.members
      return { decl with primary, baseArgs, members }) := by
  unfold TypeDecl.rebuild
  cases decl.primary <;> cases decl.baseArgs <;> rfl

theorem TypeDecl.roots_rebuild (rules : Rules Id) (type : Nat) (decl : TypeDecl) :
    (decl.rebuild rules type : Id TypeDecl).headerRoots ++
        memberRoots (decl.rebuild rules type : Id TypeDecl).members =
      (decl.headerRoots.map (Prod.mk (⟨.header type, []⟩ : Site)) ++
        memberPlaces type 0 decl.members).map fun place => place.2.rebuilt rules place.1 := by
  have params (primary : Option (List Param)) :
      ((rebuildOption (rebuildParams rules ⟨.header type, []⟩) primary : Id _).map ofParams).getD [] =
        ((primary.map ofParams).getD []).map (Node.rebuilt rules ⟨.header type, []⟩) := by
    cases primary with
    | none => rfl
    | some params => exact ofParams_rebuild rules _
  have args (baseArgs : Option (List Expr)) :
      ((rebuildOption (rebuildExprs rules ⟨.header type, []⟩) baseArgs : Id _).map ofExprs).getD [] =
        ((baseArgs.map ofExprs).getD []).map (Node.rebuilt rules ⟨.header type, []⟩) := by
    cases baseArgs with
    | none => rfl
    | some args => exact ofExprs_rebuild rules _
  rw [TypeDecl.rebuild_eq, map_append, ← memberRoots_rebuild]
  change (_ ++ _) ++ _ = _
  simp only [TypeDecl.headerRoots, map_append, map_map, Function.comp_def]
  rw [← params, ← args]
  rfl

theorem CompilationUnit.roots_rebuild (rules : Rules Id) (unit : CompilationUnit) :
    (unit.rebuild rules : Id CompilationUnit).roots =
      unit.places.map fun place => place.2.rebuilt rules place.1 := by
  have fromIndex (index : Nat) (types : List TypeDecl) :
      ((rebuildTypes rules index types : Id (List TypeDecl)).flatMap fun decl =>
          decl.headerRoots ++ memberRoots decl.members) =
        (typePlaces index types).map fun place => place.2.rebuilt rules place.1 := by
    induction types generalizing index with
    | nil => rfl
    | cons decl rest ih =>
      rw [typePlaces, map_append, ← ih, ← TypeDecl.roots_rebuild]
      rfl
  exact fromIndex 0 unit.types

variable {rules : Rules Id} {atExpr : Expr → Expr} {atStmt : Stmt → Stmt}
  (isLocal : rules.Local atExpr atStmt)

include isLocal

theorem Rules.Local.ofSections_rebuild {site : Site} {sections : List Section} :
    (rebuildSections rules site sections : Id (List Section)).flatMap ofSection =
      (sections.flatMap ofSection).map (Node.rebuilt rules site) := by
  rw [isLocal.rebuildSections_eq]
  induction sections with
  | nil => rfl
  | cons sect rest ih =>
    rw [map_cons, flatMap_cons, ih]
    simp [ofSection, ofLabels_rebuild, ofStmts, Node.rebuilt]

theorem Rules.Local.children_rebuild (site : Site) (kind : StmtKind) :
    (kind.rebuild rules site : Id StmtKind).children =
      kind.children.map (Node.rebuilt rules site) := by
  cases kind with
  | block body =>
    change ofStmts (rebuildStmts rules site body : Id (List Stmt)) = _
    rw [isLocal.rebuildStmts_eq]
    simp [ofStmts, StmtKind.children, Node.rebuilt]
  | declare type name init => exact ofExpr?_rebuild rules site
  | ifElse cond yes no =>
    exact congrArg (fun rest => _ :: _ :: rest) (ofStmt?_rebuild rules site)
  | forLoop init cond step body =>
    rw [StmtKind.children, map_append, map_append, map_append,
      ← ofEachStmt_rebuild, ← ofExpr?_rebuild, ← ofExprs_rebuild]
    rfl
  | ret value | throw value => exact ofExpr?_rebuild rules site
  | switch subject sections =>
    exact congrArg (_ :: ·) isLocal.ofSections_rebuild
  | localFunction name typeParams params ret body =>
    rw [StmtKind.children, map_append, ← ofParams_rebuild, ← ofBody_rebuild]
    rfl
  | _ => rfl

end Unsugar
