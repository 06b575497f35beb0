import Unsugar.Proofs.Print.Conditionals
import Unsugar.Proofs.Syntax.Subtrees

open List

namespace Unsugar

open Conditionals Node

/-! # Steps through a tree

The steps of a node are those of its children, in the order they are written,
with brackets around all that stands between brackets and holds statements.
-/

section Layout

variable (steps : Node → List Step)

/-- A body that is a statement stands in braces. -/
def LambdaBody.layout : LambdaBody → List Step
  | .expr value => steps (.expr value)
  | .block body => grouped (steps (.stmt body))

def Body.layout : Body → List Step
  | .none => []
  | .expr value => steps (.expr value)
  | .block body => grouped (steps (.stmt body))

def ExprKind.layout : ExprKind → List Step
  | .lambda _ params _ body => (ofParams params).flatMap steps ++ body.layout steps
  | kind => kind.children.flatMap steps

def StmtKind.layout : StmtKind → List Step
  | .block body => grouped ((ofStmts body).flatMap steps)
  | .ifElse cond yes none => .meetIf :: (steps (.expr cond) ++ steps (.stmt yes)) ++ [.endIf]
  | .ifElse cond yes (some no) =>
    .meetIf :: (steps (.expr cond) ++ steps (.stmt yes)) ++ .meetElse :: steps (.stmt no) ++
      [.endIf]
  | .forLoop init cond step body =>
    grouped ((ofStmts init ++ ofExpr? cond ++ ofExprs step).flatMap steps) ++ steps (.stmt body)
  | .switch subject sections =>
    steps (.expr subject) ++ grouped ((sections.flatMap ofSection).flatMap steps)
  | .localFunction _ _ params _ body => (ofParams params).flatMap steps ++ body.layout steps
  | kind => kind.children.flatMap steps

def Node.layout : Node → List Step
  | .expr node => node.kind.layout steps
  | .stmt node => node.kind.layout steps
  | .pattern node => node.kind.children.flatMap steps

end Layout

def Node.stepsWithin : Nat → Node → List Step
  | 0, _ => []
  | depth + 1, node => node.layout (stepsWithin depth)

def Node.steps (node : Node) : List Step := node.stepsWithin (node.reachable true).length

section Congruence

variable {left right : Node → List Step}

theorem flatMap_congr {nodes : List Node} (same : ∀ node ∈ nodes, left node = right node) :
    nodes.flatMap left = nodes.flatMap right := by
  rw [flatMap_def, flatMap_def, map_congr_left same]

theorem LambdaBody.layout_congr (body : LambdaBody)
    (same : ∀ child ∈ ofLambdaBody body, left child = right child) :
    body.layout left = body.layout right := by
  cases body with
  | expr value => exact same _ mem_cons_self
  | block body => exact congrArg grouped (same _ mem_cons_self)

theorem Body.layout_congr (body : Body) (same : ∀ child ∈ ofBody body, left child = right child) :
    body.layout left = body.layout right := by
  cases body with
  | none => rfl
  | expr value => exact same _ mem_cons_self
  | block body => exact congrArg grouped (same _ mem_cons_self)

theorem StmtKind.layout_congr (kind : StmtKind)
    (same : ∀ child ∈ kind.children, left child = right child) :
    kind.layout left = kind.layout right := by
  cases kind with
  | block body => exact congrArg grouped (flatMap_congr same)
  | ifElse cond yes no =>
    have sameCond := same (.expr cond) mem_cons_self
    have sameYes := same (.stmt yes) (mem_cons_of_mem _ mem_cons_self)
    cases no with
    | none => simp only [StmtKind.layout, sameCond, sameYes]
    | some no =>
      have sameNo := same (.stmt no) (by simp [StmtKind.children, ofStmt?])
      simp only [StmtKind.layout, sameCond, sameYes, sameNo]
  | forLoop init cond step body =>
    obtain ⟨sameHead, sameBody⟩ := forall_mem_append.1 same
    simp only [StmtKind.layout, flatMap_congr sameHead, sameBody _ mem_cons_self]
  | switch subject sections =>
    obtain ⟨sameSubject, sameSections⟩ := forall_mem_cons.1 same
    simp only [StmtKind.layout, sameSubject, flatMap_congr sameSections]
  | localFunction name typeParams params ret body =>
    obtain ⟨sameParams, sameBody⟩ := forall_mem_append.1 same
    simp only [StmtKind.layout, flatMap_congr sameParams, body.layout_congr sameBody]
  | _ => exact flatMap_congr same

theorem Node.layout_congr (node : Node) (same : ∀ child ∈ node.children, left child = right child) :
    node.layout left = node.layout right := by
  cases node with
  | expr node =>
    obtain ⟨mark, kind⟩ := node
    cases kind with
    | lambda id params isAsync body =>
      obtain ⟨sameParams, sameBody⟩ := forall_mem_append.1 same
      simp only [Node.layout, ExprKind.layout, flatMap_congr sameParams, body.layout_congr sameBody]
    | _ => exact flatMap_congr same
  | stmt node => exact node.kind.layout_congr same
  | pattern node => exact flatMap_congr same

end Congruence

/-- Once there is room for the whole subtree, the depth does not matter. -/
theorem Node.stepsWithin_eq (node : Node) (depth : Nat)
    (isEnough : (node.reachable true).length ≤ depth) : node.stepsWithin depth = node.steps := by
  induction node using Node.childInduction generalizing depth with
  | step node below =>
    have atLeast (depth : Nat) (isEnough : (node.reachable true).length ≤ depth) :
        node.stepsWithin depth = node.layout Node.steps := by
      cases depth with
      | zero => simp [node.reachable_eq] at isEnough
      | succ depth =>
        refine node.layout_congr fun child isChild => below child isChild depth ?_
        have := Node.length_reachable_lt isChild
        omega
    rw [atLeast depth isEnough, Node.steps, atLeast _ (Nat.le_refl _)]

theorem Node.steps_eq (node : Node) : node.steps = node.layout Node.steps := by
  rw [← node.stepsWithin_eq ((node.reachable true).length + 1) (Nat.le_succ _)]
  refine node.layout_congr fun child isChild => ?_
  have := Node.length_reachable_lt isChild
  exact child.stepsWithin_eq _ (by omega)

mutual

/-- How many `if` are still without `else` where a statement ends. -/
def Stmt.openIfs : Stmt → Nat
  | ⟨_, kind⟩ => kind.openIfs

def StmtKind.openIfs : StmtKind → Nat
  | .ifElse _ yes none => yes.openIfs + 1
  | .ifElse _ yes (some no) => yes.openIfs + no.openIfs
  | .whileLoop _ body | .forLoop _ _ _ body | .forEach _ _ _ body => body.openIfs
  | _ => 0

end

/-- An `else` does not follow a statement that ends with an `if` without one. -/
def Node.keepsElse : Node → Bool
  | .stmt ⟨_, .ifElse _ yes (some _)⟩ => yes.openIfs == 0
  | _ => true

def Node.openIfs : Node → Nat
  | .stmt node => node.openIfs
  | _ => 0

/-- Everywhere in a subtree, an `else` follows its own `if`. -/
def Node.IsClear (node : Node) : Prop := ∀ inner ∈ node.reachable true, inner.keepsElse = true

theorem Node.isClear_iff (node : Node) :
    node.IsClear ↔ node.keepsElse = true ∧ ∀ child ∈ node.children, child.IsClear := by
  simp only [Node.IsClear]
  rw [node.reachable_eq]
  simp only [forall_mem_cons, forall_mem_flatMap]

/-! ## Nodes that leave no `if` waiting -/

def NoneOpen (nodes : List Node) : Prop := ∀ node ∈ nodes, node.openIfs = 0

namespace NoneOpen

@[simp] theorem nil : NoneOpen [] := nofun

@[simp] theorem cons_iff {node : Node} {rest : List Node} :
    NoneOpen (node :: rest) ↔ node.openIfs = 0 ∧ NoneOpen rest := forall_mem_cons

@[simp] theorem append_iff {first second : List Node} :
    NoneOpen (first ++ second) ↔ NoneOpen first ∧ NoneOpen second := forall_mem_append

@[simp] theorem ofExprs (nodes : List Expr) : NoneOpen (ofExprs nodes) := by
  simp [NoneOpen, Node.ofExprs, Node.openIfs]

@[simp] theorem ofExpr? (value : Option Expr) : NoneOpen (ofExpr? value) := by
  cases value <;> simp [Node.ofExpr?, Node.openIfs]

@[simp] theorem ofParams (params : List Param) : NoneOpen (ofParams params) :=
  forall_mem_flatMap.2 fun param _ => ofExpr? param.default

@[simp] theorem ofInits (inits : List FieldInit) : NoneOpen (ofInits inits) := by
  simp [NoneOpen, Node.ofInits, Node.openIfs]

@[simp] theorem ofArms (arms : List Arm) : NoneOpen (arms.flatMap ofArm) :=
  forall_mem_flatMap.2 fun arm _ => by
    change NoneOpen (ofArm arm)
    simp [ofArm, Node.openIfs]

@[simp] theorem ofParts (parts : List Part) : NoneOpen (parts.flatMap ofPart) :=
  forall_mem_flatMap.2 fun part _ => by
    change NoneOpen (ofPart part)
    cases part <;> simp [ofPart, Node.openIfs]

@[simp] theorem ofPatterns (patterns : List Pattern) : NoneOpen (patterns.map pattern) := by
  simp [NoneOpen, Node.openIfs]

@[simp] theorem ofProperties (properties : List PropertyPattern) :
    NoneOpen (properties.map fun property => pattern property.pattern) := by
  simp [NoneOpen, Node.openIfs]

end NoneOpen

theorem ExprKind.noneOpen (kind : ExprKind)
    (noBody : ∀ id params isAsync body, kind ≠ .lambda id params isAsync body) :
    NoneOpen kind.children := by
  cases kind with
  | lambda id params isAsync body => exact absurd rfl (noBody _ _ _ _)
  | _ => simp [ExprKind.children, Node.openIfs]

theorem PatternKind.noneOpen (kind : PatternKind) : NoneOpen kind.children := by
  cases kind with
  | slice inner => cases inner <;> simp [PatternKind.children, Node.openIfs]
  | _ => simp [PatternKind.children, Node.openIfs]

/-! ## What the steps amount to -/

def Node.Accounted (node : Node) : Prop := Accounts node.steps node.openIfs node.IsClear

variable {nodes : List Node}

theorem accounts_flatMap (each : ∀ node ∈ nodes, node.Accounted) :
    ∃ waiting, Accounts (nodes.flatMap Node.steps) waiting (∀ node ∈ nodes, node.IsClear) ∧
      (NoneOpen nodes → waiting = 0) := by
  induction nodes with
  | nil => exact ⟨0, Accounts.nil.congr rfl (by simp), fun _ => rfl⟩
  | cons node rest ih =>
    obtain ⟨first, others⟩ := forall_mem_cons.1 each
    obtain ⟨waiting, accounts, isZero⟩ := ih others
    refine ⟨_, (first.append accounts).congr rfl (by simp), fun noneOpen => ?_⟩
    obtain ⟨notOpen, noneOpen⟩ := forall_mem_cons.1 noneOpen
    rw [notOpen, isZero noneOpen]

theorem accounts_grouped (each : ∀ node ∈ nodes, node.Accounted) :
    Accounts (grouped (nodes.flatMap Node.steps)) 0 (∀ node ∈ nodes, node.IsClear) :=
  have ⟨_, accounts, _⟩ := accounts_flatMap each
  accounts.group

theorem accounts_closed (each : ∀ node ∈ nodes, node.Accounted) (noneOpen : NoneOpen nodes) :
    Accounts (nodes.flatMap Node.steps) 0 (∀ node ∈ nodes, node.IsClear) :=
  have ⟨_, accounts, isZero⟩ := accounts_flatMap each
  accounts.congr (isZero noneOpen) .rfl

theorem LambdaBody.accounts (body : LambdaBody)
    (each : ∀ node ∈ ofLambdaBody body, node.Accounted) :
    Accounts (body.layout Node.steps) 0 (∀ node ∈ ofLambdaBody body, node.IsClear) := by
  cases body with
  | expr value => exact (each _ mem_cons_self).congr rfl (by simp [ofLambdaBody])
  | block body => exact (each _ mem_cons_self).group.congr rfl (by simp [ofLambdaBody])

theorem Body.accounts (body : Body) (each : ∀ node ∈ ofBody body, node.Accounted) :
    Accounts (body.layout Node.steps) 0 (∀ node ∈ ofBody body, node.IsClear) := by
  cases body with
  | none => exact Accounts.nil.congr rfl (by simp [ofBody])
  | expr value => exact (each _ mem_cons_self).congr rfl (by simp [ofBody])
  | block body => exact (each _ mem_cons_self).group.congr rfl (by simp [ofBody])

theorem ExprKind.accounts (kind : ExprKind) (each : ∀ node ∈ kind.children, node.Accounted) :
    Accounts (kind.layout Node.steps) 0 (∀ node ∈ kind.children, node.IsClear) := by
  cases kind with
  | lambda id params isAsync body =>
    obtain ⟨paramsEach, bodyEach⟩ := forall_mem_append.1 each
    exact ((accounts_closed paramsEach (.ofParams params)).append
      (body.accounts bodyEach)).congr rfl forall_mem_append.symm
  | _ => exact accounts_closed each (ExprKind.noneOpen _ nofun)

theorem accounts_loop {head : Expr} {body : Stmt}
    (each : ∀ node ∈ [expr head, stmt body], node.Accounted) :
    Accounts ([expr head, stmt body].flatMap Node.steps) body.openIfs
      (∀ node ∈ [expr head, stmt body], node.IsClear) := by
  have ofHead := each _ mem_cons_self
  have ofBody := each _ (mem_cons_of_mem _ mem_cons_self)
  refine (ofHead.append (ofBody.append Accounts.nil)).congr ?_ ?_
  · simp [Node.openIfs]
  · simp

theorem StmtKind.accounts (mark : Mark) (kind : StmtKind)
    (each : ∀ node ∈ kind.children, node.Accounted) :
    Accounts (kind.layout Node.steps) kind.openIfs
      ((Node.stmt ⟨mark, kind⟩).keepsElse = true ∧ ∀ node ∈ kind.children, node.IsClear) := by
  cases kind with
  | block body =>
    exact (accounts_grouped each).congr rfl (by simp [Node.keepsElse, StmtKind.children])
  | ifElse cond yes no =>
    obtain ⟨ofCond, rest⟩ := forall_mem_cons.1 each
    obtain ⟨ofYes, ofNo⟩ := forall_mem_cons.1 rest
    have head := ofCond.append ofYes
    cases no with
    | none =>
      refine head.ifOnly.congr ?_ ?_
      · simp [Node.openIfs, StmtKind.openIfs]
      · simp [Node.keepsElse, StmtKind.children, ofStmt?]
    | some no =>
      refine (head.ifElse (ofNo _ mem_cons_self)).congr ?_ ?_
      · simp [Node.openIfs, StmtKind.openIfs]
      · simp [Node.keepsElse, Node.openIfs, StmtKind.children, ofStmt?, and_assoc]
  | whileLoop cond body =>
    exact (accounts_loop each).congr rfl (by simp [Node.keepsElse, StmtKind.children])
  | forLoop init cond step body =>
    obtain ⟨ofHead, ofBody⟩ := forall_mem_append.1 each
    refine ((accounts_grouped ofHead).append (ofBody _ mem_cons_self)).congr ?_ ?_
    · simp [Node.openIfs, StmtKind.openIfs]
    · simp [Node.keepsElse, StmtKind.children, or_imp, forall_and, and_assoc]
  | forEach type name iterable body =>
    exact (accounts_loop each).congr rfl (by simp [Node.keepsElse, StmtKind.children])
  | switch subject sections =>
    obtain ⟨ofSubject, ofSections⟩ := forall_mem_cons.1 each
    refine (ofSubject.append (accounts_grouped ofSections)).congr ?_ ?_
    · simp [Node.openIfs, StmtKind.openIfs]
    · simp [Node.keepsElse, StmtKind.children]
  | localFunction name typeParams params ret body =>
    obtain ⟨ofParams, ofBody⟩ := forall_mem_append.1 each
    refine ((accounts_closed ofParams (.ofParams params)).append (body.accounts ofBody)).congr ?_ ?_
    · simp [StmtKind.openIfs]
    · simp [Node.keepsElse, StmtKind.children, or_imp, forall_and]
  | _ =>
    refine (accounts_closed each ?_).congr rfl ?_
    · simp [StmtKind.children, Node.openIfs]
    · simp [Node.keepsElse, StmtKind.children]

theorem Node.accounted (node : Node) : node.Accounted := by
  induction node using Node.childInduction with
  | step node each =>
    unfold Node.Accounted
    rw [node.steps_eq, node.isClear_iff]
    cases node with
    | expr node => exact (node.kind.accounts each).congr rfl (and_iff_right rfl).symm
    | stmt node =>
      obtain ⟨mark, kind⟩ := node
      exact kind.accounts mark each
    | pattern node =>
      exact (accounts_closed each node.kind.noneOpen).congr rfl (and_iff_right rfl).symm

/-! ## Units -/

def Body.layout? (body : Option Body) : List Step := (body.map (Body.layout Node.steps)).getD []

def MemberKind.steps : MemberKind → List Step
  | .field _ _ init => (ofExpr? init).flatMap Node.steps
  | .property _ _ getter setter init =>
    Body.layout? getter ++ Body.layout? setter ++ (ofExpr? init).flatMap Node.steps
  | .method _ _ params _ body | .operator _ params _ body =>
    (ofParams params).flatMap Node.steps ++ body.layout Node.steps
  | .ctor params initializer body =>
    (ofParams params ++ (initializer.map fun init => ofExprs init.args).getD []).flatMap
      Node.steps ++ body.layout Node.steps

def TypeDecl.steps (decl : TypeDecl) : List Step :=
  decl.headerRoots.flatMap Node.steps ++ grouped (decl.members.flatMap (·.kind.steps))

def CompilationUnit.steps (unit : CompilationUnit) : List Step := unit.types.flatMap TypeDecl.steps

theorem Body.accounts? (body : Option Body) :
    Accounts (Body.layout? body) 0 (∀ node ∈ (body.map ofBody).getD [], node.IsClear) := by
  cases body with
  | none => exact Accounts.nil.congr rfl (by simp)
  | some body => exact body.accounts fun node _ => node.accounted

theorem MemberKind.accounts (kind : MemberKind) :
    Accounts kind.steps 0 (∀ node ∈ kind.roots, node.IsClear) := by
  have closed {nodes : List Node} (noneOpen : NoneOpen nodes) :=
    accounts_closed (fun node (_ : node ∈ nodes) => node.accounted) noneOpen
  have ofBody (body : Body) := body.accounts fun node _ => node.accounted
  cases kind with
  | field type name init => exact closed (.ofExpr? init)
  | property type name getter setter init =>
    exact (((Body.accounts? getter).append (Body.accounts? setter)).append
      (closed (.ofExpr? init))).congr rfl (by simp only [MemberKind.roots, forall_mem_append])
  | method name typeParams params ret body =>
    exact ((closed (.ofParams params)).append (ofBody body)).congr rfl forall_mem_append.symm
  | operator op params ret body =>
    exact ((closed (.ofParams params)).append (ofBody body)).congr rfl forall_mem_append.symm
  | ctor params initializer body =>
    refine ((closed ?_).append (ofBody body)).congr rfl forall_mem_append.symm
    cases initializer <;> simp

theorem accounts_concat {α : Type} (items : List α) {steps : α → List Step} {isClear : α → Prop}
    (each : ∀ item, Accounts (steps item) 0 (isClear item)) :
    Accounts (items.flatMap steps) 0 (∀ item ∈ items, isClear item) := by
  induction items with
  | nil => exact Accounts.nil.congr rfl (by simp)
  | cons item rest ih =>
    exact ((each item).append ih).congr rfl (by simp)

theorem TypeDecl.headerRoots_noneOpen (decl : TypeDecl) : NoneOpen decl.headerRoots := by
  unfold TypeDecl.headerRoots
  cases decl.primary <;> cases decl.baseArgs <;> simp

theorem TypeDecl.accounts (decl : TypeDecl) :
    Accounts decl.steps 0 (∀ node ∈ decl.headerRoots ++ memberRoots decl.members, node.IsClear) := by
  have header := accounts_closed (fun node _ => node.accounted) decl.headerRoots_noneOpen
  have members := accounts_concat decl.members fun member => member.kind.accounts
  refine (header.append members.group).congr rfl ?_
  simp only [memberRoots, forall_mem_append, forall_mem_flatMap]

theorem CompilationUnit.accounts (unit : CompilationUnit) :
    Accounts unit.steps 0 (∀ inner ∈ unit.reachable, inner.keepsElse = true) := by
  refine (accounts_concat unit.types TypeDecl.accounts).congr rfl ?_
  rw [unit.reachable_eq]
  simp only [CompilationUnit.roots, forall_mem_flatMap]
  rfl

end Unsugar
