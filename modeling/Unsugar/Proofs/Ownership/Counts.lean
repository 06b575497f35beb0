import Unsugar.Syntax.Build
import Unsugar.Proofs.Syntax.Subtrees
import Mathlib.Algebra.Ring.Nat

open List

namespace Unsugar

/-! # Counting identities

Trees are values, so a node has two parents only by standing at two places under
one identity.  A unit is proper if no identity does.  `tally` counts how often an
identity stands among nodes and everything below them; it is an instance of
`weigh`, which adds up what each node weighs by its mark.
-/

open Node

variable {rest : List Node} {kind : StmtKind} {name : String} {value operand target cond : Expr}
  {args : List Expr} {op : BinaryOp} {body : List Stmt}

/-- Every identity stands at one place only. -/
def CompilationUnit.Proper (unit : CompilationUnit) : Prop :=
  (unit.reachable.filterMap Node.id).Nodup

/-! ## Weights -/

/-- What nodes and everything below them weigh together. -/
def weigh (own : Mark → Nat) (nodes : List Node) : Nat :=
  ((nodes.flatMap (Node.reachable true)).map fun node => own node.mark).sum

section Weigh

variable (own : Mark → Nat)

@[simp] theorem weigh_nil : weigh own [] = 0 := rfl

theorem weigh_cons {node : Node} :
    weigh own (node :: rest) = weigh own [node] + weigh own rest := by
  simp [weigh]

@[simp] theorem weigh_append {left right : List Node} :
    weigh own (left ++ right) = weigh own left + weigh own right := by
  simp [weigh]

theorem weigh_node {node : Node} : weigh own [node] = own node.mark + weigh own node.children := by
  simp [weigh, node.reachable_eq]

/-- Where nothing weighs anything, all of it together does not. -/
@[simp] theorem weigh_zero {nodes : List Node} : weigh (fun _ => 0) nodes = 0 := by
  rw [weigh, map_const', sum_replicate_nat, Nat.mul_zero]

end Weigh

/-- Whether a mark bears an identity, as a number. -/
def Mark.bears (id : Nat) (mark : Mark) : Nat := if mark.id = some id then 1 else 0

section Counting

variable (id : Nat)

/-- How often an identity stands among nodes and below them. -/
def tally (nodes : List Node) : Nat := weigh (Mark.bears id) nodes

/-- How often an identity stands at a node and below it. -/
def Node.count (node : Node) : Nat := tally id [node]

variable {id}

@[simp] theorem tally_nil : tally id [] = 0 := rfl

@[simp] theorem tally_cons {node : Node} :
    tally id (node :: rest) = node.count id + tally id rest :=
  weigh_cons _

@[simp] theorem tally_append (left right : List Node) :
    tally id (left ++ right) = tally id left + tally id right :=
  weigh_append _

variable {nodes : List Node} {node : Node} (mark : Mark)

theorem tally_map {change : Node → Node}
    (same : ∀ node ∈ nodes, (change node).count id = node.count id) :
    tally id (nodes.map change) = tally id nodes := by
  induction nodes with
  | nil => rfl
  | cons node rest ih =>
    rw [map_cons, tally_cons, tally_cons, same node mem_cons_self,
      ih fun other isOther => same other (mem_cons_of_mem _ isOther)]

theorem Node.count_eq (node : Node) : node.count id = node.mark.bears id + tally id node.children :=
  weigh_node _

theorem count_expr (kind : ExprKind) :
    (expr ⟨mark, kind⟩).count id = mark.bears id + tally id kind.children :=
  Node.count_eq _

theorem count_stmt : (stmt ⟨mark, kind⟩).count id = mark.bears id + tally id kind.children :=
  Node.count_eq _

theorem count_pattern {kind : PatternKind} :
    (pattern ⟨mark, kind⟩).count id = mark.bears id + tally id kind.children :=
  Node.count_eq _

theorem Node.tally_children_le (node : Node) : tally id node.children ≤ node.count id := by
  rw [node.count_eq]
  exact Nat.le_add_left _ _

theorem count_le_tally (isIn : node ∈ nodes) : node.count id ≤ tally id nodes := by
  obtain ⟨before, after, rfl⟩ := append_of_mem isIn
  rw [tally_append, tally_cons]
  omega

theorem count_add_le_tally {other : Node} (isNode : node ∈ nodes) (isOther : other ∈ nodes)
    (differ : node ≠ other) : node.count id + other.count id ≤ tally id nodes := by
  obtain ⟨before, after, rfl⟩ := append_of_mem isNode
  have elsewhere : other ∈ before ++ after := by
    simpa [Ne.symm differ] using isOther
  have atLeast : other.count id ≤ _ := count_le_tally elsewhere
  rw [tally_append] at atLeast
  rw [tally_append, tally_cons]
  omega

theorem Node.tally_children_mono {below : Node} (isBelow : below ∈ node.reachable true) :
    tally id below.children ≤ tally id node.children := by
  induction node using Node.childInduction with
  | step node ih =>
    rw [node.reachable_eq, mem_cons, mem_flatMap] at isBelow
    rcases isBelow with rfl | ⟨child, isChild, isBelow⟩
    · exact Nat.le_refl _
    · calc tally id below.children
        _ ≤ tally id child.children := ih child isChild isBelow
        _ ≤ child.count id := child.tally_children_le
        _ ≤ tally id node.children := count_le_tally isChild

theorem count_ids (nodes : List Node) :
    (nodes.filterMap Node.id).count id = (nodes.map fun node => node.mark.bears id).sum := by
  induction nodes with
  | nil => rfl
  | cons node rest ih =>
    rw [map_cons, sum_cons, ← ih, filterMap_cons]
    unfold Mark.bears Node.id
    cases node.mark.id with
    | none => simp
    | some other =>
      by_cases same : other = id
      · subst same
        simp [Nat.add_comm]
      · simp [same]

theorem CompilationUnit.count_ids (unit : CompilationUnit) :
    (unit.reachable.filterMap Node.id).count id = tally id unit.roots := by
  rw [Unsugar.count_ids, unit.reachable_eq]
  rfl

theorem CompilationUnit.proper_iff {unit : CompilationUnit} :
    unit.Proper ↔ ∀ id, tally id unit.roots ≤ 1 := by
  rw [Proper, nodup_iff_count]
  exact forall_congr' fun id => by rw [unit.count_ids]

end Counting

/-! ## Nodes that are made

A node that a rule makes bears no identity, so only what it is made from counts.
-/

section Made

variable {id : Nat} (span : Span) (type : TypeSyntax) (receiver : Expr)

@[simp] theorem Span.bears_mark : span.mark.bears id = 0 := rfl

@[simp] theorem count_spanExpr {kind : ExprKind} :
    (expr (span.expr kind)).count id = tally id kind.children := by
  rw [Span.expr, count_expr, Span.bears_mark, Nat.zero_add]

@[simp] theorem count_spanStmt :
    (stmt (span.stmt kind)).count id = tally id kind.children := by
  rw [Span.stmt, count_stmt, Span.bears_mark, Nat.zero_add]

@[simp] theorem ofExprs_nil : ofExprs [] = [] := rfl

@[simp] theorem ofExprs_cons {node : Expr} {rest : List Expr} :
    ofExprs (node :: rest) = expr node :: ofExprs rest := rfl

@[simp] theorem ofExprs_append {left right : List Expr} :
    ofExprs (left ++ right) = ofExprs left ++ ofExprs right := map_append

@[simp] theorem ofStmts_nil : ofStmts [] = [] := rfl

@[simp] theorem ofStmts_cons {node : Stmt} {rest : List Stmt} :
    ofStmts (node :: rest) = stmt node :: ofStmts rest := rfl

@[simp] theorem ofStmts_append {left right : List Stmt} :
    ofStmts (left ++ right) = ofStmts left ++ ofStmts right := map_append

@[simp] theorem ofExpr?_none : ofExpr? none = [] := rfl

@[simp] theorem ofExpr?_some {node : Expr} : ofExpr? (some node) = [expr node] := rfl

@[simp] theorem ofStmt?_none : ofStmt? none = [] := rfl

@[simp] theorem ofStmt?_some {node : Stmt} : ofStmt? (some node) = [stmt node] := rfl

@[simp] theorem count_ident : (expr (span.ident name)).count id = 0 := by
  simp [Span.ident, ExprKind.children]

@[simp] theorem count_intLit {value : Int} : (expr (span.intLit value)).count id = 0 := by
  simp [Span.intLit, ExprKind.children]

@[simp] theorem count_boolLit {value : Bool} : (expr (span.boolLit value)).count id = 0 := by
  simp [Span.boolLit, ExprKind.children]

@[simp] theorem count_strLit {value : String} : (expr (span.strLit value)).count id = 0 := by
  simp [Span.strLit, ExprKind.children]

@[simp] theorem count_nullLit : (expr span.nullLit).count id = 0 := by
  simp [Span.nullLit, ExprKind.children]

@[simp] theorem count_self : (expr span.self).count id = 0 := by
  simp [Span.self, ExprKind.children]

@[simp] theorem count_typeRef : (expr (span.typeRef type)).count id = 0 := by
  simp [Span.typeRef, ExprKind.children]

@[simp] theorem count_member :
    (expr (span.member receiver name)).count id = (expr receiver).count id := by
  simp [Span.member, ExprKind.children]

@[simp] theorem count_call {callee : Expr} :
    (expr (span.call callee args)).count id = (expr callee).count id + tally id (ofExprs args) := by
  simp [Span.call, ExprKind.children]

@[simp] theorem count_methodCall : (expr (span.methodCall receiver name args)).count id =
      (expr receiver).count id + tally id (ofExprs args) := by
  simp [Span.methodCall]

@[simp] theorem count_index : (expr (span.index receiver args)).count id =
      (expr receiver).count id + tally id (ofExprs args) := by
  simp [Span.index, ExprKind.children]

@[simp] theorem count_create :
    (expr (span.create type args)).count id = tally id (ofExprs args) := by
  simp [Span.create, ExprKind.children, ofInits]

@[simp] theorem count_unary {op : UnaryOp} :
    (expr (span.unary op operand)).count id = (expr operand).count id := by
  simp [Span.unary, ExprKind.children]

@[simp] theorem count_binary {left right : Expr} :
    (expr (span.binary op left right)).count id = (expr left).count id + (expr right).count id := by
  simp [Span.binary, ExprKind.children]

@[simp] theorem count_assign : (expr (span.assign target value)).count id =
      (expr target).count id + (expr value).count id := by
  simp [Span.assign, ExprKind.children]

@[simp] theorem count_conditional {yes no : Expr} : (expr (span.conditional cond yes no)).count id =
      (expr cond).count id + (expr yes).count id + (expr no).count id := by
  simp [Span.conditional, ExprKind.children, Nat.add_assoc]

@[simp] theorem count_cast :
    (expr (span.cast type operand)).count id = (expr operand).count id := by
  simp [Span.cast, ExprKind.children]

@[simp] theorem count_typeTest {subject : Expr} {type : TypeSyntax} :
    (expr (span.typeTest subject type)).count id = (expr subject).count id := by
  simp [Span.typeTest, ExprKind.children]

@[simp] theorem count_paren {inner : Expr} :
    (expr (span.paren inner)).count id = (expr inner).count id := by
  simp [Span.paren, ExprKind.children]

@[simp] theorem count_seq {effects : List Expr} : (expr (span.seq effects value)).count id =
      tally id (ofExprs effects) + (expr value).count id := by
  simp [Span.seq, ExprKind.children]

@[simp] theorem count_after {effect : Option Expr} : (expr (span.after effect value)).count id =
      tally id (ofExpr? effect) + (expr value).count id := by
  cases effect <;> simp [Span.after]

theorem count_foldl_binary {first : Expr} {rest : List Expr} :
    (expr (rest.foldl (span.binary op) first)).count id =
      (expr first).count id + tally id (ofExprs rest) := by
  induction rest generalizing first with
  | nil => rfl
  | cons node rest ih =>
    rw [foldl_cons, ih, count_binary, ofExprs_cons, tally_cons, Nat.add_assoc]

@[simp] theorem count_conjunction {conditions : List Expr} :
    (expr (span.conjunction conditions)).count id = tally id (ofExprs conditions) := by
  cases conditions with
  | nil => simp [Span.conjunction]
  | cons first rest => rw [Span.conjunction, count_foldl_binary, ofExprs_cons, tally_cons]

@[simp] theorem count_evalStmt :
    (stmt (span.evalStmt value)).count id = (expr value).count id := by
  simp [Span.evalStmt, StmtKind.children]

@[simp] theorem count_declare {init : Option Expr} :
    (stmt (span.declare type name init)).count id = tally id (ofExpr? init) := by
  simp [Span.declare, StmtKind.children]

@[simp] theorem count_block :
    (stmt (span.block body)).count id = tally id (ofStmts body) := by
  simp [Span.block, StmtKind.children]

@[simp] theorem count_ret :
    (stmt (span.ret value)).count id = (expr value).count id := by
  simp [Span.ret, StmtKind.children]

@[simp] theorem count_ifElse {yes : Stmt} {no : Option Stmt} :
    (stmt (span.ifElse cond yes no)).count id =
      (expr cond).count id + (stmt yes).count id + tally id (ofStmt? no) := by
  simp [Span.ifElse, StmtKind.children, Nat.add_assoc]

@[simp] theorem count_assignStmt : (stmt (span.assignStmt target value)).count id =
      (expr target).count id + (expr value).count id := by
  simp [Span.assignStmt]

@[simp] theorem count_immediate :
    (expr (span.immediate type body)).count id = tally id (ofStmts body) := by
  simp [Span.immediate, Span.lambda, ExprKind.children, ofParams, ofLambdaBody]

end Made

end Unsugar
