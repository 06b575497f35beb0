import Unsugar.Lower.Error
import Unsugar.Lower.Hoist
import Unsugar.Proofs.Ownership.Counts
import Unsugar.Proofs.Syntax.Rebuilds

open List

namespace Unsugar

/-! # Where spans come from

Spans stand on nodes, on the arms of switch expressions, on members and on type
declarations.  A part of a tree comes from a set of spans if all that it carries are
in the set.
-/

open Node

variable {op : BinaryOp} {operand target cond : Expr}

def Node.ownSpans : Node → List Span
  | expr node => node.span :: node.kind.armSpans
  | stmt node => [node.span]
  | pattern node => [node.span]

def CompilationUnit.sources (unit : CompilationUnit) : List Span :=
  unit.types.flatMap (fun decl => decl.span :: decl.members.map (·.span)) ++
    unit.reachable.flatMap Node.ownSpans

def LowerError.spans : LowerError → List Span
  | .within _ _ span cause => span :: cause.spans
  | .unsupported _ _ span | .nonConstant _ _ span | .resolution _ span => [span]

variable {unit : CompilationUnit} {type : TypeSyntax} {kind : ExprKind} {body : List Stmt}
  {args : List Expr} {node : Expr} {name : String} {value : Expr} {receiver : Expr}

section Sources

variable (source : Span → Prop)

def Node.From (node : Node) : Prop :=
  ∀ inner ∈ node.reachable true, ∀ span ∈ inner.ownSpans, source span

def AllFrom (nodes : List Node) : Prop := ∀ node ∈ nodes, node.From source

def ExprKind.From (kind : ExprKind) : Prop :=
  (∀ span ∈ kind.armSpans, source span) ∧ AllFrom source kind.children

def StmtKind.From (kind : StmtKind) : Prop := AllFrom source kind.children

def PatternKind.From (kind : PatternKind) : Prop := AllFrom source kind.children

def Member.From (member : Member) : Prop :=
  source member.span ∧ AllFrom source member.kind.roots

def TypeDecl.From (decl : TypeDecl) : Prop :=
  source decl.span ∧ AllFrom source decl.headerRoots ∧ ∀ member ∈ decl.members, member.From source

def CompilationUnit.From (unit : CompilationUnit) : Prop :=
  ∀ decl ∈ unit.types, decl.From source

def LowerError.From (error : LowerError) : Prop := ∀ span ∈ error.spans, source span

def HoistQueue.From (queue : HoistQueue) : Prop :=
  ∀ entry ∈ queue.entries, ∀ hoisted ∈ entry.2, source hoisted.span

variable {source} {mark : Mark}

@[simp] theorem allFrom_nil : AllFrom source [] := nofun

@[simp] theorem allFrom_cons {node : Node} {rest : List Node} :
    AllFrom source (node :: rest) ↔ node.From source ∧ AllFrom source rest := forall_mem_cons

@[simp] theorem allFrom_append {left right : List Node} :
    AllFrom source (left ++ right) ↔ AllFrom source left ∧ AllFrom source right :=
  forall_mem_append

theorem allFrom_flatMap {α : Type} {values : List α} {nodes : α → List Node} :
    AllFrom source (values.flatMap nodes) ↔ ∀ value ∈ values, AllFrom source (nodes value) := by
  simp only [AllFrom, mem_flatMap, forall_exists_index, and_imp]
  exact ⟨fun all value isIn node isNode => all node value isIn isNode,
    fun all node value isIn isNode => all value isIn node isNode⟩

theorem allFrom_exprs {nodes : List Expr} :
    AllFrom source (ofExprs nodes) ↔ ∀ node ∈ nodes, (expr node).From source := by
  simp [AllFrom, ofExprs]

theorem allFrom_stmts {nodes : List Stmt} :
    AllFrom source (ofStmts nodes) ↔ ∀ node ∈ nodes, (stmt node).From source := by
  simp [AllFrom, ofStmts]

theorem allFrom_exprs_map {α : Type} {make : α → Expr} {items : List α}
    (each : ∀ item ∈ items, (expr (make item)).From source) :
    AllFrom source (ofExprs (items.map make)) := by
  rw [allFrom_exprs]
  intro node isNode
  obtain ⟨item, isItem, rfl⟩ := mem_map.1 isNode
  exact each item isItem

theorem allFrom_stmts_map {α : Type} {make : α → Stmt} {items : List α}
    (each : ∀ item ∈ items, (stmt (make item)).From source) :
    AllFrom source (ofStmts (items.map make)) := by
  rw [allFrom_stmts]
  intro node isNode
  obtain ⟨item, isItem, rfl⟩ := mem_map.1 isNode
  exact each item isItem

theorem Node.from_iff {node : Node} :
    node.From source ↔ (∀ span ∈ node.ownSpans, source span) ∧ AllFrom source node.children := by
  unfold From AllFrom
  rw [node.reachable_eq, forall_mem_cons]
  refine and_congr Iff.rfl ⟨fun all child isChild inner isInner => ?_, fun all inner isInner => ?_⟩
  · exact all inner (mem_flatMap.2 ⟨child, isChild, isInner⟩)
  · obtain ⟨child, isChild, isBelow⟩ := mem_flatMap.1 isInner
    exact all child isChild inner isBelow

@[simp] theorem from_expr :
    (expr ⟨mark, kind⟩).From source ↔ source mark.span ∧ kind.From source := by
  rw [Node.from_iff]
  simp [ownSpans, ExprKind.From, Node.children, Expr.span, and_assoc]

@[simp] theorem from_stmt {kind : StmtKind} :
    (stmt ⟨mark, kind⟩).From source ↔ source mark.span ∧ kind.From source := by
  rw [Node.from_iff]
  simp [ownSpans, StmtKind.From, Node.children, Stmt.span]

@[simp] theorem from_pattern {kind : PatternKind} :
    (pattern ⟨mark, kind⟩).From source ↔ source mark.span ∧ kind.From source := by
  rw [Node.from_iff]
  simp [ownSpans, PatternKind.From, Node.children, Pattern.span]

@[simp] theorem StmtKind.from_block :
    (StmtKind.block body).From source ↔ AllFrom source (ofStmts body) := Iff.rfl

theorem Node.From.exprSpan (isFrom : (expr node).From source) : source node.span := by
  obtain ⟨mark, kind⟩ := node
  exact (from_expr.1 isFrom).1

theorem Node.From.exprKind (isFrom : (expr node).From source) : node.kind.From source := by
  obtain ⟨mark, kind⟩ := node
  exact (from_expr.1 isFrom).2

theorem Node.From.stmtSpan {node : Stmt} (isFrom : (stmt node).From source) : source node.span := by
  obtain ⟨mark, kind⟩ := node
  exact (from_stmt.1 isFrom).1

theorem Node.From.patternSpan {node : Pattern} (isFrom : (pattern node).From source) :
    source node.span := by
  obtain ⟨mark, kind⟩ := node
  exact (from_pattern.1 isFrom).1

theorem Node.From.below {node below : Node} (isFrom : node.From source)
    (isBelow : below ∈ node.reachable true) : below.From source := by
  induction node using Node.childInduction with
  | step node ih =>
    rw [node.reachable_eq, mem_cons, mem_flatMap] at isBelow
    rcases isBelow with rfl | ⟨child, isChild, isBelow⟩
    · exact isFrom
    · exact ih child isChild ((Node.from_iff.1 isFrom).2 child isChild) isBelow

namespace CompilationUnit

variable {unit : CompilationUnit}

theorem from_iff_roots : unit.From source ↔
      (∀ decl ∈ unit.types, source decl.span ∧ ∀ member ∈ decl.members, source member.span) ∧
        AllFrom source unit.roots := by
  simp only [From, TypeDecl.From, Member.From, roots, memberRoots, allFrom_flatMap, allFrom_append]
  constructor
  · intro all
    refine ⟨fun decl isDecl => ⟨(all decl isDecl).1, fun member isMember => ?_⟩,
      fun decl isDecl => ⟨(all decl isDecl).2.1, fun member isMember => ?_⟩⟩
    · exact ((all decl isDecl).2.2 member isMember).1
    · exact ((all decl isDecl).2.2 member isMember).2
  · rintro ⟨own, nodes⟩ decl isDecl
    exact ⟨(own decl isDecl).1, (nodes decl isDecl).1, fun member isMember =>
      ⟨(own decl isDecl).2 member isMember, (nodes decl isDecl).2 member isMember⟩⟩

theorem From.reachable {node : Node} (isFrom : unit.From source) (isNode : node ∈ unit.reachable) :
    node.From source := by
  rw [unit.reachable_eq] at isNode
  obtain ⟨root, isRoot, isBelow⟩ := mem_flatMap.1 isNode
  exact ((from_iff_roots.1 isFrom).2 root isRoot).below isBelow

theorem from_iff : unit.From source ↔ ∀ span ∈ unit.sources, source span := by
  rw [from_iff_roots, sources, unit.reachable_eq, forall_mem_append]
  refine and_congr ?_ ?_
  · simp only [mem_flatMap, mem_cons, mem_map, forall_exists_index, and_imp]
    constructor
    · rintro all span decl isDecl (rfl | ⟨member, isMember, rfl⟩)
      · exact (all decl isDecl).1
      · exact (all decl isDecl).2 member isMember
    · intro all decl isDecl
      exact ⟨all _ decl isDecl (.inl rfl), fun member isMember =>
        all _ decl isDecl (.inr ⟨member, isMember, rfl⟩)⟩
  · simp only [AllFrom, Node.From, mem_flatMap, forall_exists_index, and_imp]
    exact ⟨fun all span inner root isRoot isInner isOwn => all root isRoot inner isInner span isOwn,
      fun all root isRoot inner isInner span isOwn => all span inner root isRoot isInner isOwn⟩

end CompilationUnit

/-! ## Nodes that are made -/

section Made

variable {span : Span}

@[simp] theorem from_spanExpr :
    (expr (span.expr kind)).From source ↔ source span ∧ kind.From source := from_expr

@[simp] theorem from_spanStmt {kind : StmtKind} :
    (stmt (span.stmt kind)).From source ↔ source span ∧ kind.From source := from_stmt

@[simp] theorem from_ident : (expr (span.ident name)).From source ↔ source span := by
  simp [Span.ident, ExprKind.From, ExprKind.children]

@[simp] theorem from_intLit {value : Int} :
    (expr (span.intLit value)).From source ↔ source span := by
  simp [Span.intLit, ExprKind.From, ExprKind.children]

@[simp] theorem from_boolLit {value : Bool} :
    (expr (span.boolLit value)).From source ↔ source span := by
  simp [Span.boolLit, ExprKind.From, ExprKind.children]

@[simp] theorem from_strLit {value : String} :
    (expr (span.strLit value)).From source ↔ source span := by
  simp [Span.strLit, ExprKind.From, ExprKind.children]

@[simp] theorem from_nullLit : (expr span.nullLit).From source ↔ source span := by
  simp [Span.nullLit, ExprKind.From, ExprKind.children]

@[simp] theorem from_self : (expr span.self).From source ↔ source span := by
  simp [Span.self, ExprKind.From, ExprKind.children]

@[simp] theorem from_typeRef : (expr (span.typeRef type)).From source ↔ source span := by
  simp [Span.typeRef, ExprKind.From, ExprKind.children]

@[simp] theorem from_member :
    (expr (span.member receiver name)).From source ↔ source span ∧ (expr receiver).From source := by
  simp [Span.member, ExprKind.From, ExprKind.children]

@[simp] theorem from_call {callee : Expr} : (expr (span.call callee args)).From source ↔
      source span ∧ (expr callee).From source ∧ AllFrom source (ofExprs args) := by
  simp [Span.call, ExprKind.From, ExprKind.children]

@[simp] theorem from_methodCall : (expr (span.methodCall receiver name args)).From source ↔
      source span ∧ (expr receiver).From source ∧ AllFrom source (ofExprs args) := by
  simp only [Span.methodCall, from_call, from_member, and_assoc, and_self_left]

@[simp] theorem from_index : (expr (span.index receiver args)).From source ↔
      source span ∧ (expr receiver).From source ∧ AllFrom source (ofExprs args) := by
  simp [Span.index, ExprKind.From, ExprKind.children]

@[simp] theorem from_create :
    (expr (span.create type args)).From source ↔ source span ∧ AllFrom source (ofExprs args) := by
  simp [Span.create, ExprKind.From, ExprKind.children, ofInits]

@[simp] theorem from_unary {op : UnaryOp} :
    (expr (span.unary op operand)).From source ↔ source span ∧ (expr operand).From source := by
  simp [Span.unary, ExprKind.From, ExprKind.children]

@[simp] theorem from_binary {left right : Expr} : (expr (span.binary op left right)).From source ↔
      source span ∧ (expr left).From source ∧ (expr right).From source := by
  simp [Span.binary, ExprKind.From, ExprKind.children]

@[simp] theorem from_assign {value : Expr} : (expr (span.assign target value)).From source ↔
      source span ∧ (expr target).From source ∧ (expr value).From source := by
  simp [Span.assign, ExprKind.From, ExprKind.children]

@[simp] theorem from_conditional {yes no : Expr} :
    (expr (span.conditional cond yes no)).From source ↔
      source span ∧ (expr cond).From source ∧ (expr yes).From source ∧ (expr no).From source := by
  simp [Span.conditional, ExprKind.From, ExprKind.children]

@[simp] theorem from_cast :
    (expr (span.cast type operand)).From source ↔ source span ∧ (expr operand).From source := by
  simp [Span.cast, ExprKind.From, ExprKind.children]

@[simp] theorem from_typeTest {subject : Expr} :
    (expr (span.typeTest subject type)).From source ↔ source span ∧ (expr subject).From source := by
  simp [Span.typeTest, ExprKind.From, ExprKind.children]

@[simp] theorem from_paren {inner : Expr} :
    (expr (span.paren inner)).From source ↔ source span ∧ (expr inner).From source := by
  simp [Span.paren, ExprKind.From, ExprKind.children]

@[simp] theorem from_seq {effects : List Expr} : (expr (span.seq effects value)).From source ↔
      source span ∧ AllFrom source (ofExprs effects) ∧ (expr value).From source := by
  simp [Span.seq, ExprKind.From, ExprKind.children]

@[simp] theorem from_lambda {params : List Param} {body : LambdaBody} :
    (expr (span.lambda params body)).From source ↔
      source span ∧ AllFrom source (ofParams params) ∧ AllFrom source (ofLambdaBody body) := by
  simp [Span.lambda, ExprKind.From, ExprKind.children]

theorem from_after {effect : Option Expr} (isSpan : source span)
    (isEffect : AllFrom source (ofExpr? effect)) (isValue : (expr value).From source) :
    (expr (span.after effect value)).From source := by
  cases effect with
  | none => exact isValue
  | some effect => simpa [Span.after, isSpan, isValue] using isEffect

theorem from_foldl_binary {first : Expr} {rest : List Expr} (isSpan : source span)
    (isFirst : (expr first).From source) (areFrom : AllFrom source (ofExprs rest)) :
    (expr (rest.foldl (span.binary op) first)).From source := by
  induction rest generalizing first with
  | nil => exact isFirst
  | cons node rest ih =>
    rw [ofExprs_cons, allFrom_cons] at areFrom
    exact ih (from_binary.2 ⟨isSpan, isFirst, areFrom.1⟩) areFrom.2

theorem from_conjunction {conditions : List Expr} (isSpan : source span)
    (areFrom : AllFrom source (ofExprs conditions)) :
    (expr (span.conjunction conditions)).From source := by
  cases conditions with
  | nil => simpa [Span.conjunction] using isSpan
  | cons first rest =>
    rw [ofExprs_cons, allFrom_cons] at areFrom
    exact from_foldl_binary isSpan areFrom.1 areFrom.2

@[simp] theorem from_evalStmt :
    (stmt (span.evalStmt value)).From source ↔ source span ∧ (expr value).From source := by
  simp [Span.evalStmt, StmtKind.From, StmtKind.children]

@[simp] theorem from_declare {init : Option Expr} :
    (stmt (span.declare type name init)).From source ↔
      source span ∧ AllFrom source (ofExpr? init) := by
  simp [Span.declare, StmtKind.From, StmtKind.children]

@[simp] theorem from_block :
    (stmt (span.block body)).From source ↔ source span ∧ AllFrom source (ofStmts body) := by
  simp [Span.block, StmtKind.From, StmtKind.children]

@[simp] theorem from_ret :
    (stmt (span.ret value)).From source ↔ source span ∧ (expr value).From source := by
  simp [Span.ret, StmtKind.From, StmtKind.children]

@[simp] theorem from_ifElse {yes : Stmt} {no : Option Stmt} :
    (stmt (span.ifElse cond yes no)).From source ↔
      source span ∧ (expr cond).From source ∧ (stmt yes).From source ∧
        AllFrom source (ofStmt? no) := by
  simp [Span.ifElse, StmtKind.From, StmtKind.children]

@[simp] theorem from_assignStmt {value : Expr} : (stmt (span.assignStmt target value)).From source ↔
      source span ∧ (expr target).From source ∧ (expr value).From source := by
  simp [Span.assignStmt]

@[simp] theorem from_immediate : (expr (span.immediate type body)).From source ↔
      source span ∧ AllFrom source (ofStmts body) := by
  simp [Span.immediate, ofParams, ofLambdaBody]

end Made

end Sources

/-! ## Rebuilds bring no spans of their own

A rebuild stays within a set of spans if its rules do.  What the rules do besides is
left to a `Contract`: it says what actions ensure, and knows only how they are put
together.
-/

open Node

structure Rules.Traced {m : Type → Type} [Monad m] (rules : Rules m) (contract : Contract m)
    (source : Span → Prop) : Prop where
  expr (site : Site) {node : Expr} {kind : ExprKind} :
    (Node.expr node).From source → kind.From source →
      contract.holds (rules.expr site node kind) fun result => (Node.expr result).From source
  stmt (site : Site) {node : Stmt} {kind : StmtKind} :
    (Node.stmt node).From source → kind.From source →
      contract.holds (rules.stmt site node kind) fun results => AllFrom source (ofStmts results)
  pattern (site : Site) {node : Pattern} {kind : PatternKind} :
    (Node.pattern node).From source → kind.From source →
      contract.holds (rules.pattern site node kind) fun result =>
        (Node.pattern result).From source

section Rebuild

variable {m : Type → Type} [Monad m] {rules : Rules m} {contract : Contract m}
  {source : Span → Prop}

theorem Stmt.gather_from {node : Stmt} {items : List Stmt} (isFrom : (stmt node).From source)
    (areFrom : AllFrom source (ofStmts items)) : (stmt (node.gather items)).From source := by
  have isSpan := isFrom.stmtSpan
  match items with
  | [] => exact from_stmt.2 ⟨isSpan, allFrom_nil⟩
  | [only] => simpa [gather] using areFrom
  | first :: second :: rest =>
    obtain ⟨mark, kind⟩ := first
    simp only [gather, anonymous, from_stmt, StmtKind.From, StmtKind.children, ofStmts_cons,
      allFrom_cons] at areFrom ⊢
    exact ⟨isSpan, areFrom⟩

def Parts.From (source : Span → Prop) (parts : Parts) : Prop :=
  (∀ span ∈ parts.spans, source span) ∧ AllFrom source parts.nodes

theorem Parts.from_append {left right : Parts} :
    (left ++ right).From source ↔ left.From source ∧ right.From source := by
  simp only [From, append_spans, append_nodes, forall_mem_append, allFrom_append]
  exact and_and_and_comm

theorem Content.from_placed {site : Site} {content : Content} : (content.placed site).From source ↔
      (∀ span ∈ content.spans, source span) ∧ AllFrom source content.nodes := by
  rw [Parts.From, placed_nodes]
  rfl

theorem CompilationUnit.from_parts : unit.parts.From source ↔ unit.From source := by
  rw [from_iff_roots, Parts.From, parts_nodes]
  refine and_congr_left fun _ => ?_
  simp only [parts, typeParts, forall_mem_flatMap, forall_mem_cons, forall_mem_map]

variable [LawfulMonad m]

def Rules.Traced.along (traced : rules.Traced contract source) :
    Rebuilding rules (Rules.keep : Rules Id) where
  holds view action _ same :=
    (view same).From source → contract.holds action fun result => (view result).From source
  pure _ isFrom := contract.pure isFrom
  both build isFirst isSecond splits isFrom := by
    rw [splits, Parts.from_append] at isFrom
    refine contract.bind (isFirst isFrom.1) fun a isA => ?_
    exact contract.map (isSecond isFrom.2) fun b isB => by
      rw [splits, Parts.from_append]
      exact ⟨isA, isB⟩
  expr site node isKind isFrom := by
    simp only [Content.from_placed, Content.of, allFrom_cons, allFrom_nil, and_true]
      at isKind isFrom ⊢
    refine contract.bind (isKind isFrom.2.exprKind) fun kind isRebuilt => ?_
    simpa using traced.expr site isFrom.2 isRebuilt
  stmt site node view inPlace isKind isFrom := by
    have isNode : (Node.stmt node).From source := by
      obtain rfl | rfl := inPlace <;>
        simpa [Content.from_placed, Content.of, ofStmts, Stmt.gather] using isFrom
    have isChildren : AllFrom source node.kind.children := (Node.from_iff.1 isNode).2
    simp only [Content.from_placed, Content.of] at isKind
    refine contract.bind (isKind ⟨nofun, isChildren⟩) fun kind isRebuilt => ?_
    rw [← bind_pure (rules.stmt site node kind)]
    refine contract.bind (traced.stmt site isNode isRebuilt.2) fun items areItems =>
      contract.pure ?_
    rw [Content.from_placed]
    obtain rfl | rfl := inPlace
    · exact ⟨nofun, areItems⟩
    · exact ⟨nofun, allFrom_cons.2 ⟨Stmt.gather_from isNode areItems, allFrom_nil⟩⟩
  pattern site node isKind isFrom := by
    simp only [Content.from_placed, Content.of, allFrom_cons, allFrom_nil, and_true]
      at isKind isFrom ⊢
    have isChildren : AllFrom source node.kind.children := (Node.from_iff.1 isFrom.2).2
    refine contract.bind (isKind ⟨nofun, isChildren⟩) fun kind isRebuilt => ?_
    simpa using traced.pattern site isFrom.2 isRebuilt.2

theorem Expr.rebuild_traced (traced : rules.Traced contract source) (site : Site)
    (isFrom : (expr node).From source) :
    contract.holds (node.rebuild rules site) fun result => (expr result).From source := by
  have whole := node.rebuild_along traced.along site
  simp only [Rebuilding.on, Rules.Traced.along, Content.from_placed, Content.of, allFrom_cons,
    allFrom_nil, and_true] at whole
  simpa using whole ⟨nofun, isFrom⟩

theorem CompilationUnit.rebuild_traced (traced : rules.Traced contract source)
    (isFrom : unit.From source) :
    contract.holds (unit.rebuild rules) (CompilationUnit.From source) := by
  have whole := unit.rebuild_along traced.along (from_parts.2 isFrom)
  simpa only [from_parts] using whole

end Rebuild

/-! ## Identities -/

section Identities

variable {source : Span → Prop}

theorem ExprKind.relabel_from (isFrom : kind.From source) {id : Nat} :
    (kind.relabel id).From source := by
  cases kind <;> exact isFrom

theorem ExprKind.anonymous_from (isFrom : kind.From source) : kind.anonymous.From source := by
  cases kind <;> exact isFrom

theorem Rules.number_traced : Rules.number.Traced (.stateValue Nat) source where
  expr _ _ _ isFrom isKind _ := from_expr.2 ⟨isFrom.exprSpan, ExprKind.relabel_from isKind⟩
  stmt _ _ _ isFrom isKind _ :=
    allFrom_cons.2 ⟨from_stmt.2 ⟨isFrom.stmtSpan, isKind⟩, allFrom_nil⟩
  pattern _ _ _ isFrom isKind _ := from_pattern.2 ⟨isFrom.patternSpan, isKind⟩

theorem Rules.forget_traced : Rules.forget.Traced .pureValue source where
  expr _ _ _ isFrom isKind := from_expr.2 ⟨isFrom.exprSpan, ExprKind.anonymous_from isKind⟩
  stmt _ _ _ isFrom isKind :=
    allFrom_cons.2 ⟨from_stmt.2 ⟨isFrom.stmtSpan, isKind⟩, allFrom_nil⟩
  pattern _ _ _ isFrom isKind := from_pattern.2 ⟨isFrom.patternSpan, isKind⟩

theorem CompilationUnit.number_from (isFrom : unit.From source) : unit.number.1.From source :=
  CompilationUnit.rebuild_traced Rules.number_traced isFrom 0

@[simp] theorem Expr.forget_from (isFrom : (expr node).From source) :
    (expr node.forget).From source :=
  Expr.rebuild_traced Rules.forget_traced .detached isFrom

end Identities

/-! ## Installing -/

section Installing

variable {source : Span → Prop} {decls : List Stmt}

theorem keepExpr_from (isFrom : (expr node).From source) (isKind : kind.From source) :
    (expr { node with kind }).From source :=
  from_expr.2 ⟨isFrom.exprSpan, isKind⟩

theorem keepStmt_from {node : Stmt} {kind : StmtKind} (isFrom : (stmt node).From source)
    (isKind : kind.From source) : (stmt { node with kind }).From source :=
  from_stmt.2 ⟨isFrom.stmtSpan, isKind⟩

theorem keepPattern_from {node : Pattern} {kind : PatternKind}
    (isFrom : (pattern node).From source) (isKind : kind.From source) :
    (pattern { node with kind }).From source :=
  from_pattern.2 ⟨isFrom.patternSpan, isKind⟩

theorem allFrom_single {node : Stmt} (isFrom : (stmt node).From source) :
    AllFrom source (ofStmts [node]) :=
  allFrom_cons.2 ⟨isFrom, allFrom_nil⟩

theorem insertBefore_from {id : Nat} (areDecls : AllFrom source (ofStmts decls))
    (areFrom : AllFrom source (ofStmts body)) :
    AllFrom source (ofStmts (insertBefore id decls body)) := by
  induction body with
  | nil => exact allFrom_nil
  | cons node rest ih =>
    obtain ⟨isFirst, areRest⟩ := allFrom_cons.1 areFrom
    unfold insertBefore
    split
    · rw [ofStmts_append, allFrom_append]
      exact ⟨areDecls, areFrom⟩
    · exact allFrom_cons.2 ⟨isFirst, ih areRest⟩

theorem insertInSections_from {sections : List Section} {id : Nat}
    (areDecls : AllFrom source (ofStmts decls))
    (areFrom : AllFrom source (sections.flatMap ofSection)) :
    AllFrom source ((insertInSections id decls sections).flatMap ofSection) := by
  induction sections with
  | nil => exact areFrom
  | cons sect rest ih =>
    simp only [flatMap_cons, ofSection, allFrom_append] at areFrom
    obtain ⟨⟨areLabels, areBody⟩, areRest⟩ := areFrom
    unfold insertInSections
    split
    · simp only [flatMap_cons, ofSection, allFrom_append]
      exact ⟨⟨areLabels, insertBefore_from areDecls areBody⟩, areRest⟩
    · simp only [flatMap_cons, ofSection, allFrom_append]
      exact ⟨⟨areLabels, areBody⟩, ih areRest⟩

theorem StmtKind.insert?_from {kind inserted : StmtKind} {id : Nat}
    (areDecls : AllFrom source (ofStmts decls)) (isFrom : kind.From source)
    (isInserted : kind.insert? id decls = some inserted) : inserted.From source := by
  unfold insert? at isInserted
  split at isInserted
  · split at isInserted
    · cases isInserted
      exact insertBefore_from areDecls isFrom
    · cases isInserted
  · split at isInserted
    · cases isInserted
      obtain ⟨isSubject, areSections⟩ := allFrom_cons.1 isFrom
      exact allFrom_cons.2 ⟨isSubject, insertInSections_from areDecls areSections⟩
    · cases isInserted
  · cases isInserted

theorem Rules.insertIn_traced (parent id : Nat) (areDecls : AllFrom source (ofStmts decls)) :
    (Rules.insertIn parent id decls).Traced (.stateValue Bool) source where
  expr _ _ _ isFrom isKind _ := keepExpr_from isFrom isKind
  stmt _ node kind isFrom isKind := by
    simp only [insertIn]
    split
    · split
      · next isInserted =>
          have isInserted := StmtKind.insert?_from areDecls isKind isInserted
          exact fun _ => allFrom_single (keepStmt_from isFrom isInserted)
      · exact fun _ => allFrom_single (keepStmt_from isFrom isKind)
    · exact fun _ => allFrom_single (keepStmt_from isFrom isKind)
  pattern _ _ _ isFrom isKind _ := keepPattern_from isFrom isKind

theorem Rules.wrap_traced {id : Nat} (areDecls : AllFrom source (ofStmts decls)) :
    (Rules.wrap id decls).Traced .pureValue source where
  expr _ _ _ isFrom isKind := keepExpr_from isFrom isKind
  stmt _ node kind isFrom isKind := by
    change AllFrom source (ofStmts [if node.hasId id
      then { node with kind := .block (decls ++ [node.span.stmt kind]) } else { node with kind }])
    split
    · refine allFrom_single (keepStmt_from isFrom ?_)
      simp [areDecls, isFrom.stmtSpan, isKind]
    · exact allFrom_single (keepStmt_from isFrom isKind)
  pattern _ _ _ isFrom isKind := keepPattern_from isFrom isKind

theorem LambdaBody.install_from {body : LambdaBody} (returnsValue : Bool)
    (areDecls : AllFrom source (ofStmts decls)) (isFrom : AllFrom source (ofLambdaBody body)) :
    AllFrom source (ofLambdaBody (body.install returnsValue decls)) := by
  unfold install
  split
  · next value =>
      have isValue := (allFrom_cons.1 isFrom).1
      cases returnsValue <;> simp [ofLambdaBody, areDecls, isValue, isValue.exprSpan]
  · next mark body =>
      simp only [ofLambdaBody, allFrom_cons, from_stmt, StmtKind.from_block] at isFrom
      simp [ofLambdaBody, areDecls, isFrom]
  · next mark kind _ =>
      simp only [ofLambdaBody, allFrom_cons, from_stmt] at isFrom
      simp [ofLambdaBody, areDecls, isFrom]

theorem Rules.openLambda_traced {id : Nat} {returnsValue : Bool}
    (areDecls : AllFrom source (ofStmts decls)) :
    (Rules.openLambda id returnsValue decls).Traced .pureValue source where
  expr _ node kind isFrom isKind := by
    simp only [openLambda]
    split
    · next label params isAsync body =>
        change (Node.expr (if label == some id then _ else _)).From source
        split
        · obtain ⟨areParams, isBody⟩ := allFrom_append.1 isKind.2
          exact keepExpr_from isFrom
            ⟨nofun, allFrom_append.2 ⟨areParams, LambdaBody.install_from _ areDecls isBody⟩⟩
        · exact keepExpr_from isFrom isKind
    · exact keepExpr_from isFrom isKind
  stmt _ _ _ isFrom isKind := allFrom_single (keepStmt_from isFrom isKind)
  pattern _ _ _ isFrom isKind := keepPattern_from isFrom isKind

theorem HoistedLocal.stmt_from {queued : List HoistedLocal}
    (areFrom : ∀ hoisted ∈ queued, source hoisted.span) :
    AllFrom source (ofStmts (queued.map HoistedLocal.stmt)) :=
  allFrom_stmts_map fun hoisted isQueued => by
    simpa [HoistedLocal.stmt] using areFrom hoisted isQueued

theorem CompilationUnit.installBefore_from {parents : ParentMap} {id : Nat}
    (areDecls : AllFrom source (ofStmts decls)) (isFrom : unit.From source) :
    (unit.installBefore parents id decls).From source := by
  have wrapped : (unit.wrapStmt id decls).From source :=
    CompilationUnit.rebuild_traced (Rules.wrap_traced areDecls) isFrom
  unfold installBefore
  split
  · rename_i parent _ _
    have inserted := CompilationUnit.rebuild_traced (Rules.insertIn_traced parent id areDecls)
      isFrom false
    change CompilationUnit.From source
      (if ((unit.rebuild (Rules.insertIn parent id decls)).run false).2 = true
        then ((unit.rebuild (Rules.insertIn parent id decls)).run false).1
        else unit.wrapStmt id decls)
    split
    · exact inserted
    · exact wrapped
  · exact wrapped

theorem CompilationUnit.install_from (parents : ParentMap) {queue : HoistQueue}
    (areQueued : queue.From source) (isFrom : unit.From source) :
    (unit.install parents queue).From source := by
  obtain ⟨entries⟩ := queue
  unfold install
  induction entries generalizing unit with
  | nil => exact isFrom
  | cons entry rest ih =>
    obtain ⟨isFirst, areRest⟩ := forall_mem_cons.1 areQueued
    have areDecls := HoistedLocal.stmt_from isFirst
    refine ih ?_ areRest
    obtain ⟨point, queued⟩ := entry
    cases point with
    | stmt id => exact installBefore_from areDecls isFrom
    | lambda id returnsValue =>
      exact CompilationUnit.rebuild_traced (Rules.openLambda_traced areDecls) isFrom
    | initializer id => exact isFrom

end Installing

end Unsugar
