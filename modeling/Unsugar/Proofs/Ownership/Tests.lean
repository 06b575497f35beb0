import Unsugar.Proofs.Hoist.TestedPatterns
import Unsugar.Proofs.Ownership.Rules

open List

namespace Unsugar

/-! # What pattern tests spend

A pattern gives its constants to the condition, each once, and reads its subject
through copies.  Only a subject that is put into a temporary stands in the
condition itself.
-/

open Node

variable {subject : Subject} {node tested : Pattern} {label : Nat}

namespace Pass

variable (id : Nat)
  {limit : Nat}

/-- An error that is caught is raised again, so what is returned is what the
    action returned. -/
theorem Costs.rethrow {α : Type} {action : Pass α} {handler : LowerError → Pass α}
    {weight : α → Nat} (costs : Costs action weight limit)
    (raises : ∀ error, Costs (handler error) weight limit) :
    Costs (tryCatch action handler) weight limit := by
  intro env before result after ran
  rcases tryCatch_eq_ok ran with acted | ⟨error, raised⟩
  · exact costs env before result after acted
  · exact raises error env before result after raised

theorem Costs.throw {α : Type} {error : LowerError} {weight : α → Nat} :
    Costs (throw error) weight limit := by
  rintro env before result after ⟨⟩

/-! ## Checks and assignments -/

def TestParts.nodes (parts : TestParts) : List Node := ofExprs parts.checks ++ ofExprs parts.assigns

variable {id} in
@[simp] theorem TestParts.tally_append (left right : TestParts) :
    tally id (left.append right).nodes = tally id left.nodes + tally id right.nodes := by
  simp only [nodes, append, ofExprs_append, Unsugar.tally_append]
  omega

variable {id} in
@[simp] theorem TestParts.tally_checks {checks : List Expr} :
    tally id (TestParts.nodes { checks }) = tally id (ofExprs checks) := by simp [nodes]

variable {id} in
@[simp] theorem TestParts.tally_check {test : Expr} :
    tally id (check test).nodes = (expr test).count id := by simp [check]

variable {id} in
@[simp] theorem TestParts.tally_none : tally id (TestParts.nodes {}) = 0 := rfl

variable {id} in
@[simp] theorem TestParts.count_condition (parts : TestParts) {span : Span} :
    (expr (parts.condition span)).count id = tally id parts.nodes := by
  unfold condition nodes
  cases assigned : parts.assigns with
  | nil => simp
  | cons first rest => simp

variable {id} in
@[simp] theorem TestParts.tally_prepend (parts : TestParts) {span : Span} {effect : Expr} :
    tally id (parts.prepend span effect).nodes = (expr effect).count id + tally id parts.nodes := by
  unfold prepend nodes
  cases checked : parts.checks with
  | nil => simp
  | cons first rest => simp [Nat.add_assoc]

section Tests

variable (point : InstallPoint) (span : Span)

/-- The constants of patterns are all that a test spends: it reads its subject through
    copies. -/
def costsWalk (env : PassEnv) : TestWalk point span where
  toTestSteps := .results env point span
  subject _ := True
  reads node := (expr node).count id = 0
  names _ := True
  read _ := count_forget
  subjectOf _ := trivial
  ident _ := by simp
  literal _ := by simp [ExprKind.children]
  binary _ left right := by simp [left, right]
  cast _ isRead := by simp [isRead]
  typeTest _ isRead := by simp [isRead]
  member _ isRead := by simp [isRead]
  index isRead isPlace := by simp [isRead, isPlace]
  slice _ isRead isStart isCount := by simp [isRead, isStart, isCount]
  brings _ := True
  made nodes parts := tally id parts.nodes ≤ tally id (nodes.map pattern)
  part _ _ := trivial
  inPattern _ := TestSteps.runs_inPattern env _ _
  nothing := Nat.zero_le _
  check isRead := by simp [isRead]
  append left right := by
    simp only [TestParts.tally_append, map_append, tally_append]
    exact Nat.add_le_add left right
  whole within same := by
    rw [← same] at within
    simpa [count_pattern] using Nat.le_add_left_of_le within
  discard _ := Nat.zero_le _
  null _ _ isRead := by simp [isRead]
  compare _ _ same isRead := by simp [count_pattern, same, isRead]
  equals _ same isRead := by simp [count_pattern, same, isRead]
  or left right := by
    simp only [map_cons, map_nil, tally_cons, tally_nil] at left right
    simpa using Nat.add_le_add left right
  not within := by simpa using within
  temporary _ _ _ _ _ := ⟨trivial, trivial⟩
  prepend _ isRead within := by simpa [isRead] using within
  designate written type _ _ isRead before result after ran := by
    refine ⟨?_, trivial⟩
    obtain rfl | ⟨_, rfl⟩ := designate_returns _ _ _ _ ran
    · exact Nat.zero_le _
    · simp [TestParts.nodes, isRead]

theorem lowerPattern_costs :
    Costs (lowerPattern point span subject node) (fun parts => tally id parts.nodes)
      ((pattern node).count id) := by
  intro env before result after ran
  have within : tally id result.nodes ≤ tally id ([node].map pattern) :=
    ((costsWalk id point span env).lowerPattern subject trivial node trivial _ _ _ ran).1
  simpa using within

theorem patternCondition_costs :
    Costs (patternCondition point span subject node) (fun result => (expr result).count id)
      ((if subject.expr.isSimple then 0 else (expr subject.expr).count id) +
        (pattern node).count id) := by
  refine .free fun view => ?_
  split
  · refine .bind (lowerPattern_costs id point span) fun parts within => .pure ?_
    rw [TestParts.count_condition]
    exact Nat.le_trans within (Nat.le_add_left _ _)
  · next twice =>
      simp only [Bool.or_eq_true, not_or, Bool.not_eq_true] at twice
      refine .free fun name => .bind (lowerPattern_costs id point span) fun parts within =>
        .pure ?_
      rw [twice.2]
      simpa using within

end Tests

theorem lowerIs_costs {site : Site} {node subject : Expr} :
    Costs (lowerIs site node subject tested) (fun result => (expr result).count id)
      (node.mark.bears id + tally id (ExprKind.isPattern subject tested).children) := by
  refine .free fun point => .free fun type => .rethrow ?_ fun _ => .free fun _ => .throw
  refine .bind (patternCondition_costs id _ _) fun cond within =>
    (replace_costs id _ _).mono ?_
  simp only [ExprKind.children, tally_cons, tally_nil]
  dsimp only at within
  split at within <;> omega

theorem lowerBranchTest_costs {node : Stmt} {cond : Expr} {yes : Stmt} {no : Option Stmt} :
    Costs (lowerBranchTest node cond yes no) (node.landed id)
      (node.mark.bears id + tally id (StmtKind.ifElse cond yes no).children) := by
  unfold lowerBranchTest
  split
  · exact keepStmt_costs id
  · have declared (type written : TypeSyntax) (name : String) (subject : Expr) :
        Costs (setStmt node (.ifElse (cond.span.typeTest subject.forget type) (yes.span.block
          [cond.span.declare written name (some (cond.span.cast type subject.forget)), yes]) no))
          (node.landed id) (node.mark.bears id + tally id (StmtKind.ifElse cond yes no).children) := by
      refine (setStmt_costs id).mono ?_
      simp only [StmtKind.children, tally_cons, count_typeTest, count_forget, count_block,
        ofStmts_cons, ofStmts_nil, tally_nil, count_declare, ofExpr?_some, count_cast]
      omega
    refine .free fun view => ?_
    dsimp only
    split
    · exact .free fun _ => declared _ _ _ _
    · exact .free fun _ => declared _ _ _ _

theorem patternRules_within : patternRules.Within .results id (Mark.bears id) where
  expr site node kind := by
    cases kind with
    | isPattern subject tested =>
      exact .ite (keepExpr_costs id node) (lowerIs_costs id)
    | _ => exact keepExpr_costs id node
  stmt _ node kind := by
    cases kind with
    | ifElse cond yes no => exact lowerBranchTest_costs id
    | _ => exact keepStmt_costs id
  pattern _ node kind := keepPattern_costs id

/-! ## Switch statements -/

theorem tally_kept_le {body kept : List Stmt} {dropped : Stmt}
    (ends : EndsInBreak body kept dropped) : tally id (ofStmts kept) ≤ tally id (ofStmts body) := by
  induction ends with
  | here => exact Nat.zero_le _
  | block mark ends ih =>
    simp only [ofStmts_cons, ofStmts_nil, tally_cons, tally_nil, count_stmt, StmtKind.children]
    omega
  | later node ends ih =>
    simp only [ofStmts_cons, tally_cons]
    omega

theorem sectionBody_costs {span : Span} {body : List Stmt} :
    Costs (sectionBody span body) (fun result => (stmt result).count id)
      (tally id (ofStmts body)) := by
  unfold sectionBody
  split
  next kept trailing isKept =>
    have within : tally id (ofStmts kept) ≤ tally id (ofStmts body) := by
      split at isKept
      · next found =>
          cases isKept
          exact tally_kept_le id (endsInBreak_of_drop body _ _ found)
      · cases isKept
        exact Nat.le_refl _
    dsimp only
    split
    · exact .unsupported
    · refine .ite (.free fun _ => .pure ?_) (.pure ?_)
      · rwa [count_block]
      · rwa [count_block]

theorem labelCondition_costs (simple : subject.expr.isSimple = true) {guard : Option Expr} :
    Costs (labelCondition label subject tested guard) (fun result => (expr result).count id)
      (tally id (ofLabel (.case tested guard))) := by
  refine .bind (patternCondition_costs id _ _) fun cond within => ?_
  rw [simple, if_pos rfl] at within
  cases guard with
  | none => exact .pure (by simp [ofLabel]; omega)
  | some guard => exact .pure (by simp [ofLabel]; omega)

theorem labelConditions_costs (simple : subject.expr.isSimple = true) {labels : List Label} :
    Costs (labelConditions label subject labels) (fun result => tally id (ofExprs result))
      (tally id (labels.flatMap ofLabel)) := by
  induction labels with
  | nil => exact .pure (Nat.zero_le _)
  | cons label rest ih =>
    cases label with
    | default => exact ih
    | case tested guard =>
      refine .bind (labelCondition_costs id simple) fun cond within =>
        .bind ih fun others othersWithin => .pure ?_
      rw [ofExprs_cons, tally_cons, flatMap_cons, tally_append]
      exact Nat.add_le_add within othersWithin

def SwitchArms.nodes (arms : SwitchArms) : List Node :=
  (arms.arms.flatMap fun arm => [expr arm.1, stmt arm.2]) ++ ofStmt? arms.otherwise

theorem switchArms_costs (label : Nat) (span : Span) (subject : Subject)
    (simple : subject.expr.isSimple = true) :
    (sections : List Section) → (seen : SwitchArms) →
    Costs (switchArms label span subject seen sections) (fun arms => tally id arms.nodes)
      (tally id seen.nodes + tally id (sections.flatMap ofSection))
  | [], seen => .pure (Nat.le_add_right _ _)
  | ⟨labels, body⟩ :: rest, seen => by
    unfold switchArms
    rw [flatMap_cons, ofSection, tally_append, tally_append]
    refine .bind (sectionBody_costs id) fun block blockWithin => .ite ?_ ?_
    · refine (switchArms_costs label span subject simple rest _).mono ?_
      simp only [SwitchArms.nodes, tally_append, ofStmt?_some, tally_cons, tally_nil]
      omega
    · refine .bind (labelConditions_costs id simple) fun conds within => ?_
      split
      · exact (switchArms_costs label span subject simple rest _).mono (by omega)
      · refine (switchArms_costs label span subject simple rest _).mono ?_
        simp only [ofExprs_cons, tally_cons] at within
        simp only [SwitchArms.nodes, flatMap_append, flatMap_cons, flatMap_nil,
          tally_append, tally_cons, tally_nil, count_foldl_binary]
        omega

theorem tally_ifChain (span : Span) (otherwise : Option Stmt) (arms : List (Expr × Stmt)) :
    tally id (ofStmt? (ifChain span otherwise arms)) =
      tally id (SwitchArms.nodes ⟨arms, otherwise⟩) := by
  induction arms with
  | nil => rfl
  | cons arm rest ih =>
    simp only [SwitchArms.nodes, tally_append] at ih
    simp only [ifChain, ofStmt?_some, tally_cons, tally_nil, count_ifElse, ih,
      SwitchArms.nodes, flatMap_cons, tally_append]
    omega

/-- A subject that every label tests is simple, or the name of a local that holds
    it. -/
theorem lowerSwitch_costs {node : Stmt} {subject : Expr} {sections : List Section} :
    Costs (lowerSwitch node subject sections) (node.landed id)
      (node.mark.bears id + tally id (StmtKind.switch subject sections).children) := by
  have lowered (tested : Subject) (opening : List Stmt) (simple : tested.expr.isSimple = true)
      (within : tally id (ofStmts opening) ≤ (expr subject).count id) :
      Costs (do
        let arms ← switchArms (node.id.getD 0) node.span tested {} sections
        setStmt node (.block (opening ++ (ifChain node.span arms.otherwise arms.arms).toList)))
        (node.landed id)
        (node.mark.bears id + tally id (StmtKind.switch subject sections).children) := by
    refine .bind (switchArms_costs id _ node.span tested simple sections {}) fun arms armsWithin =>
      (setStmt_costs id).mono ?_
    have chain := tally_ifChain id node.span arms.otherwise arms.arms
    have listed : ofStmts (ifChain node.span arms.otherwise arms.arms).toList =
        ofStmt? (ifChain node.span arms.otherwise arms.arms) := by
      cases ifChain node.span arms.otherwise arms.arms <;> rfl
    simp only [StmtKind.children, ofStmts_append, tally_append, tally_cons, listed, chain]
    simp only [SwitchArms.nodes, flatMap_nil, ofStmt?_none, append_nil, tally_nil] at armsWithin ⊢
    omega
  refine .free fun type => ?_
  dsimp only
  split
  · next simple => exact lowered _ _ simple (Nat.zero_le _)
  · exact .free fun name => .free fun written => lowered _ _ rfl (by simp)

theorem switchRules_within : switchRules.Within .results id (Mark.bears id) where
  expr _ node kind := keepExpr_costs id node
  stmt _ node kind := by
    cases kind with
    | switch subject sections =>
      exact .ite (keepStmt_costs id) (lowerSwitch_costs id)
    | _ => exact keepStmt_costs id
  pattern _ node kind := keepPattern_costs id

end Pass

end Unsugar
