import Unsugar.Proofs.Lower.Growth
import Unsugar.Proofs.Ownership.Rebuilds

open List

namespace Unsugar

/-! # What the rules of passes spend

Every rule puts each of the children it is given at one place at most; what it
reads more than once it reads as a copy.  So whatever a rule makes of a node
counts an identity no more often than the node with its rebuilt children.
-/

open Node

variable {kind : ExprKind} {value input receiver : Expr} {type : Ty} {body : Body}
  {items args : List Expr} {arg : SubscriptArg} {params : List Param} {inits : List FieldInit}

namespace Pass

variable {α β : Type}

def Costs (action : Pass α) (weight : α → Nat) (limit : Nat) : Prop :=
  Returns action fun result => weight result ≤ limit

namespace Costs

variable {weight : β → Nat} {cost : α → Nat} {limit bound : Nat}

theorem pure {value : β} (within : weight value ≤ limit) : Costs (Pure.pure value) weight limit :=
  Returns.pure within

theorem mono {action : Pass β} (costs : Costs action weight bound) (within : bound ≤ limit) :
    Costs action weight limit :=
  fun env before result after ran => Nat.le_trans (costs env before result after ran) within

theorem free {action : Pass α} {next : α → Pass β} (rest : ∀ value, Costs (next value) weight limit) :
    Costs (action >>= next) weight limit :=
  Returns.last rest

theorem bind {action : Pass α} {next : α → Pass β} (first : Costs action cost bound)
    (rest : ∀ value, cost value ≤ bound → Costs (next value) weight limit) :
    Costs (action >>= next) weight limit :=
  Returns.bind first rest

theorem ite {condition : Prop} [Decidable condition] {yes no : Pass β}
    (isYes : Costs yes weight limit) (isNo : Costs no weight limit) :
    Costs (if condition then yes else no) weight limit := by
  split
  · exact isYes
  · exact isNo

theorem unsupported {what : String} {span : Span} : Costs (unsupported what span) weight limit := by
  rintro env before result after ⟨⟩

end Costs

end Pass

def Spending.results : Spending Pass where
  holds := Pass.Costs
  mono := .mono
  pure := .pure
  bind aside first rest := .bind first fun value cost =>
    (rest value).mono (Nat.add_le_add_right cost aside)

namespace Pass

variable (id : Nat) (site : Site) (sequence : Sequenced) (span : Span) (node : Expr)
  (parts : List Part) (name : String) (anchor : Expr)

/-! ## Putting something in place of a node -/

theorem keepExpr_costs : Costs (pure { node with kind }) (fun result => (expr result).count id)
      (node.mark.bears id + tally id kind.children) :=
  .pure (Nat.le_of_eq (count_expr _ _))

theorem keepStmt_costs {node : Stmt} {kind : StmtKind} :
    Costs (pure [{ node with kind }]) (node.landed id)
      (node.mark.bears id + tally id kind.children) :=
  .pure (Nat.le_of_eq ((Stmt.landed_single _ _).trans (count_stmt _)))

theorem keepPattern_costs {node : Pattern} {kind : PatternKind} :
    Costs (pure { node with kind }) (fun result => (pattern result).count id)
      (node.mark.bears id + tally id kind.children) :=
  .pure (Nat.le_of_eq (count_pattern _))

theorem setKind_costs (kind : ExprKind) :
    Costs (setKind node kind) (fun result => (expr result).count id)
      (node.mark.bears id + tally id kind.children) :=
  .free fun _ => keepExpr_costs id node

theorem replace_costs (node replacement : Expr) :
    Costs (replace node replacement) (fun result => (expr result).count id)
      (node.mark.bears id + (expr replacement).count id) :=
  .free fun _ => .pure (by
    obtain ⟨mark, kind⟩ := replacement
    rw [Expr.replaceBy, count_expr, count_expr]
    exact Nat.add_le_add_left (Nat.le_add_left _ _) _)

theorem setStmt_costs {node : Stmt} {kind : StmtKind} :
    Costs (setStmt node kind) (node.landed id) (node.mark.bears id + tally id kind.children) :=
  .free fun _ => keepStmt_costs id

theorem splice_costs (node : Stmt) (first : StmtKind) (rest : List Stmt) :
    Costs (splice node first rest) (node.landed id)
      (node.mark.bears id + tally id first.children + tally id (ofStmts rest)) :=
  .free fun _ => .pure (Nat.le_of_eq (Stmt.landed_splice node.mark node.kind first rest))

/-- A value is read as a copy or a name; only the assignment before it, if there
    is one, holds the value itself. -/
theorem stabilize_costs {anchor : Expr} {hint : String} :
    Costs (stabilize site anchor value type hint) (fun result => tally id (ofExpr? result.2))
      ((expr value).count id) :=
  .ite (.pure (Nat.zero_le _)) (.free fun _ => .free fun _ => .pure (by simp))

theorem defaultValue_costs :
    Costs (defaultValue span type) (fun result => (expr result).count id) 0 :=
  .free fun _ => .ite (.free fun _ => .pure (by simp [ExprKind.children])) (.pure (by simp))

/-! ## Bodies, names and targets -/

theorem tally_toBlock {returns : Bool} :
    tally id (ofBody (body.toBlock returns)) = tally id (ofBody body) := by
  cases body with
  | expr value => cases returns <;> simp [Body.toBlock, ofBody]
  | _ => rfl

theorem blockRules_within : blockRules.Within .results id (Mark.bears id) where
  expr _ node kind := keepExpr_costs id node
  stmt _ node kind := by
    simp only [blockRules]
    split
    · refine .free fun _ => (setStmt_costs id).mono ?_
      simp [StmtKind.children, tally_toBlock]
    · exact keepStmt_costs id
  pattern _ node kind := keepPattern_costs id

theorem qualify_costs {reference : Reference} {container : Ty} :
    Costs (qualify node name reference container) (fun result => (expr result).count id)
      (node.mark.bears id) := by
  have qualified (receiver : Expr) (holdsNone : (expr receiver).count id = 0) :
      Costs (setKind node (.member receiver name)) (fun result => (expr result).count id)
        (node.mark.bears id) :=
    (setKind_costs id node _).mono (by simp [ExprKind.children, holdsNone])
  unfold qualify
  split
  · exact .free fun _ => qualified _ (by simp)
  · exact qualified _ (by simp)

theorem qualifyRules_within (wanted : Reference → Ty → Bool → Bool) :
    (qualifyRules wanted).Within .results id (Mark.bears id) where
  expr site node kind := by
    cases kind with
    | ident name =>
      refine .free fun view => ?_
      split
      · split
        · exact .free fun _ => .ite (qualify_costs id _ _) (keepExpr_costs id _)
        · exact keepExpr_costs id _
      · exact keepExpr_costs id _
    | _ => exact keepExpr_costs id _
  stmt _ node kind := keepStmt_costs id
  pattern _ node kind := keepPattern_costs id

theorem outArgument_costs {node inner : Expr} :
    Costs (outArgument site node input inner) (fun result => (expr result).count id)
      (node.mark.bears id + tally id (ExprKind.out inner).children) := by
  refine .free fun found => ?_
  split
  · exact keepExpr_costs id node
  · refine .free fun _ => .free fun _ => .bind (setKind_costs id inner _) fun passed within => ?_
    obtain ⟨mark, kind⟩ := inner
    refine (keepExpr_costs id node).mono ?_
    simp only [ExprKind.children, tally_cons, tally_nil, count_expr] at within ⊢
    omega

theorem tally_tuple_le {node : Expr} (isTuple : node.kind = .tuple items) :
    tally id (ofExprs items) ≤ (expr node).count id := by
  calc tally id (ofExprs items)
    _ = tally id node.kind.children := by rw [isTuple, ExprKind.children]
    _ ≤ (expr node).count id := (expr node).tally_children_le

theorem tally_assignTargets (types : Universe) (span : Span) (source : Expr) :
    (items targets : List Expr) → (components : List (String × Ty)) →
    tally id (ofStmts (assignTargets types span source items targets components)) ≤
      tally id (ofExprs targets)
  | ⟨mark, kind⟩ :: items, target :: targets, (name, type) :: components => by
    have others := tally_assignTargets types span source items targets components
    rw [ofExprs_cons, tally_cons]
    cases kind with
    | discard =>
      simp only [assignTargets, nil_append]
      omega
    | tuple nested =>
      simp only [assignTargets, ofStmts_append, tally_append]
      refine Nat.add_le_add (Nat.le_trans (tally_assignTargets types span _ nested _ _) ?_) others
      split
      · next isTuple => exact tally_tuple_le id isTuple
      · exact Nat.zero_le _
    | _ =>
      simp only [assignTargets, ofStmts_append, tally_append]
      exact Nat.add_le_add (by simp) others
  | [], _, _ | _ :: _, [], _ | _ :: _, _ :: _, [] => by simp [assignTargets]

theorem deconstruct_costs (node : Stmt) (items targets : List Expr) (value : Expr) :
    Costs (deconstruct node items targets value) (node.landed id)
      (node.mark.bears id + (tally id (ofExprs targets) + (expr value).count id)) := by
  refine .free fun types => .free fun type => .free fun name => .free fun written =>
    (splice_costs id node _ _).mono ?_
  have assigned := tally_assignTargets id types node.span (node.span.ident name) items targets
    (types.components type items.length)
  simp only [StmtKind.children, ofExpr?_some, tally_cons, tally_nil]
  omega

theorem deconstructionRules_within : deconstructionRules.Within .results id (Mark.bears id) where
  expr site node kind := by
    unfold deconstructionRules
    dsimp only
    split
    · exact outArgument_costs id _
    · refine .ite (keepExpr_costs id node) ?_
      split
      · refine (replace_costs id node _).mono ?_
        simp [ExprKind.children]
      · exact .unsupported
      · exact keepExpr_costs id node
    · exact keepExpr_costs id node
  stmt site node kind := by
    unfold deconstructionRules
    dsimp only
    split
    · split
      · refine (setStmt_costs id).mono ?_
        simp only [StmtKind.children, tally_cons, tally_nil, count_expr, ExprKind.children]
        omega
      · next isTuple =>
          have within := tally_tuple_le id isTuple
          refine (deconstruct_costs id node _ _ _).mono ?_
          simp only [StmtKind.children, tally_cons, tally_nil, count_expr, ExprKind.children]
          omega
      · exact keepStmt_costs id
    · exact keepStmt_costs id
  pattern _ node kind := keepPattern_costs id

/-! ## Subscripts -/

def SubscriptArg.nodes : SubscriptArg → List Node
  | .fromEnd value | .indexValue value | .rangeValue value => [expr value]
  | .range start stop => ofExpr? start ++ ofExpr? stop

theorem subscriptArg_costs :
    Costs (SubscriptArg.ofArgs? args) (fun found => tally id ((found.map SubscriptArg.nodes).getD []))
      (tally id (ofExprs args)) := by
  unfold SubscriptArg.ofArgs?
  split
  · next arg =>
      have held : tally id arg.kind.children ≤ (expr arg).count id := (expr arg).tally_children_le
      split
      · next isFromEnd =>
          rw [isFromEnd] at held
          exact .pure (by simpa [SubscriptArg.nodes, ExprKind.children] using held)
      · next isRange =>
          rw [isRange] at held
          exact .pure (by simpa [SubscriptArg.nodes, ExprKind.children] using held)
      · exact .free fun _ => .free fun _ => .ite (.pure (by simp [SubscriptArg.nodes]))
          (.ite (.pure (by simp [SubscriptArg.nodes])) (.pure (Nat.zero_le _)))
  · exact .pure (Nat.zero_le _)

@[simp] theorem Sequenced.count_read :
    (expr sequence.read).count id = 0 := count_forget

@[simp] theorem Sequenced.count_readLength {span : Span} :
    (expr (sequence.readLength span)).count id = 0 := by simp [readLength]

@[simp] theorem Sequenced.count_fromEnd {span : Span} :
    (expr (sequence.fromEnd span value)).count id = (expr value).count id := by simp [fromEnd]

@[simp] theorem Sequenced.count_offsetOf {span : Span} {index : Expr} :
    (expr (sequence.offsetOf span index)).count id = (expr index).count id := by simp [offsetOf]

theorem bound_costs {span : Span} {missing : Expr} {value : Option Expr}
    (holdsNone : (expr missing).count id = 0) :
    Costs (sequence.bound span missing value) (fun result => (expr result).count id)
      (tally id (ofExpr? value)) := by
  unfold Sequenced.bound
  split
  · exact .pure (Nat.le_of_eq holdsNone)
  · next value =>
      have held : tally id value.kind.children ≤ (expr value).count id :=
        (expr value).tally_children_le
      split
      · next isFromEnd =>
          rw [isFromEnd] at held
          exact .pure (by simpa [ExprKind.children] using held)
      · exact .free fun _ => .free fun _ => .ite (.pure (by simp)) (.pure (by simp))

theorem slice_costs {span : Span} {sequence : Sequenced} {start stop : Expr} :
    Costs (slice site anchor span sequence start stop) (fun result => (expr result).count id)
      ((expr start).count id + (expr stop).count id) := by
  refine .ite (.pure (by simp)) (.ite (.pure (by simp)) ?_)
  refine .bind (stabilize_costs id _) fun stable within => .pure ?_
  simp only [count_after, count_methodCall, Sequenced.count_read, ofExprs_cons, ofExprs_nil,
    tally_cons, tally_nil, count_forget, count_binary]
  omega

theorem subscript_costs {span : Span} :
    Costs (subscript site anchor span receiver type arg) (fun result => (expr result).count id)
      (tally id arg.nodes) := by
  refine .free fun types => ?_
  cases arg with
  | fromEnd value | indexValue value => exact .pure (by simp [SubscriptArg.nodes])
  | range start stop =>
    rw [SubscriptArg.nodes, tally_append]
    refine .bind (bound_costs id _ (by simp)) fun first firstWithin => ?_
    refine .bind (bound_costs id _ (by simp)) fun last lastWithin => ?_
    exact (slice_costs id _ _).mono (Nat.add_le_add firstWithin lastWithin)
  | rangeValue range =>
    refine .free fun rangeType => .bind (stabilize_costs id _) fun stable within => ?_
    refine .bind (slice_costs id _ _) fun sliced slicedWithin => .pure ?_
    simp only [Sequenced.count_offsetOf, count_member, count_forget, Nat.add_zero] at slicedWithin
    simp only [count_after, SubscriptArg.nodes, tally_cons, tally_nil]
    omega

theorem subscriptOn_costs {span : Span} :
    Costs (subscriptOn site anchor span receiver arg) (fun result => (expr result).count id)
      ((expr receiver).count id + tally id arg.nodes) := by
  refine .free fun type => .bind (stabilize_costs id _) fun stable within => ?_
  refine .bind (subscript_costs id _ _) fun lowered loweredWithin => .pure ?_
  rw [count_after]
  exact Nat.add_le_add within loweredWithin

theorem lowerIndex_costs {node : Expr} :
    Costs (lowerIndex site node receiver args) (fun result => (expr result).count id)
      (node.mark.bears id + tally id (ExprKind.index receiver args).children) := by
  refine .ite (keepExpr_costs id _) (.bind (subscriptArg_costs id) fun found within => ?_)
  split
  · exact keepExpr_costs id _
  · next arg =>
      refine .bind (subscriptOn_costs id _ _) fun lowered loweredWithin =>
        (replace_costs id _ _).mono ?_
      simp only [Option.map_some, Option.getD_some] at within
      simp only [ExprKind.children, tally_cons]
      omega

theorem count_newIndex {fromEnd : Bool} :
    (expr (newIndex span value fromEnd)).count id = (expr value).count id := by simp [newIndex]

theorem lowerFromEnd_costs {node : Expr} :
    Costs (lowerFromEnd site node value) (fun result => (expr result).count id)
      (node.mark.bears id + tally id (ExprKind.fromEnd value).children) :=
  .ite (keepExpr_costs id _) ((replace_costs id _ _).mono (by
    simp [count_newIndex, ExprKind.children]))

theorem rangeBound_costs {isEnd : Bool} {input rebuilt : Option Expr} :
    Costs (rangeBound span isEnd input rebuilt) (fun result => (expr result).count id)
      (tally id (ofExpr? rebuilt)) := by
  unfold rangeBound
  split
  · exact .free fun _ => .free fun _ => .ite (.pure (by simp)) (.pure (by simp [count_newIndex]))
  · exact .pure (by simp [count_newIndex])

theorem lowerRange_costs {node : Expr} {start stop : Option Expr} :
    Costs (lowerRange site node start stop) (fun result => (expr result).count id)
      (node.mark.bears id + tally id (ExprKind.range start stop).children) := by
  unfold lowerRange
  refine .ite (keepExpr_costs id _) ?_
  split
  refine .bind (rangeBound_costs id _) fun first firstWithin => ?_
  refine .bind (rangeBound_costs id _) fun last lastWithin =>
    (replace_costs id _ _).mono ?_
  simp only [count_create, ofExprs_cons, ofExprs_nil, tally_cons, tally_nil, ExprKind.children,
    tally_append]
  omega

/-! ## Conditional access -/

theorem bindAccess_costs {anchor : Expr} {access : Expr} :
    Costs (bindAccess site anchor receiver type access) (fun result => (expr result).count id)
      ((expr access).count id) := by
  fun_induction bindAccess site anchor receiver type access with
  | case1 mark inner name ih =>
    refine .bind ih fun bound within => .pure ?_
    simp only [count_expr, ExprKind.children, tally_cons, tally_nil]
    omega
  | case2 mark callee args ih =>
    refine .bind ih fun bound within => .pure ?_
    simp only [count_expr, ExprKind.children, tally_cons]
    omega
  | case3 mark inner args ih =>
    refine .bind ih fun bound within =>
      .bind (subscriptArg_costs id) fun found argWithin => ?_
    rw [count_expr, ExprKind.children, tally_cons]
    split
    · refine (keepExpr_costs id ⟨mark, .index bound args⟩).mono ?_
      simp only [ExprKind.children, tally_cons]
      omega
    · next arg =>
        refine .bind (subscriptOn_costs id _ _) fun lowered loweredWithin =>
          (replace_costs id ⟨mark, .index bound args⟩ _).mono ?_
        simp only [Option.map_some, Option.getD_some] at argWithin
        dsimp only
        omega
  | case4 mark name =>
    refine (setKind_costs id _ _).mono ?_
    simp [count_expr, ExprKind.children]
  | case5 mark args =>
    refine .bind (subscriptArg_costs id) fun found argWithin => ?_
    rw [count_expr, ExprKind.children]
    split
    · next arg =>
        refine .bind (subscript_costs id _ _) fun lowered loweredWithin =>
          (replace_costs id ⟨mark, .elementBinding args⟩ _).mono ?_
        simp only [Option.map_some, Option.getD_some] at argWithin
        dsimp only
        omega
    · refine (setKind_costs id ⟨mark, .elementBinding args⟩ _).mono ?_
      simp [ExprKind.children]
  | case6 => exact .unsupported

theorem guardAccess_costs (site : Site) (anchor : Expr) (outer : Option (Expr × Ty))
    (node : Expr) : Costs (guardAccess site anchor outer node)
      (fun chain => tally id (ofExprs chain.guards) + (expr chain.value).count id)
      (tally id node.kind.children) := by
  obtain ⟨mark, kind⟩ := node
  cases kind with
  | conditionalAccess receiver access =>
    have further (inner : Expr) (type : Ty) :=
      guardAccess_costs site anchor (some (inner, type)) access
    have whole : tally id (ExprKind.conditionalAccess receiver access).children =
        (expr receiver).count id + (expr access).count id := by
      simp [ExprKind.children]
    have held : tally id access.kind.children ≤ (expr access).count id :=
      (expr access).tally_children_le
    unfold guardAccess
    extract_lets span guarded
    have guardedCosts (tested : Expr) (within : (expr tested).count id ≤ (expr receiver).count id) :
        Costs (guarded tested)
          (fun chain => tally id (ofExprs chain.guards) + (expr chain.value).count id)
          (tally id (ExprKind.conditionalAccess receiver access).children) := by
      refine .free fun type => .bind (stabilize_costs id _) fun stable captured => ?_
      have guardCost : (expr (stable.2.getD stable.1.forget)).count id ≤
          (expr receiver).count id := by
        cases captureEq : stable.2 with
        | none => simp
        | some capture => simpa [captureEq] using Nat.le_trans captured within
      dsimp only
      split
      · refine .bind (further _ _) fun chain chainWithin => .pure ?_
        simp only [ofExprs_cons, tally_cons, count_binary, count_nullLit, Nat.add_zero]
        omega
      · refine .bind (bindAccess_costs id _) fun value valueWithin => .pure ?_
        simp only [ofExprs_cons, ofExprs_nil, tally_cons, tally_nil, count_binary,
          count_nullLit, Nat.add_zero]
        omega
    split
    · exact .bind (bindAccess_costs id _) guardedCosts
    · exact guardedCosts receiver (Nat.le_refl _)
  | _ => exact .unsupported

theorem conditionalValue_costs {cond : Expr} :
    Costs (conditionalValue span type cond value) (fun result => (expr result).count id)
      ((expr cond).count id + (expr value).count id) := by
  unfold conditionalValue
  split
  · exact .pure (by simp)
  · refine .free fun _ => .bind (defaultValue_costs id _) fun absent isNone => .pure ?_
    simp only [count_conditional, count_cast]
    omega
  · refine .bind (defaultValue_costs id _) fun absent isNone => .pure ?_
    simp only [count_conditional]
    omega

theorem lowerConditionalAccess_costs {node : Expr} :
    Costs (lowerConditionalAccess site node kind) (fun result => (expr result).count id)
      (node.mark.bears id + tally id kind.children) := by
  refine .ite (keepExpr_costs id _) (.free fun _ => .ite (keepExpr_costs id _) ?_)
  refine .bind (guardAccess_costs id _ _ _ ⟨node.mark, kind⟩) fun chain chainWithin => ?_
  refine .free fun type => .bind (conditionalValue_costs id _) fun value valueWithin =>
    (replace_costs id _ _).mono ?_
  rw [count_conjunction] at valueWithin
  dsimp only at chainWithin
  omega

theorem lowerVoidAccess_costs {node : Expr} : Costs (lowerVoidAccess site node)
      (fun result => (expr result.1).count id + (stmt result.2).count id)
      (tally id node.kind.children) :=
  .bind (guardAccess_costs id _ _ _ _) fun chain within => .pure (by simpa using within)

theorem lowerVoidStatement_costs {node : Stmt} :
    Costs (lowerVoidStatement site node value) (node.landed id)
      (node.mark.bears id + tally id (StmtKind.eval value).children) := by
  have held : tally id value.kind.children ≤ (expr value).count id :=
    (expr value).tally_children_le
  refine .bind (lowerVoidAccess_costs id _) fun lowered within =>
    (setStmt_costs id).mono ?_
  simp only [StmtKind.children, tally_cons, tally_nil, ofStmt?_none]
  omega

theorem lowerVoidLambda_costs {node : Expr} {label : Option Nat} {isAsync : Bool} :
    Costs (lowerVoidLambda site node label params isAsync value)
      (fun result => (expr result).count id)
      (node.mark.bears id + tally id (ExprKind.lambda label params isAsync (.expr value)).children) := by
  have held : tally id value.kind.children ≤ (expr value).count id :=
    (expr value).tally_children_le
  refine .bind (lowerVoidAccess_costs id _) fun lowered within =>
    (setKind_costs id _ _).mono ?_
  simp only [ExprKind.children, ofLambdaBody, tally_append, tally_cons, tally_nil, count_block,
    ofStmts_cons, ofStmts_nil, count_ifElse, ofStmt?_none]
  omega

/-! ## Other sugar of expressions -/

theorem lowerName_costs {node : Expr} {name : String} :
    Costs (lowerName site node name) (fun result => (expr result).count id) (node.mark.bears id) :=
  .free fun _ => .free fun _ => .free fun _ => .ite
    (.free fun _ => (setKind_costs id _ _).mono (by simp [ExprKind.children]))
    (keepExpr_costs id _)

theorem convertResult_costs {result : Expr} {target : Ty} :
    Costs (convertResult input result target) (fun converted => (expr converted).count id)
      ((expr result).count id) :=
  .free fun _ => .ite (.pure (Nat.le_refl _)) (.free fun _ => .pure (by simp))

/-- Every arm stands in the chain once, and every test reads a copy of the subject. -/
theorem switchChain_costs (subject : Expr) (target : Ty) (otherwise : Expr) :
    (inputs arms : List Arm) → Costs (switchChain subject target otherwise inputs arms)
      (fun result => (expr result).count id)
      (tally id (arms.flatMap ofArm) + (expr otherwise).count id)
  | input :: inputs, arm :: arms => by
    unfold switchChain
    refine .bind (switchChain_costs subject target otherwise inputs arms) fun rest within => ?_
    refine .bind (convertResult_costs id) fun result resultWithin => ?_
    split
    · next noGuard =>
        simp only [flatMap_cons, ofArm, noGuard, ofExpr?_none, tally_append, tally_cons, tally_nil]
        refine .ite (.pure (by omega)) (.pure ?_)
        simp only [count_conditional, count_spanExpr, ExprKind.children, tally_cons, tally_nil,
          count_forget]
        omega
    · next guard isGuard =>
        refine .pure ?_
        simp only [flatMap_cons, ofArm, isGuard, ofExpr?_some, tally_append, tally_cons,
          tally_nil, count_conditional, count_binary, count_spanExpr, ExprKind.children,
          count_forget]
        omega
  | [], _ | _ :: _, [] => .pure (Nat.le_add_left _ _)

theorem lowerSwitchExpression_costs {node subject : Expr} {arms : List Arm} :
    Costs (lowerSwitchExpression site node subject arms) (fun result => (expr result).count id)
      (node.mark.bears id + tally id (ExprKind.switch subject arms).children) := by
  refine .free fun target => .free fun type =>
    .bind (stabilize_costs id _) fun stable captured => ?_
  refine .bind (switchChain_costs id _ _ _ _ _) fun chain within =>
    (replace_costs id _ _).mono ?_
  simp only [count_spanExpr, ExprKind.children, count_create, ofExprs_cons, ofExprs_nil,
    tally_cons, tally_nil, count_forget, Nat.add_zero] at within
  simp only [count_after, ExprKind.children, tally_cons]
  omega

theorem addItem_costs {buffer : String} {span : Span} {item : Expr} :
    Costs (addItem buffer span item) (fun result => tally id (ofStmts result))
      ((expr item).count id) := by
  have held : tally id item.kind.children ≤ (expr item).count id :=
    (expr item).tally_children_le
  unfold addItem
  split
  · next isSpread =>
      rw [isSpread] at held
      exact .free fun _ => .free fun _ => .free fun _ => .pure (by
        simpa [ExprKind.children] using held)
  · exact .pure (by simp)

theorem addItems_costs (buffer : String) :
    (inputs items : List Expr) → Costs (addItems buffer inputs items)
      (fun result => tally id (ofStmts result)) (tally id (ofExprs items))
  | _ :: inputs, _ :: items =>
    .bind (addItem_costs id) fun here within =>
      .bind (addItems_costs buffer inputs items) fun others othersWithin => .pure (by
        rw [ofStmts_append, tally_append, ofExprs_cons, tally_cons]
        exact Nat.add_le_add within othersWithin)
  | [], _ | _ :: _, [] => .pure (Nat.zero_le _)

theorem lowerCollection_costs :
    Costs (lowerCollection node items) (fun result => (expr result).count id)
      (node.mark.bears id + tally id (ExprKind.collection items).children) := by
  refine .ite (keepExpr_costs id _) (.free fun _ => .free fun _ => .free fun _ => .free fun _ =>
    .bind (addItems_costs id _ _ _) fun adds within => ?_)
  have replaced (type : TypeSyntax) (start : Stmt) (result : Expr)
      (startNone : (stmt start).count id = 0) (resultNone : (expr result).count id = 0) :
      Costs (replace node (node.span.immediate type (start :: adds ++ [node.span.ret result])))
        (fun result => (expr result).count id)
        (node.mark.bears id + tally id (ExprKind.collection items).children) := by
    refine (replace_costs id _ _).mono ?_
    simp only [count_immediate, cons_append, ofStmts_cons, ofStmts_append, ofStmts_nil,
      tally_cons, tally_append, tally_nil, count_ret, startNone, resultNone, ExprKind.children]
    omega
  dsimp only
  split
  · exact .free fun _ => replaced _ _ _ (by simp) (by split <;> simp)
  · exact .free fun _ => replaced _ _ _ (by simp) (by split <;> simp)

theorem tally_holeValues :
    tally id (ofExprs (holeValues parts)) ≤ tally id (parts.flatMap ofPart) := by
  induction parts with
  | nil => exact Nat.zero_le _
  | cons part rest ih =>
    cases part with
    | text text => simpa [holeValues, ofPart] using ih
    | hole value alignment format =>
      simp only [holeValues, filterMap_cons, flatMap_cons, ofPart, ofExprs_cons,
        tally_cons, tally_append] at ih ⊢
      omega

theorem count_concatenation :
    (expr (concatenation span parts)).count id ≤ tally id (parts.flatMap ofPart) := by
  have operands : tally id (ofExprs (parts.map (Part.operand span))) ≤
      tally id (parts.flatMap ofPart) := by
    induction parts with
    | nil => exact Nat.zero_le _
    | cons part rest ih =>
      cases part with
      | text text => simpa [ofPart, Part.operand] using ih
      | hole value alignment format =>
        simp only [map_cons, flatMap_cons, ofPart, Part.operand, ofExprs_cons,
          tally_cons, tally_append]
        omega
  obtain ⟨first, rest, joined, pieces⟩ := concatenation_eq
  rw [joined, count_foldl_binary, ← tally_cons, ← ofExprs_cons]
  rcases pieces with pieces | pieces
  · rw [pieces]
    exact operands
  · rw [pieces, ofExprs_cons, tally_cons, count_strLit, Nat.zero_add]
    exact operands

theorem lowerInterpolated_costs :
    Costs (lowerInterpolated node parts) (fun result => (expr result).count id)
      (node.mark.bears id + tally id (ExprKind.interpolated parts).children) := by
  refine .ite (.free fun _ => (replace_costs id _ _).mono ?_) ((replace_costs id _ _).mono ?_)
  · simpa [ExprKind.children] using tally_holeValues id parts
  · exact Nat.add_le_add_left (count_concatenation id node.span parts) _

theorem tally_sets {copy : String} : tally id (ofStmts (inits.map fun init =>
      span.assignStmt (span.member (span.ident copy) init.name) init.value)) =
      tally id (ofInits inits) := by
  induction inits with
  | nil => rfl
  | cons init rest ih => simpa [ofInits] using ih

theorem lowerCopyWith_costs {node : Expr} :
    Costs (lowerCopyWith node receiver inits) (fun result => (expr result).count id)
      (node.mark.bears id + tally id (ExprKind.copyWith receiver inits).children) := by
  have copied (type : Ty) : Costs (copyAs node receiver inits type)
      (fun result => (expr result).count id)
      (node.mark.bears id + tally id (ExprKind.copyWith receiver inits).children) := by
    refine .free fun copy => .free fun types => .free fun written =>
      (replace_costs id _ _).mono ?_
    have read : (expr (if types.isValueType type then receiver
        else node.span.methodCall receiver "__Clone" [])).count id = (expr receiver).count id := by
      split <;> simp
    simp [read, tally_sets, ExprKind.children]
  refine .free fun ownType => ?_
  dsimp only
  split
  · exact .free copied
  · exact .free copied

theorem desugarRules_within : desugarRules.Within .results id (Mark.bears id) where
  expr site node kind := by
    cases kind with
    | ident name => exact lowerName_costs id _
    | isPattern subject tested => exact .free fun _ => keepExpr_costs id _
    | switch subject arms =>
      exact .bind (lowerSwitchExpression_costs id _) fun lowered within =>
        .free fun _ => .pure within
    | index receiver args => exact lowerIndex_costs id _
    | fromEnd value => exact lowerFromEnd_costs id _
    | range start stop => exact lowerRange_costs id _
    | conditionalAccess receiver access => exact lowerConditionalAccess_costs id _
    | collection items => exact lowerCollection_costs id _
    | interpolated parts => exact lowerInterpolated_costs id _ _
    | copyWith receiver inits => exact lowerCopyWith_costs id
    | lambda label params isAsync body =>
      cases body with
      | expr value =>
        exact .free fun _ => .ite (lowerVoidLambda_costs id _) (keepExpr_costs id _)
      | block body => exact keepExpr_costs id _
    | _ => exact keepExpr_costs id _
  stmt site node kind := by
    refine .free fun _ => ?_
    split
    · exact .free fun _ => .ite (lowerVoidStatement_costs id _) (keepStmt_costs id)
    · exact keepStmt_costs id
  pattern _ node kind := keepPattern_costs id

/-! ## Functions and chains -/

theorem lambdaBody_costs {typeParams : List String} :
    Costs (lambdaBody span name typeParams params body)
      (fun result => tally id (ofLambdaBody result)) (tally id (ofBody body)) := by
  refine .ite .unsupported (.ite .unsupported ?_)
  cases body with
  | none => exact .unsupported
  | expr value => exact .pure (Nat.le_refl _)
  | block body => exact .pure (Nat.le_refl _)

theorem sortFunctions_costs : (body : List Stmt) → Costs (sortFunctions body)
    (fun sorted => tally id (ofStmts sorted.decls) + tally id (ofStmts sorted.assigns) +
      tally id (ofStmts sorted.rest)) (tally id (ofStmts body))
  | [] => .pure (Nat.zero_le _)
  | ⟨mark, kind⟩ :: others => by
    have sorting := sortFunctions_costs others
    rw [ofStmts_cons, tally_cons]
    cases kind with
    | localFunction name typeParams params ret body =>
      refine .bind (lambdaBody_costs id _ _) fun made madeWithin => .free fun type =>
        .bind sorting fun sorted within => .pure ?_
      simp only [ofStmts_cons, tally_cons, count_declare, ofExpr?_none, tally_nil, count_stmt,
        StmtKind.children, count_assign, count_ident, Span.lambda, count_spanExpr,
        ExprKind.children, tally_append]
      omega
    | _ =>
      refine .bind sorting fun sorted within => .pure ?_
      simp only [ofStmts_cons, tally_cons]
      omega

theorem localFunctionRules_within : localFunctionRules.Within .results id (Mark.bears id) where
  expr _ node kind := keepExpr_costs id node
  stmt _ node kind := by
    cases kind with
    | block body =>
      refine .ite (.bind (sortFunctions_costs id body) fun sorted within =>
        (setStmt_costs id).mono ?_) (keepStmt_costs id)
      simp only [StmtKind.children, ofStmts_append, tally_append]
      omega
    | _ => exact keepStmt_costs id
  pattern _ node kind := keepPattern_costs id

theorem tally_assignmentChain (value : Expr) :
    tally id (ofExprs (assignmentChain value).1) + (expr (assignmentChain value).2).count id ≤
      (expr value).count id := by
  fun_induction assignmentChain value with
  | case1 mark target value targets last split ih =>
    rw [split] at ih
    dsimp only at ih
    simp only [ofExprs_cons, tally_cons, count_expr, ExprKind.children, tally_nil]
    omega
  | case2 => simp

theorem tally_assignStmts {targets : List Expr} :
    tally id (ofStmts (targets.map fun target => span.assignStmt target (span.ident name))) =
      tally id (ofExprs targets) := by
  induction targets with
  | nil => rfl
  | cons target rest ih => simpa using ih

theorem tally_reverse {nodes : List Expr} :
    tally id (ofExprs nodes.reverse) = tally id (ofExprs nodes) := by
  induction nodes with
  | nil => rfl
  | cons node rest ih =>
    simp [ih, Nat.add_comm]

theorem chainRules_within : chainRules.Within .results id (Mark.bears id) where
  expr _ node kind := keepExpr_costs id node
  stmt _ node kind := by
    cases kind with
    | eval value =>
      refine .ite (.free fun name => .free fun type => .free fun written =>
        (splice_costs id node _ _).mono ?_) (keepStmt_costs id)
      have chain := tally_assignmentChain id value
      simp only [StmtKind.children, ofExpr?_some, tally_cons, tally_nil, tally_assignStmts,
        tally_reverse]
      omega
    | _ => exact keepStmt_costs id
  pattern _ node kind := keepPattern_costs id

end Pass

end Unsugar
