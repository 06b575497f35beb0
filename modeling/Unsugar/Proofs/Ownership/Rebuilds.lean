import Unsugar.Syntax.Numbering
import Unsugar.Proofs.Ownership.Counts
import Unsugar.Proofs.Syntax.Rebuilds

namespace Unsugar

/-! # What rebuilds spend

A rule may put the children it is given anywhere, but each of them only once.
`Spending` bounds what results weigh; a rebuild whose rules stay within their
node's own mark and the rebuilt children stays within the tree it was given.
-/

open Node

/-- A way to bound what the results of actions weigh. -/
structure Spending (m : Type → Type) [Monad m] where
  holds {α : Type} : m α → (α → Nat) → Nat → Prop
  mono {α : Type} {action : m α} {weight : α → Nat} {limit more : Nat} :
    holds action weight limit → limit ≤ more → holds action weight more
  pure {α : Type} {weight : α → Nat} {value : α} {limit : Nat} :
    weight value ≤ limit → holds (pure value) weight limit
  /-- What the first action leaves goes to the next, with what is set aside. -/
  bind {α β : Type} {cost : α → Nat} {weight : β → Nat} {limit : Nat} {action : m α}
    {next : α → m β} (aside : Nat) :
    holds action cost limit → (∀ value, holds (next value) weight (cost value + aside)) →
      holds (action >>= next) weight (limit + aside)

namespace Spending

section Combinators

variable {m : Type → Type} [Monad m] (spending : Spending m) {α β ε : Type}
  {first : m α} {second : m β} {weight : ε → Nat} {cost₁ : α → Nat} {cost₂ : β → Nat}
  {limit₁ limit₂ : Nat}
  (isFirst : spending.holds first cost₁ limit₁)

include isFirst

theorem one {build : α → ε} (within : ∀ a, weight (build a) ≤ cost₁ a) :
    spending.holds (first >>= fun a => Pure.pure (build a)) weight limit₁ :=
  spending.bind 0 isFirst fun a => spending.pure (within a)

theorem two {build : α → β → ε} (isSecond : spending.holds second cost₂ limit₂)
    (within : ∀ a b, weight (build a b) ≤ cost₁ a + cost₂ b) :
    spending.holds (first >>= fun a => second >>= fun b => Pure.pure (build a b)) weight
      (limit₁ + limit₂) := by
  refine spending.bind limit₂ isFirst fun a => ?_
  refine spending.mono (spending.bind (cost₁ a) isSecond fun b => spending.pure ?_)
    (Nat.le_of_eq (Nat.add_comm _ _))
  have bound := within a b
  omega

theorem lighter [LawfulMonad m] {cost : α → Nat} (within : ∀ a, cost a ≤ cost₁ a) :
    spending.holds first cost limit₁ := by
  rw [← bind_pure first]
  exact spending.one isFirst within

end Combinators

def pureValue : Spending Id where
  holds action weight limit := weight action ≤ limit
  mono within more := Nat.le_trans within more
  pure within := within
  bind aside first rest := Nat.le_trans (rest _) (Nat.add_le_add_right first aside)

/-- Whether an identity is among those drawn from one number up to another. -/
def drawn (id first next : Nat) : Nat := if first ≤ id ∧ id < next then 1 else 0

/-- What a count of identities draws comes on top. -/
def drawing (id : Nat) : Spending (StateM Nat) where
  holds action weight limit := ∀ next, next ≤ (action next).2 ∧
    weight (action next).1 ≤ limit + drawn id next (action next).2
  mono within more next := ⟨(within next).1, by have := (within next).2; omega⟩
  pure within next := ⟨Nat.le_refl next, Nat.le_trans within (Nat.le_add_right _ _)⟩
  bind {_ _ cost weight limit action follow} aside first rest next := by
    have start := first next
    have finish := rest (action next).1 (action next).2
    have result : (action >>= follow) next = follow (action next).1 (action next).2 := rfl
    rw [result]
    unfold drawn at *
    refine ⟨Nat.le_trans start.1 finish.1, ?_⟩
    split at start <;> split at finish <;> split <;> omega

end Spending

/-! ## Rules that stay within their node -/

section Landing

variable (id : Nat)

/-- What follows a statement in its place weighs as much in a list as in a place
    that holds only one. -/
def Stmt.landed (node : Stmt) (items : List Stmt) : Nat :=
  max (tally id (ofStmts items)) ((stmt (node.gather items)).count id)

theorem Stmt.tally_le_landed (node : Stmt) (items : List Stmt) :
    tally id (ofStmts items) ≤ node.landed id items := Nat.le_max_left _ _

theorem Stmt.count_gather_le_landed (node : Stmt) (items : List Stmt) :
    (stmt (node.gather items)).count id ≤ node.landed id items := Nat.le_max_right _ _

variable {id}

/-- A single statement lands as it is. -/
@[simp] theorem Stmt.landed_single (node only : Stmt) :
    node.landed id [only] = (stmt only).count id := by
  simp [landed, gather]

/-- Where the first of several stands for the statement they replace, nothing is
    added. -/
theorem Stmt.landed_splice (mark : Mark) (old first : StmtKind) (rest : List Stmt) :
    Stmt.landed id ⟨mark, old⟩ (⟨mark, first⟩ :: rest) =
      mark.bears id + tally id first.children + tally id (ofStmts rest) := by
  cases rest with
  | nil => simp [count_stmt]
  | cons second rest =>
    simp [landed, gather, anonymous, Stmt.span, count_stmt, StmtKind.children, Nat.add_assoc]

end Landing

section Rebuild

variable {m : Type → Type} [Monad m]

/-- Rules that give every node no more than its own mark and its rebuilt children
    allow. -/
structure Rules.Within (rules : Rules m) (spending : Spending m) (id : Nat) (own : Mark → Nat) :
    Prop where
  expr (site : Site) (node : Expr) (kind : ExprKind) :
    spending.holds (rules.expr site node kind) (fun result => (Node.expr result).count id)
      (own node.mark + tally id kind.children)
  stmt (site : Site) (node : Stmt) (kind : StmtKind) :
    spending.holds (rules.stmt site node kind) (node.landed id)
      (own node.mark + tally id kind.children)
  pattern (site : Site) (node : Pattern) (kind : PatternKind) :
    spending.holds (rules.pattern site node kind) (fun result => (Node.pattern result).count id)
      (own node.mark + tally id kind.children)

variable {rules : Rules m} {spending : Spending m} {id : Nat} {own : Mark → Nat}

def TypeDecl.roots (decl : TypeDecl) : List Node := decl.headerRoots ++ memberRoots decl.members

theorem CompilationUnit.roots_eq (unit : CompilationUnit) :
    unit.roots = unit.types.flatMap TypeDecl.roots := rfl

variable [LawfulMonad m]

def Rules.Within.along (within : rules.Within spending id own) :
    Rebuilding rules (Rules.keep : Rules Id) where
  holds view action _ same :=
    spending.holds action (fun result => tally id (view result).nodes) (weigh own (view same).nodes)
  pure {_ view value} isBare := by
    have none : (view value).nodes = [] := congrArg (List.map Prod.snd) isBare
    exact spending.pure (by simp [none])
  both build isFirst isSecond splits := by
    rw [splits, Parts.append_nodes, weigh_append]
    exact spending.two isFirst isSecond fun a b => by rw [splits, Parts.append_nodes, tally_append]
  expr site node isKind := by
    simp only [Content.placed_nodes] at isKind ⊢
    rw [Content.of, weigh_node, Nat.add_comm]
    refine spending.bind (own node.mark) isKind fun rebuilt => ?_
    rw [Nat.add_comm]
    exact within.expr site node rebuilt
  stmt site node view inPlace isKind := by
    simp only [Content.placed_nodes] at isKind ⊢
    have landed : spending.holds
        (node.kind.rebuild rules (site.below (.stmt node)) >>= rules.stmt site node)
        (node.landed id) (weigh own [.stmt node]) := by
      rw [weigh_node, Nat.add_comm]
      refine spending.bind (own node.mark) isKind fun rebuilt => ?_
      rw [Nat.add_comm]
      exact within.stmt site node rebuilt
    obtain rfl | rfl := inPlace
    · exact spending.lighter landed (node.tally_le_landed id)
    · exact spending.lighter landed (node.count_gather_le_landed id)
  pattern site node isKind := by
    simp only [Content.placed_nodes] at isKind ⊢
    rw [Content.of, weigh_node, Nat.add_comm]
    refine spending.bind (own node.mark) isKind fun rebuilt => ?_
    rw [Nat.add_comm]
    exact within.pattern site node rebuilt

theorem CompilationUnit.rebuild_spends (within : rules.Within spending id own)
    (unit : CompilationUnit) : spending.holds (unit.rebuild rules)
      (fun result => tally id result.roots) (weigh own unit.roots) := by
  have whole := unit.rebuild_along within.along
  simpa only [Rules.Within.along, CompilationUnit.parts_nodes] using whole

end Rebuild

/-! ## Copies and numbers -/

/-- A copy whose nodes have no identity counts for none. -/
@[simp] theorem count_forget {id : Nat} {node : Expr} : (expr node.forget).count id = 0 := by
  have within : Rules.forget.Within .pureValue id fun _ => 0 := {
    expr _ node kind := by
      change (expr ⟨node.span.mark, kind.anonymous⟩).count id ≤ _
      cases kind <;> simp [count_expr, ExprKind.anonymous, ExprKind.children]
    stmt _ node kind := by
      change node.landed id [⟨node.span.mark, kind⟩] ≤ _
      simp [count_stmt]
    pattern _ node kind := by
      change (pattern ⟨node.span.mark, kind⟩).count id ≤ _
      simp [count_pattern] }
  have spent : (expr node.forget).count id ≤ weigh (fun _ => 0) [expr node] :=
    node.rebuild_along within.along .detached
  rwa [weigh_zero, Nat.le_zero] at spent

theorem drawId_spends {id : Nat} :
    (Spending.drawing id).holds drawId (fun drawn => (⟨default, some drawn⟩ : Mark).bears id) 0 := by
  intro next
  refine ⟨Nat.le_succ next, ?_⟩
  change (⟨default, some next⟩ : Mark).bears id ≤ 0 + Spending.drawn id next (next + 1)
  unfold Mark.bears Spending.drawn
  split <;> split <;> simp_all

theorem Rules.number_within {id : Nat} : Rules.number.Within (.drawing id) id fun _ => 0 where
  expr _ node kind := by
    refine (Spending.drawing id).bind (tally id kind.children) drawId_spends fun drawn =>
      (Spending.drawing id).pure ?_
    cases kind <;> exact Nat.le_of_eq (count_expr _ _)
  stmt _ node kind :=
    (Spending.drawing id).bind (tally id kind.children) drawId_spends fun drawn =>
      (Spending.drawing id).pure (by
        rw [Stmt.landed_single, count_stmt]
        exact Nat.le_refl _)
  pattern _ node kind :=
    (Spending.drawing id).bind (tally id kind.children) drawId_spends fun drawn =>
      (Spending.drawing id).pure (Nat.le_of_eq (count_pattern _))

theorem CompilationUnit.tally_number (unit : CompilationUnit) (id : Nat) :
    tally id unit.number.1.roots ≤ if id < unit.number.2 then 1 else 0 := by
  have spent : tally id unit.number.1.roots ≤
      weigh (fun _ => 0) unit.roots + Spending.drawn id 0 unit.number.2 :=
    (unit.rebuild_spends Rules.number_within 0).2
  simpa [Spending.drawn] using spent

theorem CompilationUnit.number_proper (unit : CompilationUnit) : unit.number.1.Proper := by
  refine proper_iff.2 fun id => Nat.le_trans (unit.tally_number id) ?_
  split <;> omega

end Unsugar
