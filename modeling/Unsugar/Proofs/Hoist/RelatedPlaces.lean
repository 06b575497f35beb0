import Unsugar.Proofs.Hoist.Bindings
import Unsugar.Proofs.Switch.RelatedRebuilds

open List

namespace Unsugar

/-! # Places in related trees

Where the parts of two nodes are related, they stand at the same places, and what a
name means there is related as well, as long as every statement passes it on alike.
-/

open Node

variable {left right : Binding}

section Places

/-- Statements that are related pass on what a name means alike, and so do lambdas. -/
structure PassesOn (cover other : Cover) (wrapped moved : List Nat) (name : String)
    (means : Binding → Binding → Prop) (rel : Node → Node → Prop) : Prop where
  ahead (node result : Stmt) : rel (stmt node) (stmt result) → ∀ (listed : Bool) left right,
    means left right → means (cover.ahead? listed node left) (other.ahead? listed result right)
  rebinds (node result : Stmt) : rel (stmt node) (stmt result) → ∀ left right, means left right →
    means (node.rebinds wrapped name left) (result.rebinds moved name right)
  inside (label : Option Nat) : ∀ left right, means left right →
    means (if label.any cover.inside.contains then .made else left)
      (if label.any other.inside.contains then .made else right)

def PlacedAlike (means : Binding → Binding → Prop) (rel : Node → Node → Prop)
    (left right : Binding × Node) : Prop :=
  means left.1 right.1 ∧ rel left.2 right.2

variable {cover other : Cover} {wrapped moved : List Nat} {name : String}
  {means : Binding → Binding → Prop} {rel : Node → Node → Prop}

theorem placedAlike (same : means left right) {nodes results : List Node}
    (areRelated : Forall₂ rel nodes results) :
    Forall₂ (PlacedAlike means rel) (nodes.map (Prod.mk left))
      (results.map (Prod.mk right)) := by
  induction areRelated with
  | nil => exact .nil
  | cons head _ ih => exact .cons ⟨same, head⟩ ih

theorem ExprKind.placed_other (kind : ExprKind) (isOther : kind.isOther = true)
    (binding : Binding) : kind.placed cover binding = kind.children.map (Prod.mk binding) := by
  cases kind with
  | lambda => cases isOther
  | _ => rfl

theorem StmtKind.placed_other (kind : StmtKind) (isOther : kind.isOther = true)
    (binding : Binding) :
    kind.placed cover wrapped name binding = kind.children.map (Prod.mk binding) := by
  cases kind with
  | block | forLoop | switch => cases isOther
  | _ => rfl

namespace PassesOn

variable (passes : PassesOn cover other wrapped moved name means rel)

include passes

theorem inList (listed : Bool) (same : means left right) {body results : List Stmt}
    (areItems : Forall₂ rel (ofStmts body) (ofStmts results)) :
    Forall₂ (PlacedAlike means rel) (cover.inOrder wrapped name listed left body)
        (other.inOrder moved name listed right results) ∧
      means (cover.afterAll wrapped name listed left body)
        (other.afterAll moved name listed right results) := by
  induction body generalizing left right results with
  | nil =>
    cases results with
    | nil => exact ⟨.nil, same⟩
    | cons => cases areItems
  | cons node rest ih =>
    cases results with
    | nil => cases areItems
    | cons result others =>
      obtain ⟨head, areOthers⟩ := forall₂_cons.1 areItems
      have here := passes.ahead node result head listed left right same
      obtain ⟨inRest, after⟩ := ih (passes.rebinds node result head _ _ here) areOthers
      exact ⟨.cons ⟨here, head⟩ inRest, after⟩

theorem expr {kind result : ExprKind} (related : kind.Related rel result)
    (same : means left right) :
    Forall₂ (PlacedAlike means rel) (kind.placed cover left) (result.placed other right) := by
  cases related with
  | lambda areParams isBody =>
    exact rel_append (placedAlike same areParams) (placedAlike (passes.inside _ _ _ same) isBody)
  | alone isAlone =>
    have noPlace (shape : Cover) (binding : Binding) : kind.placed shape binding = [] :=
      map_eq_nil_iff.1 (ExprKind.placed_children.trans isAlone)
    rw [noPlace, noPlace]
    exact .nil
  | test isSubject isTested => exact placedAlike same (.cons isSubject (.cons isTested .nil))
  | paren isInner => exact placedAlike same (.cons isInner .nil)
  | other isOther stays _ children =>
    rw [kind.placed_other isOther, result.placed_other stays]
    exact placedAlike same children

theorem stmt {kind result : StmtKind} (related : kind.Related rel result)
    (same : means left right) :
    Forall₂ (PlacedAlike means rel) (kind.placed cover wrapped name left)
      (result.placed other moved name right) := by
  cases related with
  | block areItems => exact (passes.inList true same areItems).1
  | declare isInit => exact placedAlike same isInit
  | ifElse isCond isYes isNo => exact placedAlike same (.cons isCond (.cons isYes isNo))
  | forLoop areInits isCond areSteps isBody =>
    obtain ⟨inInits, after⟩ := passes.inList false same areInits
    refine rel_append inInits (placedAlike after ?_)
    exact rel_append (rel_append isCond areSteps) (.cons isBody .nil)
  | switch isSubject areSections =>
    refine .cons ⟨same, isSubject⟩ (rel_flatMap areSections fun sect result isSection => ?_)
    exact rel_append (placedAlike same (rel_flatMap isSection.labels
      fun _ _ isLabel => isLabel.children))
      (passes.inList true same isSection.body).1
  | other isOther stays _ _ children =>
    rw [kind.placed_other isOther, result.placed_other stays]
    exact placedAlike same children

end PassesOn

theorem StmtKind.Related.declaresName {kind result : StmtKind} (related : kind.Related rel result)
    {mark changed : Mark} :
    Stmt.declaresName name ⟨changed, result⟩ = Stmt.declaresName name ⟨mark, kind⟩ := by
  have none (kind : StmtKind) (isOther : kind.isOther = true) (mark : Mark) :
      Stmt.declaresName name ⟨mark, kind⟩ = false := by
    cases kind with
    | declare => cases isOther
    | _ => rfl
  cases related with
  | other isOther stays => rw [none kind isOther, none result stays]
  | _ => rfl

/-! ## One tree under two plans -/

theorem ExprKind.related_self (kind : ExprKind) : kind.Related Eq kind := by
  cases kind with
  | lambda => exact .lambda (forall₂_refl _) (forall₂_refl _)
  | isPattern => exact .test rfl rfl
  | paren => exact .paren rfl
  | literal | ident | self | base | typeRef | memberBinding | defaultOf | declaration | discard =>
    exact .alone rfl
  | _ => exact .other rfl rfl rfl (forall₂_refl _)

theorem Label.related_self (label : Label) : label.Related Eq label := by
  cases label with
  | default => exact .default
  | case => exact .case rfl (forall₂_refl _)

theorem StmtKind.related_self (kind : StmtKind) : kind.Related Eq kind := by
  cases kind with
  | block => exact .block (forall₂_refl _)
  | declare => exact .declare (forall₂_refl _)
  | ifElse => exact .ifElse rfl rfl (forall₂_refl _)
  | forLoop =>
    exact .forLoop (forall₂_refl _) (forall₂_refl _) (forall₂_refl _) rfl
  | switch subject sections =>
    exact .switch rfl (forall₂_same.2 fun _ _ =>
      ⟨forall₂_same.2 fun label _ => label.related_self, forall₂_refl _⟩)
  | _ => exact .other rfl rfl rfl rfl (forall₂_refl _)

variable (made : means .made .made)
  (rebinds : ∀ (node : Stmt) (left right : Binding), means left right →
    means (node.rebinds wrapped name left) (node.rebinds moved name right))

include made

theorem ite_made_alike {here : Bool} (same : means left right) :
    means (if here then .made else left) (if here then .made else right) := by
  cases here
  · exact same
  · exact made

include rebinds

theorem PassesOn.self : PassesOn cover cover wrapped moved name means Eq where
  ahead node result isSame listed left right same := by
    cases isSame
    exact ite_made_alike made same
  rebinds node result isSame left right same := by
    cases isSame
    exact rebinds node left right same
  inside label left right same := ite_made_alike made same

theorem Node.placed_alike (same : means left right) (node : Node) :
    Forall₂ (PlacedAlike means Eq) (node.placed cover wrapped name left)
      (node.placed cover moved name right) := by
  have passes : PassesOn cover cover wrapped moved name means Eq := .self made rebinds
  obtain ⟨mark, kind⟩ | ⟨mark, kind⟩ | ⟨mark, kind⟩ := node
  · exact passes.expr kind.related_self same
  · exact passes.stmt kind.related_self (ite_made_alike made same)
  · exact placedAlike same (forall₂_refl _)

end Places

/-! ## Copies -/

section Copies

variable {cover other : Cover} {wrapped : List Nat} {name : String} {mark : Mark}
  {binding found : Binding}

@[simp] theorem Cover.entered_nothing {mark : Mark} {binding : Binding} :
    ({} : Cover).entered mark binding = binding := by
  unfold entered
  cases mark.id <;> simp

/-- What means a local may mean none any more. -/
def Looser (original copied : Binding) : Prop := copied = .free → original = .free

/-- What occurs in a copy has no identity, and if it means no local, then neither does
    what it is a copy of, whatever is going to be inserted around the copy. -/
structure Node.CopiedTo (wrapped : List Nat) (name : String) (node result : Node) : Prop where
  plain (original copied : Stmt) : node = stmt original → result = stmt copied →
    copied.id = none ∧ copied.declaresName name = original.declaresName name
  finds (other : Cover) (mark : Mark) (found left right : Binding) : Looser left right →
    result.Finds other wrapped name mark found right → ∃ (source : Mark) (original : Binding),
      mark = source.span.mark ∧ node.Finds {} wrapped name source original left ∧
        Looser original found

theorem passesOn_copies :
    PassesOn {} other wrapped wrapped name Looser (Node.CopiedTo wrapped name) where
  ahead node result copiedTo listed left right looser := by
    have noId := (copiedTo.plain node result rfl rfl).1
    rw [Cover.ahead?_nothing]
    simpa [Cover.ahead?, noId] using looser
  rebinds node result copiedTo left right looser isFree := by
    obtain ⟨noId, sameName⟩ := copiedTo.plain node result rfl rfl
    rw [Stmt.rebinds_made noId, sameName] at isFree
    split at isFree
    · cases isFree
    · next declaresNot =>
        rw [Stmt.rebinds, Bool.eq_false_iff.2 declaresNot]
        exact looser isFree
  inside label left right looser isFree := by
    split at isFree
    · cases isFree
    · cases label <;> simpa using looser isFree

theorem Node.CopiedTo.ofPlaces {node result : Node}
    (plain : ∀ original copied, node = stmt original → result = stmt copied →
      copied.id = none ∧ copied.declaresName name = original.declaresName name)
    (here : ∀ mark, result = expr ⟨mark, .ident name⟩ →
      ∃ source : Mark, mark = source.span.mark ∧ node = expr ⟨source, .ident name⟩)
    (alike : ∀ (other : Cover) (left right : Binding), Looser left right →
      Forall₂ (PlacedAlike Looser (Node.CopiedTo wrapped name))
        (node.placed {} wrapped name left) (result.placed other wrapped name right)) :
    node.CopiedTo wrapped name result where
  plain := plain
  finds other mark found left right looser finds := by
    cases finds with
    | here =>
      obtain ⟨source, isCopy, isSource⟩ := here mark rfl
      exact ⟨source, left, isCopy, isSource ▸ .here, looser⟩
    | through isPlaced finds =>
      obtain ⟨⟨between, child⟩, isChild, looser, copiedTo⟩ :=
        exists_left (alike other left right looser) isPlaced
      obtain ⟨source, original, isCopy, finds, looser⟩ :=
        copiedTo.finds _ _ _ _ _ looser finds
      exact ⟨source, original, isCopy, .through isChild finds, looser⟩

theorem ExprKind.placed_anonymous (kind : ExprKind) :
    kind.anonymous.placed other binding = kind.placed { other with inside := [] } binding := by
  cases kind with
  | lambda label params isAsync body =>
    cases label <;> simp [anonymous, placed]
  | _ => rfl

theorem Rules.forget_copies : Rules.forget.Relate .pureValue (Node.CopiedTo wrapped name) where
  expr site node kind related := by
    obtain ⟨mark, original⟩ := node
    refine .ofPlaces nofun (fun other isName => ?_) fun other left right looser => ?_
    · cases related with
      | alone =>
        cases original <;> cases isName
        exact ⟨mark, rfl, rfl⟩
      | other _ stays =>
        cases kind <;> cases isName
        cases stays
      | _ => cases isName
    · change Forall₂ _ (original.placed {} left) (kind.anonymous.placed other right)
      rw [ExprKind.placed_anonymous]
      exact passesOn_copies.expr related looser
  stmt site node kind related := by
    obtain ⟨mark, original⟩ := node
    refine ⟨_, rfl, .ofPlaces (fun first copied isFirst isCopied => ?_) nofun
      fun other left right looser => ?_⟩
    · cases isFirst
      cases isCopied
      exact ⟨rfl, related.declaresName⟩
    · refine passesOn_copies.stmt related ?_
      rw [Cover.entered_nothing]
      exact looser
  pattern site node kind related := by
    obtain ⟨mark, original⟩ := node
    exact .ofPlaces nofun nofun fun other left right looser => placedAlike looser related.children

theorem Expr.copiedTo_rebuilt (node : Expr) {site : Site} :
    (expr node).CopiedTo wrapped name (expr (node.rebuilt Rules.forget site)) :=
  node.rebuild_relates Rules.forget_copies site

variable {given : Expr → Prop} {named : Span → String → Prop} {node : Expr}
  (made : node.MadeOf given named)

include made

theorem Expr.MadeOf.finds (finds : (expr node).Finds cover wrapped name mark found binding) :
    (∃ part, given part ∧ (expr part).Finds cover wrapped name mark found binding) ∨
      (∃ span : Span, mark = span.mark ∧ named span name ∧ binding = found) := by
  induction made with
  | given isGiven => exact .inl ⟨_, isGiven, finds⟩
  | @around span kind isPlain arePlain parts ih =>
    rcases Node.finds_expr.1 finds with ⟨rfl, rfl, rfl⟩ | ⟨⟨between, child⟩, isPlaced, finds⟩
    · exact .inr ⟨span, rfl, isPlain, rfl⟩
    · have placed : kind.placed cover binding = kind.children.map (Prod.mk binding) := by
        cases kind with
        | lambda => exact isPlain.elim
        | _ => rfl
      rw [placed] at isPlaced
      obtain ⟨_, isChild, isPair⟩ := mem_map.1 isPlaced
      cases isPair
      obtain ⟨part, rfl⟩ := arePlain _ isChild
      exact ih part isChild finds

theorem Expr.MadeOf.ne_isPattern
    (others : ∀ part, given part → ∀ subject tested, part.kind ≠ .isPattern subject tested)
    (subject : Expr) (tested : Pattern) : node.kind ≠ .isPattern subject tested := by
  cases made with
  | given isGiven => exact others _ isGiven subject tested
  | @around span kind isPlain arePlain parts =>
    rintro rfl
    obtain ⟨part, isExpr⟩ := arePlain (pattern tested) (by simp [ExprKind.children])
    cases isExpr

end Copies

end Unsugar
