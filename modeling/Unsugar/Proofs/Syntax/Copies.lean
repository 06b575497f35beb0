import Unsugar.Proofs.Lower.LoweredUnits
import Unsugar.Proofs.Print.Anonymous

namespace Unsugar

/-! # Copies

A copy of a subtree is that subtree under identities of its own.  Forgetting the
identities of the two leaves the same syntax, so they print the same text; and the
identities of the copy are one run of numbers that nothing else stands under.
-/

open Node

/-! ## What is the same but for identities -/

/-- Two values are the same once the identities in them are forgotten. -/
def Alike {α β : Type} (forget : Site → α → Id β) (left right : α) : Prop :=
  ∀ place other, forget place left = forget other right

/-- What every value of a numbering is, whichever number comes first. -/
abbrev numbered : Outcomes (StateM Nat) := .stateValue Nat

section Combinators

variable {α β γ δ ε α' β' γ' δ' ε' : Type} {first : StateM Nat α} {second : StateM Nat β}
  {third : StateM Nat γ} {fourth : StateM Nat δ} {same₁ : α} {same₂ : β} {same₃ : γ} {same₄ : δ}
  {forget₁ : Site → α → Id α'} {forget₂ : Site → β → Id β'} {forget₃ : Site → γ → Id γ'}
  {forget₄ : Site → δ → Id δ'} {forget : Site → ε → Id ε'}

theorem alike₁ {build : α → ε} (rebuild : α' → ε')
    (isFirst : numbered.holds first fun a => Alike forget₁ a same₁)
    (splits : ∀ site a, forget site (build a) = rebuild (forget₁ site a)) :
    numbered.holds (first >>= fun a => Pure.pure (build a)) fun e => Alike forget e (build same₁) :=
  numbered.bind isFirst fun _ a => numbered.pure fun place other => by
    rw [splits, splits, a place other]

theorem alike₂ {build : α → β → ε} (rebuild : α' → β' → ε')
    (isFirst : numbered.holds first fun a => Alike forget₁ a same₁)
    (isSecond : numbered.holds second fun b => Alike forget₂ b same₂)
    (splits : ∀ site a b, forget site (build a b) = rebuild (forget₁ site a) (forget₂ site b)) :
    numbered.holds (first >>= fun a => second >>= fun b => Pure.pure (build a b))
      fun e => Alike forget e (build same₁ same₂) :=
  numbered.bind isFirst fun _ a => numbered.bind isSecond fun _ b =>
    numbered.pure fun place other => by rw [splits, splits, a place other, b place other]

theorem alike₃ {build : α → β → γ → ε} (rebuild : α' → β' → γ' → ε')
    (isFirst : numbered.holds first fun a => Alike forget₁ a same₁)
    (isSecond : numbered.holds second fun b => Alike forget₂ b same₂)
    (isThird : numbered.holds third fun c => Alike forget₃ c same₃)
    (splits : ∀ site a b c, forget site (build a b c) =
      rebuild (forget₁ site a) (forget₂ site b) (forget₃ site c)) :
    numbered.holds
      (first >>= fun a => second >>= fun b => third >>= fun c => Pure.pure (build a b c))
      fun e => Alike forget e (build same₁ same₂ same₃) :=
  numbered.bind isFirst fun _ a => numbered.bind isSecond fun _ b =>
    numbered.bind isThird fun _ c => numbered.pure fun place other => by
      rw [splits, splits, a place other, b place other, c place other]

theorem alike₄ {build : α → β → γ → δ → ε} (rebuild : α' → β' → γ' → δ' → ε')
    (isFirst : numbered.holds first fun a => Alike forget₁ a same₁)
    (isSecond : numbered.holds second fun b => Alike forget₂ b same₂)
    (isThird : numbered.holds third fun c => Alike forget₃ c same₃)
    (isFourth : numbered.holds fourth fun d => Alike forget₄ d same₄)
    (splits : ∀ site a b c d, forget site (build a b c d) =
      rebuild (forget₁ site a) (forget₂ site b) (forget₃ site c) (forget₄ site d)) :
    numbered.holds (first >>= fun a => second >>= fun b => third >>= fun c => fourth >>= fun d =>
        Pure.pure (build a b c d))
      fun e => Alike forget e (build same₁ same₂ same₃ same₄) :=
  numbered.bind isFirst fun _ a => numbered.bind isSecond fun _ b =>
    numbered.bind isThird fun _ c => numbered.bind isFourth fun _ d =>
      numbered.pure fun place other => by
        rw [splits, splits, a place other, b place other, c place other, d place other]

end Combinators

/-! ## Numbering

One theorem for each sort of syntax, along the recursion of the rebuild.
-/

abbrev Stmt.forgetPlaced (node : Stmt) (site : Site) (items : List Stmt) : Id Stmt :=
  (node.gather items).rebuild Rules.forget site
theorem ExprKind.forget_relabel {site : Site} {id : Nat} (kind : ExprKind) :
    (((kind.relabel id).rebuild Rules.forget site : Id ExprKind)).anonymous =
      (kind.rebuild Rules.forget site : Id ExprKind).anonymous := by
  cases kind <;> rfl

mutual

theorem Expr.rebuild_copied (site : Site) : (node : Expr) →
    numbered.holds (node.rebuild Rules.number site) fun copy =>
      Alike (Expr.rebuild Rules.forget) copy node
  | ⟨mark, kind⟩ =>
    numbered.bind (kind.rebuild_copied _) fun _ isKind _ _ _ =>
      congrArg (Expr.mk mark.span.mark)
        ((ExprKind.forget_relabel _).trans (congrArg ExprKind.anonymous (isKind _ _)))

theorem ExprKind.rebuild_copied (site : Site) : (kind : ExprKind) →
    numbered.holds (kind.rebuild Rules.number site) fun copy =>
      Alike (ExprKind.rebuild Rules.forget) copy kind
  | .literal _ | .ident _ | .self | .base | .typeRef _ | .memberBinding _
  | .defaultOf _ | .declaration .. | .discard => numbered.pure fun _ _ => rfl
  | .member inner name =>
    alike₁ (ExprKind.member · name) (inner.rebuild_copied site) fun _ _ => rfl
  | .typeTest inner _ =>
    alike₁ (ExprKind.typeTest · _) (inner.rebuild_copied site) fun _ _ => rfl
  | .fromEnd inner | .unary _ inner | .cast _ inner | .spread inner | .throw inner
  | .await inner | .out inner | .paren inner =>
    alike₁ _ (inner.rebuild_copied site) fun _ _ => rfl
  | .conditionalAccess left right | .binary _ left right | .assign _ left right =>
    alike₂ _ (left.rebuild_copied site) (right.rebuild_copied site) fun _ _ _ => rfl
  | .elementBinding items | .collection items | .tuple items =>
    alike₁ _ (rebuildExprs_copied items) fun _ _ => rfl
  | .call head args | .index head args =>
    alike₂ _ (head.rebuild_copied site) (rebuildExprs_copied args) fun _ _ _ => rfl
  | .range start stop =>
    alike₂ _ (rebuildExpr?_copied start) (rebuildExpr?_copied stop) fun _ _ _ => rfl
  | .conditional cond yes no =>
    alike₃ _ (cond.rebuild_copied site) (yes.rebuild_copied site)
      (no.rebuild_copied site) fun _ _ _ _ => rfl
  | .isPattern subject tested =>
    alike₂ _ (subject.rebuild_copied site) (tested.rebuild_copied site) fun _ _ _ => rfl
  | .seq effects value =>
    alike₂ _ (rebuildExprs_copied effects) (value.rebuild_copied site) fun _ _ _ => rfl
  | .lambda label params isAsync body =>
    alike₂ (ExprKind.lambda label · isAsync ·) (rebuildParams_copied params)
      (body.rebuild_copied site) fun _ _ _ => rfl
  | .create _ args inits =>
    alike₂ _ (rebuildExprs_copied args) (rebuildInits_copied inits) fun _ _ _ => rfl
  | .copyWith receiver inits =>
    alike₂ _ (receiver.rebuild_copied site) (rebuildInits_copied inits) fun _ _ _ => rfl
  | .switch subject arms =>
    alike₂ _ (subject.rebuild_copied site) (rebuildArms_copied arms) fun _ _ _ => rfl
  | .interpolated parts => alike₁ _ (rebuildParts_copied parts) fun _ _ => rfl

theorem Stmt.rebuildMany_copied {site : Site} : (node : Stmt) →
    numbered.holds (node.rebuildMany Rules.number site) fun items =>
      ∃ copy, items = [copy] ∧ Alike (Stmt.rebuild Rules.forget) copy node
  | ⟨mark, kind⟩ =>
    numbered.bind (kind.rebuild_copied _) fun _ isKind _ =>
      ⟨_, rfl, fun _ _ => congrArg (Stmt.mk mark.span.mark) (isKind _ _)⟩

theorem StmtKind.rebuild_copied (site : Site) : (kind : StmtKind) →
    numbered.holds (kind.rebuild Rules.number site) fun copy =>
      Alike (StmtKind.rebuild Rules.forget) copy kind
  | .block body => alike₁ _ (rebuildStmts_copied body) fun _ _ => rfl
  | .eval value => alike₁ _ (value.rebuild_copied site) fun _ _ => rfl
  | .declare _ _ value | .ret value | .throw value =>
    alike₁ _ (rebuildExpr?_copied value) fun _ _ => rfl
  | .ifElse cond yes no =>
    alike₃ _ (cond.rebuild_copied site) (Stmt.rebuildPlaced_copied yes)
      (rebuildStmt?_copied no) fun _ _ _ _ => rfl
  | .whileLoop cond body =>
    alike₂ _ (cond.rebuild_copied site) (Stmt.rebuildPlaced_copied body) fun _ _ _ => rfl
  | .forLoop init cond step body =>
    alike₄ _ (rebuildEachStmt_copied init) (rebuildExpr?_copied cond)
      (rebuildExprs_copied step) (Stmt.rebuildPlaced_copied body) fun _ _ _ _ _ => rfl
  | .forEach _ _ iterable body =>
    alike₂ _ (iterable.rebuild_copied site) (Stmt.rebuildPlaced_copied body) fun _ _ _ => rfl
  | .switch subject sections =>
    alike₂ _ (subject.rebuild_copied site) (rebuildSections_copied sections) fun _ _ _ => rfl
  | .localFunction name typeParams params ret body =>
    alike₂ (StmtKind.localFunction name typeParams · ret ·)
      (rebuildParams_copied params) (body.rebuild_copied site) fun _ _ _ => rfl
  | .breakLoop | .continueLoop | .empty => numbered.pure fun _ _ => rfl

theorem Stmt.rebuildPlaced_copied {site : Site} : (node : Stmt) →
    numbered.holds (node.rebuildMany Rules.number site) fun items =>
      Alike node.forgetPlaced items [node]
  | ⟨mark, kind⟩ =>
    numbered.bind (kind.rebuild_copied _) fun _ isKind _ _ _ =>
      congrArg (Stmt.mk mark.span.mark) (isKind _ _)

theorem Pattern.rebuild_copied (site : Site) : (node : Pattern) →
    numbered.holds (node.rebuild Rules.number site) fun copy =>
      Alike (Pattern.rebuild Rules.forget) copy node
  | ⟨mark, kind⟩ =>
    numbered.bind (kind.rebuild_copied _) fun _ isKind _ _ _ =>
      congrArg (Pattern.mk mark.span.mark) (isKind _ _)

theorem PatternKind.rebuild_copied (site : Site) : (kind : PatternKind) →
    numbered.holds (kind.rebuild Rules.number site) fun copy =>
      Alike (PatternKind.rebuild Rules.forget) copy kind
  | .constant value | .relational _ value =>
    alike₁ _ (value.rebuild_copied site) fun _ _ => rfl
  | .recursive type positional properties designation =>
    alike₂ (PatternKind.recursive type · · designation)
      (rebuildPatterns_copied positional) (rebuildProperties_copied properties)
      fun _ _ _ => rfl
  | .list elements designation =>
    alike₁ (PatternKind.list · designation) (rebuildPatterns_copied elements) fun _ _ => rfl
  | .slice (some inner) =>
    alike₁ (fun copy => PatternKind.slice (some copy)) (inner.rebuild_copied site) fun _ _ => rfl
  | .not inner | .paren inner => alike₁ _ (inner.rebuild_copied site) fun _ _ => rfl
  | .and left right | .or left right =>
    alike₂ _ (left.rebuild_copied site) (right.rebuild_copied site) fun _ _ _ => rfl
  | .slice none | .declaration .. | .var _ | .type _ | .discard => numbered.pure fun _ _ => rfl

theorem rebuildExprs_copied {site : Site} : (nodes : List Expr) →
    numbered.holds (rebuildExprs Rules.number site nodes) fun copies =>
      Alike (rebuildExprs Rules.forget) copies nodes
  | [] => numbered.pure fun _ _ => rfl
  | node :: rest =>
    alike₂ _ (node.rebuild_copied site) (rebuildExprs_copied rest) fun _ _ _ => rfl

theorem rebuildExpr?_copied {site : Site} : (node : Option Expr) →
    numbered.holds (rebuildExpr? Rules.number site node) fun copy =>
      Alike (rebuildExpr? Rules.forget) copy node
  | none => numbered.pure fun _ _ => rfl
  | some node => alike₁ _ (node.rebuild_copied site) fun _ _ => rfl

theorem rebuildStmts_copied {site : Site} : (nodes : List Stmt) →
    numbered.holds (rebuildStmts Rules.number site nodes) fun copies =>
      Alike (rebuildStmts Rules.forget) copies nodes
  | [] => numbered.pure fun _ _ => rfl
  | node :: rest =>
    numbered.bind node.rebuildMany_copied fun _ ⟨_, single, isNode⟩ =>
      numbered.bind (rebuildStmts_copied rest) fun _ others =>
        numbered.pure fun place other => by
          rw [single, List.singleton_append, rebuildStmts_cons, rebuildStmts_cons,
            isNode place other, others place other]

theorem rebuildEachStmt_copied {site : Site} : (nodes : List Stmt) →
    numbered.holds (rebuildEachStmt Rules.number site nodes) fun copies =>
      Alike (rebuildEachStmt Rules.forget) copies nodes
  | [] => numbered.pure fun _ _ => rfl
  | node :: rest =>
    alike₂ _ (Stmt.rebuildPlaced_copied node) (rebuildEachStmt_copied rest) fun _ _ _ => rfl

theorem rebuildStmt?_copied {site : Site} : (node : Option Stmt) →
    numbered.holds (rebuildStmt? Rules.number site node) fun copy =>
      Alike (rebuildStmt? Rules.forget) copy node
  | none => numbered.pure fun _ _ => rfl
  | some node => alike₁ _ (Stmt.rebuildPlaced_copied node) fun _ _ => rfl

theorem rebuildPatterns_copied {site : Site} : (nodes : List Pattern) →
    numbered.holds (rebuildPatterns Rules.number site nodes) fun copies =>
      Alike (rebuildPatterns Rules.forget) copies nodes
  | [] => numbered.pure fun _ _ => rfl
  | node :: rest =>
    alike₂ _ (node.rebuild_copied site) (rebuildPatterns_copied rest) fun _ _ _ => rfl

theorem rebuildProperties_copied {site : Site} : (properties : List PropertyPattern) →
    numbered.holds (rebuildProperties Rules.number site properties) fun copies =>
      Alike (rebuildProperties Rules.forget) copies properties
  | [] => numbered.pure fun _ _ => rfl
  | ⟨path, inner⟩ :: rest =>
    alike₂ (fun copy others => PropertyPattern.mk path copy :: others)
      (inner.rebuild_copied site) (rebuildProperties_copied rest) fun _ _ _ => rfl

theorem rebuildParams_copied {site : Site} : (params : List Param) →
    numbered.holds (rebuildParams Rules.number site params) fun copies =>
      Alike (rebuildParams Rules.forget) copies params
  | [] => numbered.pure fun _ _ => rfl
  | ⟨type, name, passing, default⟩ :: rest =>
    alike₂ (fun copy others => Param.mk type name passing copy :: others)
      (rebuildExpr?_copied default) (rebuildParams_copied rest) fun _ _ _ => rfl

theorem LambdaBody.rebuild_copied (site : Site) : (body : LambdaBody) →
    numbered.holds (body.rebuild Rules.number site) fun copy =>
      Alike (LambdaBody.rebuild Rules.forget) copy body
  | .expr value => alike₁ _ (value.rebuild_copied site) fun _ _ => rfl
  | .block body => alike₁ _ (Stmt.rebuildPlaced_copied body) fun _ _ => rfl

theorem Body.rebuild_copied (site : Site) : (body : Body) →
    numbered.holds (body.rebuild Rules.number site) fun copy =>
      Alike (Body.rebuild Rules.forget) copy body
  | .none => numbered.pure fun _ _ => rfl
  | .expr value => alike₁ _ (value.rebuild_copied site) fun _ _ => rfl
  | .block body => alike₁ _ (Stmt.rebuildPlaced_copied body) fun _ _ => rfl

theorem rebuildInits_copied {site : Site} : (inits : List FieldInit) →
    numbered.holds (rebuildInits Rules.number site inits) fun copies =>
      Alike (rebuildInits Rules.forget) copies inits
  | [] => numbered.pure fun _ _ => rfl
  | ⟨name, value⟩ :: rest =>
    alike₂ (fun copy others => FieldInit.mk name copy :: others)
      (value.rebuild_copied site) (rebuildInits_copied rest) fun _ _ _ => rfl

theorem rebuildArms_copied {site : Site} : (arms : List Arm) →
    numbered.holds (rebuildArms Rules.number site arms) fun copies =>
      Alike (rebuildArms Rules.forget) copies arms
  | [] => numbered.pure fun _ _ => rfl
  | ⟨span, tested, guard, result⟩ :: rest =>
    alike₄ (fun copy guard result others => Arm.mk span copy guard result :: others)
      (tested.rebuild_copied site) (rebuildExpr?_copied guard) (result.rebuild_copied site)
      (rebuildArms_copied rest) fun _ _ _ _ _ => rfl

theorem rebuildParts_copied {site : Site} : (parts : List Part) →
    numbered.holds (rebuildParts Rules.number site parts) fun copies =>
      Alike (rebuildParts Rules.forget) copies parts
  | [] => numbered.pure fun _ _ => rfl
  | .text _ :: rest => alike₁ _ (rebuildParts_copied rest) fun _ _ => rfl
  | .hole value alignment format :: rest =>
    alike₃ (fun copy aligned others => Part.hole copy aligned format :: others)
      (value.rebuild_copied site) (rebuildExpr?_copied alignment)
      (rebuildParts_copied rest) fun _ _ _ _ => rfl

theorem rebuildSections_copied {site : Site} : (sections : List Section) →
    numbered.holds (rebuildSections Rules.number site sections) fun copies =>
      Alike (rebuildSections Rules.forget) copies sections
  | [] => numbered.pure fun _ _ => rfl
  | ⟨labels, body⟩ :: rest =>
    alike₃ (fun labels body others => Section.mk labels body :: others)
      (rebuildLabels_copied labels) (rebuildStmts_copied body)
      (rebuildSections_copied rest) fun _ _ _ _ => rfl

theorem rebuildLabels_copied {site : Site} : (labels : List Label) →
    numbered.holds (rebuildLabels Rules.number site labels) fun copies =>
      Alike (rebuildLabels Rules.forget) copies labels
  | [] => numbered.pure fun _ _ => rfl
  | .default :: rest => alike₁ _ (rebuildLabels_copied rest) fun _ _ => rfl
  | .case tested guard :: rest =>
    alike₃ (fun copy guard others => Label.case copy guard :: others)
      (tested.rebuild_copied site) (rebuildExpr?_copied guard)
      (rebuildLabels_copied rest) fun _ _ _ _ => rfl

end

/-! ## Identities -/

def reachables (nodes : List Node) : List Node := nodes.flatMap (Node.reachable true)

@[simp] theorem reachables_nil : reachables [] = [] := rfl

@[simp] theorem reachables_append {left right : List Node} :
    reachables (left ++ right) = reachables left ++ reachables right := List.flatMap_append

theorem reachables_node {node : Node} : reachables [node] = node :: reachables node.children := by
  rw [reachables, List.flatMap_singleton, node.reachable_eq, reachables]

/-- A lambda goes by the identity of the expression that holds it. -/
def Node.ownsLambda : Node → Bool
  | .expr ⟨mark, .lambda label _ _ _⟩ => label == mark.id
  | _ => true

/-- Copies of nodes that take their numbers from one number on, and the first number that
    they leave. -/
structure NumberedAs (copies originals : List Node) (next after : Nat) : Prop where
  after : after = next + (reachables originals).length
  spans : (reachables copies).map Node.span = (reachables originals).map Node.span
  ids : ((reachables copies).map Node.id).Perm
    ((List.range' next (reachables originals).length).map some)
  lambdas : ∀ inner ∈ reachables copies, inner.ownsLambda = true

namespace NumberedAs

variable {copies originals : List Node} {next mid after : Nat}

theorem nil (next : Nat) : NumberedAs [] [] next next where
  after := rfl
  spans := rfl
  ids := .nil
  lambdas := fun _ isIn => nomatch isIn

theorem append {otherCopies others : List Node} (first : NumberedAs copies originals next mid)
    (second : NumberedAs otherCopies others mid after) :
    NumberedAs (copies ++ otherCopies) (originals ++ others) next after where
  after := by rw [second.after, first.after, reachables_append, List.length_append, Nat.add_assoc]
  spans := by
    rw [reachables_append, reachables_append, List.map_append, List.map_append, first.spans,
      second.spans]
  ids := by
    have split : List.range' next (reachables (originals ++ others)).length =
        List.range' next (reachables originals).length ++
          List.range' mid (reachables others).length := by
      rw [reachables_append, List.length_append, first.after, List.range'_append_1]
    rw [split, List.map_append, reachables_append, List.map_append]
    exact first.ids.append second.ids
  lambdas := fun inner isIn => by
    rw [reachables_append, List.mem_append] at isIn
    exact isIn.elim (first.lambdas inner) (second.lambdas inner)

theorem node {copy original : Node}
    (children : NumberedAs copy.children original.children next after)
    (own : copy.id = some after) (same : copy.span = original.span)
    (lambda : copy.ownsLambda = true) : NumberedAs [copy] [original] next (after + 1) where
  after := by rw [reachables_node, List.length_cons, children.after, Nat.add_assoc]
  spans := by
    rw [reachables_node, reachables_node, List.map_cons, List.map_cons, same, children.spans]
  ids := by
    have split : List.range' next (reachables [original]).length =
        List.range' next (reachables original.children).length ++ [after] := by
      rw [reachables_node, List.length_cons, children.after, List.range'_1_concat]
    rw [split, List.map_append, reachables_node, List.map_cons, own]
    exact (children.ids.cons _).trans (List.perm_append_singleton _ _).symm
  lambdas := fun inner isIn => by
    rw [reachables_node, List.mem_cons] at isIn
    rcases isIn with rfl | isBelow
    · exact lambda
    · exact children.lambdas inner isBelow

end NumberedAs

theorem ExprKind.children_relabel (kind : ExprKind) {id : Nat} :
    (kind.relabel id).children = kind.children := by
  cases kind <;> rfl

theorem NumberedAs.expr {kind : ExprKind} {original : Expr} {next after : Nat}
    (children : NumberedAs kind.children original.kind.children next after) :
    NumberedAs [.expr ⟨⟨original.mark.span, some after⟩, kind.relabel after⟩] [.expr original] next
      (after + 1) := by
  rw [← kind.children_relabel] at children
  refine .node children rfl rfl ?_
  cases kind with
  | lambda => exact beq_self_eq_true (some after)
  | _ => rfl

def Rebuilding.numbering : Rebuilding Rules.number (Rules.keep : Rules Id) where
  holds view action _ same := ∀ next : Nat,
    NumberedAs (view (action.run next).1).nodes (view same).nodes next (action.run next).2
  pure {α view value} nothing next := by
    have empty : (view value).nodes = [] := by rw [Parts.nodes, nothing, List.map_nil]
    rw [StateT.run_pure]
    change NumberedAs (view value).nodes (view value).nodes next next
    rw [empty]
    exact .nil next
  both {α β γ view₁ view₂ view first second other₁ other₂ same₁ same₂} build isFirst isSecond
      splits next := by
    change NumberedAs (view (build _ _)).nodes _ next _
    rw [splits, splits, Parts.append_nodes, Parts.append_nodes]
    exact (isFirst next).append (isSecond _)
  expr site node isKind next := by
    have kind := isKind next
    rw [Content.placed_nodes, Content.placed_nodes] at kind ⊢
    exact .expr kind
  stmt site node {view} inPlace isKind next := by
    have kind := isKind next
    rw [Content.placed_nodes, Content.placed_nodes] at kind ⊢
    rcases inPlace with rfl | rfl <;> exact .node kind rfl rfl rfl
  pattern site node isKind next := by
    have kind := isKind next
    rw [Content.placed_nodes, Content.placed_nodes] at kind ⊢
    exact .node kind rfl rfl rfl

theorem Node.copy_numbered (node : Node) (next : Nat) :
    NumberedAs [(node.copy.run next).1] [node] next (node.copy.run next).2 := by
  cases node with
  | expr node =>
    have isNumbered := node.rebuild_along Rebuilding.numbering .detached next
    rwa [Content.placed_nodes, Content.placed_nodes] at isNumbered
  | stmt node =>
    have isNumbered := node.rebuildMany_along Rebuilding.numbering .detached (.inr rfl) next
    rwa [Content.placed_nodes, Content.placed_nodes] at isNumbered
  | pattern node =>
    have isNumbered := node.rebuild_along Rebuilding.numbering .detached next
    rwa [Content.placed_nodes, Content.placed_nodes] at isNumbered

theorem Node.copy_forget (node : Node) (next : Nat) :
    (node.copy.run next).1.forget = node.forget := by
  cases node with
  | expr node => exact congrArg Node.expr (node.rebuild_copied .detached next _ _)
  | stmt node => exact congrArg Node.stmt (node.rebuildPlaced_copied next _ _)
  | pattern node => exact congrArg Node.pattern (node.rebuild_copied .detached next _ _)

/-! ## A copy beside a tree -/

/-- Nodes that all have identities of their own, below the first that is not used. -/
structure Allocated (nodes : List Node) (next : Nat) : Prop where
  isBelow : ∀ inner ∈ reachables nodes, ∃ id < next, inner.id = some id
  distinct : ((reachables nodes).map Node.id).Nodup

def standing (id : Nat) (nodes : List Node) : List Node :=
  (reachables nodes).filter fun inner => inner.id == some id

namespace NumberedAs

variable {copies originals : List Node} {next after : Nat}
  (numbered : NumberedAs copies originals next after)

include numbered

theorem fresh {inner : Node} (isIn : inner ∈ reachables copies) :
    ∃ id, next ≤ id ∧ id < after ∧ inner.id = some id := by
  have isId := numbered.ids.mem_iff.mp (List.mem_map_of_mem isIn)
  obtain ⟨id, inRange, own⟩ := List.mem_map.mp isId
  rw [List.mem_range'_1, ← numbered.after] at inRange
  exact ⟨id, inRange.1, inRange.2, own.symm⟩

theorem distinct : ((reachables copies).map Node.id).Nodup :=
  numbered.ids.nodup_iff.mpr (.map (fun _ _ => Option.some.inj) List.nodup_range')

theorem allocated : Allocated copies after where
  isBelow := fun _ isIn => by
    obtain ⟨own, -, isBelow, same⟩ := numbered.fresh isIn
    exact ⟨own, isBelow, same⟩
  distinct := numbered.distinct

theorem le : next ≤ after := by
  rw [numbered.after]
  exact Nat.le_add_right ..

theorem beside {tree : List Node} (isTree : Allocated tree next) :
    Allocated (tree ++ copies) after where
  isBelow := fun inner isIn => by
    rw [reachables_append, List.mem_append] at isIn
    rcases isIn with inTree | inCopies
    · obtain ⟨id, isBelow, own⟩ := isTree.isBelow inner inTree
      exact ⟨id, Nat.lt_of_lt_of_le isBelow numbered.le, own⟩
    · exact numbered.allocated.isBelow inner inCopies
  distinct := by
    rw [reachables_append, List.map_append]
    refine isTree.distinct.append numbered.distinct fun id inTree inCopies => ?_
    obtain ⟨old, isOld, rfl⟩ := List.mem_map.mp inTree
    obtain ⟨new, isNew, same⟩ := List.mem_map.mp inCopies
    obtain ⟨oldId, isBelow, ownOld⟩ := isTree.isBelow old isOld
    obtain ⟨newId, isAbove, -, ownNew⟩ := numbered.fresh isNew
    rw [ownOld, ownNew, Option.some_inj] at same
    omega

theorem standing_append {id : Nat} (isOld : id < next) (tree : List Node) :
    standing id (tree ++ copies) = standing id tree := by
  have none : standing id copies = [] := List.filter_eq_nil_iff.mpr fun inner isIn same => by
    obtain ⟨other, isAbove, -, own⟩ := numbered.fresh isIn
    rw [own, beq_iff_eq, Option.some_inj] at same
    omega
  rw [standing, reachables_append, List.filter_append]
  exact (congrArg (_ ++ ·) none).trans (List.append_nil _)

end NumberedAs

theorem CompilationUnit.number_allocated (unit : CompilationUnit) :
    Allocated unit.number.1.roots unit.number.2 := by
  have numbered := unit.rebuild_along Rebuilding.numbering 0
  rw [CompilationUnit.parts_nodes, CompilationUnit.parts_nodes] at numbered
  exact numbered.allocated

/-- What a copy of a node is to the tree it is made beside: `next` is the first identity
    that the tree leaves, `after` the first that is left after the copy. -/
structure Node.IsCopy (tree : List Node) (node copy : Node) (next after : Nat) : Prop where
  fresh : ∀ inner ∈ copy.reachable true, ∃ id, next ≤ id ∧ id < after ∧ inner.id = some id
  distinct : ((copy.reachable true).map Node.id).Nodup
  lambdas : ∀ inner ∈ copy.reachable true, inner.ownsLambda = true
  exact : after = next + (node.reachable true).length
  spans : (copy.reachable true).map Node.span = (node.reachable true).map Node.span
  /-- Structure, names, type syntax and spans are those of the node: without identities, as
      passes copy, both have the same copy. -/
  same : copy.forget = node.forget
  text : copy.text = node.text
  /-- What stood under an identity still does, with all that it consists of. -/
  kept : ∀ id < next, standing id (tree ++ [copy]) = standing id tree
  allocated : Allocated (tree ++ [copy]) after

theorem reachables_singleton (node : Node) : reachables [node] = node.reachable true :=
  List.flatMap_singleton ..

/-- A copy of a node is fresh and faithful, and leaves the tree beside it alone. -/
theorem Node.copy_isCopy {tree : List Node} {next : Nat} (isTree : Allocated tree next)
    (node : Node) : node.IsCopy tree (node.copy.run next).1 next (node.copy.run next).2 := by
  have numbered := node.copy_numbered next
  have same := node.copy_forget next
  have only := reachables_singleton
  exact {
    fresh := fun inner isIn => numbered.fresh ((only _).symm ▸ isIn)
    distinct := only _ ▸ numbered.distinct
    lambdas := fun inner isIn => numbered.lambdas inner ((only _).symm ▸ isIn)
    exact := only node ▸ numbered.after
    spans := only _ ▸ only node ▸ numbered.spans
    same
    text := by rw [← Node.text_forget, same, Node.text_forget]
    kept := fun id isOld => numbered.standing_append isOld tree
    allocated := numbered.beside isTree }

def doubling (span : Span) : Node :=
  .expr (span.expr (.lambda none [⟨.absent, "x", .byValue, none⟩] false
    (.expr (span.binary .add (span.ident "x") (span.ident "x")))))

theorem Node.copy_isCopy_doubling :
    Allocated [((doubling default).copy.run 0).1] 4 ∧
      Node.IsCopy [((doubling default).copy.run 0).1] ((doubling default).copy.run 0).1
        (((doubling default).copy.run 0).1.copy.run 4).1 4 8 :=
  have isTree : Allocated [((doubling default).copy.run 0).1] 4 :=
    ((doubling default).copy_numbered 0).allocated
  ⟨isTree, Node.copy_isCopy isTree _⟩

end Unsugar
