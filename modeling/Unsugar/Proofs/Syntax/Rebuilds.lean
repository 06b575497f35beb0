import Unsugar.Proofs.Syntax.LocalRules

namespace Unsugar

/-! # What follows the syntax in a rebuild

What a rebuild does to a piece of syntax is put together from what it does to the
nodes of the piece.  The induction over syntax is made once here, for any property
of two rebuilds of the same syntax that is known at every node and survives where
two parts become a whole.
-/

open Node

/-! ## Parts -/

/-- The nodes that a piece of syntax is made of, and the spans that it carries beside
    them. -/
structure Content where
  nodes : List Node
  spans : List Span

structure Parts where
  places : List (Site × Node)
  spans : List Span

instance : Append Content :=
  ⟨fun left right => ⟨left.nodes ++ right.nodes, left.spans ++ right.spans⟩⟩

instance : Append Parts :=
  ⟨fun left right => ⟨left.places ++ right.places, left.spans ++ right.spans⟩⟩

@[simp] theorem Parts.append_places (left right : Parts) :
    (left ++ right).places = left.places ++ right.places := rfl

@[simp] theorem Parts.append_spans (left right : Parts) :
    (left ++ right).spans = left.spans ++ right.spans := rfl

def Parts.nodes (parts : Parts) : List Node := parts.places.map Prod.snd

@[simp] theorem Parts.append_nodes (left right : Parts) :
    (left ++ right).nodes = left.nodes ++ right.nodes := List.map_append

def Content.of (nodes : List Node) : Content := ⟨nodes, []⟩

/-- The spans of arms. -/
@[simp] def ExprKind.armSpans : ExprKind → List Span
  | .switch _ arms => arms.map (·.span)
  | _ => []

def ExprKind.content (kind : ExprKind) : Content := ⟨kind.children, kind.armSpans⟩

def Content.placed (site : Site) (content : Content) : Parts :=
  ⟨content.nodes.map (Prod.mk site), content.spans⟩

@[simp] theorem Content.placed_nodes {site : Site} (content : Content) :
    (content.placed site).nodes = content.nodes := by
  simp [placed, Parts.nodes, Function.comp_def]

theorem Content.placed_append {site : Site} (left right : Content) :
    (left ++ right).placed site = left.placed site ++ right.placed site := by
  change Parts.mk _ _ = Parts.mk _ _
  exact congrArg (Parts.mk · _) List.map_append

def Content.ofArms (arms : List Arm) : Content := ⟨arms.flatMap ofArm, arms.map (·.span)⟩

/-! ## Properties of rebuilds -/

/-- A property of two rebuilds.  `holds view action other same` speaks of two actions
    that rebuild `same`; `view` says what their results consist of. -/
structure Rebuilding {m n : Type → Type} [Monad m] [Monad n] [LawfulMonad m] [LawfulMonad n]
    (rules : Rules m) (others : Rules n) where
  holds {α : Type} : (α → Parts) → m α → n α → α → Prop
  pure {α : Type} {view : α → Parts} {value : α} :
    (view value).places = [] → holds view (pure value) (pure value) value
  both {α β γ : Type} {view₁ : α → Parts} {view₂ : β → Parts} {view : γ → Parts} {first : m α}
    {second : m β} {other₁ : n α} {other₂ : n β} {same₁ : α} {same₂ : β} (build : α → β → γ) :
    holds view₁ first other₁ same₁ → holds view₂ second other₂ same₂ →
    (∀ a b, view (build a b) = view₁ a ++ view₂ b) →
      holds view (first >>= fun a => second >>= fun b => Pure.pure (build a b))
        (other₁ >>= fun a => other₂ >>= fun b => Pure.pure (build a b)) (build same₁ same₂)
  expr (site : Site) (node : Expr) :
    holds (fun kind => kind.content.placed (site.below (.expr node)))
      (node.kind.rebuild rules (site.below (.expr node)))
      (node.kind.rebuild others (site.below (.expr node))) node.kind →
    holds (fun result => (Content.of [.expr result]).placed site)
      (node.kind.rebuild rules (site.below (.expr node)) >>= rules.expr site node)
      (node.kind.rebuild others (site.below (.expr node)) >>= others.expr site node) node
  stmt (site : Site) (node : Stmt) {view : List Stmt → Content}
    (inPlace : view = (fun items => .of (ofStmts items)) ∨
      view = fun items => .of [.stmt (node.gather items)]) :
    holds (fun kind => (Content.of kind.children).placed (site.below (.stmt node)))
      (node.kind.rebuild rules (site.below (.stmt node)))
      (node.kind.rebuild others (site.below (.stmt node))) node.kind →
    holds (fun items => (view items).placed site)
      (node.kind.rebuild rules (site.below (.stmt node)) >>= rules.stmt site node)
      (node.kind.rebuild others (site.below (.stmt node)) >>= others.stmt site node) [node]
  pattern (site : Site) (node : Pattern) :
    holds (fun kind => (Content.of kind.children).placed (site.below (.pattern node)))
      (node.kind.rebuild rules (site.below (.pattern node)))
      (node.kind.rebuild others (site.below (.pattern node))) node.kind →
    holds (fun result => (Content.of [.pattern result]).placed site)
      (node.kind.rebuild rules (site.below (.pattern node)) >>= rules.pattern site node)
      (node.kind.rebuild others (site.below (.pattern node)) >>= others.pattern site node) node

namespace Rebuilding

variable {m n : Type → Type} [Monad m] [Monad n] [LawfulMonad m] [LawfulMonad n] {rules : Rules m}
  {others : Rules n} (along : Rebuilding rules others)

section Combinators

variable {α β γ δ ε : Type} {first : m α} {second : m β} {third : m γ} {fourth : m δ} {other₁ : n α}
  {other₂ : n β} {other₃ : n γ} {other₄ : n δ} {same₁ : α} {same₂ : β} {same₃ : γ} {same₄ : δ}

theorem beside (spans : List Span) {view : α → Parts}
    (isFirst : along.holds view first other₁ same₁) :
    along.holds (fun a => ⟨[], spans⟩ ++ view a) first other₁ same₁ := by
  have kept : along.holds (fun _ : Unit => ⟨[], spans⟩) (Pure.pure ()) (Pure.pure ()) () :=
    along.pure rfl
  simpa only [pure_bind, bind_pure] using along.both (fun _ a => a) kept isFirst fun _ _ => rfl

abbrev on (site : Site) (view : α → Content) (action : m α) (other : n α) (same : α) : Prop :=
  along.holds (fun value => (view value).placed site) action other same

variable {site : Site} {view₁ : α → Content} {view₂ : β → Content} {view₃ : γ → Content}
  {view₄ : δ → Content} {view : ε → Content}
  (isFirst : along.on site view₁ first other₁ same₁)

include isFirst

theorem one {build : α → ε} (same : ∀ a, view (build a) = view₁ a) :
    along.on site view (first >>= fun a => Pure.pure (build a))
      (other₁ >>= fun a => Pure.pure (build a)) (build same₁) := by
  have nothing : along.on site (fun _ : Unit => .of []) (Pure.pure ()) (Pure.pure ()) () :=
    along.pure rfl
  have whole : along.on site view _ _ _ := along.both (fun _ => build) nothing isFirst fun _ a =>
    congrArg (Content.placed site) (same a)
  simpa only [pure_bind] using whole

theorem two {build : α → β → ε} (isSecond : along.on site view₂ second other₂ same₂)
    (splits : ∀ a b, view (build a b) = view₁ a ++ view₂ b) :
    along.on site view (first >>= fun a => second >>= fun b => Pure.pure (build a b))
      (other₁ >>= fun a => other₂ >>= fun b => Pure.pure (build a b)) (build same₁ same₂) :=
  along.both build isFirst isSecond fun a b => by rw [splits, Content.placed_append]

theorem three {build : α → β → γ → ε} (isSecond : along.on site view₂ second other₂ same₂)
    (isThird : along.on site view₃ third other₃ same₃)
    (splits : ∀ a b c, view (build a b c) = view₁ a ++ (view₂ b ++ view₃ c)) :
    along.on site view
      (first >>= fun a => second >>= fun b => third >>= fun c => Pure.pure (build a b c))
      (other₁ >>= fun a => other₂ >>= fun b => other₃ >>= fun c => Pure.pure (build a b c))
      (build same₁ same₂ same₃) := by
  have rest : along.on site (fun pair => view₂ pair.1 ++ view₃ pair.2) _ _ (same₂, same₃) :=
    along.two isSecond isThird fun _ _ => rfl
  have whole : along.on site view _ _ _ :=
    along.both (fun a (pair : β × γ) => build a pair.1 pair.2) isFirst rest fun _ _ => by
      rw [splits, Content.placed_append]
  simpa only [bind_assoc, pure_bind] using whole

theorem four {build : α → β → γ → δ → ε} (isSecond : along.on site view₂ second other₂ same₂)
    (isThird : along.on site view₃ third other₃ same₃)
    (isFourth : along.on site view₄ fourth other₄ same₄)
    (splits : ∀ a b c d, view (build a b c d) = view₁ a ++ (view₂ b ++ (view₃ c ++ view₄ d))) :
    along.on site view
      (first >>= fun a => second >>= fun b => third >>= fun c => fourth >>= fun d =>
        Pure.pure (build a b c d))
      (other₁ >>= fun a => other₂ >>= fun b => other₃ >>= fun c => other₄ >>= fun d =>
        Pure.pure (build a b c d))
      (build same₁ same₂ same₃ same₄) := by
  have last : along.on site (fun pair => view₃ pair.1 ++ view₄ pair.2) _ _ (same₃, same₄) :=
    along.two isThird isFourth fun _ _ => rfl
  have rest : along.on site (fun trio => view₂ trio.1 ++ (view₃ trio.2.1 ++ view₄ trio.2.2)) _ _
      (same₂, same₃, same₄) := along.two isSecond last fun _ _ => rfl
  have whole : along.on site view _ _ _ :=
    along.both (fun a (trio : β × γ × δ) => build a trio.1 trio.2.1 trio.2.2) isFirst rest
      fun _ _ => by rw [splits, Content.placed_append]
  simpa only [bind_assoc, pure_bind] using whole

end Combinators

end Rebuilding

/-! ## Nodes

One theorem for each sort of syntax, along the recursion of the rebuild.
-/

section Rebuild

variable {m n : Type → Type} [Monad m] [Monad n] [LawfulMonad m] [LawfulMonad n] {rules : Rules m}
  {others : Rules n} (along : Rebuilding rules others)

mutual

theorem Expr.rebuild_along (site : Site) :
    (node : Expr) → along.on site (fun result => .of [expr result]) (node.rebuild rules site)
      (node.rebuild others site) node
  | ⟨mark, kind⟩ => along.expr site ⟨mark, kind⟩ (kind.rebuild_along _)

theorem ExprKind.rebuild_along (site : Site) :
    (kind : ExprKind) → along.on site ExprKind.content (kind.rebuild rules site)
      (kind.rebuild others site) kind
  | .literal _ | .ident _ | .self | .base | .typeRef _ | .memberBinding _
  | .defaultOf _ | .declaration .. | .discard => along.pure rfl
  | .member inner _ | .fromEnd inner | .unary _ inner | .typeTest inner _
  | .cast _ inner | .spread inner | .throw inner | .await inner | .out inner
  | .paren inner => along.one (inner.rebuild_along site) fun _ => rfl
  | .conditionalAccess left right | .binary _ left right | .assign _ left right =>
    along.two (left.rebuild_along site) (right.rebuild_along site) fun _ _ => rfl
  | .elementBinding items | .collection items | .tuple items =>
    along.one (rebuildExprs_along site items) fun _ => rfl
  | .call head args | .index head args =>
    along.two (head.rebuild_along site) (rebuildExprs_along site args) fun _ _ => rfl
  | .range start stop =>
    along.two (rebuildExpr?_along site start) (rebuildExpr?_along site stop) fun _ _ => rfl
  | .conditional cond yes no =>
    along.three (cond.rebuild_along site) (yes.rebuild_along site)
      (no.rebuild_along site) fun _ _ _ => rfl
  | .isPattern subject tested =>
    along.two (subject.rebuild_along site) (tested.rebuild_along site) fun _ _ => rfl
  | .seq effects value =>
    along.two (rebuildExprs_along site effects) (value.rebuild_along site) fun _ _ => rfl
  | .lambda _ params _ body =>
    along.two (rebuildParams_along site params) (body.rebuild_along site) fun _ _ => rfl
  | .create _ args inits =>
    along.two (rebuildExprs_along site args) (rebuildInits_along site inits) fun _ _ => rfl
  | .copyWith receiver inits =>
    along.two (receiver.rebuild_along site) (rebuildInits_along site inits) fun _ _ => rfl
  | .switch subject arms =>
    along.two (subject.rebuild_along site) (rebuildArms_along site arms) fun _ _ => rfl
  | .interpolated parts => along.one (rebuildParts_along site parts) fun _ => rfl

theorem Stmt.rebuildMany_along (site : Site) {view : List Stmt → Content} : (node : Stmt) →
      (view = (fun items => .of (ofStmts items)) ∨
        view = fun items => .of [stmt (node.gather items)]) →
      along.on site view (node.rebuildMany rules site) (node.rebuildMany others site) [node]
  | ⟨mark, kind⟩, inPlace => along.stmt site ⟨mark, kind⟩ inPlace (kind.rebuild_along _)

theorem StmtKind.rebuild_along (site : Site) :
    (kind : StmtKind) → along.on site (fun result => .of result.children)
      (kind.rebuild rules site) (kind.rebuild others site) kind
  | .block body => along.one (rebuildStmts_along site body) fun _ => rfl
  | .eval value => along.one (value.rebuild_along site) fun _ => rfl
  | .declare _ _ value | .ret value | .throw value =>
    along.one (rebuildExpr?_along site value) fun _ => rfl
  | .ifElse cond yes no =>
    along.three (cond.rebuild_along site) (yes.rebuildMany_along site (.inr rfl))
      (rebuildStmt?_along site no) fun _ _ _ => rfl
  | .whileLoop cond body =>
    along.two (cond.rebuild_along site) (body.rebuildMany_along site (.inr rfl)) fun _ _ => rfl
  | .forLoop init cond step body =>
    along.four (rebuildEachStmt_along site init) (rebuildExpr?_along site cond)
      (rebuildExprs_along site step) (body.rebuildMany_along site (.inr rfl))
      fun _ _ _ _ => congrArg Content.of (by
        simp only [StmtKind.children, List.append_assoc]
        rfl)
  | .forEach _ _ iterable body =>
    along.two (iterable.rebuild_along site) (body.rebuildMany_along site (.inr rfl)) fun _ _ => rfl
  | .switch subject sections =>
    along.two (subject.rebuild_along site) (rebuildSections_along site sections) fun _ _ => rfl
  | .localFunction _ _ params _ body =>
    along.two (rebuildParams_along site params) (body.rebuild_along site) fun _ _ => rfl
  | .breakLoop | .continueLoop | .empty => along.pure rfl

theorem Pattern.rebuild_along (site : Site) :
    (node : Pattern) → along.on site (fun result => .of [pattern result])
      (node.rebuild rules site) (node.rebuild others site) node
  | ⟨mark, kind⟩ => along.pattern site ⟨mark, kind⟩ (kind.rebuild_along _)

theorem PatternKind.rebuild_along (site : Site) :
    (kind : PatternKind) → along.on site (fun result => .of result.children)
      (kind.rebuild rules site) (kind.rebuild others site) kind
  | .constant value | .relational _ value =>
    along.one (value.rebuild_along site) fun _ => rfl
  | .recursive _ positional properties _ =>
    along.two (rebuildPatterns_along site positional)
      (rebuildProperties_along site properties) fun _ _ => rfl
  | .list elements _ => along.one (rebuildPatterns_along site elements) fun _ => rfl
  | .slice (some inner) | .not inner | .paren inner =>
    along.one (inner.rebuild_along site) fun _ => rfl
  | .and left right | .or left right =>
    along.two (left.rebuild_along site) (right.rebuild_along site) fun _ _ => rfl
  | .slice none | .declaration .. | .var _ | .type _ | .discard => along.pure rfl

theorem rebuildExprs_along (site : Site) :
    (nodes : List Expr) → along.on site (fun results => .of (ofExprs results))
      (rebuildExprs rules site nodes) (rebuildExprs others site nodes) nodes
  | [] => along.pure rfl
  | node :: rest =>
    along.two (node.rebuild_along site) (rebuildExprs_along site rest) fun _ _ => rfl

theorem rebuildExpr?_along (site : Site) :
    (node : Option Expr) → along.on site (fun result => .of (ofExpr? result))
      (rebuildExpr? rules site node) (rebuildExpr? others site node) node
  | none => along.pure rfl
  | some node => along.one (node.rebuild_along site) fun _ => rfl

theorem rebuildStmts_along (site : Site) :
    (nodes : List Stmt) → along.on site (fun results => .of (ofStmts results))
      (rebuildStmts rules site nodes) (rebuildStmts others site nodes) nodes
  | [] => along.pure rfl
  | node :: rest =>
    along.two (node.rebuildMany_along site (.inl rfl)) (rebuildStmts_along site rest)
      fun _ _ => congrArg Content.of List.map_append

theorem rebuildEachStmt_along (site : Site) :
    (nodes : List Stmt) → along.on site (fun results => .of (ofStmts results))
      (rebuildEachStmt rules site nodes) (rebuildEachStmt others site nodes) nodes
  | [] => along.pure rfl
  | node :: rest =>
    along.two (node.rebuildMany_along site (.inr rfl))
      (rebuildEachStmt_along site rest) fun _ _ => rfl

theorem rebuildStmt?_along (site : Site) :
    (node : Option Stmt) → along.on site (fun result => .of (ofStmt? result))
      (rebuildStmt? rules site node) (rebuildStmt? others site node) node
  | none => along.pure rfl
  | some node => along.one (node.rebuildMany_along site (.inr rfl)) fun _ => rfl

theorem rebuildPatterns_along (site : Site) :
    (nodes : List Pattern) → along.on site (fun results => .of (results.map pattern))
      (rebuildPatterns rules site nodes) (rebuildPatterns others site nodes) nodes
  | [] => along.pure rfl
  | node :: rest =>
    along.two (node.rebuild_along site) (rebuildPatterns_along site rest) fun _ _ => rfl

theorem rebuildProperties_along (site : Site) : (properties : List PropertyPattern) →
      along.on site (fun results => .of (results.map fun property => pattern property.pattern))
        (rebuildProperties rules site properties) (rebuildProperties others site properties)
        properties
  | [] => along.pure rfl
  | ⟨_, inner⟩ :: rest =>
    along.two (inner.rebuild_along site) (rebuildProperties_along site rest) fun _ _ => rfl

theorem rebuildParams_along (site : Site) :
    (params : List Param) → along.on site (fun results => .of (ofParams results))
      (rebuildParams rules site params) (rebuildParams others site params) params
  | [] => along.pure rfl
  | ⟨_, _, _, default⟩ :: rest =>
    along.two (rebuildExpr?_along site default) (rebuildParams_along site rest) fun _ _ => rfl

theorem LambdaBody.rebuild_along (site : Site) :
    (body : LambdaBody) → along.on site (fun result => .of (ofLambdaBody result))
      (body.rebuild rules site) (body.rebuild others site) body
  | .expr value => along.one (value.rebuild_along site) fun _ => rfl
  | .block body => along.one (body.rebuildMany_along site (.inr rfl)) fun _ => rfl

theorem Body.rebuild_along (site : Site) :
    (body : Body) → along.on site (fun result => .of (ofBody result)) (body.rebuild rules site)
      (body.rebuild others site) body
  | .none => along.pure rfl
  | .expr value => along.one (value.rebuild_along site) fun _ => rfl
  | .block body => along.one (body.rebuildMany_along site (.inr rfl)) fun _ => rfl

theorem rebuildInits_along (site : Site) :
    (inits : List FieldInit) → along.on site (fun results => .of (ofInits results))
      (rebuildInits rules site inits) (rebuildInits others site inits) inits
  | [] => along.pure rfl
  | ⟨_, value⟩ :: rest =>
    along.two (value.rebuild_along site) (rebuildInits_along site rest) fun _ _ => rfl

theorem rebuildArms_along (site : Site) :
    (arms : List Arm) → along.on site Content.ofArms (rebuildArms rules site arms)
      (rebuildArms others site arms) arms
  | [] => along.pure rfl
  | ⟨span, tested, guard, result⟩ :: rest => by
    have isTested : along.on site (fun result => ⟨[pattern result], [span]⟩) _ _ _ :=
      along.beside [span] (tested.rebuild_along site)
    exact along.four isTested (rebuildExpr?_along site guard)
      (result.rebuild_along site) (rebuildArms_along site rest)
      fun _ _ _ _ => congrArg (Content.mk · _) (List.append_assoc ..)

theorem rebuildParts_along (site : Site) :
    (parts : List Part) → along.on site (fun results => .of (results.flatMap ofPart))
      (rebuildParts rules site parts) (rebuildParts others site parts) parts
  | [] => along.pure rfl
  | .text _ :: rest => along.one (rebuildParts_along site rest) fun _ => rfl
  | .hole value alignment _ :: rest =>
    along.three (value.rebuild_along site) (rebuildExpr?_along site alignment)
      (rebuildParts_along site rest) fun _ _ _ => rfl

theorem rebuildSections_along (site : Site) :
    (sections : List Section) → along.on site (fun results => .of (results.flatMap ofSection))
      (rebuildSections rules site sections) (rebuildSections others site sections) sections
  | [] => along.pure rfl
  | ⟨labels, body⟩ :: rest =>
    along.three (rebuildLabels_along site labels) (rebuildStmts_along site body)
      (rebuildSections_along site rest) fun _ _ _ =>
        congrArg Content.of (List.append_assoc ..)

theorem rebuildLabels_along (site : Site) :
    (labels : List Label) → along.on site (fun results => .of (results.flatMap ofLabel))
      (rebuildLabels rules site labels) (rebuildLabels others site labels) labels
  | [] => along.pure rfl
  | .default :: rest => along.one (rebuildLabels_along site rest) fun _ => rfl
  | .case tested guard :: rest =>
    along.three (tested.rebuild_along site) (rebuildExpr?_along site guard)
      (rebuildLabels_along site rest) fun _ _ _ => rfl

end

/-! ## Units -/

theorem rebuildBody?_along {site : Site} :
    (body : Option Body) → along.on site (fun result => .of ((result.map ofBody).getD []))
      (rebuildBody? rules site body) (rebuildBody? others site body) body
  | none => along.pure rfl
  | some body => along.one (body.rebuild_along along site) fun _ => rfl

theorem MemberKind.rebuild_along (site : Site) :
    (kind : MemberKind) → along.on site (fun result => .of result.roots)
      (kind.rebuild rules site) (kind.rebuild others site) kind
  | .field _ _ init => along.one (rebuildExpr?_along along site init) fun _ => rfl
  | .property _ _ getter setter init =>
    along.three (rebuildBody?_along along getter) (rebuildBody?_along along setter)
      (rebuildExpr?_along along site init) fun _ _ _ => congrArg Content.of (List.append_assoc ..)
  | .method _ _ params _ body | .operator _ params _ body =>
    along.two (rebuildParams_along along site params) (body.rebuild_along along site) fun _ _ => rfl
  | .ctor params none body =>
    along.two (rebuildParams_along along site params) (body.rebuild_along along site)
      fun _ _ => congrArg Content.of (List.append_assoc ..)
  | .ctor params (some ⟨_, args⟩) body =>
    along.three (rebuildParams_along along site params) (rebuildExprs_along along site args)
      (body.rebuild_along along site) fun _ _ _ => congrArg Content.of (List.append_assoc ..)

def memberParts (type index : Nat) (members : List Member) : Parts :=
  ⟨memberPlaces type index members, members.map (·.span)⟩

theorem rebuildMembers_along (type : Nat) :
    (index : Nat) → (members : List Member) → along.holds (memberParts type index)
      (rebuildMembers rules type index members) (rebuildMembers others type index members) members
  | _, [] => along.pure rfl
  | index, member :: rest => by
    have isFirst := along.beside [member.span]
      (member.kind.rebuild_along along ⟨.member type index, []⟩)
    have whole : along.holds (memberParts type index) _ _ _ :=
      along.both (fun kind others => { member with kind } :: others) isFirst
        (rebuildMembers_along type (index + 1) rest) fun _ _ => rfl
    exact whole

theorem rebuildOption_along (site : Site) {α : Type}
    {view : α → List Node} {action : α → m α} {other : α → n α}
    (each : ∀ value, along.on site (fun result => .of (view result)) (action value) (other value)
      value) : (part : Option α) →
      along.on site (fun result => .of ((result.map view).getD [])) (rebuildOption action part)
        (rebuildOption other part) part
  | none => along.pure rfl
  | some value => by
    rw [rebuildOption, rebuildOption, map_eq_pure_bind, map_eq_pure_bind]
    exact along.one (each value) fun _ => rfl

def TypeDecl.parts (type : Nat) (decl : TypeDecl) : Parts :=
  ⟨decl.headerRoots.map (Prod.mk ⟨.header type, []⟩) ++ memberPlaces type 0 decl.members,
    decl.span :: decl.members.map (·.span)⟩

theorem TypeDecl.rebuild_along (type : Nat) (decl : TypeDecl) :
    along.holds (TypeDecl.parts type) (decl.rebuild rules type) (decl.rebuild others type)
      decl := by
  have arePrimary := rebuildOption_along along ⟨.header type, []⟩ (rebuildParams_along along _)
    decl.primary
  have areArgs := rebuildOption_along along ⟨.header type, []⟩ (rebuildExprs_along along _)
    decl.baseArgs
  have header : along.on ⟨.header type, []⟩ (fun pair : Option (List Param) × Option (List Expr) =>
      .of ((pair.1.map ofParams).getD [] ++ (pair.2.map ofExprs).getD [])) _ _
      (decl.primary, decl.baseArgs) := along.two arePrimary areArgs fun _ _ => rfl
  have whole : along.holds (TypeDecl.parts type) _ _ _ :=
    along.both (fun pair members => { decl with primary := pair.1, baseArgs := pair.2, members })
      (along.beside [decl.span] header) (rebuildMembers_along along type 0 decl.members)
      fun _ _ => rfl
  rw [TypeDecl.rebuild_eq, TypeDecl.rebuild_eq]
  simpa only [bind_assoc, pure_bind] using whole

def typeParts (index : Nat) (types : List TypeDecl) : Parts :=
  ⟨typePlaces index types, types.flatMap fun decl => decl.span :: decl.members.map (·.span)⟩

theorem rebuildTypes_along : (index : Nat) → (types : List TypeDecl) → along.holds (typeParts index)
      (rebuildTypes rules index types) (rebuildTypes others index types) types
  | _, [] => along.pure rfl
  | index, decl :: rest =>
    along.both List.cons (decl.rebuild_along along index) (rebuildTypes_along (index + 1) rest)
      fun _ _ => rfl

def CompilationUnit.parts (unit : CompilationUnit) : Parts := typeParts 0 unit.types

theorem CompilationUnit.parts_nodes (unit : CompilationUnit) : unit.parts.nodes = unit.roots :=
  unit.places_roots

theorem CompilationUnit.rebuild_along (unit : CompilationUnit) :
    along.holds CompilationUnit.parts (unit.rebuild rules) (unit.rebuild others) unit := by
  have nothing : along.holds (fun _ : Unit => ⟨[], []⟩) (pure ()) (pure ()) () := along.pure rfl
  have whole : along.holds CompilationUnit.parts _ _ _ :=
    along.both (fun _ types => { unit with types }) nothing (rebuildTypes_along along 0 unit.types)
      fun _ _ => rfl
  rw [CompilationUnit.rebuild, CompilationUnit.rebuild]
  simpa only [pure_bind] using whole

end Rebuild

/-! ## What actions ensure -/

/-- A way to say what the actions of a monad ensure. -/
structure Contract (m : Type → Type) [Monad m] where
  holds {α : Type} : m α → (α → Prop) → Prop
  pure {α : Type} {post : α → Prop} {value : α} : post value → holds (pure value) post
  bind {α β : Type} {middle : α → Prop} {post : β → Prop} {action : m α} {next : α → m β} :
    holds action middle → (∀ value, middle value → holds (next value) post) →
      holds (action >>= next) post

namespace Contract

def pureValue : Contract Id where
  holds action post := post action
  pure isPost := isPost
  bind first rest := rest _ first

def stateValue (σ : Type) : Contract (StateM σ) where
  holds action post := ∀ state, post (action state).1
  pure isPost _ := isPost
  bind first rest state := rest _ (first state) _

variable {m : Type → Type} [Monad m] (contract : Contract m) {α β : Type} {middle : α → Prop}
  {post : β → Prop} {action : m α}

theorem map {build : α → β} (first : contract.holds action middle)
    (ensures : ∀ value, middle value → post (build value)) :
    contract.holds (action >>= fun value => Pure.pure (build value)) post :=
  contract.bind first fun value isMiddle => contract.pure (ensures value isMiddle)

end Contract

/-! ## Rebuilds that follow plain rules

A rebuild by rules that keep a state or can fail comes to what a plain rebuild comes
to, if that is so at every single node.
-/

section Follow

variable {m : Type → Type} [Monad m]

/-- A way to say which value an action comes to and whether it notes something. -/
structure Values (m : Type → Type) [Monad m] where
  yields {α : Type} : m α → α → Bool → Prop
  pure {α : Type} (value : α) : yields (pure value) value false
  bind {α β : Type} {action : m α} {next : α → m β} {value : α} {result : β} {noted others : Bool} :
    yields action value noted → yields (next value) result others →
      yields (action >>= next) result (noted || others)

theorem Values.yields.congr {α : Type} {values : Values m} {action : m α} {value : α}
    {noted others : Bool} (yields : values.yields action value noted) (same : others = noted) :
    values.yields action value others := same ▸ yields

structure Rules.Follow (rules : Rules m) (values : Values m) (plain : Rules Id)
    (noted : Node → Bool) : Prop where
  expr (site below : Site) (mark : Mark) (kind : ExprKind) :
    values.yields (rules.expr site ⟨mark, kind⟩ (kind.rebuild plain below : Id ExprKind))
      (plain.expr site ⟨mark, kind⟩ (kind.rebuild plain below : Id ExprKind))
      (noted (.expr ⟨mark, kind⟩))
  stmt (site below : Site) (mark : Mark) (kind : StmtKind) :
    values.yields (rules.stmt site ⟨mark, kind⟩ (kind.rebuild plain below : Id StmtKind))
      (plain.stmt site ⟨mark, kind⟩ (kind.rebuild plain below : Id StmtKind))
      (noted (.stmt ⟨mark, kind⟩))
  pattern (site below : Site) (mark : Mark) (kind : PatternKind) :
    values.yields (rules.pattern site ⟨mark, kind⟩ (kind.rebuild plain below : Id PatternKind))
      (plain.pattern site ⟨mark, kind⟩ (kind.rebuild plain below : Id PatternKind))
      (noted (.pattern ⟨mark, kind⟩))

variable [LawfulMonad m] {rules : Rules m} {values : Values m} {plain : Rules Id}
  {noted : Node → Bool}

def Rules.Follow.along (follow : rules.Follow values plain noted) : Rebuilding rules plain where
  holds view action other same :=
    values.yields action (other : Id _)
      ((view same).nodes.any fun node => (node.reachable true).any noted)
  pure {_ view value} isBare := by
    have none : (view value).nodes = [] := congrArg (List.map Prod.snd) isBare
    rw [none]
    exact values.pure value
  both {_ _ _ _ _ _ _ _ _ other₂ _ _} build isFirst isSecond splits := by
    refine (values.bind isFirst (values.bind isSecond (values.pure (build _ other₂)))).congr ?_
    rw [splits, Parts.append_nodes, List.any_append, Bool.or_false]
  expr site node isKind := by
    obtain ⟨mark, kind⟩ := node
    refine (values.bind isKind
      (follow.expr site (site.below (.expr ⟨mark, kind⟩)) mark kind)).congr ?_
    simp [Content.of, ExprKind.content, Node.reachable_eq (.expr _), Node.children, Bool.or_comm]
  stmt site node view inPlace isKind := by
    obtain ⟨mark, kind⟩ := node
    refine (values.bind isKind
      (follow.stmt site (site.below (.stmt ⟨mark, kind⟩)) mark kind)).congr ?_
    obtain rfl | rfl := inPlace <;>
      simp [Content.of, ofStmts, Stmt.gather, Node.reachable_eq (.stmt _), Node.children,
        Bool.or_comm]
  pattern site node isKind := by
    obtain ⟨mark, kind⟩ := node
    refine (values.bind isKind
      (follow.pattern site (site.below (.pattern ⟨mark, kind⟩)) mark kind)).congr ?_
    simp [Content.of, Node.reachable_eq (.pattern _), Node.children, Bool.or_comm]

theorem CompilationUnit.rebuild_follows (follow : rules.Follow values plain noted)
    (unit : CompilationUnit) :
    values.yields (unit.rebuild rules) (unit.rebuild plain : Id CompilationUnit)
      (unit.reachable.any noted) := by
  refine (unit.rebuild_along follow.along).congr ?_
  rw [unit.reachable_eq, List.any_flatMap, ← unit.parts_nodes]

end Follow

end Unsugar
