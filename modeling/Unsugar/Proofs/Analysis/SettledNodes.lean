import Unsugar.Proofs.Analysis.Lookups

open List

namespace Unsugar

/-! # Nodes that are settled

The analysis of a node takes down what every name below it resolves to, one construct
at a time.
-/

open Infer Node

variable {expected : Ty} {body : LambdaBody} {params : List Param} {op : Option BinaryOp}
  {target value : Expr} {name : String} {arity : Option Nat}

def Expr.inferTarget : Expr → Ty → Infer Unit
  | ⟨mark, .tuple nested⟩, component => do
    inferTargets nested (← componentsOf component)
    record mark component .unknown
  | node, component => do
    let _ ← match node.kind with
      | .declaration .. | .discard => node.infer component
      | _ => node.infer .unknown

theorem inferTargets_cons (node : Expr) (rest : List Expr) (components : List Ty) :
    inferTargets (node :: rest) components = (do
      node.inferTarget (components.headD .unknown)
      inferTargets rest components.tail) := by
  obtain ⟨mark, kind⟩ := node
  by_cases isTuple : ∃ nested, kind = .tuple nested
  · obtain ⟨nested, rfl⟩ := isTuple
    rw [inferTargets, Expr.inferTarget]
    simp only [bind_assoc]
  · have noTuple (other : Mark) (nested : List Expr) :
        Expr.mk mark kind = ⟨other, .tuple nested⟩ → False := by
      rintro ⟨⟩
      exact isTuple ⟨nested, rfl⟩
    rw [inferTargets, Expr.inferTarget]
    · cases kind <;> simp only [bind_assoc, pure_bind]
    all_goals exact noTuple

/-! ## Parts of nodes -/

structure Expr.Settling (id : Nat) (node : Expr) : Prop where
  infer (site : Site) (plain : node.id = some id → site.arity? (some id) = none) (expected : Ty) :
    Walks id site [expr node] (node.infer expected)
  target (site : Site) (plain : node.id = some id → site.arity? (some id) = none)
    (component : Ty) : Walks id site [expr node] (node.inferTarget component)
  callee (site : Site) (arity : Nat)
    (called : node.id = some id → site.arity? (some id) = some arity) :
    Walks id site [expr node] (node.inferCallee arity)

def Node.Settling (id : Nat) : Node → Prop
  | expr node => node.Settling id
  | stmt node => ∀ site, Walks id site [stmt node] node.infer
  | pattern node => ∀ site subject, Walks id site [pattern node] (node.infer subject)

section Parts

variable {id : Nat} {site : Site}
  {nodes : List Expr}

theorem inferEach_walks (settling : ∀ node ∈ ofExprs nodes, node.Settling id)
    (plain : ∀ node ∈ nodes, node.id = some id → site.arity? (some id) = none) (expected : List Ty) :
    Walks id site (ofExprs nodes) (inferEach nodes expected) := by
  induction nodes generalizing expected with
  | nil => exact (Idle.pure []).walks
  | cons node rest ih =>
    obtain ⟨isHead, areRest⟩ := forall_mem_cons.1 settling
    obtain ⟨headPlain, restPlain⟩ := forall_mem_cons.1 plain
    exact (isHead.infer site headPlain _).bind fun _ =>
      (ih areRest restPlain _).map _

variable (plain : site.arity? (some id) = none)

include plain

theorem inferOption_walks {node : Option Expr}
    (settling : ∀ child ∈ ofExpr? node, child.Settling id) (expected : Ty) :
    Walks id site (ofExpr? node) (inferOption node expected) := by
  cases node with
  | none => exact (Idle.pure ()).walks
  | some node =>
    exact (Expr.Settling.infer (settling _ mem_cons_self) site (fun _ => plain) _).map _

theorem inferTargets_walks (settling : ∀ node ∈ ofExprs nodes, node.Settling id)
    (components : List Ty) : Walks id site (ofExprs nodes) (inferTargets nodes components) := by
  induction nodes generalizing components with
  | nil => exact (Idle.pure ()).walks
  | cons node rest ih =>
    obtain ⟨isHead, areRest⟩ := forall_mem_cons.1 settling
    rw [inferTargets_cons]
    exact (isHead.target site (fun _ => plain) _).bind fun _ => ih areRest _

theorem inferInits_walks {inits : List FieldInit}
    (settling : ∀ node ∈ ofInits inits, node.Settling id) (type : Ty) :
    Walks id site (ofInits inits) (inferInits inits type) := by
  induction inits with
  | nil => exact (Idle.pure ()).walks
  | cons init rest ih =>
    obtain ⟨isHead, areRest⟩ := forall_mem_cons.1 settling
    obtain ⟨name, value⟩ := init
    exact .ask (Idle.memberType type name) fun expected =>
      (isHead.infer site (fun _ => plain) expected).bind fun _ => ih areRest

theorem inferItems_walks (settling : ∀ node ∈ ofExprs nodes, node.Settling id) :
    Walks id site (ofExprs nodes) (inferItems nodes expected) := by
  induction nodes with
  | nil => exact (Idle.pure none).walks
  | cons node rest ih =>
    obtain ⟨isHead, areRest⟩ := forall_mem_cons.1 settling
    have others (type : Ty) := (ih areRest).map fun first =>
      if type = .unknown ∨ type = .null then first else some type
    have item := Expr.Settling.infer isHead site fun _ => plain
    rw [inferItems]
    obtain ⟨mark, kind⟩ := node
    generalize inferItems rest expected = next at others ⊢
    cases kind with
    | spread value =>
      have element := Walks.ask Idle.types fun types =>
        (item .unknown).map fun type => types.elementOf type
      exact element.bind others
    | _ => exact (item expected).bind others

theorem inferParts_walks {parts : List Part}
    (settling : ∀ node ∈ parts.flatMap ofPart, node.Settling id) :
    Walks id site (parts.flatMap ofPart) (inferParts parts) := by
  induction parts with
  | nil => exact (Idle.pure ()).walks
  | cons part rest ih =>
    obtain ⟨arePart, areRest⟩ := forall_mem_append.1 settling
    have others := ih areRest
    cases part with
    | text text => exact others
    | hole value alignment format =>
      obtain ⟨isValue, isAlignment⟩ := forall_mem_cons.1 arePart
      rw [flatMap_cons, ofPart, cons_append]
      exact (isValue.infer site (fun _ => plain) _).bind fun _ =>
        (inferOption_walks plain isAlignment _).bind fun _ => others

theorem inferArms_walks {arms : List Arm}
    (settling : ∀ node ∈ arms.flatMap ofArm, node.Settling id) (subject expected : Ty)
    (seen : ArmTypes) :
    Walks id site (arms.flatMap ofArm) (inferArms arms subject expected seen) := by
  induction arms generalizing seen with
  | nil => exact (Idle.pure seen).walks
  | cons arm rest ih =>
    obtain ⟨areArm, areRest⟩ := forall_mem_append.1 settling
    obtain ⟨span, tested, guard, ⟨mark, kind⟩⟩ := arm
    obtain ⟨isTested, areOthers⟩ := forall_mem_cons.1 areArm
    obtain ⟨isGuard, isResult⟩ := forall_mem_append.1 areOthers
    have result := Expr.Settling.infer (isResult _ mem_cons_self) site fun _ => plain
    have inside := (isTested site subject).bind fun _ =>
      (inferOption_walks plain isGuard .bool).bind fun _ => result expected
    have others := ih areRest
    rw [flatMap_cons]
    refine inside.inScope.bind fun type => ?_
    generalize inferArms rest subject expected = next at others ⊢
    cases kind with
    | throw value => exact .ask (Idle.pure seen) others
    | _ => exact .ask (Idle.addArm seen type) others

/-- What a lambda was seen to return is known once its body has been analyzed. -/
theorem LambdaBody.infer_walks
    (settling : ∀ node ∈ ofLambdaBody body, node.Settling id) (result expected : Ty) :
    Walks id site (ofLambdaBody body) (inFunction result (body.infer expected)) := by
  cases body with
  | expr value =>
    have isValue : value.Settling id := settling _ mem_cons_self
    exact (isValue.infer site (fun _ => plain) (valueExpected expected)).inFunction result
  | block body =>
    obtain ⟨settles, steady⟩ : Walks id site [stmt body] body.infer :=
      settling _ mem_cons_self site
    refine ⟨Settles.inFunction result (fun env => InferEnv.finds_congr _ env rfl rfl rfl) settles,
      .inFunction result steady.outer steady.size steady.others fun isOwn env _ _ agree => ?_⟩
    have after := steady.agrees isOwn env agree
    exact ⟨congrArg (·.getD .void) (after.observed trivial), after⟩

theorem inferFunction_walks {body : Body} (settling : ∀ node ∈ ofBody body, node.Settling id)
    {result : Ty} : Walks id site (ofBody body) (body.inferFunction result) := by
  cases body with
  | none => exact (Idle.pure ()).walks
  | expr value =>
    have isValue : value.Settling id := settling _ mem_cons_self
    have inside := isValue.infer site (fun _ => plain) (valueExpected result)
    exact (inside.inFunction result).map _
  | block body =>
    have inside : Walks id site [stmt body] body.infer :=
      settling _ mem_cons_self site
    exact ((inside.map fun _ => Ty.void).inFunction result).map _

omit plain in
theorem inferStmts_walks {nodes : List Stmt} (settling : ∀ node ∈ ofStmts nodes, node.Settling id) :
    Walks id site (ofStmts nodes) (inferStmts nodes) := by
  induction nodes with
  | nil => exact (Idle.pure ()).walks
  | cons node rest ih =>
    obtain ⟨isHead, areRest⟩ := forall_mem_cons.1 settling
    exact (isHead site).bind fun _ => ih areRest

omit plain in
theorem inferBranch?_walks {node : Option Stmt}
    (settling : ∀ child ∈ ofStmt? node, child.Settling id) :
    Walks id site (ofStmt? node) (inferBranch? node) := by
  cases node with
  | none => exact (Idle.pure ()).walks
  | some node => exact Walks.inScope (settling _ mem_cons_self site)

theorem inferLabels_walks {labels : List Label}
    (settling : ∀ node ∈ labels.flatMap ofLabel, node.Settling id) (subject : Ty) :
    Walks id site (labels.flatMap ofLabel) (inferLabels labels subject) := by
  induction labels with
  | nil => exact (Idle.pure ()).walks
  | cons label rest ih =>
    obtain ⟨areLabel, areRest⟩ := forall_mem_append.1 settling
    have others := ih areRest
    cases label with
    | default => exact others
    | case tested guard =>
      obtain ⟨isTested, isGuard⟩ := forall_mem_cons.1 areLabel
      rw [flatMap_cons, ofLabel, cons_append]
      exact (isTested site subject).bind fun _ =>
        (inferOption_walks plain isGuard _).bind fun _ => others

theorem inferSections_walks {sections : List Section}
    (settling : ∀ node ∈ sections.flatMap ofSection, node.Settling id) {subject : Ty} :
    Walks id site (sections.flatMap ofSection)
      (inferSections sections subject) := by
  induction sections with
  | nil => exact (Idle.pure ()).walks
  | cons sect rest ih =>
    obtain ⟨areSection, areRest⟩ := forall_mem_append.1 settling
    obtain ⟨labels, body⟩ := sect
    obtain ⟨areLabels, areBody⟩ := forall_mem_append.1 areSection
    have inside := (inferLabels_walks plain areLabels subject).bind fun _ =>
      inferStmts_walks areBody
    exact inside.inScope.bind fun _ => ih areRest

theorem inferParams_walks (settling : ∀ node ∈ ofParams params, node.Settling id) :
    Walks id site (ofParams params) (inferParams params) := by
  induction params with
  | nil => exact (Idle.pure ()).walks
  | cons param rest ih =>
    obtain ⟨areDefault, areRest⟩ := forall_mem_append.1 settling
    obtain ⟨type, name, passing, default⟩ := param
    exact .ask (Idle.bindType type) fun bound =>
      (inferOption_walks plain areDefault bound).bind fun _ =>
        .ask (Idle.declare name (.inr (.inl rfl)) bound) fun _ => ih areRest

omit plain in
theorem inferPatterns_walks {nodes : List Pattern}
    (settling : ∀ node ∈ nodes.map pattern, node.Settling id) (subjects : List Ty) :
    Walks id site (nodes.map pattern) (inferPatterns nodes subjects) := by
  induction nodes generalizing subjects with
  | nil => exact (Idle.pure ()).walks
  | cons node rest ih =>
    obtain ⟨isHead, areRest⟩ := forall_mem_cons.1 settling
    exact (isHead site _).bind fun _ => ih areRest _

omit plain in
theorem inferProperties_walks {properties : List PropertyPattern}
    (settling : ∀ node ∈ properties.map fun property => pattern property.pattern,
      node.Settling id) (type : Ty) :
    Walks id site (properties.map fun property => pattern property.pattern)
      (inferProperties properties type) := by
  have found (path : List String) (type : Ty) : Idle (path.foldlM memberType type) := by
    induction path generalizing type with
    | nil => exact .pure type
    | cons name rest ih =>
      rw [foldlM_cons]
      exact (Idle.memberType type name).bind ih
  induction properties with
  | nil => exact (Idle.pure ()).walks
  | cons property rest ih =>
    obtain ⟨isHead, areRest⟩ := forall_mem_cons.1 settling
    obtain ⟨path, inner⟩ := property
    exact .ask (found path type) fun subject =>
      (isHead site subject).bind fun _ => ih areRest

omit plain in
theorem inferElements_walks {nodes : List Pattern}
    (settling : ∀ node ∈ nodes.map pattern, node.Settling id) {whole element : Ty} :
    Walks id site (nodes.map pattern) (inferElements nodes whole element) := by
  induction nodes with
  | nil => exact (Idle.pure ()).walks
  | cons node rest ih =>
    obtain ⟨isHead, areRest⟩ := forall_mem_cons.1 settling
    obtain ⟨mark, kind⟩ := node
    cases kind with
    | slice inner =>
      exact (isHead site whole).bind fun _ => ih areRest
    | _ => exact (isHead site element).bind fun _ => ih areRest

omit plain in
theorem declareLambdaParams_idle (params : List Param) (expected : List Ty) :
    Idle (declareLambdaParams params expected) := by
  induction params generalizing expected with
  | nil => exact .pure []
  | cons param rest ih =>
    obtain ⟨type, name, passing, default⟩ := param
    have others (type : Ty) := (Idle.declare name (.inr (.inl rfl)) type).bind fun _ =>
      (ih expected.tail).bind fun others => .pure (type :: others)
    cases type with
    | absent => exact (Idle.pure (expected.headD .unknown)).bind others
    | _ => exact (Idle.bindType _).bind others

end Parts

/-! ## Expressions -/

section Expressions

variable {id : Nat} {site : Site} {mark : Mark}

/-- Forms that name nothing, and whose parts stand for themselves. -/
def ExprKind.isPlain : ExprKind → Bool
  | .ident _ | .typeRef _ | .member .. | .memberBinding _ | .call .. | .lambda .. => false
  | _ => true

/-- Whether an assignment takes its value apart or drops it. -/
def Expr.isOpenTarget (op : Option BinaryOp) : Expr → Bool
  | ⟨_, .tuple _⟩ => op.isNone
  | ⟨_, .discard⟩ => true
  | _ => false

theorem inferAssign_plain (isPlain : target.isOpenTarget op = false) {mark : Mark} :
    (ExprKind.assign op target value).infer mark expected = (do
      let type ← target.infer .unknown
      let _ ← value.infer (if op.isNone then type else .unknown)
      return type) := by
  obtain ⟨targetMark, kind⟩ := target
  cases op <;> cases kind <;> first | rfl | cases isPlain

theorem inferAssign_walks (plain : site.arity? (some id) = none) (isTarget : target.Settling id)
    (isValue : value.Settling id) :
    Walks id site [expr target, expr value]
      ((ExprKind.assign op target value).infer mark expected) := by
  have assigned := isValue.infer site (fun _ => plain) .unknown
  cases isPlain : target.isOpenTarget op with
  | false =>
    rw [inferAssign_plain isPlain]
    exact (isTarget.infer site (fun _ => plain) _).bind fun type =>
      (isValue.infer site (fun _ => plain) _).map _
  | true =>
    obtain ⟨targetMark, kind⟩ := target
    cases kind with
    | tuple elements =>
      cases op with
      | none =>
        refine (Walks.swap (assigned.bind fun type => ?_) : Walks id site ([_] ++ [_]) _)
        have taken := (isTarget.target site (fun _ => plain) type).map fun _ => type
        change Walks _ _ _ ((componentsOf type >>= fun _ => _) >>= _) at taken
        simp only [bind_assoc] at taken
        exact taken
      | some op => cases isPlain
    | discard =>
      have dropped (type : Ty) : Walks id site
          [expr ⟨targetMark, .discard⟩] (record targetMark type .unknown >>= fun _ => pure type) :=
        .node (fun _ _ _ => trivial) rfl
          ((Idle.record targetMark type .unknown).bind fun _ => .pure type).walks
      have both := Walks.swap (assigned.bind dropped)
      cases op <;> exact both
    | _ => cases isPlain

variable {kind : ExprKind}

theorem ExprKind.infer_walks (isPlain : kind.isPlain = true) (plain : site.arity? (some id) = none)
    (settling : ∀ node ∈ kind.children, node.Settling id) (expected : Ty) :
    Walks id site kind.children (kind.infer mark expected) := by
  have inner {node : Expr} (isChild : expr node ∈ kind.children) (expected : Ty) :
      Walks id site [expr node] (node.infer expected) :=
    Expr.Settling.infer (settling _ isChild) site (fun _ => plain) expected
  cases kind with
  | literal value => exact (Idle.pure _).walks
  | ident name => cases isPlain
  | self => exact (Idle.read.bind fun _ => .pure _).walks
  | base =>
    refine (Idle.read.bind fun env => ?_).walks
    cases env.currentType with
    | none => exact .pure _
    | some type => exact Idle.types.bind fun _ => .pure _
  | typeRef type => cases isPlain
  | member receiver name => cases isPlain
  | conditionalAccess receiver access =>
    have isAccess := inner (mem_cons_of_mem _ (mem_cons_self ..)) .unknown
    exact (inner (mem_cons_self ..) _).bind fun type =>
      (isAccess.receiving (Universe.underlying type)).andThen fun result =>
        .ite (.pure _) (Idle.types.bind fun _ => .pure _)
  | memberBinding name => cases isPlain
  | elementBinding args =>
    exact .ask Idle.receiver fun type =>
      (inferEach_walks settling (fun _ _ _ => plain) []).andThen fun args =>
        .elementAccess type args
  | call callee args => cases isPlain
  | index receiver args =>
    have areArgs := fun node isArg => settling node (mem_cons_of_mem _ isArg)
    exact (inner (mem_cons_self ..) _).bind fun type =>
      (inferEach_walks areArgs (fun _ _ _ => plain) []).andThen fun args =>
        .elementAccess type args
  | fromEnd value => exact (inner (mem_cons_self ..) _).andThen fun _ => .named "Index"
  | range start stop =>
    obtain ⟨isStart, isStop⟩ := forall_mem_append.1 settling
    exact .ask (Idle.named "Index") fun index =>
      (inferOption_walks plain isStart index).bind fun _ =>
        (inferOption_walks plain isStop index).andThen fun _ => .named "Range"
  | unary op operand =>
    cases op with
    | not => exact (inner (mem_cons_self ..) _).map _
    | _ => exact inner (mem_cons_self ..) _
  | binary op left right =>
    have isLeft := inner (mem_cons_self ..)
    have isRight := inner (mem_cons_of_mem _ (mem_cons_self ..))
    refine .ite ?_ (.ite ?_ (.ite ?_ ?_))
    · exact (isLeft _).bind fun _ => (isRight _).map _
    · exact (isLeft _).bind fun leftType => (isRight _).andThen fun rightType =>
        Idle.types.bind fun _ => .ite (.pure _) (.pure _)
    · exact (isLeft _).bind fun _ => (isRight _).map _
    · exact (isLeft _).bind fun _ => (isRight _).andThen fun _ => .ite (.pure _) (.pure _)
  | assign op target value =>
    exact inferAssign_walks plain (settling _ (mem_cons_self ..))
      (settling _ (mem_cons_of_mem _ (mem_cons_self ..)))
  | conditional cond yes no =>
    have isNo : Walks id site [expr no] (no.infer expected) :=
      inner (mem_cons_of_mem _ (mem_cons_of_mem _ (mem_cons_self ..))) expected
    exact (inner (mem_cons_self ..) _).bind fun _ =>
      (inner (mem_cons_of_mem _ (mem_cons_self ..)) _).bind fun yes =>
        isNo.andThen fun no => (Idle.commonType yes no).bind fun _ => .pure _
  | isPattern subject tested =>
    have isTested := settling _ (mem_cons_of_mem _ (mem_cons_self ..)) site
    exact (inner (mem_cons_self ..) _).bind fun type => (isTested type).map _
  | typeTest subject type => exact (inner (mem_cons_self ..) _).map _
  | cast type operand => exact (inner (mem_cons_self ..) _).andThen fun _ => .bindType type
  | seq effects value =>
    obtain ⟨areEffects, isValue⟩ := forall_mem_append.1 settling
    exact (inferEach_walks areEffects (fun _ _ _ => plain) []).bind fun _ =>
      Expr.Settling.infer (isValue _ mem_cons_self) site (fun _ => plain) expected
  | lambda label params isAsync body => cases isPlain
  | create type args inits =>
    obtain ⟨areArgs, areInits⟩ := forall_mem_append.1 settling
    have others (created : Ty) := Walks.ask (Idle.ctorParams created args.length) fun params =>
      (inferEach_walks areArgs (fun _ _ _ => plain) params).bind fun _ =>
        (inferInits_walks plain areInits created).map fun _ => created
    cases type with
    | absent => exact .ask (Idle.pure expected) others
    | _ => exact .ask (Idle.bindType _) others
  | copyWith receiver inits =>
    have areInits := fun node isInit => settling node (mem_cons_of_mem _ isInit)
    exact (inner (mem_cons_self ..) _).bind fun type =>
      (inferInits_walks plain areInits type).map _
  | collection items =>
    exact .ask Idle.types fun types => (inferItems_walks plain settling).map _
  | spread value => exact inner (mem_cons_self ..) _
  | switch subject arms =>
    have areArms := fun node isArm => settling node (mem_cons_of_mem _ isArm)
    exact (inner (mem_cons_self ..) _).bind fun type =>
      (inferArms_walks plain areArms type expected {}).andThen fun seen =>
        .armResult seen expected
  | throw value => exact (inner (mem_cons_self ..) _).map _
  | defaultOf type =>
    cases type with
    | absent => exact (Idle.pure expected).walks
    | _ => exact (Idle.bindType _).walks
  | tuple items =>
    exact .ask (Idle.componentsOf expected) fun components =>
      (inferEach_walks settling (fun _ _ _ => plain) components).map _
  | await value => exact (inner (mem_cons_self ..) _).map _
  | interpolated parts => exact (inferParts_walks plain settling).map _
  | declaration type name =>
    exact ((Idle.bindOr type expected).bind fun declared =>
      (Idle.declareAt mark name (.inl rfl) declared).bind fun _ => .pure _).walks
  | discard => exact (Idle.pure expected).walks
  | out value => exact inner (mem_cons_self ..) _
  | paren value => exact inner (mem_cons_self ..) _

theorem resolveAt_walks (isArity : mark.id = some id → site.arity? (some id) = arity) :
    Walks id site [expr ⟨mark, .ident name⟩] (resolveAt mark name arity) := by
  refine ⟨fun env state locals => ?_,
    .name (fun env scopes => env.resolveName scopes name arity) (·.unique?) fun _ _ => rfl⟩
  have nothing : state.Settled id env.Finds (site.below (expr ⟨mark, .ident name⟩)) [] state :=
    InferState.Keeps.settled ⟨locals, rfl, fun _ => rfl⟩
  refine nothing.name rfl (fun isId => ⟨state.scopes, env.context, locals, ?_⟩) rfl rfl
  rw [show mark.id = some id from isId, isArity isId]

theorem typeRef_walks {type : TypeSyntax} : Walks id site [expr ⟨mark, .typeRef type⟩]
      (ExprKind.infer mark (.typeRef type) expected) := by
  refine ⟨fun env state locals => ?_, .name (fun env _ =>
    let bound := env.types.names.bind type
    { found := some
        { name := (env.types.data bound).name, kind := .type, type := bound, isStatic := true } })
    (fun found => (found.found.map (·.type)).getD .unknown) fun _ _ => rfl⟩
  have nothing : state.Settled id env.Finds (site.below (expr ⟨mark, .typeRef type⟩)) [] state :=
    InferState.Keeps.settled ⟨locals, rfl, fun _ => rfl⟩
  exact nothing.name rfl (fun _ => trivial) rfl rfl

theorem memberBinding_walks {type : Ty} : Walks id site [expr ⟨mark, .memberBinding name⟩]
      (memberAt mark type name arity false) := by
  refine ⟨fun env state locals => ?_, memberAt_steady mark _ type name arity false⟩
  have nothing : state.Settled id env.Finds (site.below (expr ⟨mark, .memberBinding name⟩)) []
      state := InferState.Keeps.settled ⟨locals, rfl, fun _ => rfl⟩
  exact nothing.name rfl (fun _ => trivial) rfl rfl

theorem isTypeReceiver_settles (node : Expr) :
    Settles id InferEnv.Finds site [] (isTypeReceiver node) := by
  unfold isTypeReceiver
  split
  · exact (Idle.pure true).settles
  · refine (Settles.bind (fun env state locals => ?_) fun state => ?_ :
      Settles id InferEnv.Finds site ([] ++ []) _)
    · exact InferState.Keeps.settled ⟨locals, rfl, fun _ => rfl⟩
    · split <;> exact (Idle.pure _).settles

theorem memberAt_walks {receiver : Expr} (isReceiver : receiver.Settling id) (name : String)
    (arity : Option Nat) (isArity : mark.id = some id → site.arity? (some id) = arity) :
    Walks id site [expr ⟨mark, .member receiver name⟩] (do
      let type ← receiver.infer .unknown
      memberAt mark type name arity (← isTypeReceiver receiver)) := by
  let node := expr ⟨mark, .member receiver name⟩
  have received := isReceiver.infer (site.below node) (fun _ => rfl) .unknown
  refine ⟨fun env state locals => ?_, ?_⟩
  · have settled := (received.settles.bind
      fun _ => isTypeReceiver_settles receiver) env state locals
    rw [append_nil] at settled
    refine settled.name rfl (fun isId => ?_) rfl rfl
    obtain ⟨receiverMark, kind⟩ := receiver
    cases kind with
    | typeRef type =>
      change _ = env.membersOf _ name (site.arity? mark.id) true
      rw [show mark.id = some id from isId, isArity isId]
      rfl
    | _ => trivial
  · have named := received.steady.bind fun type => (isTypeReceiver_steady receiver).bind fun isType =>
      memberAt_steady mark (.member receiver name) type name arity isType
    refine named.widen fun id none => ?_
    have within : tally id [expr receiver] ≤ tally id [node] := node.tally_children_le
    change tally id [node] = 0 at none
    change tally id ([_] ++ ([_] ++ [node])) = 0
    rw [tally_append, tally_append]
    omega

/-- A callee is resolved with the number of arguments in view, and stands nowhere among
    them. -/
theorem call_walks {callee : Expr} {args : List Expr}
    (single : tally id (expr callee :: ofExprs args) ≤ 1)
    (settling : ∀ node ∈ expr callee :: ofExprs args, node.Settling id) :
    Walks id site [expr ⟨mark, .call callee args⟩]
      (ExprKind.infer mark (.call callee args) expected) := by
  obtain ⟨isCallee, areArgs⟩ := forall_mem_cons.1 settling
  have called (isId : callee.id = some id) :
      (site.below (expr ⟨mark, .call callee args⟩)).arity? (some id) = some args.length :=
    if_pos isId
  have plain : ∀ arg ∈ args, arg.id = some id →
      (site.below (expr ⟨mark, .call callee args⟩)).arity? (some id) = none := by
    refine fun arg isArg isId => if_neg fun isCallee => ?_
    have first : (expr callee).count id = 1 + tally id callee.kind.children := by
      rw [Node.count_eq, Mark.bears, if_pos (show (expr callee).mark.id = some id from isCallee)]
      rfl
    have second : (expr arg).count id = 1 + tally id arg.kind.children := by
      rw [Node.count_eq, Mark.bears, if_pos (show (expr arg).mark.id = some id from isId)]
      rfl
    have among : (expr arg).count id ≤ tally id (ofExprs args) :=
      count_le_tally (mem_map_of_mem isArg)
    rw [tally_cons] at single
    omega
  refine .node (fun _ _ _ => trivial) rfl ?_
  exact (isCallee.callee _ args.length called).bind fun found =>
    (inferEach_walks areArgs plain found.2).map _

theorem lambda_walks {label : Option Nat} {isAsync : Bool}
    (settling : ∀ node ∈ ofLambdaBody body, node.Settling id) :
    Walks id site [expr ⟨mark, .lambda label params isAsync body⟩]
      (ExprKind.infer mark (.lambda label params isAsync body) expected) := by
  refine .around (fun _ _ _ => trivial) (fun child isChild notBody => ?_) ?_
  · have isParam : child ∈ ofParams params := (mem_append.1 isChild).resolve_right notBody
    have counted : child.count id ≤ tally id (ofParams params) := count_le_tally isParam
    change tally id (ofLambdaBody body) + _ ≤ tally id (ofParams params ++ ofLambdaBody body)
    rw [tally_append]
    omega
  · refine .ask Idle.types fun types => .ask (Idle.signatureOf expected) fun signature => ?_
    have returns : Walks id (site.below (expr ⟨mark, .lambda label params isAsync body⟩))
        (ofLambdaBody body) (inFunction signature.1 (body.infer signature.1)) :=
      LambdaBody.infer_walks rfl settling signature.1 signature.1
    have inside := Walks.ask (declareLambdaParams_idle params signature.2) fun paramTypes =>
      returns.map fun found => (paramTypes, found)
    exact inside.inScope.andThen fun (paramTypes, found) =>
      .ite (.pure expected) (.functionType paramTypes found)

/-- Names and members are resolved with the number of arguments in view. -/
def ExprKind.isCalledByName : ExprKind → Bool
  | .ident _ | .member .. | .memberBinding _ => true
  | _ => false

theorem ExprKind.node_walks (single : tally id kind.children ≤ 1)
    (settling : ∀ node ∈ kind.children, node.Settling id)
    (plain : kind.isCalledByName = true → mark.id = some id → site.arity? (some id) = none)
    (expected : Ty) : Walks id site [expr ⟨mark, kind⟩] (kind.infer mark expected) := by
  cases isPlain : kind.isPlain with
  | true =>
    have below : (site.below (expr ⟨mark, kind⟩)).arity? (some id) = none := by
      cases kind <;> first | rfl | cases isPlain
    have unnamed (env : InferEnv) (site : Site) (resolution : Resolution) :
        env.Finds site (expr ⟨mark, kind⟩) resolution := by
      cases kind <;> trivial
    refine .node unnamed ?_ (ExprKind.infer_walks isPlain below settling expected)
    cases kind <;> first | rfl | cases isPlain
  | false =>
    cases kind with
    | ident name => exact (resolveAt_walks (plain rfl)).map _
    | typeRef type => exact typeRef_walks
    | member receiver name =>
      have isReceiver := settling _ (mem_cons_self ..)
      exact (memberAt_walks isReceiver name none (plain rfl)).map valueType
    | memberBinding name =>
      exact .ask Idle.receiver fun type => memberBinding_walks.map _
    | call callee args => exact call_walks single settling
    | lambda label params isAsync body =>
      exact lambda_walks fun node isBody => settling node (mem_append_right _ isBody)
    | _ => cases isPlain

theorem inferCallee_unnamed (unnamed : kind.isCalledByName = false) {arity : Nat} :
    (Expr.mk mark kind).inferCallee arity =
      (kind.infer mark .unknown >>= fun type => finish ⟨mark, kind⟩ type .unknown) >>=
        signatureOf := by
  rw [bind_assoc]
  cases kind <;> first | rfl | cases unnamed

theorem Expr.settling (single : tally id kind.children ≤ 1)
    (settling : ∀ node ∈ kind.children, node.Settling id) : (Expr.mk mark kind).Settling id where
  infer site plain expected :=
    (ExprKind.node_walks single settling (fun _ => plain) expected).andThen fun type =>
      .finish _ type expected
  target site plain component := by
    have inferred (expected : Ty) :=
      ((ExprKind.node_walks single settling (fun _ => plain) expected).andThen fun type =>
        .finish ⟨mark, kind⟩ type expected).map fun _ => ()
    cases kind with
    | tuple elements =>
      refine .node (fun _ _ _ => trivial) rfl (.ask (Idle.componentsOf component) fun types => ?_)
      exact (inferTargets_walks rfl settling types).andThen fun _ => .record mark component _
    | declaration type name => exact inferred component
    | discard => exact inferred component
    | _ => exact inferred .unknown
  callee site arity called := by
    have signed (callee : Option Reference) :
        Idle (record mark (valueType callee) .unknown >>= fun _ => calleeSignature callee arity) :=
      (Idle.record mark _ _).bind fun _ => .calleeSignature callee arity
    cases named : kind.isCalledByName with
    | false =>
      rw [inferCallee_unnamed named]
      have inferred : Walks id site [expr ⟨mark, kind⟩] (kind.infer mark .unknown) :=
        ExprKind.node_walks single settling
          (fun isNamed => absurd isNamed (Bool.eq_false_iff.1 named)) .unknown
      exact (inferred.andThen fun type => .finish ⟨mark, kind⟩ type .unknown).andThen .signatureOf
    | true =>
      cases kind with
      | ident name => exact (resolveAt_walks called).andThen signed
      | member receiver name =>
        have isReceiver := settling _ (mem_cons_self ..)
        have found := memberAt_walks isReceiver name (some arity) called
        have both := found.andThen signed
        simp only [bind_assoc] at both
        exact both
      | memberBinding name =>
        exact .ask Idle.receiver fun type =>
          memberBinding_walks.andThen signed
      | _ => cases named

end Expressions

/-! ## Patterns and statements -/

section Others

variable {id : Nat} {mark : Mark}

theorem Pattern.settling {kind : PatternKind} (settling : ∀ node ∈ kind.children, node.Settling id) :
    (pattern ⟨mark, kind⟩).Settling id := by
  intro site subject
  refine .node (fun _ _ _ => trivial) rfl ?_
  have plain : (site.below (pattern ⟨mark, kind⟩)).arity? (some id) = none := rfl
  generalize site.below (pattern ⟨mark, kind⟩) = site at plain ⊢
  have constant {node : Expr} (isChild : expr node ∈ kind.children) :
      Walks id site [expr node] (node.infer subject >>= fun _ => pure ()) :=
    (Expr.Settling.infer (settling _ isChild) site (fun _ => plain) subject).map _
  have inner {node : Pattern} (isChild : pattern node ∈ kind.children) :=
    settling _ isChild site
  cases kind with
  | constant value => exact constant (mem_cons_self ..)
  | relational op value => exact constant (mem_cons_self ..)
  | declaration type name =>
    exact ((Idle.bindOr type subject).bind fun declared =>
      .designate mark name declared).walks
  | var name => exact (Idle.designate mark name subject).walks
  | recursive type positional properties designation =>
    obtain ⟨arePositional, areProperties⟩ := forall_mem_append.1 settling
    have first (components : List Ty) : Walks id site (positional.map pattern)
        (inferPatterns positional components) := inferPatterns_walks arePositional components
    have others (matched : Ty) := Walks.ask (Idle.componentsOf matched) fun components =>
      (first components).bind fun _ => (inferProperties_walks areProperties matched).andThen
        fun _ => Idle.designate mark designation matched
    cases type with
    | absent => exact .ask (Idle.pure subject) others
    | _ => exact .ask (Idle.bindType _) others
  | list elements designation =>
    exact .ask Idle.types fun types => (inferElements_walks settling).andThen fun _ =>
      .designate mark designation subject
  | slice nested =>
    cases nested with
    | none => exact (Idle.pure ()).walks
    | some nested => exact inner (mem_cons_self ..) subject
  | not nested => exact inner (mem_cons_self ..) subject
  | paren nested => exact inner (mem_cons_self ..) subject
  | and left right =>
    exact (inner (mem_cons_self ..) subject).bind fun _ => .ask Idle.types fun types =>
      inner (mem_cons_of_mem _ (mem_cons_self ..)) _
  | or left right =>
    exact (inner (mem_cons_self ..) subject).bind fun _ =>
      inner (mem_cons_of_mem _ (mem_cons_self ..)) subject
  | type type => exact (Idle.pure ()).walks
  | discard => exact (Idle.pure ()).walks

theorem Stmt.settling {kind : StmtKind} (settling : ∀ node ∈ kind.children, node.Settling id) :
    (stmt ⟨mark, kind⟩).Settling id := by
  intro site
  refine .node (fun _ _ _ => trivial) rfl ?_
  have plain : (site.below (stmt ⟨mark, kind⟩)).arity? (some id) = none := rfl
  generalize site.below (stmt ⟨mark, kind⟩) = site at plain ⊢
  have value {node : Expr} (isChild : expr node ∈ kind.children) (expected : Ty) :
      Walks id site [expr node] (node.infer expected) :=
    Expr.Settling.infer (settling _ isChild) site (fun _ => plain) expected
  have inner {node : Stmt} (isChild : stmt node ∈ kind.children) :
      Walks id site [stmt node] (inScope node.infer) :=
    Walks.inScope (settling _ isChild site)
  cases kind with
  | block body =>
    have declares : Idle (body.forM declareLocalFunction) := by
      clear value inner settling
      induction body with
      | nil => exact .pure ()
      | cons node rest ih =>
        exact (Idle.declareLocalFunction node).bind fun _ => ih
    exact Walks.inScope (.ask declares fun _ => inferStmts_walks settling)
  | eval node => exact (value (mem_cons_self ..) _).map _
  | declare type name init =>
    cases init with
    | none =>
      exact ((Idle.bindOr type .unknown).bind fun declared =>
        .declareAt mark name (.inl rfl) declared).walks
    | some init =>
      exact .ask (Idle.bindOr type .unknown) fun declared =>
        (value (mem_cons_self ..) declared).andThen fun _ =>
          .declareAt mark name (.inl rfl) _
  | ifElse cond yes no =>
    have isNo := fun node isNode =>
      settling node (mem_cons_of_mem _ (mem_cons_of_mem _ isNode))
    exact (value (mem_cons_self ..) _).bind fun _ =>
      (inner (mem_cons_of_mem _ (mem_cons_self ..))).bind fun _ =>
        inferBranch?_walks isNo
  | whileLoop cond body =>
    exact (value (mem_cons_self ..) _).bind fun _ =>
      inner (mem_cons_of_mem _ (mem_cons_self ..))
  | forLoop init cond step body =>
    obtain ⟨areOthers, isBody⟩ := forall_mem_append.1 settling
    obtain ⟨areOthers, areSteps⟩ := forall_mem_append.1 areOthers
    obtain ⟨areInit, isCond⟩ := forall_mem_append.1 areOthers
    have looped := inner (mem_append_right _ (mem_cons_self ..))
    have opened := (inferStmts_walks areInit).bind fun _ =>
      (inferOption_walks plain isCond .bool).bind fun _ =>
        (inferEach_walks areSteps (fun _ _ _ => plain) []).bind fun _ => looped
    have reordered := opened.inScope
    simp only [← append_assoc] at reordered
    exact reordered
  | forEach type name iterable body =>
    have looped := inner (mem_cons_of_mem _ (mem_cons_self ..))
    exact .ask Idle.types fun types => (value (mem_cons_self ..) _).bind fun found =>
      .ask (Idle.bindOr type _) fun declared =>
        Walks.inScope (.ask (Idle.declareAt mark name (.inl rfl) declared) fun _ => looped)
  | ret value? =>
    cases value? with
    | none => exact (Idle.pure ()).walks
    | some node =>
      exact .ask Idle.read fun env => (value (mem_cons_self ..) _).andThen .observe
  | breakLoop => exact (Idle.pure ()).walks
  | continueLoop => exact (Idle.pure ()).walks
  | throw value? => exact inferOption_walks plain settling _
  | switch subject sections =>
    have areSections := fun node isNode => settling node (mem_cons_of_mem _ isNode)
    exact (value (mem_cons_self ..) _).bind fun type =>
      inferSections_walks plain areSections
  | localFunction name typeParams params ret body =>
    obtain ⟨areParams, isBody⟩ := forall_mem_append.1 settling
    exact .ask (Idle.bindType ret) fun result =>
      Walks.inScope ((inferParams_walks plain areParams).bind fun _ =>
        inferFunction_walks plain isBody)
  | empty => exact (Idle.pure ()).walks

theorem Node.settling (node : Node) (single : node.count id ≤ 1) : node.Settling id := by
  induction node using Node.childInduction with
  | step node ih =>
    have below := Nat.le_trans node.tally_children_le single
    have children : ∀ child ∈ node.children, child.Settling id := fun child isChild =>
      ih child isChild (Nat.le_trans (count_le_tally isChild) below)
    cases node with
    | expr node =>
      obtain ⟨mark, kind⟩ := node
      exact Expr.settling below children
    | stmt node =>
      obtain ⟨mark, kind⟩ := node
      exact Stmt.settling children
    | pattern node =>
      obtain ⟨mark, kind⟩ := node
      exact Pattern.settling children

end Others

end Unsugar
