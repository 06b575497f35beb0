import Mathlib.Data.List.Forall2
import Unsugar.Proofs.Lower.LoweredUnits
import Unsugar.Proofs.Switch.Jumps

open List

namespace Unsugar

/-! # Rebuilds that relate nodes one by one

Rules that leave one node for each relate every node to what became of it, if they
do so where the parts of the node are related already.
-/

open Node

/-! ## Related lists -/

section Lists

variable {α β : Type} {related : α → β → Prop} {left : List α} {right : List β}

section

variable (areRelated : Forall₂ related left right)

include areRelated

theorem exists_left {item : β} (isRight : item ∈ right) : ∃ other ∈ left, related other item := by
  induction areRelated with
  | nil => cases isRight
  | cons head _ ih =>
    obtain rfl | isRight := mem_cons.mp isRight
    · exact ⟨_, mem_cons_self, head⟩
    · obtain ⟨other, isLeft, isRelated⟩ := ih isRight
      exact ⟨other, mem_cons_of_mem _ isLeft, isRelated⟩

theorem exists_right {item : α} (isLeft : item ∈ left) : ∃ other ∈ right, related item other :=
  exists_left areRelated.flip isLeft

theorem exists_left_last {item : β} (isLast : right.getLast? = some item) :
    ∃ other, left.getLast? = some other ∧ related other item := by
  have reversed := forall₂_reverse_iff.mpr areRelated
  rw [← head?_reverse] at isLast ⊢
  generalize left.reverse = lefts at reversed
  generalize right.reverse = rights at reversed isLast
  cases reversed with
  | nil => cases isLast
  | cons head _ =>
    cases isLast
    exact ⟨_, rfl, head⟩

theorem forall₂_imp_mem {follows : α → β → Prop}
    (each : ∀ item ∈ left, ∀ result, related item result → follows item result) :
    Forall₂ follows left right := by
  induction areRelated with
  | nil => exact .nil
  | cons head _ ih =>
    obtain ⟨first, others⟩ := forall_mem_cons.mp each
    exact .cons (first _ head) (ih others)

end

theorem forall₂_split {before after : List α} {item : α} {right : List β}
    (areRelated : Forall₂ related (before ++ item :: after) right) :
    ∃ others result rest, right = others ++ result :: rest ∧ related item result ∧
      Forall₂ related after rest := by
  induction before generalizing right with
  | nil =>
    cases areRelated with
    | cons head rest => exact ⟨[], _, _, rfl, head, rest⟩
  | cons first before ih =>
    cases areRelated with
    | cons head rest =>
      obtain ⟨others, result, after, rfl, isItem, areAfter⟩ := ih rest
      exact ⟨_ :: others, result, after, rfl, isItem, areAfter⟩

theorem forall₂_through {γ : Type} {follows : β → γ → Prop} {reaches : α → γ → Prop}
    {left : List α} {middle : List β} {right : List γ} (first : Forall₂ related left middle)
    (second : Forall₂ follows middle right)
    (each : ∀ item between result, between ∈ middle → related item between →
      follows between result → reaches item result) : Forall₂ reaches left right := by
  induction first generalizing right with
  | nil =>
    cases second
    exact .nil
  | cons head _ ih =>
    cases second with
    | cons next rest =>
      refine .cons (each _ _ _ mem_cons_self head next) (ih rest ?_)
      exact fun item between result isBetween =>
        each item between result (mem_cons_of_mem _ isBetween)

end Lists

/-! ## Related parts -/

variable {label result : Label}

section Related

variable (rel : Node → Node → Prop)

/-- Forms of which it does not matter here what exactly they are.  Their parts stand in
    one scope. -/
def ExprKind.isOther : ExprKind → Bool
  | .literal _ | .ident _ | .self | .base | .typeRef _ | .memberBinding _ | .defaultOf _
  | .declaration .. | .discard | .lambda .. | .isPattern .. | .paren _ => false
  | _ => true

/-- What sets the forms with parts apart where it matters here: the name of a member,
    how many arguments a call has, and which of the parts that may be missing are there. -/
inductive Head where
  | member (name : String)
  | call (arity : Nat)
  | range (starts stops : Bool)
  | switch (guarded : List Bool)
  | interpolated (aligned : List (Option Bool))
  | plain

def Part.aligned : Part → Option Bool
  | .text _ => none
  | .hole _ alignment _ => some alignment.isSome

def ExprKind.head : ExprKind → Head
  | .member _ name => .member name
  | .call _ args => .call args.length
  | .range start stop => .range start.isSome stop.isSome
  | .switch _ arms => .switch (arms.map fun arm => arm.guard.isSome)
  | .interpolated parts => .interpolated (parts.map Part.aligned)
  | _ => .plain

/-- A form without parts stays as it is. -/
inductive ExprKind.Related : ExprKind → ExprKind → Prop where
  | alone {kind : ExprKind} (isAlone : kind.children = []) : Related kind kind
  | lambda {label : Option Nat} {params results : List Param} {isAsync : Bool}
      {body result : LambdaBody} (areParams : Forall₂ rel (ofParams params) (ofParams results))
      (isBody : Forall₂ rel (ofLambdaBody body) (ofLambdaBody result)) :
      Related (.lambda label params isAsync body) (.lambda label results isAsync result)
  | test {subject result : Expr} {tested lowered : Pattern}
      (isSubject : rel (expr subject) (expr result))
      (isTested : rel (pattern tested) (pattern lowered)) :
      Related (.isPattern subject tested) (.isPattern result lowered)
  | paren {inner result : Expr} (isInner : rel (expr inner) (expr result)) :
      Related (.paren inner) (.paren result)
  | other {kind result : ExprKind} (isOther : kind.isOther = true) (stays : result.isOther = true)
      (sameHead : result.head = kind.head)
      (children : Forall₂ rel kind.children result.children) : Related kind result

def PatternKind.isOther : PatternKind → Bool
  | .declaration .. | .var _ | .type _ | .discard | .slice none => false
  | _ => true

def PatternKind.isParen : PatternKind → Bool
  | .paren _ => true
  | _ => false

inductive PatternKind.Related : PatternKind → PatternKind → Prop where
  | alone {kind : PatternKind} (isAlone : kind.children = []) : Related kind kind
  | other {kind result : PatternKind} (isOther : kind.isOther = true)
      (sameRole : result.role = kind.role)
      (children : Forall₂ rel kind.children result.children) (stays : result.isOther = true)
      (sameParen : result.isParen = kind.isParen) : Related kind result

structure Arm.Related (arm result : Arm) : Prop where
  tested : rel (Node.pattern arm.pattern) (Node.pattern result.pattern)
  guard : Forall₂ rel (ofExpr? arm.guard) (ofExpr? result.guard)
  value : rel (expr arm.result) (expr result.result)

inductive Part.Related : Part → Part → Prop where
  | text (content : String) : Related (.text content) (.text content)
  | hole {value result : Expr} {alignment aligned : Option Expr} {format : String}
      (isValue : rel (expr value) (expr result))
      (isAlignment : Forall₂ rel (ofExpr? alignment) (ofExpr? aligned)) :
      Related (.hole value alignment format) (.hole result aligned format)

inductive Label.Related : Label → Label → Prop where
  | default : Related .default .default
  | case {tested result : Pattern} {guard guarded : Option Expr}
      (isTested : rel (pattern tested) (pattern result))
      (isGuard : Forall₂ rel (ofExpr? guard) (ofExpr? guarded)) :
      Related (.case tested guard) (.case result guarded)

structure Section.Related (sect result : Section) : Prop where
  labels : Forall₂ (Label.Related rel) sect.labels result.labels
  body : Forall₂ rel (ofStmts sect.body) (ofStmts result.body)

def StmtKind.typeParams : StmtKind → List String
  | .localFunction _ typeParams _ _ _ => typeParams
  | _ => []

/-- Forms whose parts stand in one scope, and that declare nothing. -/
def StmtKind.isOther : StmtKind → Bool
  | .block _ | .declare .. | .ifElse .. | .forLoop .. | .switch .. => false
  | _ => true

inductive StmtKind.Related : StmtKind → StmtKind → Prop where
  | block {body results : List Stmt} (areItems : Forall₂ rel (ofStmts body) (ofStmts results)) :
      Related (.block body) (.block results)
  | declare {type : TypeSyntax} {name : String} {init result : Option Expr}
      (isInit : Forall₂ rel (ofExpr? init) (ofExpr? result)) :
      Related (.declare type name init) (.declare type name result)
  | ifElse {cond tested : Expr} {yes taken : Stmt} {no other : Option Stmt}
      (isCond : rel (expr cond) (expr tested)) (isYes : rel (stmt yes) (stmt taken))
      (isNo : Forall₂ rel (ofStmt? no) (ofStmt? other)) :
      Related (.ifElse cond yes no) (.ifElse tested taken other)
  | forLoop {init inits : List Stmt} {cond tested : Option Expr} {step steps : List Expr}
      {body result : Stmt} (areInits : Forall₂ rel (ofStmts init) (ofStmts inits))
      (isCond : Forall₂ rel (ofExpr? cond) (ofExpr? tested))
      (areSteps : Forall₂ rel (ofExprs step) (ofExprs steps))
      (isBody : rel (stmt body) (stmt result)) :
      Related (.forLoop init cond step body) (.forLoop inits tested steps result)
  | switch {subject tested : Expr} {sections results : List Section}
      (isSubject : rel (expr subject) (expr tested))
      (areSections : Forall₂ (Section.Related rel) sections results) :
      Related (.switch subject sections) (.switch tested results)
  | other {kind result : StmtKind} (isOther : kind.isOther = true) (stays : result.isOther = true)
      (sameRole : result.role = kind.role) (sameParams : result.typeParams = kind.typeParams)
      (children : Forall₂ rel kind.children result.children) : Related kind result

variable {rel}

theorem isSome_of_related {node result : Option Expr}
    (related : Forall₂ rel (ofExpr? node) (ofExpr? result)) : result.isSome = node.isSome := by
  cases node <;> cases result <;> first | rfl | cases related

theorem Arm.Related.children {arm result : Arm} (related : arm.Related rel result) :
    Forall₂ rel (ofArm arm) (ofArm result) :=
  .cons related.tested (rel_append related.guard (.cons related.value .nil))

theorem Arm.Related.guarded {arms results : List Arm}
    (related : Forall₂ (Arm.Related rel) arms results) :
    (results.map fun arm => arm.guard.isSome) = arms.map fun arm => arm.guard.isSome := by
  induction related with
  | nil => rfl
  | cons first _ ih =>
    rw [map_cons, map_cons, ih, isSome_of_related first.guard]

theorem Part.Related.children {part result : Part} (related : part.Related rel result) :
    Forall₂ rel (ofPart part) (ofPart result) := by
  cases related with
  | text => exact .nil
  | hole isValue isAlignment => exact .cons isValue isAlignment

theorem Part.Related.aligned {parts results : List Part}
    (related : Forall₂ (Part.Related rel) parts results) :
    results.map Part.aligned = parts.map Part.aligned := by
  induction related with
  | nil => rfl
  | cons first _ ih =>
    rw [map_cons, map_cons, ih]
    cases first with
    | text => rfl
    | hole _ isAlignment =>
      rw [Part.aligned, Part.aligned, isSome_of_related isAlignment]

theorem Label.Related.children (related : label.Related rel result) :
    Forall₂ rel (ofLabel label) (ofLabel result) := by
  cases related with
  | default => exact .nil
  | case isTested isGuard => exact .cons isTested isGuard

theorem Section.Related.children {sect result : Section} (related : sect.Related rel result) :
    Forall₂ rel (ofSection sect) (ofSection result) :=
  rel_append (rel_flatMap related.labels fun _ _ isLabel => isLabel.children) related.body

theorem ExprKind.role_of_isOther {kind : ExprKind} (isOther : kind.isOther = true) :
    kind.role = .plain := by
  cases kind <;> first | rfl | cases isOther

theorem ExprKind.Related.sameRole {kind result : ExprKind} (related : kind.Related rel result) :
    result.role = kind.role := by
  cases related with
  | alone | lambda | test | paren => rfl
  | other isOther stays =>
    rw [ExprKind.role_of_isOther isOther, ExprKind.role_of_isOther stays]

theorem ExprKind.Related.children {kind result : ExprKind} (related : kind.Related rel result) :
    Forall₂ rel kind.children result.children := by
  cases related with
  | alone isAlone =>
    rw [isAlone]
    exact .nil
  | lambda areParams isBody => exact rel_append areParams isBody
  | test isSubject isTested => exact .cons isSubject (.cons isTested .nil)
  | paren isInner => exact .cons isInner .nil
  | other _ _ _ children => exact children

theorem PatternKind.Related.sameRole {kind result : PatternKind}
    (related : kind.Related rel result) : result.role = kind.role := by
  cases related with
  | alone => rfl
  | other _ sameRole => exact sameRole

theorem PatternKind.Related.children {kind result : PatternKind}
    (related : kind.Related rel result) : Forall₂ rel kind.children result.children := by
  cases related with
  | alone isAlone =>
    rw [isAlone]
    exact .nil
  | other _ _ children => exact children

variable {kind : StmtKind}

theorem StmtKind.Related.children {result : StmtKind} (related : kind.Related rel result) :
    Forall₂ rel kind.children result.children := by
  cases related with
  | block areItems => exact areItems
  | declare isInit => exact isInit
  | ifElse isCond isYes isNo => exact .cons isCond (.cons isYes isNo)
  | forLoop areInits isCond areSteps isBody =>
    exact rel_append (rel_append (rel_append areInits isCond) areSteps) (.cons isBody .nil)
  | switch isSubject areSections =>
    exact .cons isSubject (rel_flatMap areSections fun _ _ isSection => isSection.children)
  | other _ _ _ _ children => exact children

theorem StmtKind.Related.sameRole {result : StmtKind} (related : kind.Related rel result)
    (notSwitch : ∀ subject sections, result ≠ .switch subject sections) :
    result.role = kind.role := by
  cases related with
  | block | declare | ifElse | forLoop => rfl
  | switch => exact absurd rfl (notSwitch _ _)
  | other _ _ sameRole => exact sameRole

theorem StmtKind.role_ne_patterned (notSwitch : ∀ subject sections, kind ≠ .switch subject sections) :
    kind.role ≠ .patterned := by
  cases kind with
  | switch subject sections => exact absurd rfl (notSwitch subject sections)
  | _ => exact nofun

theorem Label.isConstant_case {tested : Pattern} {guard : Option Expr} :
    (Label.case tested guard).isConstant = (tested.kind.role == .constant && guard.isNone) := by
  obtain ⟨mark, kind⟩ := tested
  cases guard with
  | none => cases kind <;> rfl
  | some guard => cases kind <;> rfl

theorem Label.Related.isConstant (related : label.Related rel result)
    (sameRoles : ∀ tested result, rel (pattern tested) (pattern result) →
      result.kind.role = tested.kind.role) : result.isConstant = label.isConstant := by
  cases related with
  | default => rfl
  | @case tested result guard guarded isTested isGuard =>
    rw [isConstant_case, isConstant_case, sameRoles _ _ isTested]
    cases guard <;> cases guarded
    · rfl
    · cases isGuard
    · cases isGuard
    · rfl

/-- Where related patterns compare with constants alike, related switches are of one
    sort. -/
theorem allConstant_related {sections results : List Section}
    (related : Forall₂ (Section.Related rel) sections results)
    (sameRoles : ∀ tested result, rel (pattern tested) (pattern result) →
      result.kind.role = tested.kind.role) : allConstant results = allConstant sections := by
  have labels {before after : List Label} (areLabels : Forall₂ (Label.Related rel) before after) :
      after.all Label.isConstant = before.all Label.isConstant := by
    induction areLabels with
    | nil => rfl
    | cons head _ ih =>
      rw [all_cons, all_cons, ih, head.isConstant sameRoles]
  unfold allConstant
  induction related with
  | nil => rfl
  | cons head _ ih =>
    rw [all_cons, all_cons, ih, labels head.labels]

section Imp

variable {other : Node → Node → Prop}

theorem Label.Related.imp (related : label.Related rel result)
    (each : ∀ child ∈ ofLabel label, ∀ result, rel child result → other child result) :
    label.Related other result := by
  cases related with
  | default => exact .default
  | case isTested isGuard =>
    obtain ⟨first, others⟩ := forall_mem_cons.mp each
    exact .case (first _ isTested) (forall₂_imp_mem isGuard others)

theorem Section.Related.imp {sect result : Section} (related : sect.Related rel result)
    (each : ∀ child ∈ ofSection sect, ∀ result, rel child result → other child result) :
    sect.Related other result := by
  obtain ⟨inLabels, inBody⟩ := forall_mem_append.mp each
  refine ⟨forall₂_imp_mem related.labels fun label isLabel result isRelated => ?_,
    forall₂_imp_mem related.body inBody⟩
  exact isRelated.imp (forall_mem_flatMap.mp inLabels label isLabel)

end Imp

end Related

/-! ## Rebuilds -/

section Rebuild

variable {m : Type → Type} [Monad m]

structure Rules.RelateAt (rules : Rules m) (outcomes : Outcomes m)
    (rel : Site → Node → Node → Prop) : Prop where
  expr (site : Site) (node : Expr) (kind : ExprKind) :
    node.kind.Related (rel (site.below (.expr node))) kind →
    outcomes.holds (rules.expr site node kind) fun result => rel site (.expr node) (.expr result)
  stmt (site : Site) (node : Stmt) (kind : StmtKind) :
    node.kind.Related (rel (site.below (.stmt node))) kind →
    outcomes.holds (rules.stmt site node kind) fun results =>
      ∃ result, results = [result] ∧ rel site (.stmt node) (.stmt result)
  pattern (site : Site) (node : Pattern) (kind : PatternKind) :
    node.kind.Related (rel (site.below (.pattern node))) kind →
    outcomes.holds (rules.pattern site node kind) fun result =>
      rel site (.pattern node) (.pattern result)

abbrev Rules.Relate (rules : Rules m) (outcomes : Outcomes m) (rel : Node → Node → Prop) : Prop :=
  rules.RelateAt outcomes fun _ => rel

variable {rules : Rules m} {outcomes : Outcomes m} {rel : Site → Node → Node → Prop}
  (relate : rules.RelateAt outcomes rel) {related : Node → Node → Prop}

theorem rebuildOption_relates [LawfulMonad m] {α : Type} {rebuild : α → m α} {roots : α → List Node}
    (relates : ∀ value, outcomes.holds (rebuild value) fun result =>
      Forall₂ related (roots value) (roots result)) :
    (value : Option α) → outcomes.holds (rebuildOption rebuild value) fun result =>
      Forall₂ related ((value.map roots).getD []) ((result.map roots).getD [])
  | none => outcomes.pure .nil
  | some value => by
    rw [rebuildOption, map_eq_pure_bind]
    exact outcomes.map (relates value) fun _ isValue => isValue

set_option linter.unusedSectionVars false

include relate

mutual

theorem Expr.rebuild_relates (site : Site) :
    (node : Expr) → outcomes.holds (node.rebuild rules site) fun result =>
      rel site (expr node) (expr result)
  | ⟨mark, kind⟩ => outcomes.bind (kind.rebuild_relates _) fun rebuilt related =>
    relate.expr site ⟨mark, kind⟩ rebuilt related

theorem ExprKind.rebuild_relates (site : Site) :
    (kind : ExprKind) → outcomes.holds (kind.rebuild rules site) (kind.Related (rel site))
  | .literal _ | .ident _ | .self | .base | .typeRef _ | .memberBinding _
  | .defaultOf _ | .declaration .. | .discard => outcomes.pure (.alone rfl)
  | .member inner _ | .fromEnd inner | .unary _ inner | .typeTest inner _
  | .cast _ inner | .spread inner | .throw inner | .await inner | .out inner =>
    outcomes.map (inner.rebuild_relates site) fun _ isInner =>
      .other rfl rfl rfl (.cons isInner .nil)
  | .paren inner =>
    outcomes.map (inner.rebuild_relates site) fun _ isInner => .paren isInner
  | .conditionalAccess left right | .binary _ left right | .assign _ left right =>
    outcomes.map₂ (left.rebuild_relates site) (right.rebuild_relates site)
      fun _ _ isLeft isRight => .other rfl rfl rfl (.cons isLeft (.cons isRight .nil))
  | .elementBinding items | .collection items | .tuple items =>
    outcomes.map (rebuildExprs_relates site items) fun _ areItems =>
      .other rfl rfl rfl areItems
  | .call head args =>
    outcomes.bind (head.rebuild_relates site) fun _ isHead =>
      outcomes.bind (rebuildExprs_relates site args) fun results areArgs =>
        have sameLength : args.length = results.length := by simpa [ofExprs] using areArgs.length_eq
        outcomes.pure (.other rfl rfl (congrArg Head.call sameLength.symm) (.cons isHead areArgs))
  | .index head args =>
    outcomes.map₂ (head.rebuild_relates site) (rebuildExprs_relates site args)
      fun _ _ isHead areArgs => .other rfl rfl rfl (.cons isHead areArgs)
  | .range start stop =>
    outcomes.bind (rebuildExpr?_relates site start) fun _ isStart =>
      outcomes.bind (rebuildExpr?_relates site stop) fun _ isStop =>
        have sameHead := congrArg₂ Head.range (isSome_of_related isStart) (isSome_of_related isStop)
        outcomes.pure (.other rfl rfl sameHead (rel_append isStart isStop))
  | .conditional cond yes no =>
    outcomes.bind (cond.rebuild_relates site) fun _ isCond =>
      outcomes.map₂ (yes.rebuild_relates site) (no.rebuild_relates site)
        fun _ _ isYes isNo => .other rfl rfl rfl (.cons isCond (.cons isYes (.cons isNo .nil)))
  | .isPattern subject tested =>
    outcomes.map₂ (subject.rebuild_relates site) (tested.rebuild_relates site)
      fun _ _ isSubject isTested => .test isSubject isTested
  | .seq effects value =>
    outcomes.map₂ (rebuildExprs_relates site effects) (value.rebuild_relates site)
      fun _ _ areEffects isValue => .other rfl rfl rfl (rel_append areEffects (.cons isValue .nil))
  | .lambda _ params _ body =>
    outcomes.map₂ (rebuildParams_relates site params) (body.rebuild_relates site)
      fun _ _ areParams isBody => .lambda areParams isBody
  | .create _ args inits =>
    outcomes.map₂ (rebuildExprs_relates site args) (rebuildInits_relates site inits)
      fun _ _ areArgs areInits => .other rfl rfl rfl (rel_append areArgs areInits)
  | .copyWith receiver inits =>
    outcomes.map₂ (receiver.rebuild_relates site) (rebuildInits_relates site inits)
      fun _ _ isReceiver areInits => .other rfl rfl rfl (.cons isReceiver areInits)
  | .switch subject arms =>
    outcomes.map₂ (subject.rebuild_relates site) (rebuildArms_relates site arms)
      fun _ _ isSubject areArms =>
        .other rfl rfl (congrArg Head.switch (Arm.Related.guarded areArms))
          (.cons isSubject (rel_flatMap areArms fun _ _ isArm => isArm.children))
  | .interpolated parts =>
    outcomes.map (rebuildParts_relates site parts) fun _ areParts =>
      .other rfl rfl (congrArg Head.interpolated (Part.Related.aligned areParts)) (rel_flatMap
        areParts fun _ _ isPart => isPart.children)

theorem Stmt.rebuildMany_relates (site : Site) :
    (node : Stmt) → outcomes.holds (node.rebuildMany rules site) fun results =>
      ∃ result, results = [result] ∧ rel site (stmt node) (stmt result)
  | ⟨mark, kind⟩ => outcomes.bind (kind.rebuild_relates _) fun rebuilt related =>
    relate.stmt site ⟨mark, kind⟩ rebuilt related

theorem StmtKind.rebuild_relates (site : Site) :
    (kind : StmtKind) → outcomes.holds (kind.rebuild rules site) (kind.Related (rel site))
  | .block body =>
    outcomes.map (rebuildStmts_relates site body) fun _ areItems => .block areItems
  | .eval value =>
    outcomes.map (value.rebuild_relates site) fun _ isValue =>
      .other rfl rfl rfl rfl (.cons isValue .nil)
  | .declare _ _ value =>
    outcomes.map (rebuildExpr?_relates site value) fun _ isValue => .declare isValue
  | .ret value | .throw value =>
    outcomes.map (rebuildExpr?_relates site value) fun _ isValue =>
      .other rfl rfl rfl rfl isValue
  | .ifElse cond yes no =>
    outcomes.bind (cond.rebuild_relates site) fun _ isCond =>
      outcomes.map₂ (yes.rebuildMany_relates site) (rebuildStmt?_relates site no)
        fun _ _ ⟨_, single, isYes⟩ isNo => .ifElse isCond (single ▸ isYes) isNo
  | .whileLoop cond body =>
    outcomes.map₂ (cond.rebuild_relates site) (body.rebuildMany_relates site)
      fun _ _ isCond ⟨_, single, isBody⟩ =>
        .other rfl rfl rfl rfl (.cons isCond (.cons (single ▸ isBody) .nil))
  | .forLoop init cond step body =>
    outcomes.bind (rebuildEachStmt_relates site init) fun _ areInits =>
      outcomes.bind (rebuildExpr?_relates site cond) fun _ isCond =>
        outcomes.map₂ (rebuildExprs_relates site step) (body.rebuildMany_relates site)
          fun _ _ areSteps ⟨_, single, isBody⟩ =>
            .forLoop areInits isCond areSteps (single ▸ isBody)
  | .forEach _ _ iterable body =>
    outcomes.map₂ (iterable.rebuild_relates site) (body.rebuildMany_relates site)
      fun _ _ isIterable ⟨_, single, isBody⟩ =>
        .other rfl rfl rfl rfl (.cons isIterable (.cons (single ▸ isBody) .nil))
  | .switch subject sections =>
    outcomes.map₂ (subject.rebuild_relates site)
      (rebuildSections_relates site sections) fun _ _ isSubject areSections =>
        .switch isSubject areSections
  | .localFunction _ _ params _ body =>
    outcomes.map₂ (rebuildParams_relates site params) (body.rebuild_relates site)
      fun _ _ areParams isBody => .other rfl rfl rfl rfl (rel_append areParams isBody)
  | .breakLoop | .continueLoop | .empty => outcomes.pure (.other rfl rfl rfl rfl .nil)

theorem Pattern.rebuild_relates (site : Site) :
    (node : Pattern) → outcomes.holds (node.rebuild rules site) fun result =>
      rel site (pattern node) (pattern result)
  | ⟨mark, kind⟩ => outcomes.bind (kind.rebuild_relates _) fun rebuilt related =>
    relate.pattern site ⟨mark, kind⟩ rebuilt related

theorem PatternKind.rebuild_relates (site : Site) :
    (kind : PatternKind) → outcomes.holds (kind.rebuild rules site) (kind.Related (rel site))
  | .declaration .. | .var _ | .type _ | .discard | .slice none => outcomes.pure (.alone rfl)
  | .constant value | .relational _ value =>
    outcomes.map (value.rebuild_relates site) fun _ isValue =>
      .other rfl rfl (.cons isValue .nil) rfl rfl
  | .recursive _ positional properties _ =>
    outcomes.map₂ (rebuildPatterns_relates site positional)
      (rebuildProperties_relates site properties) fun _ _ arePositional areProperties =>
        .other rfl rfl (rel_append arePositional areProperties) rfl rfl
  | .list elements _ =>
    outcomes.map (rebuildPatterns_relates site elements) fun _ areElements =>
      .other rfl rfl areElements rfl rfl
  | .slice (some inner) | .not inner | .paren inner =>
    outcomes.map (inner.rebuild_relates site) fun _ isInner =>
      .other rfl rfl (.cons isInner .nil) rfl rfl
  | .and left right | .or left right =>
    outcomes.map₂ (left.rebuild_relates site) (right.rebuild_relates site)
      fun _ _ isLeft isRight => .other rfl rfl (.cons isLeft (.cons isRight .nil)) rfl rfl

theorem rebuildExprs_relates (site : Site) :
    (nodes : List Expr) → outcomes.holds (rebuildExprs rules site nodes) fun results =>
      Forall₂ (rel site) (ofExprs nodes) (ofExprs results)
  | [] => outcomes.pure .nil
  | node :: rest =>
    outcomes.map₂ (node.rebuild_relates site) (rebuildExprs_relates site rest)
      fun _ _ isFirst others => .cons isFirst others

theorem rebuildExpr?_relates (site : Site) :
    (node : Option Expr) → outcomes.holds (rebuildExpr? rules site node) fun result =>
      Forall₂ (rel site) (ofExpr? node) (ofExpr? result)
  | none => outcomes.pure .nil
  | some node =>
    outcomes.map (node.rebuild_relates site) fun _ isNode => .cons isNode .nil

theorem rebuildStmts_relates (site : Site) :
    (nodes : List Stmt) → outcomes.holds (rebuildStmts rules site nodes) fun results =>
      Forall₂ (rel site) (ofStmts nodes) (ofStmts results)
  | [] => outcomes.pure .nil
  | node :: rest =>
    outcomes.map₂ (node.rebuildMany_relates site) (rebuildStmts_relates site rest)
      fun _ _ ⟨_, single, isFirst⟩ others => single ▸ .cons isFirst others

theorem rebuildEachStmt_relates (site : Site) :
    (nodes : List Stmt) → outcomes.holds (rebuildEachStmt rules site nodes) fun results =>
      Forall₂ (rel site) (ofStmts nodes) (ofStmts results)
  | [] => outcomes.pure .nil
  | node :: rest =>
    outcomes.map₂ (node.rebuildMany_relates site) (rebuildEachStmt_relates site rest)
      fun _ _ ⟨_, single, isFirst⟩ others => single ▸ .cons isFirst others

theorem rebuildStmt?_relates (site : Site) :
    (node : Option Stmt) → outcomes.holds (rebuildStmt? rules site node) fun result =>
      Forall₂ (rel site) (ofStmt? node) (ofStmt? result)
  | none => outcomes.pure .nil
  | some node =>
    outcomes.map (node.rebuildMany_relates site) fun _ ⟨_, single, isNode⟩ =>
      single ▸ .cons isNode .nil

theorem rebuildPatterns_relates (site : Site) :
    (nodes : List Pattern) → outcomes.holds (rebuildPatterns rules site nodes) fun results =>
      Forall₂ (rel site) (nodes.map pattern) (results.map pattern)
  | [] => outcomes.pure .nil
  | node :: rest =>
    outcomes.map₂ (node.rebuild_relates site) (rebuildPatterns_relates site rest)
      fun _ _ isFirst others => .cons isFirst others

theorem rebuildProperties_relates (site : Site) : (properties : List PropertyPattern) →
      outcomes.holds (rebuildProperties rules site properties) fun results =>
        Forall₂ (rel site) (properties.map fun property => pattern property.pattern)
          (results.map fun property => pattern property.pattern)
  | [] => outcomes.pure .nil
  | ⟨_, inner⟩ :: rest =>
    outcomes.map₂ (inner.rebuild_relates site) (rebuildProperties_relates site rest)
      fun _ _ isFirst others => .cons isFirst others

theorem rebuildParams_relates (site : Site) :
    (params : List Param) → outcomes.holds (rebuildParams rules site params) fun results =>
      Forall₂ (rel site) (ofParams params) (ofParams results)
  | [] => outcomes.pure .nil
  | ⟨_, _, _, default⟩ :: rest =>
    outcomes.map₂ (rebuildExpr?_relates site default)
      (rebuildParams_relates site rest) fun _ _ isDefault others =>
        rel_append isDefault others

theorem LambdaBody.rebuild_relates (site : Site) :
    (body : LambdaBody) → outcomes.holds (body.rebuild rules site) fun result =>
      Forall₂ (rel site) (ofLambdaBody body) (ofLambdaBody result)
  | .expr value =>
    outcomes.map (value.rebuild_relates site) fun _ isValue => .cons isValue .nil
  | .block body =>
    outcomes.map (body.rebuildMany_relates site) fun _ ⟨_, single, isBody⟩ =>
      single ▸ .cons isBody .nil

theorem Body.rebuild_relates (site : Site) :
    (body : Body) → outcomes.holds (body.rebuild rules site) fun result =>
      Forall₂ (rel site) (ofBody body) (ofBody result)
  | .none => outcomes.pure .nil
  | .expr value =>
    outcomes.map (value.rebuild_relates site) fun _ isValue => .cons isValue .nil
  | .block body =>
    outcomes.map (body.rebuildMany_relates site) fun _ ⟨_, single, isBody⟩ =>
      single ▸ .cons isBody .nil

theorem rebuildInits_relates (site : Site) :
    (inits : List FieldInit) → outcomes.holds (rebuildInits rules site inits) fun results =>
      Forall₂ (rel site) (ofInits inits) (ofInits results)
  | [] => outcomes.pure .nil
  | ⟨_, value⟩ :: rest =>
    outcomes.map₂ (value.rebuild_relates site) (rebuildInits_relates site rest)
      fun _ _ isFirst others => .cons isFirst others

theorem rebuildArms_relates (site : Site) :
    (arms : List Arm) → outcomes.holds (rebuildArms rules site arms) fun results =>
      Forall₂ (Arm.Related (rel site)) arms results
  | [] => outcomes.pure .nil
  | ⟨_, tested, guard, result⟩ :: rest =>
    outcomes.bind (tested.rebuild_relates site) fun _ isTested =>
      outcomes.bind (rebuildExpr?_relates site guard) fun _ isGuard =>
        outcomes.map₂ (result.rebuild_relates site) (rebuildArms_relates site rest)
          fun _ _ isResult others => .cons ⟨isTested, isGuard, isResult⟩ others

theorem rebuildParts_relates (site : Site) :
    (parts : List Part) → outcomes.holds (rebuildParts rules site parts) fun results =>
      Forall₂ (Part.Related (rel site)) parts results
  | [] => outcomes.pure .nil
  | .text content :: rest =>
    outcomes.map (rebuildParts_relates site rest) fun _ others =>
      .cons (.text content) others
  | .hole value alignment _ :: rest =>
    outcomes.bind (value.rebuild_relates site) fun _ isValue =>
      outcomes.map₂ (rebuildExpr?_relates site alignment)
        (rebuildParts_relates site rest) fun _ _ isAlignment others =>
          .cons (.hole isValue isAlignment) others

theorem rebuildSections_relates (site : Site) :
    (sections : List Section) → outcomes.holds (rebuildSections rules site sections) fun results =>
      Forall₂ (Section.Related (rel site)) sections results
  | [] => outcomes.pure .nil
  | ⟨labels, body⟩ :: rest =>
    outcomes.bind (rebuildLabels_relates site labels) fun _ areLabels =>
      outcomes.map₂ (rebuildStmts_relates site body)
        (rebuildSections_relates site rest) fun _ _ isBody others =>
          .cons ⟨areLabels, isBody⟩ others

theorem rebuildLabels_relates (site : Site) :
    (labels : List Label) → outcomes.holds (rebuildLabels rules site labels) fun results =>
      Forall₂ (Label.Related (rel site)) labels results
  | [] => outcomes.pure .nil
  | .default :: rest =>
    outcomes.map (rebuildLabels_relates site rest) fun _ others => .cons .default others
  | .case tested guard :: rest =>
    outcomes.bind (tested.rebuild_relates site) fun _ isTested =>
      outcomes.map₂ (rebuildExpr?_relates site guard)
        (rebuildLabels_relates site rest) fun _ _ isGuard others =>
          .cons (.case isTested isGuard) others

end

theorem rebuildBody?_relates {site : Site} :
    (body : Option Body) → outcomes.holds (rebuildBody? rules site body) fun result =>
      Forall₂ (rel site) ((body.map ofBody).getD []) ((result.map ofBody).getD [])
  | none => outcomes.pure .nil
  | some body =>
    outcomes.map (body.rebuild_relates relate site) fun _ isBody => isBody

theorem MemberKind.rebuild_relates (site : Site) :
    (kind : MemberKind) → outcomes.holds (kind.rebuild rules site) fun result =>
      Forall₂ (rel site) kind.roots result.roots
  | .field _ _ init =>
    outcomes.map (rebuildExpr?_relates relate site init) fun _ isInit => isInit
  | .property _ _ getter setter init =>
    outcomes.bind (rebuildBody?_relates relate getter) fun _ isGetter =>
      outcomes.map₂ (rebuildBody?_relates relate setter)
        (rebuildExpr?_relates relate site init) fun _ _ isSetter isInit =>
          rel_append (rel_append isGetter isSetter) isInit
  | .method _ _ params _ body | .operator _ params _ body =>
    outcomes.map₂ (rebuildParams_relates relate site params) (body.rebuild_relates relate site)
      fun _ _ areParams isBody => rel_append areParams isBody
  | .ctor params none body =>
    outcomes.map₂ (rebuildParams_relates relate site params) (body.rebuild_relates relate site)
      fun _ _ areParams isBody => rel_append (rel_append areParams .nil) isBody
  | .ctor params (some ⟨_, args⟩) body =>
    outcomes.bind (rebuildParams_relates relate site params) fun _ areParams =>
      outcomes.map₂ (rebuildExprs_relates relate site args) (body.rebuild_relates relate site)
        fun _ _ areArgs isBody => rel_append (rel_append areParams areArgs) isBody

/-- Related as parts of a unit that one declaration or member owns. -/
def Placed (rel : Site → Node → Node → Prop) (place result : Site × Node) : Prop :=
  ∃ owner, place.1 = ⟨owner, []⟩ ∧ result.1 = ⟨owner, []⟩ ∧ rel ⟨owner, []⟩ place.2 result.2

omit relate in
theorem placed (owner : Owner) {nodes results : List Node}
    (areRelated : Forall₂ (rel ⟨owner, []⟩) nodes results) :
    Forall₂ (Placed rel) (nodes.map (Prod.mk ⟨owner, []⟩)) (results.map (Prod.mk ⟨owner, []⟩)) :=
  forall₂_map_left_iff.mpr (forall₂_map_right_iff.mpr
    (areRelated.imp fun _ _ isRelated => ⟨owner, rfl, rfl, isRelated⟩))

theorem rebuildMembers_relates (type : Nat) : (index : Nat) → (members : List Member) →
      outcomes.holds (rebuildMembers rules type index members) fun results =>
        Forall₂ (Placed rel) (memberPlaces type index members) (memberPlaces type index results)
  | _, [] => outcomes.pure .nil
  | index, member :: rest =>
    outcomes.map₂ (member.kind.rebuild_relates relate ⟨.member type index, []⟩)
      (rebuildMembers_relates type (index + 1) rest) fun _ _ isFirst others =>
        rel_append (placed (.member type index) isFirst) others

variable [LawfulMonad m]

theorem rebuildTypes_relates : (index : Nat) → (types : List TypeDecl) →
      outcomes.holds (rebuildTypes rules index types) fun results =>
        Forall₂ (Placed rel) (typePlaces index types) (typePlaces index results)
  | _, [] => outcomes.pure .nil
  | index, decl :: rest => by
    have rebuilt : outcomes.holds (decl.rebuild rules index) fun result =>
        Forall₂ (Placed rel)
          (decl.headerRoots.map (Prod.mk ⟨.header index, []⟩) ++ memberPlaces index 0 decl.members)
          (result.headerRoots.map (Prod.mk ⟨.header index, []⟩) ++
            memberPlaces index 0 result.members) := by
      rw [TypeDecl.rebuild_eq]
      exact outcomes.bind (rebuildOption_relates (rebuildParams_relates relate _) decl.primary)
        fun _ isPrimary =>
          outcomes.map₂ (rebuildOption_relates (rebuildExprs_relates relate _) decl.baseArgs)
            (rebuildMembers_relates relate index 0 decl.members) fun _ _ areArgs areMembers =>
              rel_append (placed (.header index) (rel_append isPrimary areArgs)) areMembers
    exact outcomes.map₂ rebuilt (rebuildTypes_relates (index + 1) rest)
      fun _ _ isFirst others => rel_append isFirst others

theorem CompilationUnit.rebuild_places
    (unit : CompilationUnit) : outcomes.holds (unit.rebuild rules) fun result =>
      Forall₂ (Placed rel) unit.places result.places :=
  outcomes.map (rebuildTypes_relates relate 0 unit.types) fun _ areTypes => areTypes

/-- Related as parts of a unit that nothing stands around. -/
def AtRoot (rel : Site → Node → Node → Prop) (node result : Node) : Prop :=
  ∃ owner, rel ⟨owner, []⟩ node result

theorem CompilationUnit.rebuild_relatesAt
    (unit : CompilationUnit) : outcomes.holds (unit.rebuild rules) fun result =>
      Forall₂ (AtRoot rel) unit.roots result.roots := by
  rw [← bind_pure (unit.rebuild rules)]
  refine outcomes.map (unit.rebuild_places relate) fun result arePlaces => ?_
  rw [← unit.places_roots, ← result.places_roots, forall₂_map_left_iff,
    forall₂_map_right_iff]
  exact arePlaces.imp fun _ _ ⟨owner, _, _, isRelated⟩ => ⟨owner, isRelated⟩

omit relate in
theorem CompilationUnit.rebuild_relates (relate : rules.Relate outcomes related)
    (unit : CompilationUnit) :
    outcomes.holds (unit.rebuild rules) fun result =>
      Forall₂ related unit.roots result.roots := by
  rw [← bind_pure (unit.rebuild rules)]
  exact outcomes.map (unit.rebuild_relatesAt relate) fun result areRoots =>
    areRoots.imp fun _ _ ⟨_, isRelated⟩ => isRelated

end Rebuild

end Unsugar
