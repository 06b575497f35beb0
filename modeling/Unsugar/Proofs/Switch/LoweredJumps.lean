import Unsugar.Proofs.Hoist.Identities
import Unsugar.Proofs.Ownership.Tests
import Unsugar.Proofs.Switch.RelatedRebuilds
import Unsugar.Proofs.Switch.TestedJumps

open List

namespace Unsugar

/-! # Jumps of lowered switches

Once a switch is a chain of `if` statements, a `break` would go to what is around it,
so none may be left that went to the switch.  `Node.Turned` says how what a node says
about control becomes what its result says, and `Node.Loses` which part is lost on
the way.
-/

open Node

/-! ## What is lost -/

/-- What a node says that is gone once the switches with patterns in it are lowered. -/
inductive Node.Loses (view : View) : Node → JumpScope → Control → Prop where
  | ending {mark broken : Mark} {scope : JumpScope} {subject : Expr} {sections : List Section}
      {sect : Section} (isPatterned : allConstant sections = false) (isSection : sect ∈ sections)
      (endIn : EndIn (ofStmts sect.body) broken) :
      Loses view (stmt ⟨mark, .switch subject sections⟩) scope (.jump broken true (some mark))
  | unchosen {mark : Mark} {scope : JumpScope} {control : Control} {subject : Expr}
      {before after : List Section} {sect : Section}
      (isPatterned : allConstant (before ++ sect :: after) = false)
      (never : sect.labels = [] ∨ sect.hasDefault = true ∧ ∃ later ∈ after, later.hasDefault = true)
      (shown : Shown (ofSection sect) { scope with breakTo := some mark } control) :
      Loses view (stmt ⟨mark, .switch subject (before ++ sect :: after)⟩) scope control
  | beside {mark : Mark} {scope : JumpScope} {control : Control} {subject : Expr}
      {sections : List Section} {sect : Section} (isPatterned : allConstant sections = false)
      (isSection : sect ∈ sections) (hasDefault : sect.hasDefault = true)
      (shown : Shown (sect.labels.flatMap ofLabel) { scope with breakTo := some mark } control) :
      Loses view (stmt ⟨mark, .switch subject sections⟩) scope control
  | null {mark : Mark} {scope : JumpScope} {control : Control} {subject : Expr}
      {sections : List Section} {sect : Section} {tested : Pattern} {guard : Option Expr}
      (isPatterned : allConstant sections = false) (isSection : sect ∈ sections)
      (isLabel : .case tested guard ∈ sect.labels)
      (nulls : tested.Nulls view { scope with breakTo := some mark } control) :
      Loses view (stmt ⟨mark, .switch subject sections⟩) scope control
  | inside {node child : Node} {scope : JumpScope} {control : Control}
      (isChild : child ∈ node.children) (loses : child.Loses view (scope.below node) control) :
      Loses view node scope control

def Lost (view : View) (nodes : List Node) (scope : JumpScope) (control : Control) : Prop :=
  ∃ node ∈ nodes, node.Loses view scope control

/-! ## What becomes of nodes -/

/-- Whether something is said about a switch with patterns. -/
def Control.isPatterned : Control → Bool
  | patterned _ => true
  | _ => false

/-- A result says nothing that its node does not say, no switch with patterns is left,
    and what the result does not say any more is lost for a reason. -/
structure Node.Turned (view : View) (node result : Node) : Prop where
  mark : result.mark = node.mark
  role : node.isCode = false → result.role = node.role
  isPattern : result.isPattern = node.isPattern
  found {scope : JumpScope} {control : Control} :
    result.Shows scope control → node.Shows scope control ∧ control.isPatterned = false
  lost {scope : JumpScope} {control : Control} : control.isPatterned = false →
    node.Shows scope control → result.Shows scope control ∨ node.Loses view scope control
  ends {mark : Mark} : result.EndsIn mark → node.EndsIn mark
  nulls {before after : Pattern} {scope : JumpScope} {control : Control} :
    node = pattern before → result = pattern after → after.Nulls view scope control →
      before.Nulls view scope control

section Turned

variable {view : View} {nodes results : List Node} {node result : Node} {scope : JumpScope}
  {control : Control} {mark : Mark}

theorem Shown.turned (turned : Forall₂ (Node.Turned view) nodes results)
    (shown : Shown results scope control) :
    Shown nodes scope control ∧ control.isPatterned = false := by
  obtain ⟨result, isResult, shows'⟩ := shown
  obtain ⟨node, isNode, isTurned⟩ := exists_left turned isResult
  obtain ⟨before, notPatterned⟩ := isTurned.found shows'
  exact ⟨⟨node, isNode, before⟩, notPatterned⟩

theorem Shown.kept_or_lost (turned : Forall₂ (Node.Turned view) nodes results)
    (notPatterned : control.isPatterned = false) (shown : Shown nodes scope control) :
    Shown results scope control ∨ Lost view nodes scope control := by
  obtain ⟨node, isNode, shows'⟩ := shown
  obtain ⟨result, isResult, isTurned⟩ := exists_right turned isNode
  rcases isTurned.lost notPatterned shows' with kept | loses
  · exact .inl ⟨result, isResult, kept⟩
  · exact .inr ⟨node, isNode, loses⟩

theorem EndIn.turned (turned : Forall₂ (Node.Turned view) nodes results)
    (endIn : EndIn results mark) : EndIn nodes mark := by
  obtain ⟨last, isLast, endsIn⟩ := endIn
  obtain ⟨other, isOther, isTurned⟩ := exists_left_last turned isLast
  exact ⟨other, isOther, isTurned.ends endsIn⟩

/-! ## Nodes that are kept -/

theorem Node.control?_congr (sameMark : result.mark = node.mark)
    (sameRole : result.role = node.role) : result.control? scope = node.control? scope := by
  simp [control?, sameMark, sameRole]

theorem JumpScope.below_congr (sameMark : result.mark = node.mark)
    (sameRole : result.role = node.role) : scope.below result = scope.below node := by
  simp [below, sameMark, sameRole]

theorem View.isNull_congr {value other : Expr} (sameMark : other.mark = value.mark)
    (sameRole : other.kind.role = value.kind.role) : view.isNull other = view.isNull value := by
  have byRole (value : Expr) : view.isNull value =
      (value.kind.role == .null || view.constant? value == some .null) := by
    obtain ⟨mark, kind⟩ := value
    cases kind with
    | literal value => cases value <;> simp [View.isNull, ExprKind.role]
    | _ => simp [View.isNull, ExprKind.role]
  have sameConstant : view.constant? other = view.constant? value := by
    simp [View.constant?, Expr.id, sameMark]
  rw [byRole, byRole, sameRole, sameConstant]

theorem PatternKind.exists_constant {kind : PatternKind} (isConstant : kind.role = .constant) :
    ∃ value, kind = .constant value := by
  cases kind with
  | constant value => exact ⟨value, rfl⟩
  | _ => cases isConstant

theorem Pattern.Nulls.turned {before after : Pattern}
    (sameRole : after.kind.role = before.kind.role)
    (children : Forall₂ (Node.Turned view) before.kind.children after.kind.children)
    (nulls : after.Nulls view scope control) : before.Nulls view scope control := by
  cases nulls with
  | @constant mark value isNull shows' =>
    obtain ⟨mark, kind⟩ := before
    obtain ⟨original, rfl⟩ := PatternKind.exists_constant sameRole.symm
    obtain ⟨isTurned, -⟩ := forall₂_cons.mp children
    refine .constant ?_ (isTurned.found shows').1
    rwa [← View.isNull_congr isTurned.mark (isTurned.role rfl)]
  | inside isChild nulls =>
    obtain ⟨child, isBefore, isTurned⟩ := exists_left children isChild
    cases child with
    | pattern inner => exact .inside isBefore (isTurned.nulls rfl rfl nulls)
    | expr | stmt => cases isTurned.isPattern

theorem Node.Turned.kept (sameMark : result.mark = node.mark) (sameRole : result.role = node.role)
    (sameSort : result.isPattern = node.isPattern) (notPatterned : node.role ≠ .patterned)
    (children : Forall₂ (Node.Turned view) node.children result.children) :
    node.Turned view result where
  mark := sameMark
  role _ := sameRole
  isPattern := sameSort
  found {scope control} shows' := by
    rcases Node.shows_iff.mp shows' with isControl | shown
    · rw [Node.control?_congr sameMark sameRole] at isControl
      refine ⟨.here isControl, ?_⟩
      unfold Node.control? at isControl
      split at isControl <;> cases isControl
      · rfl
      · rfl
      · rfl
      · rfl
      · contradiction
    · rw [JumpScope.below_congr sameMark sameRole] at shown
      obtain ⟨before, isUnpatterned⟩ := shown.turned children
      exact ⟨Node.shows_iff.mpr (.inr before), isUnpatterned⟩
  lost {scope control} isUnpatterned shows' := by
    rw [Node.shows_iff, Node.control?_congr sameMark sameRole,
      JumpScope.below_congr sameMark sameRole]
    rcases Node.shows_iff.mp shows' with isControl | shown
    · exact .inl (.inl isControl)
    · rcases shown.kept_or_lost children isUnpatterned with kept | ⟨child, isChild, loses⟩
      · exact .inl (.inr kept)
      · exact .inr (.inside isChild loses)
  ends {mark} endsIn := by
    cases endsIn with
    | here isBreak => exact sameMark ▸ .here (sameRole.symm.trans isBreak)
    | last isBlock isLast endsIn =>
      obtain ⟨child, isBefore, isTurned⟩ := exists_left_last children isLast
      exact .last (sameRole.symm.trans isBlock) isBefore (isTurned.ends endsIn)
  nulls {before after scope control} isBefore isAfter nulls := by
    subst isBefore isAfter
    exact nulls.turned sameRole children

end Turned

/-! ## Labels -/

section Labels

variable {scope : JumpScope} {control : Control}

theorem Pattern.Compares.shows {node : Pattern} {value : Expr} (compares : node.Compares value)
    (valueShows : (expr value).Shows scope control) : (pattern node).Shows scope control := by
  induction compares with
  | itself isChild => exact shows_pattern.mpr ⟨_, isChild, valueShows⟩
  | inside isChild _ ih =>
    exact shows_pattern.mpr ⟨_, isChild, ih valueShows⟩

theorem Expr.isSimple_rebuilt_forget : (node : Expr) → node.isSimple = true → (site : Site) →
    (node.rebuilt Rules.forget site).isSimple = true
  | ⟨_, .literal _⟩, _, _ | ⟨_, .ident _⟩, _, _ | ⟨_, .self⟩, _, _ | ⟨_, .base⟩, _, _
  | ⟨_, .typeRef _⟩, _, _ | ⟨_, .defaultOf _⟩, _, _ => rfl
  | ⟨mark, .paren ⟨other, inner⟩⟩, isSimple, site =>
    Expr.isSimple_rebuilt_forget ⟨other, inner⟩ isSimple
      (site.below (expr ⟨mark, .paren ⟨other, inner⟩⟩))

namespace Label.TestedAs

variable {env : PassEnv} {id : Nat} {subject : Pass.Subject} {label : Label} {test : LabelTest}

theorem shown (tested : label.TestedAs env id subject test) (simple : subject.expr.isSimple = true)
    (shows' : (expr test.condition).Shows scope control) : Shown (ofLabel label) scope control := by
  cases label with
  | default => exact tested.elim
  | case tested guard =>
    obtain ⟨-, isGuard, before, after, ran⟩ := tested
    have ofCond (shows' : (expr test.cond).Shows scope control) :
        (pattern tested).Shows scope control := by
      let given (node : Expr) : Prop := tested.Compares node ∨ node.isSimple = true
      have allows : Pass.Allows given (·.isSimple = true) (fun _ _ => True) tested.span :=
        ⟨fun _ => .inr, fun node site isSimple => node.isSimple_rebuilt_forget isSimple site,
          fun _ => trivial⟩
      have made := Pass.patternCondition_made (.stmt id) tested.span allows
        (.given simple) ⟨fun _ => .inl, fun _ _ _ => trivial⟩ env before test.cond after ran
      obtain ⟨part, compares | isSimple, partShows⟩ := made.shows_given shows'
      · exact compares.shows partShows
      · exact absurd partShows (part.isSimple_not_shows isSimple)
    unfold LabelTest.condition at shows'
    rw [isGuard] at shows'
    cases guard with
    | none => exact shown_cons.mpr (.inl (ofCond shows'))
    | some guard =>
      rcases shows_binary.mp shows' with inCond | inGuard
      · exact shown_cons.mpr (.inl (ofCond inCond))
      · exact shown_cons.mpr (.inr (by simpa [ofExpr?] using inGuard))

theorem kept (tested : label.TestedAs env id subject test) (simple : subject.expr.isSimple = true)
    (shown : Shown (ofLabel label) scope control) :
    (expr test.condition).Shows scope control ∨
      ∃ tested guard, label = .case tested guard ∧ tested.Nulls env.view scope control := by
  cases label with
  | default => exact tested.elim
  | case tested guard =>
    obtain ⟨-, isGuard, before, after, ran⟩ := tested
    have keeps := (Pass.patternCondition_tests env (.stmt id) tested.span scope control simple
      before test.cond after ran).1
    unfold LabelTest.condition
    rw [isGuard]
    rcases shown_cons.mp shown with inPattern | inGuard
    · rcases Pattern.nulls_or_keeps inPattern with nulls | inValue
      · exact .inr ⟨tested, guard, rfl, nulls⟩
      · cases guard with
        | none => exact .inl (keeps inValue)
        | some guard => exact .inl (shows_binary.mpr (.inl (keeps inValue)))
    · cases guard with
      | none => exact (shown_nil.mp inGuard).elim
      | some guard => exact .inl (shows_binary.mpr (.inr (by simpa [ofExpr?] using inGuard)))

end Label.TestedAs

end Labels

/-! ## Sections -/

mutual

theorem Stmt.countP_breaks (id : Nat) : (node : Stmt) →
    node.breaks.countP (Stmt.hasId id) ≤ (stmt node).count id
  | ⟨mark, kind⟩ => by
    rw [count_stmt]
    cases kind with
    | breakLoop =>
      change [_].countP _ ≤ _
      rw [countP_singleton]
      split
      · rename_i hasId
        rw [Stmt.bears_of_hasId hasId]
        exact Nat.le_add_right _ _
      · exact Nat.zero_le _
    | block body => exact Nat.le_trans (countP_breaksIn body) (Nat.le_add_left _ _)
    | ifElse cond yes no =>
      have inYes := Stmt.countP_breaks id yes
      have inNo := countP_breaksIn? id no
      simp only [Stmt.breaks, StmtKind.breaks, StmtKind.children, countP_append, tally_cons]
      omega
    | _ => exact Nat.zero_le _

theorem countP_breaksIn {id : Nat} : (nodes : List Stmt) →
    (breaksIn nodes).countP (Stmt.hasId id) ≤ tally id (ofStmts nodes)
  | [] => Nat.le_refl 0
  | node :: rest => by
    rw [breaksIn, countP_append, ofStmts_cons, tally_cons]
    exact Nat.add_le_add (Stmt.countP_breaks id node) (countP_breaksIn rest)

theorem countP_breaksIn? (id : Nat) : (node : Option Stmt) →
    (breaksIn? node).countP (Stmt.hasId id) ≤ tally id (ofStmt? node)
  | none => Nat.le_refl 0
  | some node => by
    rw [breaksIn?, ofStmt?_some, tally_cons]
    exact Nat.le_trans (Stmt.countP_breaks id node) (Nat.le_add_right _ _)

end

theorem KeptOf.breakless {body kept : List Stmt} (isKept : KeptOf body kept)
    (once : ∀ id, tally id (ofStmts body) ≤ 1) : breaksIn kept = [] := by
  cases isKept with
  | whole none => exact none
  | @front _ dropped found isNumbered only =>
    obtain ⟨id, isId⟩ := Option.isSome_iff_exists.mp isNumbered
    have breaks := (endsInBreak_of_drop body kept dropped found).breaksIn_eq
    have each : ∀ node ∈ breaksIn body, node.hasId id = true := fun node isBreak =>
      beq_iff_eq.mpr ((only node isBreak).trans isId)
    have few := Nat.le_trans (countP_breaksIn body) (once id)
    rw [countP_eq_length.mpr each, breaks, length_append, length_singleton] at few
    exact eq_nil_of_length_eq_zero (by omega)

section KeptOf

variable {body kept : List Stmt} {scope : JumpScope} {control : Control}

theorem KeptOf.shown (isKept : KeptOf body kept) (shown : Shown (ofStmts kept) scope control) :
    Shown (ofStmts body) scope control := by
  cases isKept with
  | whole none => exact shown
  | front found => exact ((endsInBreak_of_drop _ _ _ found).shown.2 scope control).mpr (.inl shown)

theorem KeptOf.kept_or_ends (isKept : KeptOf body kept)
    (shown : Shown (ofStmts body) scope control) :
    Shown (ofStmts kept) scope control ∨
      ∃ broken, control = .jump broken true scope.breakTo ∧ EndIn (ofStmts body) broken := by
  cases isKept with
  | whole none => exact .inl shown
  | front found =>
    obtain ⟨endIn, iff⟩ := (endsInBreak_of_drop _ _ _ found).shown
    exact ((iff scope control).mp shown).imp_right fun isDropped => ⟨_, isDropped, endIn⟩

end KeptOf

/-- What becomes of a section: its tests, and what is left of its body. -/
structure Section.Lowered (view : View) (sect : Section) (plan : SectionPlan) : Prop where
  isDefault : plan.isDefault = sect.hasDefault
  untested : sect.hasDefault = true → plan.tests = []
  unlabeled : sect.hasDefault = false → plan.tests = [] → sect.labels = []
  breakless : breaksIn plan.kept = []
  tests {scope : JumpScope} {control : Control} {test : LabelTest} : test ∈ plan.tests →
    (expr test.condition).Shows scope control →
      Shown (sect.labels.flatMap ofLabel) scope control ∧ control.isPatterned = false
  labels {scope : JumpScope} {control : Control} : sect.hasDefault = false →
    control.isPatterned = false → Shown (sect.labels.flatMap ofLabel) scope control →
      (∃ test ∈ plan.tests, (expr test.condition).Shows scope control) ∨
      (∃ tested guard, .case tested guard ∈ sect.labels ∧ tested.Nulls view scope control) ∨
      Lost view (sect.labels.flatMap ofLabel) scope control
  kept {scope : JumpScope} {control : Control} : Shown (ofStmts plan.kept) scope control →
    Shown (ofStmts sect.body) scope control ∧ control.isPatterned = false
  body {scope : JumpScope} {control : Control} : control.isPatterned = false →
    Shown (ofStmts sect.body) scope control → Shown (ofStmts plan.kept) scope control ∨
      (∃ broken, control = .jump broken true scope.breakTo ∧ EndIn (ofStmts sect.body) broken) ∨
      Lost view (ofStmts sect.body) scope control

variable {env : PassEnv}

section Sections

variable {rel : Node → Node → Prop} {sect middle : Section}

theorem Section.Related.hasDefault (related : sect.Related rel middle) :
    middle.hasDefault = sect.hasDefault := by
  unfold Section.hasDefault
  have labels := related.labels
  generalize sect.labels = before at labels ⊢
  generalize middle.labels = after at labels ⊢
  induction labels with
  | nil => rfl
  | cons head _ ih =>
    rw [any_cons, any_cons, ih]
    cases head <;> rfl

theorem Section.cases_eq_labels (noDefault : sect.hasDefault = false) :
    sect.cases = sect.labels := by
  refine filter_eq_self.mpr fun label isLabel => ?_
  have notDefault := any_eq_false.mp noDefault label isLabel
  simpa using notDefault

theorem Section.Related.lowered {id : Nat} {subject : Pass.Subject} {plan : SectionPlan}
    (related : sect.Related (Node.Turned env.view) middle)
    (planned : middle.PlannedAs env id subject plan) (simple : subject.expr.isSimple = true)
    (once : ∀ id, tally id (ofStmts middle.body) ≤ 1) : sect.Lowered env.view plan := by
  have labels : Forall₂ (Node.Turned env.view) (sect.labels.flatMap ofLabel)
      (middle.labels.flatMap ofLabel) :=
    rel_flatMap related.labels fun _ _ isLabel => isLabel.children
  have tested (noDefault : sect.hasDefault = false) :
      Forall₂ (Label.TestedAs env id subject) middle.labels plan.tests := by
    have noDefault : middle.hasDefault = false := related.hasDefault.trans noDefault
    rw [← Section.cases_eq_labels noDefault]
    exact planned.tests noDefault
  refine {
    isDefault := planned.isDefault.trans related.hasDefault
    untested := fun hasDefault => planned.untested (related.hasDefault.trans hasDefault)
    unlabeled := fun noDefault none => ?_
    breakless := planned.kept.breakless once
    tests := fun {scope control test} isTest shows' => ?_
    labels := fun {scope control} noDefault unpatterned shown => ?_
    kept := fun {scope control} shown => ?_
    body := fun {scope control} unpatterned shown => ?_ }
  · have areTested := tested noDefault
    rw [none, forall₂_nil_right_iff] at areTested
    have areLabels := related.labels
    rw [areTested] at areLabels
    exact forall₂_nil_right_iff.mp areLabels
  · cases hasDefault : sect.hasDefault with
    | true =>
      rw [planned.untested (related.hasDefault.trans hasDefault)] at isTest
      cases isTest
    | false =>
      obtain ⟨label, isLabel, isTested⟩ := exists_left (tested hasDefault) isTest
      refine Shown.turned labels ?_
      exact shown_flatMap.mpr ⟨label, isLabel, isTested.shown simple shows'⟩
  · rcases shown.kept_or_lost labels unpatterned with inMiddle | lost
    · obtain ⟨label, isLabel, shown⟩ := shown_flatMap.mp inMiddle
      obtain ⟨test, isTest, isTested⟩ := exists_right (tested noDefault) isLabel
      rcases isTested.kept simple shown with shows' | ⟨after, guard, rfl, nulls⟩
      · exact .inl ⟨test, isTest, shows'⟩
      · obtain ⟨original, isOriginal, isRelated⟩ := exists_left related.labels isLabel
        cases isRelated with
        | case isTurned _ =>
          exact .inr (.inl ⟨_, _, isOriginal, isTurned.nulls rfl rfl nulls⟩)
    · exact .inr (.inr lost)
  · exact Shown.turned related.body (planned.kept.shown shown)
  · rcases shown.kept_or_lost related.body unpatterned with inMiddle | lost
    · rcases planned.kept.kept_or_ends inMiddle with isKept | ⟨broken, isDropped, endIn⟩
      · exact .inl isKept
      · exact .inr (.inl ⟨broken, isDropped, endIn.turned related.body⟩)
    · exact .inr (.inr lost)

end Sections

/-! ## Chains -/

section Chains

variable {span : Span} {scope : JumpScope} {control : Control} {arms : List (Expr × Stmt)}

theorem shows_ifElse {cond : Expr} {yes : Stmt} {no : Option Stmt} :
    (stmt (span.ifElse cond yes no)).Shows scope control ↔ (expr cond).Shows scope control ∨
      (stmt yes).Shows scope control ∨ Shown (ofStmt? no) scope control := by
  refine (Node.shows_iff_children rfl rfl).trans ?_
  change Shown (expr cond :: stmt yes :: ofStmt? no) scope control ↔ _
  rw [shown_cons, shown_cons]

theorem shown_ifChain {otherwise : Option Stmt} :
    Shown (ofStmt? (Pass.ifChain span otherwise arms)) scope control ↔
      (∃ arm ∈ arms, (expr arm.1).Shows scope control ∨ (stmt arm.2).Shows scope control) ∨
        Shown (ofStmt? otherwise) scope control := by
  induction arms with
  | nil => simp [Pass.ifChain]
  | cons arm rest ih =>
    obtain ⟨cond, body⟩ := arm
    rw [Pass.ifChain, ofStmt?_some, shown_cons, shows_ifElse, ih]
    simp [or_assoc]

theorem breaksIn?_ifChain {otherwise : Option Stmt} (noArm : ∀ arm ∈ arms, arm.2.breaks = [])
    (noOther : breaksIn? otherwise = []) : breaksIn? (Pass.ifChain span otherwise arms) = [] := by
  induction arms with
  | nil => exact noOther
  | cons arm rest ih =>
    obtain ⟨cond, body⟩ := arm
    obtain ⟨noBody, noRest⟩ := forall_mem_cons.mp noArm
    have isElse := ih noRest
    simp [Pass.ifChain, breaksIn?, Span.ifElse, Span.stmt, Stmt.breaks, StmtKind.breaks, noBody,
      isElse]

namespace SectionPlan

variable {plan : SectionPlan} {plans before after : List SectionPlan} {arm : Expr × Stmt}

theorem arm?_body (isArm : plan.arm? span = some arm) : arm.2 = span.block plan.kept := by
  unfold arm? at isArm
  split at isArm
  · cases isArm
  · cases isArm
    rfl

theorem arm?_shows (isArm : plan.arm? span = some arm) : (expr arm.1).Shows scope control ↔
      ∃ test ∈ plan.tests, (expr test.condition).Shows scope control := by
  unfold arm? at isArm
  split at isArm
  · cases isArm
  · rename_i first others conditions
    cases isArm
    have all : Shown (ofExprs (plan.tests.map LabelTest.condition)) scope control ↔
        ∃ test ∈ plan.tests, (expr test.condition).Shows scope control := by
      simp [Shown, ofExprs]
    rw [← all, conditions, ofExprs_cons, shown_cons]
    exact shows_foldl_binary

theorem arm?_isSome {span : Span} (isTested : plan.tests ≠ []) :
    ∃ arm, plan.arm? span = some arm := by
  unfold arm?
  split
  · rename_i none
    exact absurd (map_eq_nil_iff.mp none) isTested
  · exact ⟨_, rfl⟩

theorem otherwise?_eq_some {other : Stmt} (isOther : otherwise? span plans = some other) :
    ∃ plan ∈ plans, other = span.block plan.kept := by
  obtain ⟨plan, found, rfl⟩ := Option.map_eq_some_iff.mp isOther
  exact ⟨plan, mem_reverse.mp (mem_of_find?_eq_some found), rfl⟩

theorem otherwise?_split (isDefault : plan.isDefault = true)
    (isLast : ∀ later ∈ after, later.isDefault = false) :
    otherwise? span (before ++ plan :: after) = some (span.block plan.kept) := by
  have none : after.reverse.find? (·.isDefault) = none :=
    find?_eq_none.mpr fun later isLater => by
      simp [isLast later (mem_reverse.mp isLater)]
  unfold otherwise?
  simp [find?_append, none, isDefault]

theorem shown_block {body : List Stmt} :
    (stmt (span.block body)).Shows scope control ↔ Shown (ofStmts body) scope control :=
  shows_block

theorem of_shown_chain? (shown : Shown (ofStmt? (chain? span plans)) scope control) :
    ∃ plan ∈ plans, (∃ test ∈ plan.tests, (expr test.condition).Shows scope control) ∨
      Shown (ofStmts plan.kept) scope control := by
  rcases shown_ifChain.mp shown with ⟨arm, isArm, shown⟩ | inOther
  · obtain ⟨plan, isPlan, isArm⟩ := mem_filterMap.mp isArm
    rw [arm?_body isArm, shown_block, arm?_shows isArm] at shown
    exact ⟨plan, isPlan, shown⟩
  · cases isOther : otherwise? span plans with
    | none =>
      rw [isOther] at inOther
      exact (shown_nil.mp inOther).elim
    | some other =>
      rw [isOther, ofStmt?_some, shown_cons] at inOther
      obtain ⟨plan, isPlan, rfl⟩ := otherwise?_eq_some isOther
      exact ⟨plan, isPlan, .inr (shown_block.mp (inOther.resolve_right shown_nil.mp))⟩

theorem shown_chain?_of_test {test : LabelTest} (isPlan : plan ∈ plans) (isTest : test ∈ plan.tests)
    (shows' : (expr test.condition).Shows scope control) :
    Shown (ofStmt? (chain? span plans)) scope control := by
  obtain ⟨arm, isArm⟩ := arm?_isSome (ne_nil_of_mem isTest)
  exact shown_ifChain.mpr (.inl ⟨arm, mem_filterMap.mpr ⟨plan, isPlan, isArm⟩,
    .inl ((arm?_shows isArm).mpr ⟨test, isTest, shows'⟩)⟩)

theorem shown_chain?_of_tested (isPlan : plan ∈ plans) (isTested : plan.tests ≠ [])
    (shown : Shown (ofStmts plan.kept) scope control) :
    Shown (ofStmt? (chain? span plans)) scope control := by
  obtain ⟨arm, isArm⟩ := arm?_isSome isTested
  refine shown_ifChain.mpr (.inl ⟨arm, mem_filterMap.mpr ⟨plan, isPlan, isArm⟩, .inr ?_⟩)
  rw [arm?_body isArm]
  exact shown_block.mpr shown

theorem shown_chain?_of_default (isDefault : plan.isDefault = true)
    (isLast : ∀ later ∈ after, later.isDefault = false)
    (shown : Shown (ofStmts plan.kept) scope control) :
    Shown (ofStmt? (chain? span (before ++ plan :: after))) scope control := by
  refine shown_ifChain.mpr (.inr ?_)
  rw [otherwise?_split isDefault isLast, ofStmt?_some, shown_cons]
  exact .inl (shown_block.mpr shown)

theorem breaksIn?_chain? (breakless : ∀ plan ∈ plans, breaksIn plan.kept = []) :
    breaksIn? (chain? span plans) = [] := by
  refine breaksIn?_ifChain (fun arm isArm => ?_) ?_
  · obtain ⟨plan, isPlan, isArm⟩ := mem_filterMap.mp isArm
    rw [arm?_body isArm]
    exact breakless plan isPlan
  · cases isOther : otherwise? span plans with
    | none => rfl
    | some other =>
      obtain ⟨plan, isPlan, rfl⟩ := otherwise?_eq_some isOther
      exact breakless plan isPlan

end SectionPlan

end Chains

/-! ## Lowered switches -/

theorem Node.EndsIn.exists_break {node : Node} {mark : Mark} (endsIn : node.EndsIn mark) :
    ∃ found ∈ node.breaks, found.mark = mark := by
  induction endsIn with
  | here isBreak =>
    rw [Node.eq_breakLoop isBreak]
    exact ⟨_, mem_singleton_self _, rfl⟩
  | @last node child mark isBlock isLast _ ih =>
    obtain ⟨found, isFound, isMark⟩ := ih
    have isChild : child ∈ node.children := mem_of_getLast? isLast
    exact ⟨found, Node.breaks_child (by rw [isBlock]; rfl) isChild found isFound, isMark⟩

theorem tally_body_le {id : Nat} {sections : List Section} {sect : Section}
    (isSection : sect ∈ sections) :
    tally id (ofStmts sect.body) ≤ tally id (sections.flatMap ofSection) := by
  obtain ⟨before, after, rfl⟩ := append_of_mem isSection
  simp only [flatMap_append, flatMap_cons, tally_append, ofSection]
  omega

section Switches

variable {view : View} {sections : List Section} {plans : List SectionPlan} {span : Span}
  {scope : JumpScope} {control : Control} {mark : Mark} {subject : Expr}

/-- Whatever the chain of a switch says, one of its sections says, wherever `break`
    would go. -/
theorem shown_of_chain? (lowered : Forall₂ (Section.Lowered view) sections plans)
    (shown : Shown (ofStmt? (SectionPlan.chain? span plans)) scope control) {target : Option Mark} :
    Shown (sections.flatMap ofSection) { scope with breakTo := target } control ∧
      control.isPatterned = false := by
  obtain ⟨plan, isPlan, said⟩ := SectionPlan.of_shown_chain? shown
  obtain ⟨sect, isSection, isLowered⟩ := exists_left lowered isPlan
  have inSection (inParts : Shown (ofSection sect) { scope with breakTo := target } control) :
      Shown (sections.flatMap ofSection) { scope with breakTo := target } control :=
    shown_flatMap.mpr ⟨sect, isSection, inParts⟩
  rcases said with ⟨test, isTest, shows'⟩ | inBody
  · obtain ⟨inLabels, unpatterned⟩ := isLowered.tests isTest shows'
    refine ⟨inSection (shown_append.mpr (.inl (inLabels.elsewhere ?_ _))), unpatterned⟩
    exact isCode_ofLabels
  · -- what is left of a body does not say where a `break` would go
    have elsewhere : Shown (ofStmts plan.kept) { scope with breakTo := target } control :=
      inBody.unbroken isLowered.breakless rfl
    obtain ⟨inParts, unpatterned⟩ := isLowered.kept elsewhere
    exact ⟨inSection (shown_append.mpr (.inr inParts)), unpatterned⟩

theorem chain?_or_loses (isPatterned : allConstant sections = false)
    (lowered : Forall₂ (Section.Lowered view) sections plans)
    (unpatterned : control.isPatterned = false)
    (shown : Shown (sections.flatMap ofSection) { scope with breakTo := some mark } control) :
    Shown (ofStmt? (SectionPlan.chain? span plans)) scope control ∨
      (stmt ⟨mark, .switch subject sections⟩).Loses view scope control := by
  obtain ⟨sect, isSection, inSection⟩ := shown_flatMap.mp shown
  obtain ⟨before, after, rfl⟩ := append_of_mem isSection
  obtain ⟨others, plan, rest, rfl, isLowered, areLowered⟩ := forall₂_split lowered
  have isPlan : plan ∈ others ++ plan :: rest := by simp
  let switch := stmt ⟨mark, .switch subject (before ++ sect :: after)⟩
  have below : scope.below switch = { scope with breakTo := some mark } := by
    simp [switch, JumpScope.below, Node.role, StmtKind.role, isPatterned, Node.mark]
  have loses (isLost : Lost view (ofSection sect) { scope with breakTo := some mark } control) :
      switch.Loses view scope control := by
    obtain ⟨child, isChild, childLoses⟩ := isLost
    have isBelow : child ∈ switch.children :=
      mem_cons_of_mem _ (mem_flatMap.mpr ⟨sect, isSection, isChild⟩)
    exact .inside isBelow (below ▸ childLoses)
  rcases shown_append.mp inSection with inLabels | inBody
  · cases hasDefault : sect.hasDefault with
    | true => exact .inr (.beside isPatterned isSection hasDefault inLabels)
    | false =>
      rcases isLowered.labels hasDefault unpatterned inLabels with
        ⟨test, isTest, testShows⟩ | ⟨tested, guard, isLabel, nulls⟩ | ⟨child, isChild, isLost⟩
      · exact .inl (SectionPlan.shown_chain?_of_test isPlan isTest (testShows.elsewhere rfl scope))
      · exact .inr (.null isPatterned isSection isLabel nulls)
      · exact .inr (loses ⟨child, mem_append_left _ isChild, isLost⟩)
  · rcases isLowered.body unpatterned inBody with
      isKept | ⟨broken, rfl, endIn⟩ | ⟨child, isChild, isLost⟩
    · have keptHere : Shown (ofStmts plan.kept) scope control :=
        isKept.unbroken isLowered.breakless rfl
      cases hasDefault : sect.hasDefault with
      | false =>
        by_cases untested : plan.tests = []
        · exact .inr (.unchosen isPatterned (.inl (isLowered.unlabeled hasDefault untested))
            inSection)
        · exact .inl (SectionPlan.shown_chain?_of_tested isPlan untested keptHere)
      | true =>
        by_cases hasLater : ∃ later ∈ after, later.hasDefault = true
        · exact .inr (.unchosen isPatterned (.inr ⟨hasDefault, hasLater⟩) inSection)
        · refine .inl (SectionPlan.shown_chain?_of_default (isLowered.isDefault.trans hasDefault)
            (fun later isLater => ?_) keptHere)
          obtain ⟨other, isOther, otherLowered⟩ := exists_left areLowered isLater
          rw [otherLowered.isDefault]
          exact Bool.eq_false_iff.mpr fun otherDefault => hasLater ⟨other, isOther, otherDefault⟩
    · exact .inr (.ending isPatterned isSection endIn)
    · exact .inr (loses ⟨child, mem_append_right _ isChild, isLost⟩)

theorem breaksIn_append {left right : List Stmt} :
    breaksIn (left ++ right) = breaksIn left ++ breaksIn right := by
  induction left with
  | nil => rfl
  | cons node rest ih =>
    rw [cons_append, breaksIn, ih, breaksIn, append_assoc]

theorem shown_toList {node : Option Stmt} :
    Shown (ofStmts node.toList) scope control ↔ Shown (ofStmt? node) scope control := by
  cases node <;> rfl

namespace SwitchPlan

variable {plan : SwitchPlan}

theorem shows_subject (shown : Shown (ofStmts (plan.opening span subject)) scope control) :
    (expr subject).Shows scope control := by
  unfold opening at shown
  split at shown
  · exact (shown_nil.mp shown).elim
  · obtain ⟨node, isNode, shows'⟩ := shown
    cases mem_singleton.mp isNode
    have inside : Shown [expr subject] scope control := (Node.shows_iff_children rfl rfl).mp shows'
    simpa using inside

theorem shown_opening (holder : plan.holder.isNone = subject.isSimple)
    (shows' : (expr subject).Shows scope control) :
    Shown (ofStmts (plan.opening span subject)) scope control := by
  unfold opening
  split
  · rename_i none
    exact absurd shows' (subject.isSimple_not_shows (by rw [← holder, none]; rfl))
  · exact ⟨_, mem_singleton_self _, (Node.shows_iff_children rfl rfl).mpr
      (shown_cons.mpr (.inl shows'))⟩

theorem breaksIn_body (breakless : ∀ part ∈ plan.sections, breaksIn part.kept = []) :
    breaksIn (plan.body span subject) = [] := by
  have noChain : breaksIn? (SectionPlan.chain? span plan.sections) = [] :=
    SectionPlan.breaksIn?_chain? breakless
  have noOpening : breaksIn (plan.opening span subject) = [] := by
    unfold opening
    split <;> rfl
  rw [body, breaksIn_append, noOpening]
  cases isChain : SectionPlan.chain? span plan.sections with
  | none => rfl
  | some chain =>
    rw [isChain] at noChain
    change chain.breaks ++ [] = []
    rw [append_nil]
    exact noChain

end SwitchPlan

theorem SwitchPlan.Lays.turned {node : Stmt} {tested : Expr} {middle : List Section}
    {plan : SwitchPlan} (lays : plan.Lays env node tested middle)
    (isSwitch : node.kind = .switch subject sections) (isPatterned : allConstant sections = false)
    (isSubject : (expr subject).Turned env.view (expr tested))
    (areSections : Forall₂ (Section.Related (Node.Turned env.view)) sections middle)
    (once : ∀ id, tally id (middle.flatMap ofSection) ≤ 1) :
    (stmt node).Turned env.view
      (stmt { node with kind := .block (plan.body node.span tested) }) := by
  obtain ⟨mark, kind⟩ := node
  obtain rfl : kind = .switch subject sections := isSwitch
  let switch := stmt ⟨mark, .switch subject sections⟩
  have isRole : switch.role = .patterned := by
    simp [switch, Node.role, StmtKind.role, isPatterned]
  have below (scope : JumpScope) : scope.below switch = { scope with breakTo := some mark } := by
    rw [JumpScope.below, isRole]
    rfl
  have lowered : Forall₂ (Section.Lowered env.view) sections plan.sections :=
    forall₂_through areSections lays.sections fun sect between part isBetween related planned =>
      related.lowered planned lays.simple fun id =>
        Nat.le_trans (tally_body_le isBetween) (once id)
  have shows_iff {scope : JumpScope} {control : Control} :
      (stmt ⟨mark, .block (plan.body mark.span tested)⟩).Shows scope control ↔
        Shown (ofStmts (plan.opening mark.span tested)) scope control ∨
          Shown (ofStmt? (SectionPlan.chain? mark.span plan.sections)) scope control := by
    rw [shows_block, SwitchPlan.body, ofStmts_append, shown_append, shown_toList]
  refine {
    mark := rfl
    role := fun isCode => by cases isCode
    isPattern := rfl
    found := fun {scope control} shows' => ?_
    lost := fun {scope control} unpatterned shows' => ?_
    ends := fun {broken} endsIn => ?_
    nulls := fun isPattern => by cases isPattern }
  · rcases shows_iff.mp shows' with inSubject | inChain
    · obtain ⟨before, unpatterned⟩ := isSubject.found (SwitchPlan.shows_subject inSubject)
      exact ⟨.inside mem_cons_self (before.elsewhere rfl _), unpatterned⟩
    · obtain ⟨inSections, unpatterned⟩ := shown_of_chain? lowered inChain
      refine ⟨Node.shows_iff.mpr (.inr ?_), unpatterned⟩
      rw [below]
      exact shown_cons.mpr (.inr inSections)
  · refine (or_congr_left shows_iff).mpr ?_
    rcases Node.shows_iff.mp shows' with isControl | inChildren
    · unfold Node.control? at isControl
      rw [isRole] at isControl
      cases isControl
      cases unpatterned
    · rw [below] at inChildren
      rcases shown_cons.mp inChildren with inSubject | inSections
      · rcases isSubject.lost unpatterned inSubject with isKept | loses
        · exact .inl (.inl (SwitchPlan.shown_opening lays.holder (isKept.elsewhere rfl scope)))
        · exact .inr (.inside mem_cons_self (below scope ▸ loses))
      · exact (chain?_or_loses isPatterned lowered unpatterned inSections).imp_left .inr
  · obtain ⟨found, isFound, -⟩ := endsIn.exists_break
    have none : breaksIn (plan.body mark.span tested) = [] :=
      SwitchPlan.breaksIn_body fun part isPart => by
        obtain ⟨sect, -, isLowered⟩ := exists_left lowered isPart
        exact isLowered.breakless
    exact absurd isFound (eq_nil_iff_forall_not_mem.mp none found)

end Switches

/-! ## Lowered units -/

/-- A result has no identity more often than its node, and turned from it where that has
    none twice. -/
structure Node.Becomes (view : View) (node result : Node) : Prop where
  count : ∀ id, result.count id ≤ node.count id
  role : node.isCode = false → result.role = node.role
  turns : (∀ id, node.count id ≤ 1) → node.Turned view result

section Becomes

variable {view : View} {nodes results : List Node} {node result : Node}

theorem tally_becomes (become : Forall₂ (Node.Becomes view) nodes results) {id : Nat} :
    tally id results ≤ tally id nodes := by
  induction become with
  | nil => exact Nat.le_refl _
  | cons head _ ih =>
    rw [tally_cons, tally_cons]
    exact Nat.add_le_add (head.count id) ih

theorem Node.Becomes.turned (once : ∀ id, tally id nodes ≤ 1) (isNode : node ∈ nodes)
    (becomes : node.Becomes view result) : node.Turned view result :=
  becomes.turns fun id => Nat.le_trans (count_le_tally isNode) (once id)

theorem turned_of_becomes (become : Forall₂ (Node.Becomes view) nodes results)
    (once : ∀ id, tally id nodes ≤ 1) : Forall₂ (Node.Turned view) nodes results :=
  forall₂_imp_mem become fun _ isNode _ becomes => becomes.turned once isNode

theorem Node.Becomes.kept (sameMark : result.mark = node.mark) (sameRole : result.role = node.role)
    (sameSort : result.isPattern = node.isPattern) (notPatterned : node.role ≠ .patterned)
    (children : Forall₂ (Node.Becomes view) node.children result.children) :
    node.Becomes view result where
  count id := by
    rw [Node.count_eq, Node.count_eq, sameMark]
    exact Nat.add_le_add_left (tally_becomes children) _
  role _ := sameRole
  turns once := .kept sameMark sameRole sameSort notPatterned (turned_of_becomes children
    fun id => Nat.le_trans node.tally_children_le (once id))

theorem allConstant_becomes {sections results : List Section}
    (become : Forall₂ (Section.Related (Node.Becomes view)) sections results) :
    allConstant results = allConstant sections :=
  allConstant_related become fun _ _ becomes => becomes.role rfl

end Becomes

open Pass in
theorem switch_becomes {site : Site} {mark : Mark} {subject tested : Expr}
    {sections middle : List Section} {before after : PassState} {results : List Stmt}
    (isSubject : (expr subject).Becomes env.view (expr tested))
    (areSections : Forall₂ (Section.Related (Node.Becomes env.view)) sections middle)
    (ran : switchRules.stmt site ⟨mark, .switch subject sections⟩ (.switch tested middle) env
      before = .ok (results, after)) :
    ∃ result, results = [result] ∧
      (stmt ⟨mark, .switch subject sections⟩).Becomes env.view (stmt result) := by
  let node : Stmt := ⟨mark, .switch subject sections⟩
  have sameSort := allConstant_becomes areSections
  have children : Forall₂ (Node.Becomes env.view) (StmtKind.switch subject sections).children
      (StmtKind.switch tested middle).children :=
    (StmtKind.Related.switch isSubject areSections).children
  change (if allConstant middle then pure [⟨mark, .switch tested middle⟩]
    else lowerSwitch node tested middle) env before = .ok (results, after) at ran
  split at ran
  · rename_i isConstant
    cases ran
    refine ⟨_, rfl, .kept rfl ?_ rfl ?_ children⟩
    · simp only [Node.role, StmtKind.role, sameSort]
    · simp [Node.role, StmtKind.role, ← sameSort, isConstant]
  · rename_i notConstant
    obtain ⟨plan, lays, rfl⟩ := lowerSwitch_planned ran
    refine ⟨_, rfl, fun id => ?_, fun isExpr => ?_, fun once => ?_⟩
    · have costs := lowerSwitch_costs id env before _ after ran
      refine Nat.le_trans ((Stmt.landed_single node _).symm.le.trans costs) ?_
      rw [count_stmt]
      exact Nat.add_le_add_left (tally_becomes children) _
    · cases isExpr
    · have onceBelow (id : Nat) : tally id (StmtKind.switch subject sections).children ≤ 1 :=
        Nat.le_trans (stmt node).tally_children_le (once id)
      have areTurned : Forall₂ (Section.Related (Node.Turned env.view)) sections middle :=
        forall₂_imp_mem areSections fun sect isSection _ isRelated =>
          isRelated.imp fun child isChild _ becomes => becomes.turned onceBelow
            (mem_cons_of_mem _ (mem_flatMap.mpr ⟨sect, isSection, isChild⟩))
      refine lays.turned rfl (by simpa [← sameSort] using notConstant)
        (isSubject.turned onceBelow mem_cons_self) areTurned fun id => ?_
      have few := Nat.le_trans (tally_becomes children) (onceBelow id)
      rw [StmtKind.children, tally_cons] at few
      exact Nat.le_trans (Nat.le_add_left _ _) few

open Pass in
theorem switchRules_relate {env : PassEnv} :
    switchRules.Relate (.passResult env) (Node.Becomes env.view) where
  expr site node kind related := by
    rintro before result after ⟨⟩
    exact .kept rfl related.sameRole rfl (Node.role_ne_patterned rfl) related.children
  pattern site node kind related := by
    rintro before result after ⟨⟩
    exact .kept rfl related.sameRole rfl (Node.role_ne_patterned rfl) related.children
  stmt site node kind related := by
    obtain ⟨mark, original⟩ := node
    intro before results after ran
    -- of all statements only a switch is treated by the rules
    have others (notSwitch : ∀ subject sections, kind ≠ .switch subject sections) :
        ∃ result, results = [result] ∧
          (Node.stmt ⟨mark, original⟩).Becomes env.view (Node.stmt result) := by
      have isKept : results = [⟨mark, kind⟩] := by
        cases kind with
        | switch subject sections => exact absurd rfl (notSwitch subject sections)
        | _ =>
          cases ran
          rfl
      refine ⟨_, isKept, .kept rfl (related.sameRole notSwitch) rfl (fun isPatterned => ?_)
        related.children⟩
      exact StmtKind.role_ne_patterned notSwitch ((related.sameRole notSwitch).trans isPatterned)
    cases related with
    | switch isSubject areSections => exact switch_becomes isSubject areSections ran
    | other isOther stays =>
      refine others fun subject sections isSwitch => ?_
      rw [isSwitch] at stays
      cases stays
    | _ => exact others nofun

theorem switchLabels_turned {before after : PassState} {unit : CompilationUnit}
    (proper : env.unit.Proper) (ran : Pass.switchLabels env before = .ok (unit, after)) :
    Forall₂ (Node.Turned env.view) env.unit.roots unit.roots :=
  turned_of_becomes (env.unit.rebuild_relates switchRules_relate before unit after ran)
    (CompilationUnit.proper_iff.mp proper)

end Unsugar
