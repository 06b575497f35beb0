import Mathlib.Data.List.Pairwise
import Unsugar.Proofs.Hoist.DesignatedTypes
import Unsugar.Proofs.Switch.LoweredJumps

open List

namespace Unsugar

/-! # Jumps around installed declarations

What the labels of a switch declare is installed before the switch, or in a block
around it.  A statement that moves into a block loses its identity, so nothing may be
said about the statement that takes the declarations.
-/

open Node

/-! ## Who says something -/

variable {isBreak : Bool} {sections : List Section} {parents : ParentMap}

section Said

variable {unit : CompilationUnit} {node : Node} {scope : JumpScope} {control : Control}
  {place : Mark}

theorem Node.Shows.said (shows' : node.Shows scope control) :
    ∃ below ∈ node.reachable true, ∃ place, below.control? place = some control := by
  induction shows' with
  | here isControl =>
    refine ⟨_, ?_, _, isControl⟩
    rw [reachable_eq]
    exact mem_cons_self
  | inside isChild _ ih =>
    obtain ⟨below, isBelow, isSaid⟩ := ih
    refine ⟨below, ?_, isSaid⟩
    rw [reachable_eq]
    exact mem_cons_of_mem _ (mem_flatMap.mpr ⟨_, isChild, isBelow⟩)

theorem CompilationUnit.Shows.said (shows' : unit.Shows control) :
    ∃ node ∈ unit.reachable, ∃ place, node.control? place = some control := by
  obtain ⟨root, isRoot, shows'⟩ := shows'
  obtain ⟨node, isBelow, isSaid⟩ := shows'.said
  rw [unit.reachable_eq]
  exact ⟨node, mem_flatMap.mpr ⟨root, isRoot, isBelow⟩, isSaid⟩

def JumpScope.Offers (scope : JumpScope) (place : Mark) : Prop :=
  scope.breakTo = some place ∨ scope.continueTo = some place

theorem JumpScope.Offers.above (offers : (scope.below node).Offers place) :
    scope.Offers place ∨ node.control? scope = some (.target place) ∨
      node.control? scope = some (.patterned place) := by
  unfold JumpScope.below at offers
  unfold Node.control?
  split at offers <;> rename_i isRole
  · exact .inr (.inl (by rcases offers with isPlace | isPlace <;> simp_all))
  · rcases offers with isPlace | isPlace
    · exact .inr (.inl (by simp_all))
    · exact .inl (.inr isPlace)
  · rcases offers with isPlace | isPlace
    · exact .inr (.inr (by simp_all))
    · exact .inl (.inr isPlace)
  · rcases offers with none | none <;> cases none
  · exact .inl offers

theorem Node.Shows.goal {mark : Mark}
    (shows' : node.Shows scope (.jump mark isBreak (some place))) :
    scope.Offers place ∨ node.Shows scope (.target place) ∨
      node.Shows scope (.patterned place) := by
  generalize isControl : Control.jump mark isBreak (some place) = control at shows'
  induction shows' with
  | here here =>
    subst isControl
    unfold control? at here
    split at here
    · exact .inl (.inl (Control.jump.inj (Option.some.inj here)).2.2)
    · exact .inl (.inr (Control.jump.inj (Option.some.inj here)).2.2)
    all_goals cases here
  | inside isChild _ ih =>
    rcases ih isControl with offers | isTarget | isPatterned
    · exact offers.above.imp_right fun offered => offered.imp .here .here
    · exact .inr (.inl (.inside isChild isTarget))
    · exact .inr (.inr (.inside isChild isPatterned))

theorem CompilationUnit.Shows.goal {mark : Mark}
    (shows' : unit.Shows (.jump mark isBreak (some place))) :
    unit.Shows (.target place) ∨ unit.Shows (.patterned place) := by
  obtain ⟨root, isRoot, shows'⟩ := shows'
  rcases shows'.goal with (none | none) | isTarget | isPatterned
  · cases none
  · cases none
  · exact .inl ⟨root, isRoot, isTarget⟩
  · exact .inr ⟨root, isRoot, isPatterned⟩

end Said

/-! ## Numbered nodes -/

theorem Rules.number_relate : Rules.number.Relate (.stateValue Nat)
      fun _ result => ∀ below ∈ result.reachable true, below.mark.id.isSome = true := by
  have numbered (node result : Node) (isSome : result.mark.id.isSome = true)
      (areNumbered : Forall₂ (fun _ (child : Node) => ∀ below ∈ child.reachable true,
        below.mark.id.isSome = true) node.children result.children) :
      ∀ below ∈ result.reachable true, below.mark.id.isSome = true := by
    rw [result.reachable_eq]
    refine forall_mem_cons.mpr ⟨isSome, forall_mem_flatMap.mpr fun child isChild => ?_⟩
    obtain ⟨_, _, isNumbered⟩ := exists_left areNumbered isChild
    exact isNumbered
  let outcomes := Outcomes.stateValue Nat
  exact {
    expr := fun site node kind related => outcomes.after drawId fun id =>
      outcomes.pure (numbered (.expr node) _ rfl (by
        have children := related.children
        cases kind <;> exact children))
    stmt := fun site node kind related => outcomes.after drawId fun id =>
      outcomes.pure ⟨_, rfl, numbered (.stmt node) _ rfl related.children⟩
    pattern := fun site node kind related => outcomes.after drawId fun id =>
      outcomes.pure (numbered (.pattern node) _ rfl related.children) }

theorem Tree.analyze_numbered (tree : Tree) :
    ∀ node ∈ tree.analyze.tree.unit.reachable, node.mark.id.isSome = true := by
  have numbered := tree.unit.rebuild_relates Rules.number_relate 0
  change Forall₂ _ tree.unit.roots tree.analyze.tree.unit.roots at numbered
  rw [CompilationUnit.reachable_eq]
  refine forall_mem_flatMap.mpr fun root isRoot => ?_
  obtain ⟨_, _, isNumbered⟩ := exists_left numbered isRoot
  exact isNumbered

variable {unit : CompilationUnit}

theorem CompilationUnit.Proper.eq_of_id (proper : unit.Proper) {first second : Node} {id : Nat}
    (isFirst : first ∈ unit.reachable) (isSecond : second ∈ unit.reachable)
    (firstId : first.mark.id = some id) (secondId : second.mark.id = some id) : first = second := by
  by_contra different
  let Apart (left right : Node) : Prop := ∀ one ∈ left.id, ∀ other ∈ right.id, one ≠ other
  have apart : unit.reachable.Pairwise Apart := pairwise_filterMap.mp proper
  have : Std.Symm Apart :=
    ⟨fun _ _ isApart one isOne other isOther => (isApart other isOther one isOne).symm⟩
  exact apart.forall isFirst isSecond different id firstId id secondId rfl

/-! ## Where declarations go -/

namespace Pass

variable (env : PassEnv)

theorem labelConditions_tests {id : Nat} {subject : Subject}
    (simple : subject.expr.isSimple = true) {labels : List Label} :
    Tests env (.stmt id) (fun _ => True) (labelConditions id subject labels) := by
  induction labels with
  | nil => exact .pure trivial
  | cons label rest ih =>
    cases label with
    | default => exact ih
    | case tested guard =>
      have cond :
          Tests env (.stmt id) (fun _ => True) (labelCondition id subject tested guard) := by
        -- what the condition says does not matter here
        refine (patternCondition_tests env (.stmt id) tested.span {} (.target tested.mark)
          simple).bind fun _ _ => ?_
        split <;> exact .pure trivial
      exact cond.bind fun _ _ => ih.bind fun _ _ => .pure trivial

theorem switchArms_tests (id : Nat) (span : Span) (subject : Subject)
    (simple : subject.expr.isSimple = true) : (sections : List Section) → (seen : SwitchArms) →
      Tests env (.stmt id) (fun _ => True) (switchArms id span subject seen sections)
  | [], seen => .pure trivial
  | ⟨labels, body⟩ :: rest, seen => by
    unfold switchArms
    refine .after (sectionBody_quiet span) fun block => .ite
      (fun _ => switchArms_tests id span subject simple rest _)
      fun _ => (labelConditions_tests env simple).bind fun conds _ => ?_
    split <;> exact switchArms_tests id span subject simple rest _

theorem lowerSwitch_tests {node : Stmt} {subject : Expr} :
    Tests env (.stmt (node.id.getD 0)) (fun _ => True) (lowerSwitch node subject sections) := by
  have lowered (tested : Subject) (simple : tested.expr.isSimple = true) (opening : List Stmt) :
      Tests env (.stmt (node.id.getD 0)) (fun _ => True) (do
        let arms ← switchArms (node.id.getD 0) node.span tested {} sections
        setStmt node (.block (opening ++ (ifChain node.span arms.otherwise arms.arms).toList))) :=
    (switchArms_tests env _ node.span tested simple sections {}).bind fun _ _ =>
      .quiet setStmt_quiet
  refine .after typeOf_asks.quiet fun type => ?_
  dsimp only
  split
  · rename_i simple
    exact lowered _ simple _
  · exact .after fresh_quiet fun _ => .after localSyntax_quiet fun _ => lowered _ rfl _

variable {α β : Type} {env} {wanted : InstallPoint → Prop} {action : Pass α}

def QueuesAt (env : PassEnv) (wanted : InstallPoint → Prop) (action : Pass α) : Prop :=
  ∀ before result after, action env before = .ok (result, after) →
    ∀ point ∈ after.hoists.points, point ∈ before.hoists.points ∨ wanted point

theorem Tests.queuesAt {point : InstallPoint} {holds : α → Prop}
    (tests : Tests env point holds action) : QueuesAt env (· = point) action :=
  fun before result after ran => (tests before result after ran).2

namespace QueuesAt

theorem quiet (quiet : Quiet action) : QueuesAt env wanted action := by
  intro before result after ran point isPoint
  rw [quiet _ _ _ _ ran] at isPoint
  exact .inl isPoint

theorem mono {weaker : InstallPoint → Prop} (queues : QueuesAt env wanted action)
    (weaken : ∀ point, wanted point → weaker point) : QueuesAt env weaker action :=
  fun before result after ran point isPoint =>
    (queues before result after ran point isPoint).imp_right (weaken point)

/-- Points stay free that both steps leave free; the second step may rely on what the
    first one can return. -/
theorem bind {free others : InstallPoint → Prop} {next : α → Pass β}
    (first : QueuesAt env (fun point => ¬ free point) action)
    (rest : ∀ value, (∃ before after, action env before = .ok (value, after)) →
      QueuesAt env (fun point => ¬ others point) (next value)) :
    QueuesAt env (fun point => ¬ (free point ∧ others point)) (action >>= next) := by
  intro before result after ran point isPoint
  obtain ⟨value, middle, ranFirst, ranRest⟩ := bind_eq_ok ran
  rcases rest value ⟨_, _, ranFirst⟩ _ _ _ ranRest point isPoint with isMiddle | notFree
  · exact (first _ _ _ ranFirst point isMiddle).imp_right fun notFree both => notFree both.1
  · exact .inr fun both => notFree both.2

end QueuesAt

end Pass

def Node.Awaits (node : Node) (point : InstallPoint) : Prop :=
  node.role = .patterned ∧ point = .stmt (node.mark.id.getD 0)

open Pass in
theorem switchRule_queuesAt {env : PassEnv} {site : Site} {node : Stmt} {kind : StmtKind}
    (rebuilt : ∃ before after, node.kind.rebuild switchRules (site.below (stmt node)) env before =
      .ok (kind, after)) :
    QueuesAt env (stmt node).Awaits (switchRules.stmt site node kind) := by
  obtain ⟨mark, original⟩ := node
  cases kind with
  | switch tested middle =>
    obtain ⟨before, after, ran⟩ := rebuilt
    have related := original.rebuild_relates switchRules_relate _ before _ after ran
    cases related with
    | other _ stays => cases stays
    | @switch subject _ sections _ isSubject areSections =>
      change QueuesAt env _ (if allConstant middle then _ else _)
      split
      · exact .quiet (.pure _)
      · rename_i notConstant
        refine (lowerSwitch_tests env).queuesAt.mono fun point isPoint =>
          ⟨?_, isPoint⟩
        rw [allConstant_becomes areSections] at notConstant
        simp [Node.role, StmtKind.role, notConstant]
  | _ => exact .quiet (.pure _)

open Pass in
/-- What is queued follows the nodes of a rebuild; a point stays free if no node awaits
    it. -/
def switchPoints (env : PassEnv) :
    Traversal switchRules fun (point : InstallPoint) _ node => ¬ node.Awaits point where
  holds free action _ := QueuesAt env (fun point => ¬ free point) action
  congr queues iff := queues.mono fun point => mt (iff point).mp
  pure value := .quiet (.pure value)
  bind first rest := first.bind fun value _ => rest value
  expr _ _ _ children := children.bind fun _ _ => .quiet (.pure _)
  stmt _ _ _ children := children.bind fun _ rebuilt =>
    (switchRule_queuesAt rebuilt).mono fun _ => not_not_intro
  pattern _ _ _ children := children.bind fun _ _ => .quiet (.pure _)

theorem switchLabels_queuesAt {env : PassEnv} :
    Pass.QueuesAt env (fun point => ∃ node ∈ env.unit.reachable, node.Awaits point)
      Pass.switchLabels := by
  have walked : Pass.QueuesAt env _ (env.unit.rebuild Pass.switchRules) :=
    env.unit.rebuild_walks (switchPoints env)
  intro before result after ran point isPoint
  refine (walked before result after ran point isPoint).imp_right fun notFree => ?_
  by_contra none
  exact notFree fun site node held awaits => none ⟨node, held.reachable, awaits⟩

/-! ## Installing says nothing -/

structure Node.SaysSame (id : Nat) (node result : Node) : Prop where
  role : node.isCode = false → result.role = node.role
  shows_iff {scope : JumpScope} :
    (∀ control, node.Shows scope control → control.mark.id ≠ some id) →
      ∀ control, result.Shows scope control ↔ node.Shows scope control

section Installing

variable {id parent : Nat} {nodes results : List Node} {node result : Node} {scope : JumpScope}
  {control : Control} {mark : Mark} {kind original : StmtKind} {hoisted : List HoistedLocal}

theorem shown_same (same : Forall₂ (Node.SaysSame id) nodes results)
    (silent : ∀ control, Shown nodes scope control → control.mark.id ≠ some id)
    (control : Control) : Shown results scope control ↔ Shown nodes scope control := by
  induction same with
  | nil => exact Iff.rfl
  | cons head _ ih =>
    rw [shown_cons, shown_cons,
      head.shows_iff fun control here => silent control (shown_cons.mpr (.inl here)),
      ih fun control later => silent control (shown_cons.mpr (.inr later))]

theorem Node.shows_congr (sameMark : result.mark = node.mark) (sameRole : result.role = node.role)
    (children : Shown result.children (scope.below node) control ↔
      Shown node.children (scope.below node) control) :
    result.Shows scope control ↔ node.Shows scope control := by
  rw [Node.shows_iff, Node.shows_iff, Node.control?_congr sameMark sameRole,
    JumpScope.below_congr sameMark sameRole, children]

theorem Node.SaysSame.kept (sameMark : result.mark = node.mark) (sameRole : result.role = node.role)
    (children : Forall₂ (Node.SaysSame id) node.children result.children) :
    node.SaysSame id result where
  role _ := sameRole
  shows_iff silent control := Node.shows_congr sameMark sameRole
    (shown_same children (fun _ inside => silent _ (Node.shows_iff.mpr (.inr inside))) control)

theorem StmtKind.Related.saysSame (related : original.Related (Node.SaysSame id) kind) :
    (stmt ⟨mark, original⟩).SaysSame id (stmt ⟨mark, kind⟩) := by
  refine .kept rfl ?_ related.children
  cases related with
  | switch _ areSections =>
    have sameSort := allConstant_related areSections fun _ _ same => same.role rfl
    simp only [Node.role, StmtKind.role, sameSort]
  | other _ _ sameRole => exact sameRole
  | _ => rfl

theorem not_shown_hoisted : ¬ Shown (ofStmts (hoisted.map HoistedLocal.stmt)) scope control := by
  rintro ⟨node, isNode, shows'⟩
  rw [ofStmts, map_map] at isNode
  obtain ⟨item, _, rfl⟩ := mem_map.mp isNode
  exact shown_nil.mp ((Node.shows_iff_children rfl rfl).mp shows')

/-- A statement that does not itself say anything says the same under another mark. -/
theorem shows_remarked {other : Mark} (silent : (stmt ⟨mark, kind⟩).control? scope = none) :
    (stmt ⟨other, kind⟩).Shows scope control ↔ (stmt ⟨mark, kind⟩).Shows scope control := by
  have same : (stmt ⟨other, kind⟩).control? scope = none ∧
      scope.below (stmt ⟨other, kind⟩) = scope.below (stmt ⟨mark, kind⟩) := by
    unfold Node.control? at silent ⊢
    unfold JumpScope.below
    simp only [Node.role] at silent ⊢
    cases isRole : kind.role <;> simp_all
  rw [Node.shows_iff, Node.shows_iff, silent, same.1, same.2]
  rfl

theorem shows_wrapped (silent : (stmt ⟨mark, kind⟩).control? scope = none) :
    (stmt ⟨mark, .block (hoisted.map HoistedLocal.stmt ++ [mark.span.stmt kind])⟩).Shows scope
      control ↔ (stmt ⟨mark, kind⟩).Shows scope control := by
  have moved : Shown (ofStmts [mark.span.stmt kind]) scope control ↔
      (stmt ⟨mark, kind⟩).Shows scope control :=
    shown_cons.trans ((or_iff_left shown_nil.mp).trans (shows_remarked silent))
  rw [shows_block, ofStmts_append, shown_append, moved]
  exact or_iff_right not_shown_hoisted

theorem Rules.wrap_relate {id : Nat} {hoisted : List HoistedLocal} :
    (Rules.wrap id (hoisted.map HoistedLocal.stmt)).Relate .pureValue (Node.SaysSame id) where
  expr _ _ _ related := .kept rfl related.sameRole related.children
  pattern _ _ _ related := .kept rfl related.sameRole related.children
  stmt _ node kind related := by
    obtain ⟨mark, original⟩ := node
    have kept : (Node.stmt ⟨mark, original⟩).SaysSame id (Node.stmt ⟨mark, kind⟩) :=
      related.saysSame
    refine ⟨_, rfl, ?_⟩
    split
    · rename_i hasId
      refine ⟨nofun, fun {scope} silent control => ?_⟩
      rw [← kept.shows_iff silent]
      refine shows_wrapped (Option.eq_none_iff_forall_ne_some.mpr fun other isControl => ?_)
      refine silent other ((kept.shows_iff silent other).mp (.here isControl)) ?_
      rw [Node.control?_mark isControl]
      exact eq_of_beq hasId
    · exact kept

theorem shown_insertBefore {body : List Stmt} :
    Shown (ofStmts (insertBefore id (hoisted.map HoistedLocal.stmt) body)) scope control ↔
      Shown (ofStmts body) scope control := by
  induction body with
  | nil => exact Iff.rfl
  | cons node rest ih =>
    rw [insertBefore]
    split
    · rw [ofStmts_append, shown_append]
      exact or_iff_right not_shown_hoisted
    · rw [ofStmts_cons, ofStmts_cons, shown_cons, shown_cons, ih]

theorem shown_insertInSections :
    Shown ((insertInSections id (hoisted.map HoistedLocal.stmt) sections).flatMap ofSection) scope
      control ↔ Shown (sections.flatMap ofSection) scope control := by
  induction sections with
  | nil => exact Iff.rfl
  | cons sect rest ih =>
    rw [insertInSections]
    split
    · rw [flatMap_cons, flatMap_cons, ofSection, ofSection]
      simp only [shown_append, shown_insertBefore]
    · rw [flatMap_cons, flatMap_cons, shown_append, shown_append, ih]

theorem allConstant_insertInSections {decls : List Stmt} :
    allConstant (insertInSections id decls sections) = allConstant sections := by
  unfold allConstant
  induction sections with
  | nil => rfl
  | cons sect rest ih =>
    rw [insertInSections]
    split
    · rfl
    · rw [all_cons, all_cons, ih]

theorem shows_insert :
    (stmt ⟨mark, (kind.insert? id (hoisted.map HoistedLocal.stmt)).getD kind⟩).Shows scope control ↔
      (stmt ⟨mark, kind⟩).Shows scope control := by
  cases kind with
  | block body =>
    rw [StmtKind.insert?]
    split
    · exact shows_block.trans (shown_insertBefore.trans shows_block.symm)
    · rfl
  | switch subject sections =>
    rw [StmtKind.insert?]
    split
    · let decls := hoisted.map HoistedLocal.stmt
      have sameRole : (stmt ⟨mark, .switch subject (insertInSections id decls sections)⟩).role =
          (stmt ⟨mark, .switch subject sections⟩).role := by
        simp only [Node.role, StmtKind.role, allConstant_insertInSections]
      refine Node.shows_congr rfl sameRole ?_
      change Shown (expr subject :: _) _ _ ↔ Shown (expr subject :: _) _ _
      rw [shown_cons, shown_cons, shown_insertInSections]
    · rfl
  | _ => rfl

theorem Rules.inserted_relate (parent id : Nat) (hoisted : List HoistedLocal) :
    (Rules.inserted parent id hoisted).Relate .pureValue (Node.SaysSame id) where
  expr _ _ _ related := .kept rfl related.sameRole related.children
  pattern _ _ _ related := .kept rfl related.sameRole related.children
  stmt _ node kind related := by
    obtain ⟨mark, original⟩ := node
    have kept : (Node.stmt ⟨mark, original⟩).SaysSame id (Node.stmt ⟨mark, kind⟩) :=
      related.saysSame
    refine ⟨_, rfl, nofun, fun {scope} silent control => ?_⟩
    rw [← kept.shows_iff silent]
    unfold Stmt.inserted
    split
    · exact shows_insert
    · rfl

def CompilationUnit.Silent (unit : CompilationUnit) (id : Nat) : Prop :=
  ∀ control, unit.Shows control → control.mark.id ≠ some id

theorem CompilationUnit.shows_installBefore (silent : unit.Silent id) :
    (unit.installBefore parents id (hoisted.map HoistedLocal.stmt)).Shows control ↔
      unit.Shows control := by
  rcases unit.installBefore_eq parents with ⟨parent, -, -, isUnit⟩ | ⟨-, isUnit⟩
  · rw [isUnit]
    exact shown_same (unit.rebuild_relates (Rules.inserted_relate parent id hoisted)) silent control
  · rw [isUnit]
    exact shown_same (unit.rebuild_relates Rules.wrap_relate) silent control

/-- Installing declarations changes nothing that is said, if nothing is said about the
    statements that they are installed before. -/
theorem CompilationUnit.shows_install {queue : HoistQueue}
    (silent : ∀ point ∈ queue.points, ∃ id, point = .stmt id ∧ unit.Silent id) :
    (unit.install parents queue).Shows control ↔ unit.Shows control := by
  obtain ⟨entries⟩ := queue
  unfold install
  unfold HoistQueue.points at silent
  induction entries generalizing unit with
  | nil => exact Iff.rfl
  | cons entry rest ih =>
    obtain ⟨⟨id, isPoint, silentHere⟩, silentLater⟩ := forall_mem_cons.mp silent
    obtain ⟨point, hoisted⟩ := entry
    obtain rfl : point = .stmt id := isPoint
    have same (control : Control) :
        (unit.installAt parents (.stmt id, hoisted)).Shows control ↔ unit.Shows control :=
      shows_installBefore silentHere
    refine (ih fun point isLater => ?_).trans (same control)
    obtain ⟨other, isPoint, silentThere⟩ := silentLater point isLater
    exact ⟨other, isPoint, fun control shows' => silentThere control ((same control).mp shows')⟩

end Installing

end Unsugar
