import Unsugar.Proofs.Ownership.ProperPasses
import Unsugar.Proofs.Patterns.Conditions

open List

namespace Unsugar

/-! # Types of hoisted variables

Every variable that a pass hoists out of a pattern gets a local at its point.  The
first variable of a name at a point decides on the type of that local, so a
variable has a local of its own type wherever all those that share its name and
point have the same type.
-/

open Pass (Returns)

/-! ## Variables of a unit -/

variable {site : Site} {yes : Stmt} {no : Option Stmt} {mark : Mark} {state : PassState}

def ExprKind.binders : ExprKind → List (Mark × String)
  | .isPattern _ tested => tested.binders
  | _ => []

/-- The variables of the labels that a switch tests. -/
def StmtKind.binders : StmtKind → List (Mark × String)
  | .switch _ sections =>
    if allConstant sections then [] else sections.flatMap Section.binders
  | _ => []

def PassEnv.PointOf (env : PassEnv) (site : Site) (node : Expr) (point : InstallPoint) : Prop :=
  ∀ state, Pass.installPoint site node node.span env state = .ok (point, state)

def PassEnv.HoistsAt (env : PassEnv) : PassKind → Site → Node → Wanted
  | .patterns, site, .expr node => fun point mark name =>
    Pass.isBranchTest site node = false ∧ env.PointOf site node point ∧
      (mark, name) ∈ node.kind.binders
  | .switchLabels, _, .stmt node => fun point mark name =>
    point = .stmt (node.id.getD 0) ∧ (mark, name) ∈ node.kind.binders
  | _, _, _ => fun _ _ _ => False

def PassEnv.Hoists (env : PassEnv) (pass : PassKind) : Wanted := fun point mark name =>
  ∃ site node, env.unit.Holds site node ∧ env.HoistsAt pass site node point mark name

/-! ## Rebuilt patterns designate the same -/

def Rules.KeepPatterns (rules : Rules Pass) : Prop :=
  ∀ site node kind, rules.pattern site node kind = pure { node with kind }

section Binders

variable {rules : Rules Pass}

mutual

theorem Pattern.rebuild_binders (keep : rules.KeepPatterns) (site : Site) : (node : Pattern) →
    Returns (node.rebuild rules site) (·.binders = node.binders)
  | ⟨mark, kind⟩ => by
    rw [Pattern.rebuild]
    refine (kind.rebuild_binders keep mark _).bind fun rebuilt same => ?_
    rw [keep]
    exact .pure same

theorem PatternKind.rebuild_binders (keep : rules.KeepPatterns) (mark : Mark) (site : Site) :
    (kind : PatternKind) →
    Returns (kind.rebuild rules site) (·.binders mark = kind.binders mark)
  | .constant _ | .relational .. => .last fun _ => .pure rfl
  | .declaration .. | .var _ | .type _ | .discard | .slice none => .pure rfl
  | .recursive _ positional properties _ =>
    (rebuildPatterns_binders keep positional).bind fun _ samePositional =>
      (rebuildProperties_binders keep properties).bind fun _ sameProperties => .pure (by
        simp only [PatternKind.binders, samePositional, sameProperties])
  | .list elements _ =>
    (rebuildPatterns_binders keep elements).bind fun _ same => .pure (by
      simp only [PatternKind.binders, same])
  | .slice (some inner) | .not inner | .paren inner =>
    (inner.rebuild_binders keep site).bind fun _ same => .pure same
  | .and left right | .or left right =>
    (left.rebuild_binders keep site).bind fun _ sameLeft =>
      (right.rebuild_binders keep site).bind fun _ sameRight => .pure (by
        simp only [PatternKind.binders, sameLeft, sameRight])

theorem rebuildPatterns_binders (keep : rules.KeepPatterns) {site : Site} : (nodes : List Pattern) →
    Returns (rebuildPatterns rules site nodes) (bindersOf · = bindersOf nodes)
  | [] => .pure rfl
  | node :: rest =>
    (node.rebuild_binders keep site).bind fun _ same =>
      (rebuildPatterns_binders keep rest).bind fun _ others => .pure (by
        simp only [bindersOf, same, others])

theorem rebuildProperties_binders (keep : rules.KeepPatterns) {site : Site} :
    (properties : List PropertyPattern) →
    Returns (rebuildProperties rules site properties)
      (bindersOfProperties · = bindersOfProperties properties)
  | [] => .pure rfl
  | ⟨_, node⟩ :: rest =>
    (node.rebuild_binders keep site).bind fun _ same =>
      (rebuildProperties_binders keep rest).bind fun _ others => .pure (by
        simp only [bindersOfProperties, same, others])

end

/-- A test has a tested pattern with the same variables after its parts are rebuilt,
    and nothing else becomes a test. -/
theorem ExprKind.rebuild_binders (keep : rules.KeepPatterns) (site : Site) : (kind : ExprKind) →
    Returns (kind.rebuild rules site) (·.binders = kind.binders)
  | .isPattern _ tested =>
    .last fun _ => (tested.rebuild_binders keep site).bind fun _ same => .pure same
  | .literal _ | .ident _ | .self | .base | .typeRef _ | .memberBinding _
  | .defaultOf _ | .declaration .. | .discard => .pure rfl
  | .member .. | .fromEnd _ | .unary .. | .typeTest .. | .cast .. | .spread _ | .throw _
  | .await _ | .out _ | .paren _ | .elementBinding _ | .collection _ | .tuple _
  | .interpolated _ => .last fun _ => .pure rfl
  | .conditionalAccess .. | .binary .. | .assign .. | .call .. | .index .. | .range .. | .seq ..
  | .lambda .. | .create .. | .copyWith .. | .switch .. => .last fun _ => .last fun _ => .pure rfl
  | .conditional .. => .last fun _ => .last fun _ => .last fun _ => .pure rfl

/-- What decides how a label is treated. -/
structure Label.Alike (left right : Label) : Prop where
  binders : left.binders = right.binders
  isDefault : Pass.isDefaultLabel left = Pass.isDefaultLabel right
  isConstant : left.isConstant = right.isConstant

theorem PatternKind.rebuild_isConstant (mark : Mark) (site : Site) : (kind : PatternKind) →
    Returns (kind.rebuild rules site) fun rebuilt =>
      (Label.case ⟨mark, rebuilt⟩ none).isConstant = (Label.case ⟨mark, kind⟩ none).isConstant
  | .declaration .. | .var _ | .type _ | .discard | .slice none => .pure rfl
  | .constant _ | .relational .. | .list .. | .slice (some _) | .not _ | .paren _ =>
    .last fun _ => .pure rfl
  | .recursive .. | .and .. | .or .. => .last fun _ => .last fun _ => .pure rfl

theorem Pattern.rebuild_isConstant (keep : rules.KeepPatterns) (site : Site) :
    (node : Pattern) → Returns (node.rebuild rules site) fun rebuilt =>
      (Label.case rebuilt none).isConstant = (Label.case node none).isConstant
  | ⟨mark, kind⟩ => by
    rw [Pattern.rebuild]
    refine (kind.rebuild_isConstant mark _).bind fun rebuilt same => ?_
    rw [keep]
    exact .pure same

theorem rebuildExpr?_isSome {node : Option Expr} :
    Returns (rebuildExpr? rules site node) (·.isSome = node.isSome) := by
  cases node with
  | none => exact .pure rfl
  | some _ => exact .last fun _ => .pure rfl

theorem Label.isConstant_guarded {tested : Pattern} {guard : Expr} :
    (Label.case tested (some guard)).isConstant = false := by
  obtain ⟨mark, kind⟩ := tested
  cases kind <;> rfl

theorem rebuildLabels_alike (keep : rules.KeepPatterns) {site : Site} {labels : List Label} :
    Returns (rebuildLabels rules site labels) fun rebuilt =>
      Forall₂ Label.Alike rebuilt labels := by
  induction labels with
  | nil => exact .pure .nil
  | cons label rest ih =>
    cases label with
    | default =>
      exact ih.bind fun _ others => .pure (.cons ⟨rfl, rfl, rfl⟩ others)
    | case tested guard =>
      rw [rebuildLabels]
      refine ((tested.rebuild_binders keep site).both (tested.rebuild_isConstant keep site)).bind
          fun pattern same => rebuildExpr?_isSome.bind fun guarded sameGuard =>
            ih.bind fun _ others => .pure (.cons ?_ others)
      refine ⟨same.1, rfl, ?_⟩
      cases guard with
      | none =>
        obtain rfl := Option.isNone_iff_eq_none.1 (Option.isSome_eq_false_iff.1 sameGuard)
        exact same.2
      | some guard =>
        obtain ⟨guarded, rfl⟩ := Option.isSome_iff_exists.1 sameGuard
        rw [Label.isConstant_guarded, Label.isConstant_guarded]

theorem sameLabels {left right : List Label} (alike : Forall₂ Label.Alike left right) :
    left.flatMap Label.binders = right.flatMap Label.binders ∧
      left.any Pass.isDefaultLabel = right.any Pass.isDefaultLabel ∧
      left.all Label.isConstant = right.all Label.isConstant := by
  induction alike with
  | nil => exact ⟨rfl, rfl, rfl⟩
  | cons head _ ih =>
    obtain ⟨binders, defaults, constants⟩ := ih
    simp only [flatMap_cons, any_cons, all_cons, head.binders, head.isDefault,
      head.isConstant, binders, defaults, constants, and_self]

theorem rebuildSections_alike (keep : rules.KeepPatterns)
    {sections : List Section} : Returns (rebuildSections rules site sections) fun rebuilt =>
      rebuilt.flatMap Section.binders = sections.flatMap Section.binders ∧
        allConstant rebuilt = allConstant sections := by
  induction sections with
  | nil => exact .pure ⟨rfl, rfl⟩
  | cons sect rest ih =>
    obtain ⟨labels, body⟩ := sect
    refine (rebuildLabels_alike keep).bind fun _ alike => .last fun _ =>
      ih.bind fun _ others => .pure ?_
    obtain ⟨binders, defaults, constants⟩ := sameLabels alike
    obtain ⟨otherBinders, otherConstants⟩ := others
    unfold allConstant at otherConstants ⊢
    simp only [flatMap_cons, Section.binders, all_cons, binders, defaults,
      constants, otherBinders, otherConstants, and_self]

theorem StmtKind.rebuild_binders (keep : rules.KeepPatterns) (site : Site) : (kind : StmtKind) →
    Returns (kind.rebuild rules site) (·.binders = kind.binders)
  | .switch _ sections =>
    .last fun _ => (rebuildSections_alike keep).bind fun _ same => .pure (by
      simp only [StmtKind.binders, same.1, same.2])
  | .breakLoop | .continueLoop | .empty => .pure rfl
  | .block _ | .eval _ | .declare .. | .ret _ | .throw _ => .last fun _ => .pure rfl
  | .whileLoop .. | .forEach .. | .localFunction .. => .last fun _ => .last fun _ => .pure rfl
  | .ifElse .. => .last fun _ => .last fun _ => .last fun _ => .pure rfl
  | .forLoop .. => .last fun _ => .last fun _ => .last fun _ => .last fun _ => .pure rfl

end Binders

/-! ## Queues along a rebuild -/

namespace Pass

variable {α β : Type} {env : PassEnv} {wanted others : Wanted} {action : Pass α}

theorem Queues.congr (queues : Queues env wanted action)
    (same : ∀ point mark name, others point mark name ↔ wanted point mark name) :
    Queues env others action :=
  fun _ _ _ ran => (queues _ _ _ ran).congr same

/-- The second step may rely on what the first one can return. -/
theorem Queues.bind {next : α → Pass β} (first : Queues env wanted action)
    (rest : ∀ value, (∃ before after, action env before = .ok (value, after)) →
      Queues env others (next value)) :
    Queues env (fun point mark name => wanted point mark name ∨ others point mark name)
      (action >>= next) := by
  intro before result after ran
  obtain ⟨value, middle, ranFirst, ranRest⟩ := bind_eq_ok ran
  exact (first _ _ _ ranFirst).trans (rest value ⟨_, _, ranFirst⟩ _ _ _ ranRest)

theorem Quiet.queues (quiet : Quiet action) : Queues env (fun _ _ _ => False) action := by
  intro before result after ran
  rw [quiet _ _ _ _ ran]
  exact .refl _

end Pass

open Pass in
structure Rules.Queue (rules : Rules Pass) (env : PassEnv) (queues : Site → Node → Wanted) :
    Prop where
  expr (site : Site) (node : Expr) (kind : ExprKind) :
    (∃ before after, node.kind.rebuild rules (site.below (.expr node)) env before =
      .ok (kind, after)) → Queues env (queues site (.expr node)) (rules.expr site node kind)
  stmt (site : Site) (node : Stmt) (kind : StmtKind) :
    (∃ before after, node.kind.rebuild rules (site.below (.stmt node)) env before =
      .ok (kind, after)) → Queues env (queues site (.stmt node)) (rules.stmt site node kind)
  pattern (site : Site) (node : Pattern) (kind : PatternKind) :
    (∃ before after, node.kind.rebuild rules (site.below (.pattern node)) env before =
      .ok (kind, after)) → Queues env (queues site (.pattern node)) (rules.pattern site node kind)

section Rebuild

variable {rules : Rules Pass} {env : PassEnv} {queues : Site → Node → Wanted}

/-- What is queued follows the nodes of a rebuild; a node stays free of a variable if
    it does not queue it. -/
def Rules.Queue.walk (queue : rules.Queue env queues) :
    Traversal rules fun (which : InstallPoint × Mark × String) site node =>
      ¬ queues site node which.1 which.2.1 which.2.2 where
  holds free action _ := Pass.Queues env (fun point mark name => ¬ free (point, mark, name)) action
  congr queues iff := queues.congr fun _ _ _ => not_congr (iff _)
  pure value := (Pass.Quiet.pure value).queues.congr fun _ _ _ => by simp
  bind first rest := (first.bind fun value _ => rest value).congr fun _ _ _ => not_and_or
  expr site node _ children :=
    (children.bind (queue.expr site node)).congr fun _ _ _ => by rw [not_and_or, not_not]
  stmt site node _ children :=
    (children.bind (queue.stmt site node)).congr fun _ _ _ => by rw [not_and_or, not_not]
  pattern site node _ children :=
    (children.bind (queue.pattern site node)).congr fun _ _ _ => by rw [not_and_or, not_not]

theorem CompilationUnit.rebuild_queues (queue : rules.Queue env queues) (unit : CompilationUnit) :
    Pass.Queues env (fun point mark name =>
        ∃ site node, unit.Holds site node ∧ queues site node point mark name)
      (unit.rebuild rules) := by
  have walked : Pass.Queues env _ (unit.rebuild rules) := unit.rebuild_walks queue.walk
  refine walked.congr fun point mark name => ?_
  simp only [not_forall, not_not, exists_prop]

end Rebuild

/-! ## What passes queue -/

namespace Pass

variable (env : PassEnv)

theorem lowerIs_queues {node subject : Expr} {tested : Pattern} : Queues env (fun point mark name =>
      env.PointOf site node point ∧ (mark, name) ∈ tested.binders)
      (lowerIs site node subject tested) := by
  intro before result after ran
  unfold lowerIs at ran
  obtain ⟨point, middle, asked, ranRest⟩ := bind_eq_ok ran
  obtain ⟨rfl, goes⟩ := installPoint_asks _ _ _ _ asked
  have binds : Binds env point tested.binders (do
      let value : Subject := { expr := subject, type := ← typeOf subject, source := some subject }
      try
        replace node (← patternCondition point node.span value tested)
      catch error =>
        throw (error.inNode (← read).pass node.text node.span)) := by
    refine .after typeOf_asks.quiet fun type => .rethrow ?_ fun _ _ _ _ => nofun
    rw [← append_nil tested.binders]
    exact (patternCondition_binds env _ _).bind fun _ => .quiet replace_quiet
  refine (binds _ _ _ ranRest).congr fun place mark name => and_congr_left fun _ => ?_
  constructor
  · intro goesThere
    have same := (goesThere middle).symm.trans (goes middle)
    cases same
    rfl
  · rintro rfl
    exact goes

theorem lowerBranchTest_quiet {node : Stmt} {cond : Expr} :
    Quiet (lowerBranchTest node cond yes no) := by
  unfold lowerBranchTest
  split
  · exact .pure _
  · refine view_asks.quiet.bind fun _ => ?_
    dsimp only
    split
    · exact syntaxOf_quiet.bind fun _ => setStmt_quiet
    · exact (Quiet.pure _).bind fun _ => setStmt_quiet

theorem patternRules_queue : patternRules.Queue env (env.HoistsAt .patterns) where
  expr site node kind rebuilt := by
    obtain ⟨before, after, ran⟩ := rebuilt
    have same := node.kind.rebuild_binders (fun _ _ _ => rfl) _ _ _ _ _ ran
    cases kind with
    | isPattern subject tested =>
      change Queues env _ (if isBranchTest site node = true then _ else _)
      split
      · next isBranch =>
          exact (Quiet.pure _).queues.congr fun _ _ _ => by simp [PassEnv.HoistsAt, isBranch]
      · next notBranch =>
          refine (lowerIs_queues env).congr fun point mark name => ?_
          rw [Bool.not_eq_true] at notBranch
          simp only [PassEnv.HoistsAt, notBranch, true_and, ← same]
          rfl
    | _ =>
      exact (Quiet.pure _).queues.congr fun _ _ _ => by
        simp only [PassEnv.HoistsAt, ← same]
        simp [ExprKind.binders]
  stmt _ node kind _ := by
    cases kind with
    | ifElse cond yes no => exact lowerBranchTest_quiet.queues
    | _ => exact (Quiet.pure _).queues
  pattern _ _ _ _ := (Quiet.pure _).queues

theorem switchRules_queue : switchRules.Queue env (env.HoistsAt .switchLabels) where
  expr _ _ _ _ := (Quiet.pure _).queues
  stmt site node kind rebuilt := by
    obtain ⟨before, after, ran⟩ := rebuilt
    have same := node.kind.rebuild_binders (fun _ _ _ => rfl) _ _ _ _ _ ran
    cases kind with
    | switch subject sections =>
      change Queues env _ (if allConstant sections = true then _ else _)
      split
      · next constant =>
          exact (Quiet.pure _).queues.congr fun _ _ _ => by
            simp only [PassEnv.HoistsAt, ← same]
            simp [StmtKind.binders, constant]
      · next tested =>
          refine Queues.congr (lowerSwitch_binds env) fun _ _ _ => ?_
          simp only [PassEnv.HoistsAt, ← same]
          simp [StmtKind.binders, tested]
    | _ =>
      exact (Quiet.pure _).queues.congr fun _ _ _ => by
        simp only [PassEnv.HoistsAt, ← same]
        simp [StmtKind.binders]
  pattern _ _ _ _ := (Quiet.pure _).queues

end Pass

variable {pass : PassKind} {name : String} {point : InstallPoint} {accepts : Site → Node → Bool}
  {env : PassEnv}

theorem PassKind.action_queues {env : PassEnv} (lowers : pass = .patterns ∨ pass = .switchLabels) :
    Pass.Queues env (env.Hoists pass) pass.action := by
  obtain rfl | rfl := lowers
  · intro before result after ran
    exact env.unit.rebuild_queues (Pass.patternRules_queue env) before result after ran
  · intro before result after ran
    exact env.unit.rebuild_queues (Pass.switchRules_queue env) before result after ran

/-! ## Tests that declare in a branch -/

namespace Pass

variable {cond subject : Expr} {name : String} {tested : Pattern} {written : TypeSyntax}

theorem declarationTest?_eq_some
    (isTest : declarationTest? cond = some (subject, tested, written, name)) :
    ∃ mark inner, cond = ⟨mark, .isPattern subject tested⟩ ∧
      tested = ⟨inner, .declaration written name⟩ ∧ subject.isSimple = true := by
  unfold declarationTest? at isTest
  split at isTest
  · next mark found inner type other =>
      split at isTest
      · next isSimple =>
          cases isTest
          exact ⟨mark, inner, rfl, rfl, (Bool.and_eq_true _ _ ▸ isSimple).2⟩
      · cases isTest
  · cases isTest

end Pass

/-! ## Types of locals -/

theorem PassEnv.Hoists.lowers (hoists : env.Hoists pass point mark name) :
    pass = .patterns ∨ pass = .switchLabels := by
  obtain ⟨site, node, _, hoistsAt⟩ := hoists
  unfold PassEnv.HoistsAt at hoistsAt
  split at hoistsAt
  · exact .inl rfl
  · exact .inr rfl
  · exact hoistsAt.elim

end Unsugar
