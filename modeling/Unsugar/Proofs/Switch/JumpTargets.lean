import Unsugar.Proofs.Lower.UnnotedRuns
import Unsugar.Proofs.Switch.InstalledJumps

open List

namespace Unsugar

/-! # Targets of jumps

A `break` or `continue` that is left when switches are lowered goes where it went
before.
-/

open Node

theorem PassKind.run_installs {pass : PassKind} {env : PassEnv} {start : PassState}
    {result : PassResult} (ran : pass.action.run env start = .ok result) :
    ∃ unit after, pass.action env start = .ok (unit, after) ∧
      result.unit.getD env.unit = unit.install (.ofUnit env.unit) after.hoists := by
  unfold Pass.run at ran
  change (pass.action env start >>= _) = _ at ran
  cases acted : pass.action env start with
  | error error =>
    rw [acted] at ran
    cases ran
  | ok reached =>
    obtain ⟨unit, after⟩ := reached
    rw [acted] at ran
    refine ⟨unit, after, rfl, ?_⟩
    change (if (after.changed || !after.hoists.isEmpty) = true then _ else _) = _ at ran
    split at ran
    · cases ran
      rfl
    · rename_i unnoted
      cases ran
      obtain ⟨unchanged, isEmpty⟩ : after.changed = false ∧ after.hoists.isEmpty = true := by
        simpa using unnoted
      have same := (pass.action_candid start unit after acted unchanged).2
      have noEntries : after.hoists.entries = [] := isEmpty_iff.mp isEmpty
      rw [CompilationUnit.install, noEntries, same]
      rfl

def CompilationUnit.Distinguishes (unit : CompilationUnit) (mark : Mark) : Prop :=
  ∀ first ∈ unit.reachable, ∀ second ∈ unit.reachable,
    first.mark = mark → second.mark = mark → first = second

variable {unit : CompilationUnit}

theorem CompilationUnit.Proper.distinguishes (proper : unit.Proper) {mark : Mark}
    (isSome : mark.id.isSome = true) : unit.Distinguishes mark := by
  obtain ⟨id, hasId⟩ := Option.isSome_iff_exists.mp isSome
  intro first isFirst second isSecond firstMark secondMark
  exact proper.eq_of_id isFirst isSecond (firstMark ▸ hasId) (secondMark ▸ hasId)

structure KeepsTargets (view : View) (unit lowered : CompilationUnit) : Prop where
  distinct {control : Control} : unit.Shows control →
    unit.Distinguishes control.mark ∧ lowered.Distinguishes control.mark
  bound {mark : Mark} {isBreak : Bool} {target : Option Mark} :
    lowered.Shows (.jump mark isBreak target) → unit.Shows (.jump mark isBreak target)
  /-- That place is a loop or a switch over constants, before and after. -/
  target {mark place : Mark} {isBreak : Bool} : lowered.Shows (.jump mark isBreak (some place)) →
      unit.Shows (.target place) ∧ lowered.Shows (.target place)
  removed {mark : Mark} {isBreak : Bool} {target : Option Mark} :
    unit.Shows (.jump mark isBreak target) → lowered.Shows (.jump mark isBreak target) ∨
        Lost view unit.roots {} (.jump mark isBreak target)

section Run

variable {tree : Tree} {triggers : Triggers} {result : PassResult}

/-- Nothing is left to say about a switch with patterns, so what is queued for it may
    go around it. -/
theorem switchLabels_silent {unit : CompilationUnit} {after : PassState}
    (acted : Pass.switchLabels (tree.analyze.env .switchLabels) (tree.analyze.start triggers) =
      .ok (unit, after)) :
    ∀ point ∈ after.hoists.points, ∃ id, point = .stmt id ∧ unit.Silent id := by
  intro point isPoint
  have proper := tree.analyze_proper.1
  rcases switchLabels_queuesAt _ _ _ acted point isPoint with none | ⟨node, isNode, awaits⟩
  · cases none
  · obtain ⟨isPatterned, rfl⟩ := awaits
    obtain ⟨id, hasId⟩ := Option.isSome_iff_exists.mp (tree.analyze_numbered node isNode)
    rw [hasId]
    refine ⟨id, rfl, fun control shows' sameId => ?_⟩
    obtain ⟨before, unpatterned⟩ := Shown.turned (switchLabels_turned proper acted) shows'
    obtain ⟨other, isOther, place, isControl⟩ := CompilationUnit.Shows.said before
    have otherId : other.mark.id = some id := by
      rwa [← Node.control?_mark isControl]
    obtain rfl : other = node := proper.eq_of_id isOther isNode otherId hasId
    unfold Node.control? at isControl
    rw [isPatterned] at isControl
    cases isControl
    cases unpatterned

/-- Lowering switches keeps the targets of jumps. -/
theorem switchLabels_keepsTargets
    (ran : PassKind.switchLabels.action.run (tree.analyze.env .switchLabels)
      (tree.analyze.start triggers) = .ok result) :
    KeepsTargets tree.analyze.view tree.analyze.tree.unit
      (result.unit.getD tree.analyze.tree.unit) := by
  obtain ⟨proper, below⟩ := tree.analyze_proper
  have properAfter : (result.unit.getD tree.analyze.tree.unit).Proper :=
    PassKind.switchLabels.run_proper proper below ran
  obtain ⟨unit, after, acted, isUnit⟩ := PassKind.run_installs ran
  replace isUnit : result.unit.getD tree.analyze.tree.unit =
    unit.install (.ofUnit tree.analyze.tree.unit) after.hoists := isUnit
  have turned : List.Forall₂ (Node.Turned tree.analyze.view) tree.analyze.tree.unit.roots
      unit.roots := switchLabels_turned proper acted
  rw [isUnit] at properAfter ⊢
  have same (control : Control) : (unit.install (.ofUnit tree.analyze.tree.unit) after.hoists).Shows
      control ↔ unit.Shows control :=
    CompilationUnit.shows_install (switchLabels_silent acted)
  have found {control : Control} (shows' : unit.Shows control) :
      tree.analyze.tree.unit.Shows control ∧ control.isPatterned = false :=
    Shown.turned turned shows'
  exact {
    distinct := fun {control} shows' => by
      obtain ⟨node, isNode, place, isControl⟩ := shows'.said
      rw [Node.control?_mark isControl]
      have isSome := tree.analyze_numbered node isNode
      exact ⟨proper.distinguishes isSome, properAfter.distinguishes isSome⟩
    bound := fun shows' => (found ((same _).mp shows')).1
    target := fun {mark place isBreak} shows' => by
      rcases CompilationUnit.Shows.goal ((same _).mp shows') with isTarget | isPatterned
      · exact ⟨(found isTarget).1, (same _).mpr isTarget⟩
      · cases (found isPatterned).2
    removed := fun shows' => (Shown.kept_or_lost turned rfl shows').imp_left (same _).mpr }

end Run

def methodTree (body : List Stmt) : Tree :=
  let span : Span := default
  classTree none [⟨.field (.simple "string") "K" (some span.nullLit), [.isConst], span⟩,
     ⟨.method "M" [] [.plain (.simple "object") "x"] (.simple "void") (.block (span.block body)),
      [.isStatic], span⟩]

def typeLabel (type : String) : Label :=
  .case ⟨(default : Span).mark, .type (.simple type)⟩ none

def brokenLoop : Stmt :=
  let span : Span := default
  span.stmt (.whileLoop (span.boolLit true) (span.block [span.stmt .breakLoop]))

def nestedJumps : Tree :=
  let span : Span := default
  methodTree [span.stmt (.whileLoop (span.boolLit true) (span.stmt (.switch (span.ident "x")
    [⟨[typeLabel "string"], [span.stmt .continueLoop]⟩,
     ⟨[typeLabel "int"], [brokenLoop, span.stmt .breakLoop]⟩])))]

def CompilationUnit.countRole (unit : CompilationUnit) (role : Role) : Nat :=
  unit.reachable.countP fun node => node.role = role

/-- Whether lowering switches comes through and rebuilds a tree to this. -/
def Tree.switchesTo (tree : Tree) (accepts : CompilationUnit → Bool) : Bool :=
  match PassKind.switchLabels.action.run (tree.analyze.env .switchLabels)
      (tree.analyze.start {}) with
  | .ok result => result.unit.any accepts
  | .error _ => false

theorem Tree.run_of_switchesTo {tree : Tree} {accepts : CompilationUnit → Bool}
    (rebuilds : tree.switchesTo accepts = true) :
    ∃ result unit, PassKind.switchLabels.action.run (tree.analyze.env .switchLabels)
        (tree.analyze.start {}) = .ok result ∧ result.unit = some unit ∧ accepts unit = true := by
  unfold switchesTo at rebuilds
  split at rebuilds
  · rename_i result ran
    obtain ⟨unit, isUnit, isAccepted⟩ := (Option.any_eq_true _ _).mp rebuilds
    exact ⟨result, unit, ran, isUnit, isAccepted⟩
  · cases rebuilds

/-- Of two `break` statements the one that ends a section is removed. -/
theorem switchLabels_keepsTargets_nestedJumps :
    ∃ result unit, PassKind.switchLabels.action.run (nestedJumps.analyze.env .switchLabels)
        (nestedJumps.analyze.start {}) = .ok result ∧ result.unit = some unit ∧
      nestedJumps.analyze.tree.unit.countRole .breaks = 2 ∧ unit.countRole .breaks = 1 ∧
      unit.countRole .continues = 1 ∧
      KeepsTargets nestedJumps.analyze.view nestedJumps.analyze.tree.unit unit := by
  have before : nestedJumps.analyze.tree.unit.countRole .breaks = 2 := by decide +kernel
  have rebuilds : nestedJumps.switchesTo (fun unit =>
      unit.countRole .breaks = 1 ∧ unit.countRole .continues = 1) = true := by decide +kernel
  obtain ⟨result, unit, ran, isUnit, counts⟩ := Tree.run_of_switchesTo rebuilds
  obtain ⟨breaks, continues⟩ := of_decide_eq_true counts
  have keeps := switchLabels_keepsTargets ran
  rw [isUnit] at keeps
  exact ⟨result, unit, ran, isUnit, before, breaks, continues, keeps⟩

/-! ## Parts that are never run -/

def CompilationUnit.EndsSection (unit : CompilationUnit) (mark : Mark) : Prop :=
  ∃ switch subject sections, stmt ⟨switch, .switch subject sections⟩ ∈ unit.reachable ∧
    allConstant sections = false ∧ ∃ sect ∈ sections, EndIn (ofStmts sect.body) mark

def Node.isUnbroken : Node → Bool
  | stmt ⟨_, .switch _ sections⟩ => sections.all fun sect => (breaksIn sect.body).isEmpty
  | _ => true

theorem CompilationUnit.not_endsSection (unbroken : unit.reachable.all Node.isUnbroken = true)
    {mark : Mark} : ¬ unit.EndsSection mark := by
  rintro ⟨switch, subject, sections, isSwitch, -, sect, isSection, last, isLast, endsIn⟩
  have none := all_eq_true.mp (all_eq_true.mp unbroken _ isSwitch) sect isSection
  obtain ⟨found, isFound, -⟩ := endsIn.exists_break
  obtain ⟨statement, isStatement, rfl⟩ := mem_map.mp (mem_of_getLast? isLast)
  have leaves : found ∈ breaksIn sect.body := mem_breaksIn.mpr ⟨statement, isStatement, isFound⟩
  rw [isEmpty_iff.mp none] at leaves
  cases leaves

theorem Node.shows_break {node below : Node} (isBelow : below ∈ node.reachable true)
    (isBreak : below.role = .breaks) (scope : JumpScope) :
    ∃ target, node.Shows scope (.jump below.mark true target) := by
  induction node using Node.childInduction generalizing scope with
  | step node ih =>
    rw [node.reachable_eq, mem_cons] at isBelow
    rcases isBelow with rfl | isBelow
    · exact ⟨scope.breakTo, .here (by rw [control?, isBreak])⟩
    · obtain ⟨child, isChild, isBelow⟩ := mem_flatMap.mp isBelow
      obtain ⟨target, shows'⟩ := ih child isChild isBelow (scope.below node)
      exact ⟨target, .inside isChild shows'⟩

theorem CompilationUnit.shows_break {node : Node} (isNode : node ∈ unit.reachable)
    (isBreak : node.role = .breaks) : ∃ target, unit.Shows (.jump node.mark true target) := by
  rw [unit.reachable_eq] at isNode
  obtain ⟨root, isRoot, isBelow⟩ := mem_flatMap.mp isNode
  obtain ⟨target, shows'⟩ := root.shows_break isBelow isBreak {}
  exact ⟨target, root, isRoot, shows'⟩

theorem CompilationUnit.not_shows_break (none : unit.countRole .breaks = 0) (mark : Mark)
    (target : Option Mark) : ¬ unit.Shows (.jump mark true target) := by
  intro shows'
  obtain ⟨node, isNode, place, isControl⟩ := shows'.said
  have noBreak := countP_eq_zero.mp none node isNode
  unfold Node.control? at isControl
  split at isControl <;> simp_all

/-- A switch with `case string: return;` and three times `while (true) { break; }`: in a
    section without a label, in one whose `default` is not the last, and in a lambda
    within a constant that is `null`. -/
def unchosenLoops : Tree :=
  let span : Span := default
  let leave : Stmt := span.stmt (.ret none)
  let loops := span.lambda [] (.block (span.block [brokenLoop]))
  let constant := span.member (span.create (.simple "C") [loops]) "K"
  methodTree [span.stmt (.switch (span.ident "x")
    [⟨[typeLabel "string"], [leave]⟩, ⟨[], [brokenLoop]⟩,
     ⟨[.case ⟨span.mark, .constant constant⟩ none], [leave]⟩,
     ⟨[.default], [brokenLoop]⟩, ⟨[.default], [leave]⟩])]

/-- Three `break` statements leave loops, and so end no section, and none is left. -/
theorem switchLabels_drops_unchosenLoops :
    ∃ result lowered, PassKind.switchLabels.action.run (unchosenLoops.analyze.env .switchLabels)
        (unchosenLoops.analyze.start {}) = .ok result ∧ result.unit = some lowered ∧
      unchosenLoops.analyze.tree.unit.countRole .breaks = 3 ∧
      (∃ mark target, unchosenLoops.analyze.tree.unit.Shows (.jump mark true target)) ∧
      ∀ mark, ¬ unchosenLoops.analyze.tree.unit.EndsSection mark ∧
        ∀ target, ¬ lowered.Shows (.jump mark true target) := by
  have unbroken : unchosenLoops.analyze.tree.unit.reachable.all Node.isUnbroken = true := by
    decide +kernel
  have breaks : unchosenLoops.analyze.tree.unit.countRole .breaks = 3 := by decide +kernel
  have rebuilds : unchosenLoops.switchesTo (fun unit => unit.countRole .breaks = 0) = true := by
    decide +kernel
  obtain ⟨result, lowered, ran, isUnit, none⟩ := Tree.run_of_switchesTo rebuilds
  have some : 0 < unchosenLoops.analyze.tree.unit.countRole .breaks := by omega
  obtain ⟨node, isNode, isBreak⟩ := List.countP_pos_iff.mp some
  obtain ⟨target, shows'⟩ := CompilationUnit.shows_break isNode (of_decide_eq_true isBreak)
  exact ⟨result, lowered, ran, isUnit, breaks, ⟨node.mark, target, shows'⟩, fun mark =>
    ⟨CompilationUnit.not_endsSection unbroken,
      CompilationUnit.not_shows_break (of_decide_eq_true none) mark⟩⟩

end Unsugar
