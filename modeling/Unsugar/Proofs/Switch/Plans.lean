import Unsugar.Proofs.Patterns.MadeTests

open List

namespace Unsugar

/-! # What a switch with patterns becomes

A lowered switch is a block: a variable for a subject that is not simple, and a
chain of `if` statements.  A `SwitchPlan` lists what these are made of, section by
section, and `lowerSwitch_planned` says how each part comes from the switch.
-/

open Pass

def Section.hasDefault (sect : Section) : Bool := sect.labels.any isDefaultLabel

def Section.cases (sect : Section) : List Label :=
  sect.labels.filter fun label => !isDefaultLabel label

structure LabelTest where
  span : Span
  cond : Expr
  guard : Option Expr

/-- The guard is only looked at once the condition holds. -/
def LabelTest.condition (test : LabelTest) : Expr :=
  match test.guard with
  | none => test.cond
  | some guard => test.span.binary .and test.cond guard

/-- A section as it is laid out: what is tested, and what is left of its body. -/
structure SectionPlan where
  isDefault : Bool
  tests : List LabelTest
  kept : List Stmt

namespace SectionPlan

def arm? (span : Span) (plan : SectionPlan) : Option (Expr × Stmt) :=
  match plan.tests.map LabelTest.condition with
  | [] => none
  | first :: others => some (others.foldl (span.binary .or) first, span.block plan.kept)

/-- Of several sections with a `default` label the last is the one for the end of the
    chain. -/
def otherwise? (span : Span) (plans : List SectionPlan) : Option Stmt :=
  (plans.reverse.find? (·.isDefault)).map fun plan => span.block plan.kept

theorem otherwise?_cons {span : Span} (plan : SectionPlan) {plans : List SectionPlan} :
    otherwise? span (plan :: plans) = (otherwise? span plans).or
      (if plan.isDefault then some (span.block plan.kept) else none) := by
  unfold otherwise?
  rw [reverse_cons, find?_append, Option.map_or]
  cases isDefault : plan.isDefault <;> simp [isDefault]

def chain? (span : Span) (plans : List SectionPlan) : Option Stmt :=
  ifChain span (otherwise? span plans) (plans.filterMap (arm? span))

end SectionPlan

/-- A whole switch: the type and name of the variable that holds a subject that is
    not simple, and the sections. -/
structure SwitchPlan where
  holder : Option (TypeSyntax × String)
  sections : List SectionPlan

namespace SwitchPlan

def opening (plan : SwitchPlan) (span : Span) (subject : Expr) : List Stmt :=
  match plan.holder with
  | none => []
  | some (type, name) => [span.declare type name (some subject)]

def tested (plan : SwitchPlan) (span : Span) (subject : Expr) : Expr :=
  match plan.holder with
  | none => subject
  | some (_, name) => span.ident name

def body (plan : SwitchPlan) (span : Span) (subject : Expr) : List Stmt :=
  plan.opening span subject ++ (SectionPlan.chain? span plan.sections).toList

end SwitchPlan

/-! ## Where the parts come from -/

/-- A test is what a label becomes: the condition that testing the subject for its
    pattern gives, and its guard as it is. -/
def Label.TestedAs (env : PassEnv) (id : Nat) (subject : Subject) : Label → LabelTest → Prop
  | .default, _ => False
  | .case pattern guard, test => test.span = pattern.span ∧ test.guard = guard ∧
      ∃ before after, patternCondition (.stmt id) pattern.span subject pattern env before =
        .ok (test.cond, after)

/-- Statements as they are kept of a body: all of them where nothing in them leaves
    the switch, or all but the `break` at their end, where nothing else does. -/
inductive KeptOf (body : List Stmt) : List Stmt → Prop where
  | whole (none : breaksIn body = []) : KeptOf body body
  | front {kept : List Stmt} {dropped : Stmt} (found : dropLastBreak? body = some (kept, dropped))
      (isNumbered : dropped.id.isSome = true)
      (only : ∀ node ∈ breaksIn body, node.id = dropped.id) :
      KeptOf body kept

structure Section.PlannedAs (env : PassEnv) (id : Nat) (subject : Subject) (sect : Section)
    (plan : SectionPlan) : Prop where
  isDefault : plan.isDefault = sect.hasDefault
  untested : sect.hasDefault = true → plan.tests = []
  tests : sect.hasDefault = false → Forall₂ (Label.TestedAs env id subject) sect.cases plan.tests
  kept : KeptOf sect.body plan.kept

structure SwitchPlan.Lays (env : PassEnv) (node : Stmt) (subject : Expr) (sections : List Section)
    (plan : SwitchPlan) : Prop where
  holder : plan.holder.isNone = subject.isSimple
  sections : Forall₂ (Section.PlannedAs env (node.id.getD 0)
    { expr := plan.tested node.span subject, type := env.view.typeOf subject,
      source := some subject })
    sections plan.sections

variable {sections : List Section}

theorem SwitchPlan.Lays.simple {env : PassEnv} {node : Stmt} {subject : Expr} {plan : SwitchPlan}
    (lays : plan.Lays env node subject sections) :
    (plan.tested node.span subject).isSimple = true := by
  have holder := lays.holder
  unfold SwitchPlan.tested
  split
  · rename_i none
    simpa [none] using holder.symm
  · rfl

theorem EndsInBreak.breaksIn_eq {body kept : List Stmt} {dropped : Stmt}
    (ends : EndsInBreak body kept dropped) : breaksIn body = breaksIn kept ++ [dropped] := by
  induction ends with
  | here => rfl
  | block mark ends ih => simpa [breaksIn, Stmt.breaks, StmtKind.breaks] using ih
  | later node ends ih => rw [breaksIn, ih, breaksIn, append_assoc]

namespace Pass

variable {env : PassEnv} {before after : PassState}

theorem sectionBody_kept {span : Span} {body : List Stmt} {block : Stmt}
    (ran : sectionBody span body env before = .ok (block, after)) :
    ∃ kept, block = span.block kept ∧ KeptOf body kept := by
  unfold sectionBody at ran
  cases found : dropLastBreak? body with
  | none =>
    rw [found] at ran
    cases breaks : breaksIn body with
    | nil =>
      simp only [breaks] at ran
      cases ran
      exact ⟨body, rfl, .whole breaks⟩
    | cons first rest =>
      simp only [breaks, Option.isNone_none, Bool.true_or, filter_true] at ran
      cases ran
  | some reached =>
    obtain ⟨kept, dropped⟩ := reached
    rw [found] at ran
    dsimp only at ran
    cases strays : (breaksIn body).filter fun node =>
        dropped.id.isNone || node.id != dropped.id with
    | cons first rest =>
      simp only [strays] at ran
      cases ran
    | nil =>
      have only := filter_eq_nil_iff.mp strays
      simp only [strays] at ran
      have isKept : block = span.block kept := by
        split at ran
        · cases ran
          rfl
        · cases ran
          rfl
      have numbered (node : Stmt) (isBreak : node ∈ breaksIn body) :
          dropped.id.isSome = true ∧ node.id = dropped.id := by
        simpa [Option.isSome_iff_ne_none] using only node isBreak
      have isLast : dropped ∈ breaksIn body := by
        rw [(endsInBreak_of_drop body kept dropped found).breaksIn_eq]
        exact mem_append_right _ mem_cons_self
      exact ⟨kept, isKept, .front found (numbered dropped isLast).1
        fun node isBreak => (numbered node isBreak).2⟩

theorem labelConditions_tested {id : Nat} {subject : Subject} {labels : List Label}
    {conds : List Expr} (ran : labelConditions id subject labels env before = .ok (conds, after)) :
    ∃ tests, conds = tests.map LabelTest.condition ∧
      Forall₂ (Label.TestedAs env id subject) (Section.cases ⟨labels, []⟩) tests := by
  induction labels generalizing conds before with
  | nil =>
    cases ran
    exact ⟨[], rfl, .nil⟩
  | cons label rest ih =>
    cases label with
    | default => exact ih ran
    | case tested guard =>
      obtain ⟨cond, middle, ranFirst, ran⟩ := bind_eq_ok ran
      obtain ⟨others, last, ranRest, ran⟩ := bind_eq_ok ran
      cases ran
      obtain ⟨tests, rfl, areTested⟩ := ih ranRest
      obtain ⟨test, reached, ranTest, ran⟩ := bind_eq_ok ranFirst
      refine ⟨⟨tested.span, test, guard⟩ :: tests, ?_, .cons ⟨rfl, rfl, _, _, ranTest⟩ areTested⟩
      cases guard with
      | none =>
        cases ran
        rfl
      | some guard =>
        cases ran
        rfl

theorem switchArms_planned {id : Nat} {span : Span} {subject : Subject} {seen arms : SwitchArms}
    (ran : switchArms id span subject seen sections env before = .ok (arms, after)) :
    ∃ plans, Forall₂ (Section.PlannedAs env id subject) sections plans ∧
      arms.arms = seen.arms ++ plans.filterMap (SectionPlan.arm? span) ∧
      arms.otherwise = (SectionPlan.otherwise? span plans).or seen.otherwise := by
  induction sections generalizing seen before with
  | nil =>
    cases ran
    exact ⟨[], .nil, by simp, rfl⟩
  | cons sect rest ih =>
    obtain ⟨labels, body⟩ := sect
    rw [switchArms] at ran
    obtain ⟨block, middle, ranBody, ran⟩ := bind_eq_ok ran
    obtain ⟨kept, rfl, isKept⟩ := sectionBody_kept ranBody
    split at ran
    · rename_i isDefault
      obtain ⟨plans, planned, isArms, isOtherwise⟩ := ih ran
      refine ⟨⟨true, [], kept⟩ :: plans, .cons ⟨isDefault.symm, fun _ => rfl, ?_, isKept⟩ planned,
        isArms, ?_⟩
      · exact fun notDefault => absurd (isDefault.symm.trans notDefault) (by simp)
      · rw [isOtherwise, SectionPlan.otherwise?_cons, Option.or_assoc]
        rfl
    · rename_i notDefault
      have isFalse : Section.hasDefault ⟨labels, body⟩ = false :=
        Bool.eq_false_iff.mpr notDefault
      obtain ⟨conds, last, ranLabels, ran⟩ := bind_eq_ok ran
      obtain ⟨tests, rfl, areTested⟩ := labelConditions_tested ranLabels
      have planned : Section.PlannedAs env id subject ⟨labels, body⟩ ⟨false, tests, kept⟩ :=
        ⟨isFalse.symm, fun isDefault => absurd (isDefault.symm.trans isFalse) (by simp),
          fun _ => areTested, isKept⟩
      cases conds : tests.map LabelTest.condition with
      | nil =>
        rw [conds] at ran
        obtain ⟨plans, others, isArms, isOtherwise⟩ := ih ran
        refine ⟨_ :: plans, .cons planned others, ?_, ?_⟩
        · rw [isArms, filterMap_cons_none]
          simp [SectionPlan.arm?, conds]
        · rw [isOtherwise, SectionPlan.otherwise?_cons]
          simp
      | cons first rest =>
        rw [conds] at ran
        obtain ⟨plans, others, isArms, isOtherwise⟩ := ih ran
        refine ⟨_ :: plans, .cons planned others, ?_, ?_⟩
        · have arm : SectionPlan.arm? span ⟨false, tests, kept⟩ =
              some (rest.foldl (span.binary .or) first, span.block kept) := by
            simp [SectionPlan.arm?, conds]
          rw [isArms, filterMap_cons_some arm, append_assoc]
          rfl
        · rw [isOtherwise, SectionPlan.otherwise?_cons]
          simp

theorem lowerSwitch_planned {node : Stmt} {subject : Expr} {results : List Stmt}
    (ran : lowerSwitch node subject sections env before = .ok (results, after)) :
    ∃ plan : SwitchPlan, plan.Lays env node subject sections ∧
      results = [{ node with kind := .block (plan.body node.span subject) }] := by
  have lowered (tested : Expr) (holder : Option (TypeSyntax × String))
      (isHolder : holder.isNone = subject.isSimple) (opening : List Stmt)
      (isTested : ∀ sections, tested = SwitchPlan.tested ⟨holder, sections⟩ node.span subject)
      (isOpening : ∀ sections, opening = SwitchPlan.opening ⟨holder, sections⟩ node.span subject)
      {start : PassState}
      (ran : (do
        let arms ← switchArms (node.id.getD 0) node.span
          { expr := tested, type := env.view.typeOf subject, source := some subject } {} sections
        setStmt node (.block (opening ++ (ifChain node.span arms.otherwise arms.arms).toList)))
        env start = .ok (results, after)) :
      ∃ plan : SwitchPlan, plan.Lays env node subject sections ∧
        results = [{ node with kind := .block (plan.body node.span subject) }] := by
    obtain ⟨arms, last, ranArms, ran⟩ := bind_eq_ok ran
    obtain ⟨plans, planned, isArms, isOtherwise⟩ := switchArms_planned ranArms
    cases ran
    rw [isTested plans] at planned
    refine ⟨⟨holder, plans⟩, ⟨isHolder, planned⟩, ?_⟩
    rw [isArms, isOtherwise, isOpening plans, Option.or_none]
    rfl
  obtain ⟨type, middle, ranType, ran⟩ := bind_eq_ok ran
  cases ranType
  dsimp only at ran
  split at ran
  · rename_i simple
    exact lowered subject none simple.symm [] (fun _ => rfl) (fun _ => rfl) ran
  · rename_i notSimple
    obtain ⟨name, second, ranName, ran⟩ := bind_eq_ok ran
    obtain ⟨type, third, ranType, ran⟩ := bind_eq_ok ran
    have isFalse : subject.isSimple = false := by simpa using notSimple
    exact lowered (node.span.ident name) (some (type, name)) isFalse.symm
      [node.span.declare type name (some subject)] (fun _ => rfl) (fun _ => rfl) ran

end Pass

end Unsugar
