import Unsugar.Proofs.Switch.Plans
import Unsugar.Proofs.Patterns.Conditions
import Mathlib.Data.Nat.Find

open List

namespace Unsugar

/-! # Which section a lowered switch runs

The labels of a switch are tested in order, section by section, until one holds;
which section is run then depends only on which labels hold.  Labels that stand
beside `default` are not tested, so the lowered switch takes the first section
whose labels hold among those without `default`, and the last with `default` where
there is none.  That is the first match of the switch, whatever holds, exactly
if no label follows a section that has a `default` and another label.
-/

/-! ## Truth of labels -/

variable {first : Expr} {test : LabelTest} {kept body : List Stmt} {holder : String}

def SectionHolds (truths : List (List Bool)) (index : Nat) : Prop :=
  ∃ values, truths[index]? = some values ∧ true ∈ values

inductive FirstMatch (defaults : List Bool) (truths : List (List Bool)) : Option Nat → Prop where
  | label {index : Nat} (holds : SectionHolds truths index)
      (first : ∀ earlier < index, ¬ SectionHolds truths earlier) :
      FirstMatch defaults truths (some index)
  | default {index : Nat} (isDefault : defaults[index]? = some true)
      (unmatched : ∀ other, ¬ SectionHolds truths other) :
      FirstMatch defaults truths (some index)
  | nothing (noDefault : ∀ index : Nat, defaults[index]? ≠ some true)
      (unmatched : ∀ other, ¬ SectionHolds truths other) : FirstMatch defaults truths none

/-- What a lowered switch takes: labels in sections with `default` do not count. -/
inductive Takes (defaults : List Bool) (truths : List (List Bool)) : Option Nat → Prop where
  | label {index : Nat} (holds : SectionHolds truths index) (apart : defaults[index]? ≠ some true)
      (first : ∀ earlier < index, SectionHolds truths earlier → defaults[earlier]? = some true) :
      Takes defaults truths (some index)
  | default {index : Nat} (isDefault : defaults[index]? = some true)
      (last : ∀ later : Nat, index < later → defaults[later]? ≠ some true)
      (unmatched : ∀ other, SectionHolds truths other → defaults[other]? = some true) :
      Takes defaults truths (some index)
  | nothing (noDefault : ∀ index : Nat, defaults[index]? ≠ some true)
      (unmatched : ∀ other, ¬ SectionHolds truths other) : Takes defaults truths none

def TruthsFor (sections : List Section) (truths : List (List Bool)) : Prop :=
  Forall₂ (fun sect values => values.length = sect.cases.length) sections truths

def MixedLast (sections : List Section) : Prop :=
  sections.Pairwise fun earlier later =>
    earlier.hasDefault = true → earlier.cases ≠ [] → later.labels = []

variable {others : List (List Bool)} {index : Nat}

theorem sectionHolds_zero {values : List Bool} :
    SectionHolds (values :: others) 0 ↔ true ∈ values := by
  simp [SectionHolds]

theorem sectionHolds_succ {values : List Bool} :
    SectionHolds (values :: others) (index + 1) ↔ SectionHolds others index := by
  simp [SectionHolds]

theorem exists_last {defaults : List Bool} (isDefault : defaults[index]? = some true) :
    ∃ last : Nat, defaults[last]? = some true ∧
      ∀ later : Nat, last < later → defaults[later]? ≠ some true := by
  have within : index ≤ defaults.length :=
    Nat.le_of_lt (List.getElem?_eq_some_iff.mp isDefault).1
  let isLast (last : Nat) : Prop := defaults[last]? = some true
  refine ⟨Nat.findGreatest isLast defaults.length,
    Nat.findGreatest_spec (P := isLast) within isDefault,
    fun later after isLater => ?_⟩
  have bounded : later ≤ defaults.length := Nat.le_of_lt (List.getElem?_eq_some_iff.mp isLater).1
  exact Nat.findGreatest_is_greatest after bounded isLater

theorem Section.labels_eq_nil_iff (sect : Section) :
    sect.labels = [] ↔ sect.hasDefault = false ∧ sect.cases = [] := by
  obtain ⟨labels, body⟩ := sect
  cases labels with
  | nil => simp [Section.hasDefault, Section.cases]
  | cons label rest =>
    cases isDefault : Pass.isDefaultLabel label <;>
      simp [Section.hasDefault, Section.cases, isDefault]

section Mixed

variable {sections : List Section} {truths : List (List Bool)}
  {index : Nat}

theorem TruthsFor.cases_of_holds (isFor : TruthsFor sections truths)
    (holds : SectionHolds truths index) :
    ∃ sect, sections[index]? = some sect ∧ sect.cases ≠ [] := by
  induction isFor generalizing index with
  | nil =>
    obtain ⟨values, found, _⟩ := holds
    simp at found
  | @cons sect values _ _ counted _ ih =>
    cases index with
    | zero =>
      refine ⟨sect, rfl, fun isNone => ?_⟩
      have isTrue := sectionHolds_zero.mp holds
      rw [isNone, length_nil, length_eq_zero_iff] at counted
      simp [counted] at isTrue
    | succ index => exact ih (sectionHolds_succ.mp holds)

theorem default_iff : (sections.map Section.hasDefault)[index]? = some true ↔
    ∃ sect, sections[index]? = some sect ∧ sect.hasDefault = true := by
  simp [getElem?_map]

/-- What comes after a section with `default` of which a label holds neither holds nor
    has a `default`. -/
theorem MixedLast.after (mixed : MixedLast sections) (isFor : TruthsFor sections truths)
    {later : Nat} (isDefault : (sections.map Section.hasDefault)[index]? = some true)
    (holds : SectionHolds truths index) (isLater : index < later) :
    ¬ SectionHolds truths later ∧ (sections.map Section.hasDefault)[later]? ≠ some true := by
  obtain ⟨sect, found, isTrue⟩ := default_iff.mp isDefault
  obtain ⟨same, alsoFound, cases⟩ := isFor.cases_of_holds holds
  have isSame : same = sect := Option.some.inj (alsoFound.symm.trans found)
  subst isSame
  have bare (next : Section) (isNext : sections[later]? = some next) :
      next.hasDefault = false ∧ next.cases = [] := by
    obtain ⟨inRange, rfl⟩ := List.getElem?_eq_some_iff.mp found
    obtain ⟨nextInRange, rfl⟩ := List.getElem?_eq_some_iff.mp isNext
    exact (Section.labels_eq_nil_iff _).mp
      (pairwise_iff_getElem.mp mixed index later inRange nextInRange isLater isTrue cases)
  refine ⟨fun laterHolds => ?_, fun laterDefault => ?_⟩
  · obtain ⟨next, isNext, nextCases⟩ := isFor.cases_of_holds laterHolds
    exact nextCases (bare next isNext).2
  · obtain ⟨next, isNext, nextDefault⟩ := default_iff.mp laterDefault
    exact absurd nextDefault (by simp [(bare next isNext).1])

theorem MixedLast.firstMatch (mixed : MixedLast sections) (isFor : TruthsFor sections truths)
    {taken : Option Nat} (takes : Takes (sections.map Section.hasDefault) truths taken) :
    FirstMatch (sections.map Section.hasDefault) truths taken := by
  cases takes with
  | @label index holds apart first =>
    refine .label holds fun earlier isEarlier earlierHolds => ?_
    have beside := first earlier isEarlier earlierHolds
    exact (mixed.after isFor beside earlierHolds isEarlier).1 holds
  | @default index isDefault last unmatched =>
    -- a label that holds stands beside the last `default`
    have beside (other : Nat) (holds : SectionHolds truths other) : other = index := by
      have otherDefault := unmatched other holds
      rcases Nat.lt_trichotomy other index with isEarlier | same | isLater
      · exact absurd isDefault (mixed.after isFor otherDefault holds isEarlier).2
      · exact same
      · exact absurd otherDefault (last other isLater)
    by_cases holds : SectionHolds truths index
    · exact .label holds fun earlier isEarlier earlierHolds =>
        absurd (beside earlier earlierHolds) (Nat.ne_of_lt isEarlier)
    · exact .default isDefault fun other otherHolds =>
        holds (beside other otherHolds ▸ otherHolds)
  | nothing noDefault unmatched => exact .nothing noDefault unmatched

def truthsOf (sections : List Section) (chosen : Nat → Bool) : List (List Bool) :=
  sections.mapIdx fun index sect => List.replicate sect.cases.length (chosen index)

theorem truthsFor_truthsOf (chosen : Nat → Bool) :
    TruthsFor sections (truthsOf sections chosen) := by
  refine forall₂_iff_get.mpr ⟨by simp [truthsOf], fun index _ _ => ?_⟩
  simp [truthsOf]

theorem sectionHolds_truthsOf {chosen : Nat → Bool} :
    SectionHolds (truthsOf sections chosen) index ↔
      chosen index = true ∧ ∃ sect, sections[index]? = some sect ∧ sect.cases ≠ [] := by
  cases found : sections[index]? with
  | none => simp [SectionHolds, truthsOf, found]
  | some sect =>
    have listed : (truthsOf sections chosen)[index]? =
        some (List.replicate sect.cases.length (chosen index)) := by
      simp [truthsOf, found]
    constructor
    · rintro ⟨values, isValues, holds⟩
      rw [listed] at isValues
      cases isValues
      obtain ⟨counted, isTrue⟩ := mem_replicate.mp holds
      exact ⟨isTrue.symm, sect, rfl, fun isNone => counted (by rw [isNone]; rfl)⟩
    · rintro ⟨isTrue, _, ⟨⟩, isSome⟩
      refine ⟨_, listed, mem_replicate.mpr ⟨?_, isTrue.symm⟩⟩
      exact fun counted => isSome (length_eq_zero_iff.mp counted)

/-- The lowered switch takes the first match, whatever holds, exactly if no label
    follows a section with a `default` and another label. -/
theorem takes_firstMatch_iff {sections : List Section} :
    (∀ truths, TruthsFor sections truths → ∀ taken,
      Takes (sections.map Section.hasDefault) truths taken →
        FirstMatch (sections.map Section.hasDefault) truths taken) ↔ MixedLast sections := by
  refine ⟨fun agree => ?_, fun mixed truths isFor taken => mixed.firstMatch isFor⟩
  refine pairwise_iff_getElem.mpr ?_
  intro index later inRange laterInRange isLater isTrue cases
  by_contra labeled
  have found := getElem?_eq_getElem inRange
  have isDefault := default_iff.mpr ⟨_, found, isTrue⟩
  by_cases laterDefault : sections[later].hasDefault = true
  · -- the last `default` is taken, although a label of an earlier section holds
    have holds : SectionHolds (truthsOf sections (· == index)) index :=
      sectionHolds_truthsOf.mpr ⟨beq_self_eq_true index, _, found, cases⟩
    have only {other : Nat} (otherHolds : SectionHolds (truthsOf sections (· == index)) other) :
        other = index := by
      simpa using (sectionHolds_truthsOf.mp otherHolds).1
    obtain ⟨last, isLast, none⟩ :=
      exists_last (default_iff.mpr ⟨_, getElem?_eq_getElem laterInRange, laterDefault⟩)
    have isAfter : index < last := by
      by_contra before
      exact none later (by omega)
        (default_iff.mpr ⟨_, getElem?_eq_getElem laterInRange, laterDefault⟩)
    have takes : Takes (sections.map Section.hasDefault) (truthsOf sections (· == index))
        (some last) :=
      .default isLast none fun other otherHolds => only otherHolds ▸ isDefault
    cases agree _ (truthsFor_truthsOf _) _ takes with
    | label _ first => exact first index isAfter holds
    | default _ unmatched => exact unmatched index holds
  · -- the later section is taken, although a label of the earlier one holds too
    have notDefault : sections[later].hasDefault = false := by simpa using laterDefault
    have laterCases : sections[later].cases ≠ [] := fun isNone =>
      labeled ((Section.labels_eq_nil_iff _).mpr ⟨notDefault, isNone⟩)
    let chosen : Nat → Bool := fun other => other == index || other == later
    have holds : SectionHolds (truthsOf sections chosen) index :=
      sectionHolds_truthsOf.mpr ⟨by simp [chosen], _, found, cases⟩
    have laterHolds : SectionHolds (truthsOf sections chosen) later :=
      sectionHolds_truthsOf.mpr ⟨by simp [chosen], _, getElem?_eq_getElem laterInRange, laterCases⟩
    have apart : (sections.map Section.hasDefault)[later]? ≠ some true := by
      simp [getElem?_eq_getElem laterInRange, notDefault]
    have takes : Takes (sections.map Section.hasDefault) (truthsOf sections chosen)
        (some later) := by
      refine .label laterHolds apart fun earlier isEarlier earlierHolds => ?_
      have isChosen : earlier = index ∨ earlier = later := by
        simpa [chosen] using (sectionHolds_truthsOf.mp earlierHolds).1
      rcases isChosen with rfl | rfl
      · exact isDefault
      · exact absurd isEarlier (Nat.lt_irrefl _)
    cases agree _ (truthsFor_truthsOf _) _ takes with
    | label _ first => exact first index isLater holds
    | default _ unmatched => exact unmatched index holds

end Mixed

/-! ## How a lowered switch runs

The tests of a lowered switch are evaluated in order until one holds.  Once they
have come to truth values, what is left to run is the body of one section, or
nothing: `loweredSwitch_runs` says which, for every way the labels of the switch can
hold.
-/

open Pass

variable {program : Program} {frame : Frame}

/-! ## What is left to run -/

/-- A statement that may be missing, with the scope and the machine it runs in. -/
structure Task where
  node : Option Stmt
  scope : Nat
  machine : Machine

/-- How a task ends under a bound on nesting. -/
def Task.run (program : Program) (frame : Frame) (fuel : Nat) (task : Task) :
    Except Exit Unit × Machine :=
  match task.node with
  | none => (.ok (), task.machine)
  | some node => Eval.run program fuel (.exec node task.scope frame) task.machine

/-- One task ends as another does, however that is, once the bound on nesting is large
    enough; it takes some nesting more. -/
def Task.LeadsTo (program : Program) (frame : Frame) (task rest : Task) : Prop :=
  ∃ depth enough, ∀ fuel, enough ≤ fuel →
    task.run program frame (fuel + depth) = rest.run program frame fuel

namespace Task.LeadsTo

theorem refl (task : Task) : task.LeadsTo program frame task := ⟨0, 0, fun _ _ => rfl⟩

theorem trans {first second third : Task} (leads : first.LeadsTo program frame second)
    (onward : second.LeadsTo program frame third) : first.LeadsTo program frame third := by
  obtain ⟨depth, enough, runs⟩ := leads
  obtain ⟨further, more, ends⟩ := onward
  refine ⟨further + depth, max enough more, fun fuel bound => ?_⟩
  rw [← Nat.add_assoc, runs (fuel + further) (by omega), ends fuel (by omega)]

variable {scope : Nat} {span : Span} {before middle after : Machine}

theorem ifElse {cond : Expr} {yes : Stmt} {no : Option Stmt} {holds : Bool}
    (evaluated : Evaluates program scope frame cond before (.bool holds) after) :
    LeadsTo program frame ⟨some (span.ifElse cond yes no), scope, before⟩
      ⟨if holds then some yes else no, scope, after⟩ := by
  obtain ⟨enough, runs⟩ := evaluated
  refine ⟨1, enough, fun fuel bound => ?_⟩
  have tested : Eval.condition (Eval.run program fuel) (some cond) scope frame before =
      (.ok holds, after) := by
    unfold Eval.condition
    dsimp only
    rw [Eval.bind_ok (runs fuel bound)]
    rfl
  refine (Eval.bind_ok tested).trans ?_
  cases holds with
  | true => rfl
  | false => cases no <;> rfl

end Task.LeadsTo

/-! ## Tests -/

section Tests

variable {scope : Nat} {span : Span}

inductive LabelTest.Yields (program : Program) (scope : Nat) (frame : Frame) (test : LabelTest) :
    Machine → Bool → Machine → Prop where
  | unmatched {before after : Machine}
      (fails : Evaluates program scope frame test.cond before (.bool false) after) :
      Yields program scope frame test before false after
  | matched {before after : Machine} (unguarded : test.guard = none)
      (holds : Evaluates program scope frame test.cond before (.bool true) after) :
      Yields program scope frame test before true after
  | guarded {before middle after : Machine} {guard : Expr} {value : Bool}
      (isGuarded : test.guard = some guard)
      (holds : Evaluates program scope frame test.cond before (.bool true) middle)
      (decided : Evaluates program scope frame guard middle (.bool value) after) :
      Yields program scope frame test before value after

theorem LabelTest.Yields.evaluates {before after : Machine} {value : Bool}
    (yields : test.Yields program scope frame before value after) :
    Evaluates program scope frame test.condition before (.bool value) after := by
  unfold LabelTest.condition
  cases yields with
  | unmatched fails =>
    cases test.guard with
    | none => exact fails
    | some guard => exact fails.and_false
  | matched unguarded holds =>
    rw [unguarded]
    exact holds
  | guarded isGuarded holds decided =>
    rw [isGuarded]
    exact holds.and_true decided

/-- Tests are made in order, against the truth of their labels, until one holds. -/
inductive TestsYield (program : Program) (scope : Nat) (frame : Frame) :
    List LabelTest → List Bool → Machine → Bool → Machine → Prop where
  | none (machine : Machine) : TestsYield program scope frame [] [] machine false machine
  | holds {test : LabelTest} {tests : List LabelTest} {values : List Bool} {before after : Machine}
      (yields : test.Yields program scope frame before true after) :
      TestsYield program scope frame (test :: tests) (true :: values) before true after
  | fails {test : LabelTest} {tests : List LabelTest} {values : List Bool} {value : Bool}
      {before middle after : Machine} (yields : test.Yields program scope frame before false middle)
      (rest : TestsYield program scope frame tests values middle value after) :
      TestsYield program scope frame (test :: tests) (false :: values) before value after

namespace TestsYield

variable {tests : List LabelTest} {values : List Bool} {value : Bool} {before after : Machine}

theorem true_mem_iff (yields : TestsYield program scope frame tests values before value after) :
    true ∈ values ↔ value = true := by
  induction yields with
  | none machine => simp
  | holds yields => simp
  | fails yields rest ih => simpa using ih

theorem evaluates_or_true {others : List Expr}
    (holds : Evaluates program scope frame first before (.bool true) after) :
    Evaluates program scope frame (others.foldl (span.binary .or) first) before (.bool true)
      after := by
  induction others generalizing first with
  | nil => exact holds
  | cons second rest ih => exact ih holds.or_true

theorem evaluates_or {start : Machine}
    (yields : TestsYield program scope frame tests values before value after)
    (fails : Evaluates program scope frame first start (.bool false) before) :
    Evaluates program scope frame
      ((tests.map LabelTest.condition).foldl (span.binary .or) first) start (.bool value)
      after := by
  induction yields generalizing first with
  | none machine => exact fails
  | holds yields =>
    rw [map_cons, foldl_cons]
    exact evaluates_or_true (fails.or_false yields.evaluates)
  | fails yields rest ih =>
    rw [map_cons, foldl_cons]
    exact ih (fails.or_false yields.evaluates)

theorem chain {isDefault : Bool} {otherwise : Option Stmt} {arms : List (Expr × Stmt)}
    (yields : TestsYield program scope frame tests values before value after) :
    Task.LeadsTo program frame ⟨ifChain span otherwise
        ((SectionPlan.arm? span ⟨isDefault, tests, kept⟩).toList ++ arms), scope, before⟩
      ⟨if value then some (span.block kept) else ifChain span otherwise arms, scope, after⟩ := by
  cases yields with
  | none machine => exact .refl _
  | holds yields => exact .ifElse (evaluates_or_true yields.evaluates)
  | fails yields rest => exact .ifElse (rest.evaluates_or yields.evaluates)

end TestsYield

end Tests

/-! ## Sections -/

section Sections

variable {scope : Nat} {span : Span}

/-- Sections are gone through in order up to the first of which a test holds; those
    with `default` are passed over. -/
inductive Scan (program : Program) (scope : Nat) (frame : Frame) :
    List SectionPlan → List (List Bool) → Machine → Option Nat → Machine → Prop where
  | empty (machine : Machine) : Scan program scope frame [] [] machine none machine
  | default {plan : SectionPlan} {plans : List SectionPlan} {values : List Bool}
      {truths : List (List Bool)} {found : Option Nat} {before after : Machine}
      (isDefault : plan.isDefault = true)
      (rest : Scan program scope frame plans truths before found after) :
      Scan program scope frame (plan :: plans) (values :: truths) before (found.map (· + 1)) after
  | taken {plan : SectionPlan} {plans : List SectionPlan} {values : List Bool}
      {truths : List (List Bool)} {before after : Machine} (notDefault : plan.isDefault = false)
      (yields : TestsYield program scope frame plan.tests values before true after) :
      Scan program scope frame (plan :: plans) (values :: truths) before (some 0) after
  | passed {plan : SectionPlan} {plans : List SectionPlan} {values : List Bool}
      {truths : List (List Bool)} {found : Option Nat} {before middle after : Machine}
      (notDefault : plan.isDefault = false)
      (yields : TestsYield program scope frame plan.tests values before false middle)
      (rest : Scan program scope frame plans truths middle found after) :
      Scan program scope frame (plan :: plans) (values :: truths) before (found.map (· + 1)) after

theorem SectionPlan.filterMap_arm?_cons (plan : SectionPlan) {plans : List SectionPlan} :
    (plan :: plans).filterMap (arm? span) =
      (plan.arm? span).toList ++ plans.filterMap (arm? span) := by
  simp [filterMap_eq_flatMap_toList]

def SectionPlan.blockAt (span : Span) (plans : List SectionPlan) (index : Nat) : Option Stmt :=
  plans[index]?.map fun plan => span.block plan.kept

namespace Scan

variable {plans : List SectionPlan} {truths : List (List Bool)} {found : Option Nat}
  {before after : Machine}

theorem chain (scan : Scan program scope frame plans truths before found after) (span : Span)
    (otherwise : Option Stmt) (untested : ∀ plan ∈ plans, plan.isDefault = true → plan.tests = []) :
    Task.LeadsTo program frame
      ⟨ifChain span otherwise (plans.filterMap (SectionPlan.arm? span)), scope, before⟩
      ⟨match found with
        | some index => SectionPlan.blockAt span plans index
        | none => otherwise, scope, after⟩ := by
  induction scan with
  | empty machine => exact .refl _
  | @default plan plans values truths found before after isDefault rest ih =>
    obtain ⟨first, others⟩ := forall_mem_cons.mp untested
    have noArm : plan.arm? span = none := by
      unfold SectionPlan.arm?
      rw [first isDefault]
      rfl
    rw [filterMap_cons_none noArm]
    cases found <;> exact ih others
  | @taken plan plans values truths before after notDefault yields =>
    rw [SectionPlan.filterMap_arm?_cons]
    exact yields.chain
  | @passed plan plans values truths found before middle after notDefault yields rest ih =>
      obtain ⟨first, others⟩ := forall_mem_cons.mp untested
      rw [SectionPlan.filterMap_arm?_cons]
      refine yields.chain.trans ?_
      cases found <;> exact ih others

theorem takes_some (scan : Scan program scope frame plans truths before (some index) after) :
    Takes (plans.map (·.isDefault)) truths (some index) := by
  suffices isFirst : SectionHolds truths index ∧ (plans.map (·.isDefault))[index]? ≠ some true ∧
      ∀ earlier < index, SectionHolds truths earlier →
        (plans.map (·.isDefault))[earlier]? = some true from
    .label isFirst.1 isFirst.2.1 isFirst.2.2
  generalize isFound : some index = found at scan
  induction scan generalizing index with
  | empty machine => cases isFound
  | @default plan plans values truths found before after isDefault rest ih =>
    obtain ⟨inner, rfl, rfl⟩ := Option.map_eq_some_iff.mp isFound.symm
    obtain ⟨holds, apart, first⟩ := ih rfl
    refine ⟨sectionHolds_succ.mpr holds, apart, fun earlier isEarlier earlierHolds => ?_⟩
    cases earlier with
    | zero => simp [isDefault]
    | succ earlier => exact first earlier (by omega) (sectionHolds_succ.mp earlierHolds)
  | @taken plan plans values truths before after notDefault yields =>
    cases isFound
    exact ⟨sectionHolds_zero.mpr (yields.true_mem_iff.mpr rfl), by simp [notDefault],
      fun earlier isEarlier => absurd isEarlier (Nat.not_lt_zero earlier)⟩
  | @passed plan plans values truths found before middle after notDefault yields rest ih =>
      obtain ⟨inner, rfl, rfl⟩ := Option.map_eq_some_iff.mp isFound.symm
      obtain ⟨holds, apart, first⟩ := ih rfl
      refine ⟨sectionHolds_succ.mpr holds, apart, fun earlier isEarlier earlierHolds => ?_⟩
      cases earlier with
      | zero => exact absurd (yields.true_mem_iff.mp (sectionHolds_zero.mp earlierHolds)) (by simp)
      | succ earlier => exact first earlier (by omega) (sectionHolds_succ.mp earlierHolds)

theorem unmatched (scan : Scan program scope frame plans truths before none after) (index : Nat)
    (holds : SectionHolds truths index) : (plans.map (·.isDefault))[index]? = some true := by
  generalize isNone : none = found at scan
  induction scan generalizing index with
  | empty machine =>
    obtain ⟨values, listed, _⟩ := holds
    simp at listed
  | @default plan plans values truths found before after isDefault rest ih =>
    cases index with
    | zero => simp [isDefault]
    | succ index =>
      exact ih index (sectionHolds_succ.mp holds) (Option.map_eq_none_iff.mp isNone.symm).symm
  | taken notDefault yields => cases isNone
  | @passed plan plans values truths found before middle after notDefault yields rest ih =>
      cases index with
      | zero => exact absurd (yields.true_mem_iff.mp (sectionHolds_zero.mp holds)) (by simp)
      | succ index =>
        exact ih index (sectionHolds_succ.mp holds) (Option.map_eq_none_iff.mp isNone.symm).symm

end Scan

theorem SectionPlan.otherwise?_eq {span : Span} {plans : List SectionPlan} :
    (otherwise? span plans = none ∧ ∀ index : Nat, (plans.map (·.isDefault))[index]? ≠ some true) ∨
    ∃ last : Nat, otherwise? span plans = blockAt span plans last ∧
      (plans.map (·.isDefault))[last]? = some true ∧
      ∀ later : Nat, last < later → (plans.map (·.isDefault))[later]? ≠ some true := by
  induction plans with
  | nil => exact .inl ⟨rfl, fun index => by simp⟩
  | cons plan plans ih =>
    rw [otherwise?_cons]
    rcases ih with ⟨isNone, none⟩ | ⟨last, isLast, isDefault, none⟩
    · cases isDefault : plan.isDefault with
      | true =>
        refine .inr ⟨0, by simp [isNone, blockAt], by simp [isDefault], fun later isLater => ?_⟩
        obtain ⟨index, rfl⟩ := Nat.exists_eq_add_of_lt isLater
        simpa using none index
      | false =>
        refine .inl ⟨by simp [isNone], fun index => ?_⟩
        cases index with
        | zero => simp [isDefault]
        | succ index => simpa using none index
    · refine .inr ⟨last + 1, ?_, by simpa using isDefault, fun later isLater => ?_⟩
      · have found : (blockAt span plans last).isSome = true := by
          have inRange := (List.getElem?_eq_some_iff.mp isDefault).1
          simpa [blockAt] using inRange
        rw [isLast, Option.or_of_isSome found]
        simp [blockAt]
      · cases later with
        | zero => exact absurd isLater (Nat.not_lt_zero _)
        | succ later => simpa using none later (by omega)

theorem Scan.leadsTo {plans : List SectionPlan} {truths : List (List Bool)} {found : Option Nat}
    {before after : Machine} (scan : Scan program scope frame plans truths before found after)
    (untested : ∀ plan ∈ plans, plan.isDefault = true → plan.tests = []) :
    ∃ taken, Takes (plans.map (·.isDefault)) truths taken ∧
      Task.LeadsTo program frame ⟨SectionPlan.chain? span plans, scope, before⟩
        ⟨taken.bind (SectionPlan.blockAt span plans), scope, after⟩ := by
  cases found with
  | some index => exact ⟨some index, scan.takes_some, scan.chain span _ untested⟩
  | none =>
    have leads : Task.LeadsTo program frame ⟨SectionPlan.chain? span plans, scope, before⟩
        ⟨SectionPlan.otherwise? span plans, scope, after⟩ := scan.chain span _ untested
    rcases SectionPlan.otherwise?_eq with
      ⟨isNone, none⟩ | ⟨last, isLast, isDefault, none⟩
    · rw [isNone] at leads
      exact ⟨Option.none, .nothing none fun other holds =>
        none other (scan.unmatched other holds), leads⟩
    · rw [isLast] at leads
      exact ⟨some last, .default isDefault none scan.unmatched, leads⟩

end Sections

/-! ## The subject and the block -/

section Blocks

variable {scope inner : Nat} {span : Span} {subject : Expr} {plan : SwitchPlan}
  {before opened after : Machine}

/-- A lowered switch opens: in a scope of its own, a subject that is not simple is
    evaluated, and its value kept in a variable. -/
inductive SwitchPlan.Opens (program : Program) (frame : Frame) (plan : SwitchPlan) (subject : Expr)
    (inner : Nat) : Machine → Machine → Prop where
  | nothing {machine : Machine} (isSimple : plan.holder = none) :
      Opens program frame plan subject inner machine machine
  | holder {type : TypeSyntax} {name : String} {value : Value} {before evaluated after : Machine}
      (isHeld : plan.holder = some (type, name))
      (evaluates : Evaluates program inner frame subject before value evaluated)
      (stored : (Machine.copyStruct (Program.convertTo type value) >>=
        Machine.declareVar inner name) evaluated = (.ok (), after)) :
      Opens program frame plan subject inner before after

theorem SwitchPlan.Opens.answers (opens : plan.Opens program frame subject inner before after)
    (span : Span) :
    ∃ enough, ∀ fuel, enough ≤ fuel →
      Eval.execAll (Eval.run program fuel) (plan.opening span subject) inner frame before =
        (.ok (), after) := by
  unfold SwitchPlan.opening
  cases opens with
  | nothing isSimple =>
    rw [isSimple]
    exact ⟨0, fun _ _ => rfl⟩
  | holder isHeld evaluates stored =>
    obtain ⟨enough, runs⟩ := evaluates
    rw [isHeld]
    refine ⟨enough + 1, fun fuel bound => ?_⟩
    obtain _ | rest := fuel
    · omega
    dsimp only
    rw [Eval.execAll_single]
    change Eval.declareLocal program (Eval.run program rest) _ _ (some subject) inner frame
      before = _
    unfold Eval.declareLocal
    dsimp only
    rw [Eval.bind_ok (runs rest (by omega))]
    exact stored

theorem SwitchPlan.Opens.leadsTo {mark : Mark}
    (entered : Machine.childScope scope before = (.ok inner, opened))
    (opens : plan.Opens program frame subject inner opened after) :
    Task.LeadsTo program frame ⟨some ⟨mark, .block (plan.body span subject)⟩, scope, before⟩
      ⟨SectionPlan.chain? span plan.sections, inner, after⟩ := by
  obtain ⟨enough, runs⟩ := opens.answers span
  refine ⟨1, enough, fun fuel bound => ?_⟩
  change (Machine.childScope scope >>= fun inner =>
    Eval.execAll (Eval.run program fuel) (plan.body span subject) inner frame) before = _
  rw [Eval.bind_ok entered]
  unfold SwitchPlan.body
  rw [Eval.execAll_append, Eval.bind_ok (runs fuel bound)]
  cases SectionPlan.chain? span plan.sections with
  | none => rfl
  | some chain =>
    rw [Option.toList_some, Eval.execAll_single]
    rfl

end Blocks

/-! ## The end of a section -/

/-- Run up to a `break`, as a switch runs the body of a section. -/
def Eval.untilBreak (body : Eval Unit) : Eval Unit := do
  match ← outcome body with
  | .ok _ | .error .breakLoop => return
  | .error other => exit other

theorem Eval.untilBreak_apply (body : Eval Unit) {machine : Machine} :
    untilBreak body machine = (match (body machine).1 with
      | .ok _ | .error .breakLoop => .ok ()
      | .error other => .error other, (body machine).2) := by
  have ended : outcome body machine = (.ok (body machine).1, (body machine).2) := rfl
  unfold untilBreak
  rw [Eval.bind_ok ended]
  cases (body machine).1 with
  | ok value => rfl
  | error reason => cases reason <;> rfl

theorem Eval.untilBreak_bind_exit (body : Eval Unit) :
    untilBreak (body >>= fun _ => exit .breakLoop) = untilBreak body := by
  funext machine
  have left : (body >>= fun _ => exit .breakLoop : Eval Unit) machine = (match (body machine).1 with
        | .ok _ => .error .breakLoop
        | .error reason => .error reason, (body machine).2) := by
    change (ExceptT.bindCont _ (body machine).1 : StateM Machine _) (body machine).2 = _
    cases (body machine).1 <;> rfl
  rw [untilBreak_apply, untilBreak_apply, left]
  cases (body machine).1 <;> rfl

/-- Statements that end with a `break` run as what is in front of the `break`, and
    then leave. -/
theorem EndsInBreak.execAll (program : Program) {dropped : Stmt}
    (ends : EndsInBreak body kept dropped) : ∃ enough, ∀ fuel, enough ≤ fuel → ∀ scope frame,
      Eval.execAll (Eval.run program fuel) body scope frame =
        Eval.execAll (Eval.run program fuel) kept scope frame >>= fun _ =>
          Eval.exit .breakLoop := by
  induction ends with
  | here mark =>
    refine ⟨1, fun fuel bound scope frame => ?_⟩
    obtain _ | rest := fuel
    · omega
    rfl
  | block mark ends ih =>
    obtain ⟨enough, runs⟩ := ih
    refine ⟨enough + 1, fun fuel bound scope frame => ?_⟩
    obtain _ | rest := fuel
    · omega
    rw [Eval.execAll_single, Eval.execAll_single]
    change (Machine.childScope scope >>= _) = (Machine.childScope scope >>= _) >>= _
    rw [bind_assoc]
    exact bind_congr fun inner => runs rest (by omega) inner frame
  | later node ends ih =>
    obtain ⟨enough, runs⟩ := ih
    refine ⟨enough, fun fuel bound scope frame => ?_⟩
    rw [Eval.execAll_cons, runs fuel bound scope frame, Eval.execAll_cons, bind_assoc]

theorem KeptOf.runs {body kept : List Stmt} (isKept : KeptOf body kept) (program : Program) :
    ∃ enough, ∀ fuel, enough ≤ fuel → ∀ scope frame,
      Eval.untilBreak (Eval.execAll (Eval.run program fuel) kept scope frame) =
        Eval.untilBreak (Eval.execAll (Eval.run program fuel) body scope frame) := by
  cases isKept with
  | whole _ => exact ⟨0, fun _ _ _ _ => rfl⟩
  | front found _ _ =>
    obtain ⟨enough, runs⟩ := (endsInBreak_of_drop body kept _ found).execAll program
    refine ⟨enough, fun fuel bound scope frame => ?_⟩
    rw [runs fuel bound scope frame, Eval.untilBreak_bind_exit]

/-! ## The whole switch -/

/-- A test reads a variable and what it sets itself, and evaluates nothing else but the
    values that the pattern compares with. -/
def LabelTest.ReadsOnly (holder : String) : Label → LabelTest → Prop
  | .default, _ => False
  | .case pattern _, test => test.cond.MadeOf pattern.Compares fun _ name =>
    name = holder ∨ IsTemporary name ∨ ∃ mark, (mark, name) ∈ pattern.binders

theorem Label.TestedAs.readsOnly {env : PassEnv} {id : Nat} {subject : Subject} {label : Label}
    {span : Span}
    (tested : label.TestedAs env id subject test) (isHeld : subject.expr = span.ident holder) :
    test.ReadsOnly holder label := by
  cases label with
  | default => exact tested.elim
  | case pattern guard =>
    obtain ⟨_, _, before, after, ran⟩ := tested
    have allows : Allows pattern.Compares (fun _ => False) (fun _ name =>
        name = holder ∨ IsTemporary name ∨ ∃ mark, (mark, name) ∈ pattern.binders) pattern.span :=
      ⟨fun _ none => none.elim, fun _ _ none => none, fun number => .inr (.inl ⟨number, rfl⟩)⟩
    have made : subject.MadeOf (fun _ => False) fun _ name =>
        name = holder ∨ IsTemporary name ∨ ∃ mark, (mark, name) ∈ pattern.binders := by
      unfold Subject.MadeOf
      rw [isHeld]
      exact .ident (.inl rfl)
    exact patternCondition_made _ _ allows made
      ⟨fun _ compares => compares, fun mark _ isBinder => .inr (.inr ⟨mark, isBinder⟩)⟩
      env before test.cond after ran

section Planned

variable {env : PassEnv} {id : Nat} {subject : Subject} {sections : List Section}
  {plans : List SectionPlan}
  (planned : Forall₂ (Section.PlannedAs env id subject) sections plans)

include planned

theorem defaults_of_planned : plans.map (·.isDefault) = sections.map Section.hasDefault := by
  induction planned with
  | nil => rfl
  | cons planned _ ih =>
    rw [map_cons, map_cons, planned.isDefault, ih]

theorem untested_of_planned : ∀ plan ∈ plans, plan.isDefault = true → plan.tests = [] := by
  induction planned with
  | nil => exact fun _ isNone => absurd isNone not_mem_nil
  | cons planned _ ih =>
    exact forall_mem_cons.mpr
      ⟨fun isDefault => planned.untested (planned.isDefault ▸ isDefault), ih⟩

end Planned

namespace SwitchPlan

variable {env : PassEnv} {node : Stmt} {subject : Expr} {sections : List Section}
  {plan : SwitchPlan}

theorem Lays.held (lays : plan.Lays env node subject sections)
    (notSimple : subject.isSimple = false) : ∃ type holder, plan.holder = some (type, holder) := by
  have isSome := lays.holder
  rw [notSimple, Option.isNone_eq_false_iff, Option.isSome_iff_exists] at isSome
  obtain ⟨⟨type, holder⟩, isHeld⟩ := isSome
  exact ⟨type, holder, isHeld⟩

theorem tested_eq_ident {type : TypeSyntax} {span : Span}
    (plan : SwitchPlan) (isHeld : plan.holder = some (type, holder)) :
    plan.tested span subject = span.ident holder := by
  unfold tested
  rw [isHeld]

end SwitchPlan

/-- A lowered switch opens, looks at its sections in order, and goes on with the
    section it takes; that is the first match, whatever holds, exactly if no label
    follows a section with a `default` and another label. -/
theorem loweredSwitch_runs {site : Site} {node : Stmt} {subject : Expr} {sections : List Section}
    {env : PassEnv} {start finish : PassState} {results : List Stmt}
    (ran : switchRules.stmt site node (.switch subject sections) env start =
      .ok (results, finish))
    (patterned : allConstant sections = false) :
    ∃ plan : SwitchPlan, plan.Lays env node subject sections ∧
      results = [{ node with kind := .block (plan.body node.span subject) }] ∧
      (∀ program frame scope inner truths found before entered opened after,
        TruthsFor sections truths →
        Machine.childScope scope before = (.ok inner, entered) →
        plan.Opens program frame subject inner entered opened →
        Scan program inner frame plan.sections truths opened found after →
        ∃ taken, Takes (sections.map Section.hasDefault) truths taken ∧
          Task.LeadsTo program frame
            ⟨some { node with kind := .block (plan.body node.span subject) }, scope, before⟩
            ⟨taken.bind (SectionPlan.blockAt node.span plan.sections), inner, after⟩) ∧
      List.Forall₂ (fun sect part => ∀ program, ∃ enough, ∀ fuel, enough ≤ fuel →
        ∀ scope frame,
          Eval.untilBreak (Eval.execAll (Eval.run program fuel) part.kept scope frame) =
            Eval.untilBreak (Eval.execAll (Eval.run program fuel) sect.body scope frame))
        sections plan.sections ∧
      (subject.isSimple = false → ∃ type holder, plan.holder = some (type, holder) ∧
        List.Forall₂ (fun sect part => sect.hasDefault = false →
          List.Forall₂ (fun label test => test.ReadsOnly holder label) sect.cases part.tests)
          sections plan.sections) ∧
      ((∀ truths, TruthsFor sections truths → ∀ taken,
        Takes (sections.map Section.hasDefault) truths taken →
          FirstMatch (sections.map Section.hasDefault) truths taken) ↔ MixedLast sections) := by
  have lowers : switchRules.stmt site node (.switch subject sections) =
      lowerSwitch node subject sections := by
    change (if allConstant sections = true then _ else _) = _
    rw [patterned]
    rfl
  rw [lowers] at ran
  obtain ⟨plan, lays, rfl⟩ := lowerSwitch_planned ran
  refine ⟨plan, lays, rfl, ?_, lays.sections.imp fun _ _ planned => planned.kept.runs, ?_,
    takes_firstMatch_iff⟩
  · intro program frame scope inner truths found before entered opened after _ enters opens scan
    obtain ⟨taken, takes, leads⟩ := scan.leadsTo (untested_of_planned lays.sections)
    exact ⟨taken, defaults_of_planned lays.sections ▸ takes, (opens.leadsTo enters).trans leads⟩
  · intro notSimple
    obtain ⟨type, holder, isHeld⟩ := lays.held notSimple
    refine ⟨type, holder, isHeld, lays.sections.imp fun sect part planned notDefault => ?_⟩
    refine (planned.tests notDefault).imp fun label test tested => ?_
    exact tested.readsOnly (plan.tested_eq_ident isHeld)

/-! ## A `default` beside another label -/

def mixedSubject : Expr := ⟨.numbered 1, .cast (.simple "object") ⟨.numbered 0, .ident "x"⟩⟩

def mixedSections : List Section :=
  [⟨[.case ⟨.numbered 2, .type (.simple "int")⟩ none, .default],
      [⟨.numbered 4, .ret (some ⟨.numbered 3, .literal (.int 1)⟩)⟩]⟩,
    ⟨[.case ⟨.numbered 5, .type (.simple "object")⟩ none],
      [⟨.numbered 7, .ret (some ⟨.numbered 6, .literal (.int 2)⟩)⟩]⟩]

/-- `switch ((object)x) { case int: default: return 1; case object: return 2; }` -/
def mixedSwitch : Stmt := ⟨.numbered 8, .switch mixedSubject mixedSections⟩

def mixedUnit : CompilationUnit :=
  ⟨[], none, [⟨"C", .classType, [], [], none, [], none,
    [⟨.method "M" [] [.plain (.simple "object") "x"] (.simple "int")
      (.block ⟨.numbered 9, .block [mixedSwitch]⟩), [], ⟨0, 0⟩⟩], ⟨0, 0⟩⟩]⟩

def mixedEnv : PassEnv :=
  { pass := "switch-labels", unit := mixedUnit, view := mixedUnit.analyze 10 mixedUnit.vocabulary }

def mixedState : PassState := { nextName := 0, nextId := 10 }

def mixedTest : LabelTest :=
  let span : Span := ⟨0, 0⟩
  ⟨span, span.binary .notEq (span.ident "__s0") span.nullLit, none⟩

def mixedPlan : SwitchPlan :=
  ⟨some (.simple "object", "__s0"),
    [⟨true, [], [⟨.numbered 4, .ret (some ⟨.numbered 3, .literal (.int 1)⟩)⟩]⟩,
      ⟨false, [mixedTest], [⟨.numbered 7, .ret (some ⟨.numbered 6, .literal (.int 2)⟩)⟩]⟩]⟩

theorem KeptOf.eq_of_breakless (isKept : KeptOf body kept)
    (breakless : breaksIn body = []) : kept = body := by
  cases isKept with
  | whole _ => rfl
  | front found _ _ => simp [(endsInBreak_of_drop body kept _ found).breaksIn_eq] at breakless

theorem eq_mixedPlan {plan : SwitchPlan}
    (lays : plan.Lays mixedEnv mixedSwitch mixedSubject mixedSections)
    (same : plan.body ⟨0, 0⟩ mixedSubject = mixedPlan.body ⟨0, 0⟩ mixedSubject) :
    plan = mixedPlan := by
  obtain ⟨holder, plans⟩ := plan
  obtain ⟨type, name, isHeld⟩ := lays.held rfl
  cases isHeld
  obtain ⟨⟨⟩, isChain⟩ := List.cons.inj same
  have planned := lays.sections
  match plans, planned with
  | [⟨isDefault, tests, kept⟩, ⟨otherDefault, otherTests, otherKept⟩],
      .cons ⟨first, untested, _, isKept⟩ (.cons ⟨second, _, tested, otherIsKept⟩ .nil) =>
    cases first
    cases second
    cases untested rfl
    cases isKept.eq_of_breakless rfl
    cases otherIsKept.eq_of_breakless rfl
    match otherTests, tested rfl with
    | [⟨span, cond, guard⟩], .cons ⟨isSpan, isGuard, _⟩ .nil =>
      cases isSpan
      cases isGuard
      cases isChain
      rfl

def mixedMachine : Machine := { scopes := #[⟨[("x", .int 5)], none⟩] }

def mixedLowered : Stmt :=
  { mixedSwitch with kind := .block (mixedPlan.body ⟨0, 0⟩ mixedSubject) }

set_option maxRecDepth 4000 in
theorem mixedSwitch_lowered : ∃ finish,
    switchRules.stmt .detached mixedSwitch (.switch mixedSubject mixedSections) mixedEnv
      mixedState = .ok ([mixedLowered], finish) := ⟨_, rfl⟩

/-- An `int` is matched beside `default`, and still the section after is run. -/
theorem loweredSwitch_runs_mixedDefault :
    (∃ finish, switchRules.stmt .detached mixedSwitch (.switch mixedSubject mixedSections)
      mixedEnv mixedState = .ok ([mixedLowered], finish)) ∧
    allConstant mixedSections = false ∧
    FirstMatch (mixedSections.map Section.hasDefault) [[true], [true]] (some 0) ∧
    (∃ after, Task.LeadsTo ⟨[]⟩ ⟨.null, none⟩ ⟨some mixedLowered, 0, mixedMachine⟩
      ⟨SectionPlan.blockAt ⟨0, 0⟩ mixedPlan.sections 1, 1, after⟩) ∧
    ¬ MixedLast mixedSections := by
  have holds (index : Nat) (isSection : index < 2) :
      SectionHolds [[true], [true]] index := by
    obtain rfl | rfl : index = 0 ∨ index = 1 := by omega
    · exact ⟨[true], rfl, List.mem_singleton_self true⟩
    · exact ⟨[true], rfl, List.mem_singleton_self true⟩
  refine ⟨mixedSwitch_lowered, rfl, .label (holds 0 (by decide)) (by simp), ?_⟩
  obtain ⟨finish, ran⟩ := mixedSwitch_lowered
  obtain ⟨plan, lays, isResult, runs, -, -, exactly⟩ := loweredSwitch_runs ran rfl
  have same : mixedPlan.body ⟨0, 0⟩ mixedSubject = plan.body ⟨0, 0⟩ mixedSubject := by
    simpa [mixedLowered, mixedSwitch, Mark.numbered, Stmt.span] using isResult
  obtain rfl := eq_mixedPlan lays same.symm
  have isFor : TruthsFor mixedSections [[true], [true]] := .cons rfl (.cons rfl .nil)
  -- the machine before the subject is evaluated, and with its value
  let entered : Machine := { scopes := #[⟨[("x", .int 5)], none⟩, ⟨[], some 0⟩] }
  let held : Machine := { scopes := #[⟨[("x", .int 5)], none⟩, ⟨[("__s0", .int 5)], some 0⟩] }
  have enters : Machine.childScope 0 mixedMachine = (.ok 1, entered) := rfl
  have evaluates : Evaluates ⟨[]⟩ 1 ⟨.null, none⟩ mixedSubject entered (.int 5) entered := by
    refine .of_step 1 fun fuel bound => ?_
    obtain _ | rest := fuel
    · omega
    rfl
  have tested : mixedTest.Yields ⟨[]⟩ 1 ⟨.null, none⟩ held true held :=
    .matched rfl (.binary (.ident rfl) (.literal _ _ _) (by decide) fun _ => rfl)
  have scan : Scan ⟨[]⟩ 1 ⟨.null, none⟩ mixedPlan.sections [[true], [true]] held (some 1) held :=
    .default rfl (.taken rfl (.holds tested))
  obtain ⟨taken, takes, leads⟩ :=
    runs _ _ _ _ _ _ _ _ _ _ isFor enters (.holder rfl evaluates rfl) scan
  have isSecond : taken = some 1 := by
    cases takes with
    | @label index isMatched apart first =>
      obtain ⟨_, listed, _⟩ := isMatched
      have isSection : index < 2 := (List.getElem?_eq_some_iff.mp listed).1
      obtain rfl | rfl : index = 0 ∨ index = 1 := by omega
      · exact absurd rfl apart
      · rfl
    | default isDefault last unmatched =>
      exact absurd (unmatched 1 (holds 1 (by decide))) (by decide)
    | nothing noDefault unmatched => exact absurd rfl (noDefault 0)
  subst isSecond
  refine ⟨⟨held, leads⟩, fun mixed => ?_⟩
  cases exactly.mpr mixed _ isFor _ takes with
  | label isMatched first => exact first 0 (by decide) (holds 0 (by decide))
  | default isDefault unmatched => exact unmatched 0 (holds 0 (by decide))

end Unsugar
