import Unsugar.Proofs.Patterns.Reading

open List

namespace Unsugar

open Pass (TestParts)

/-! # Decisions

The parts that a pattern contributes to a condition decide whether it matches:
its checks hold exactly when it does, and the assignments that run afterwards
give the designated variables what they are bound to.  Between the checks and
the assignments other parts of the condition may run, so a decision says what
it reads and what it writes.
-/

variable {rest : List Expr} {written : Set String} {literal : Literal}

section Checks

variable {program : Program} {scope : Nat} {frame : Frame} {span : Span}
  {before middle after : Machine} {answer : Bool} {left right : List Expr}

/-- Checks run from left to right up to the first one that fails. -/
inductive ChecksTo (program : Program) (scope : Nat) (frame : Frame) :
    List Expr → Machine → Bool → Machine → Prop where
  | nil (machine : Machine) : ChecksTo program scope frame [] machine true machine
  | fails {test : Expr} {rest : List Expr} {before after : Machine}
      (first : Evaluates program scope frame test before (.bool false) after) :
      ChecksTo program scope frame (test :: rest) before false after
  | holds {test : Expr} {rest : List Expr} {before middle after : Machine} {answer : Bool}
      (first : Evaluates program scope frame test before (.bool true) middle)
      (others : ChecksTo program scope frame rest middle answer after) :
      ChecksTo program scope frame (test :: rest) before answer after

namespace ChecksTo

variable {test : Expr}

theorem single (evaluated : Evaluates program scope frame test before (.bool answer) after) :
    ChecksTo program scope frame [test] before answer after := by
  cases answer with
  | false => exact .fails evaluated
  | true => exact .holds evaluated (.nil after)

theorem append_false (failed : ChecksTo program scope frame left before false after) :
    ChecksTo program scope frame (left ++ right) before false after := by
  generalize isFalse : false = outcome at failed
  induction failed with
  | nil => cases isFalse
  | fails first => exact .fails first
  | holds first _ ih => exact .holds first (ih isFalse)

theorem append_true (held : ChecksTo program scope frame left before true middle)
    (others : ChecksTo program scope frame right middle answer after) :
    ChecksTo program scope frame (left ++ right) before answer after := by
  generalize isTrue : true = outcome at held
  induction held with
  | nil => exact others
  | fails => cases isTrue
  | holds first _ ih => exact .holds first (ih others isTrue)

theorem foldl_false (failed : Evaluates program scope frame test before (.bool false) after) :
    Evaluates program scope frame (rest.foldl (span.binary .and) test) before (.bool false) after := by
  induction rest generalizing test with
  | nil => exact failed
  | cons next rest ih => exact ih (.and_false failed)

theorem foldl_true (held : Evaluates program scope frame test before (.bool true) middle)
    (others : ChecksTo program scope frame rest middle answer after) :
    Evaluates program scope frame (rest.foldl (span.binary .and) test) before (.bool answer) after := by
  induction others generalizing test before with
  | nil => exact held
  | fails first =>
    rw [foldl_cons]
    exact foldl_false (.and_true held first)
  | holds first _ ih => exact ih (.and_true held first)

theorem conjunction {checks : List Expr}
    (ran : ChecksTo program scope frame checks before answer after) :
    Evaluates program scope frame (span.conjunction checks) before (.bool answer) after := by
  cases ran with
  | nil => exact .literal span (.bool true) _
  | fails first => exact foldl_false first
  | holds first others => exact foldl_true first others

end ChecksTo

end Checks

/-! ## Decisions -/

section Decides

variable (program : Program) (scope : Nat) (frame : Frame)

def Declared (names : Set String) (machine : Machine) : Prop :=
  ∀ name ∈ names, (machine.valueOf? scope name).isSome

/-- Bound variables hold what they are bound to, and no others are bound. -/
def Holds (names : Set String) (machine : Machine) (bindings : Bindings) : Prop :=
  ∀ entry ∈ bindings, entry.1 ∈ names ∧
    ∃ value, machine.valueOf? scope entry.1 = some value ∧ entry.2.HeldAs machine value

/-- Parts of a condition decide a match.  They depend on the variables `reads`
    as they are in `machine`; they write the temporaries `temps`, and once the
    match is decided also the designations `names`. -/
def Decides (reads temps names : Set String) (matching : Bindings → Prop) (machine : Machine)
    (parts : TestParts) : Prop :=
  ∀ before, Changes scope readsᶜ machine before → Declared scope (temps ∪ names) before →
    (∃ after, ChecksTo program scope frame parts.checks before false after ∧
      Changes scope temps before after ∧ ∀ bindings, ¬ matching bindings) ∨
    ∃ after, ChecksTo program scope frame parts.checks before true after ∧
      Changes scope temps before after ∧
      ∀ later, Changes scope (reads ∪ temps)ᶜ after later →
        ∃ values last bindings, EvaluatesAll program scope frame parts.assigns later values last ∧
          Changes scope (temps ∪ names) later last ∧ matching bindings ∧
          Holds scope names last bindings

end Decides

variable {program : Program} {scope : Nat} {frame : Frame} {span : Span}
  {reads temps names : Set String} {matching : Bindings → Prop} {machine before after : Machine}
  {parts : TestParts}

theorem Declared.mono {fewer : Set String} (declared : Declared scope names before)
    (subset : fewer ⊆ names) : Declared scope fewer before :=
  fun name isIn => declared name (subset isIn)

theorem Declared.changes (declared : Declared scope names before)
    (changes : Changes scope written before after) : Declared scope names after :=
  fun name isIn => changes.declared name (declared name isIn)

theorem Holds.nil : Holds scope names machine [] :=
  fun _ isIn => absurd isIn not_mem_nil

theorem Holds.changes {bindings : Bindings}
    (holds : Holds scope names before bindings) (changes : Changes scope written before after)
    (apart : Disjoint names written) : Holds scope names after bindings := by
  intro entry isIn
  obtain ⟨named, value, found, held⟩ := holds entry isIn
  refine ⟨named, value, ?_, held.mono changes.extends⟩
  rw [changes.kept entry.1 (Set.disjoint_left.1 apart named), found]

theorem Holds.append {others : Set String} {first second : Bindings}
    (firstHolds : Holds scope names machine first) (secondHolds : Holds scope others machine second) :
    Holds scope (names ∪ others) machine (first ++ second) := by
  intro entry isIn
  rcases mem_append.1 isIn with isFirst | isSecond
  · obtain ⟨named, found⟩ := firstHolds entry isFirst
    exact ⟨.inl named, found⟩
  · obtain ⟨named, found⟩ := secondHolds entry isSecond
    exact ⟨.inr named, found⟩

namespace Decides

theorem congr {other : Bindings → Prop} (same : ∀ bindings, matching bindings ↔ other bindings)
    (decides : Decides program scope frame reads temps names matching machine parts) :
    Decides program scope frame reads temps names other machine parts := by
  obtain rfl : matching = other := funext fun bindings => propext (same bindings)
  exact decides

theorem nothing (holds : matching []) :
    Decides program scope frame reads temps names matching machine {} := by
  intro before _ _
  refine .inr ⟨before, .nil before, .refl before, fun later _ => ?_⟩
  exact ⟨[], later, [], .nil later, .refl later, holds, .nil⟩

theorem check {test : Expr} (evaluated : ∀ before, Changes scope readsᶜ machine before →
      Declared scope (temps ∪ names) before →
      ∃ answer after, Evaluates program scope frame test before (.bool answer) after ∧
        Changes scope temps before after ∧ (answer = true ↔ ∃ bindings, matching bindings))
    (silent : ∀ bindings, matching bindings → bindings = []) :
    Decides program scope frame reads temps names matching machine (.check test) := by
  intro before changes declared
  obtain ⟨answer, after, runs, written, decided⟩ := evaluated before changes declared
  cases answer with
  | false =>
    refine .inl ⟨after, .single runs, written, fun bindings isMatch => ?_⟩
    cases decided.2 ⟨bindings, isMatch⟩
  | true =>
    obtain ⟨bindings, isMatch⟩ := decided.1 rfl
    obtain rfl := silent bindings isMatch
    refine .inr ⟨after, .single runs, written, fun later _ => ?_⟩
    exact ⟨[], later, [], .nil later, .refl later, isMatch, .nil⟩

theorem append {otherTemps otherNames : Set String} {second : TestParts}
    {following : Bindings → Prop}
    (first : Decides program scope frame reads temps names matching machine parts)
    (next : (∃ bindings, matching bindings) →
      Decides program scope frame reads otherTemps otherNames following machine second)
    (readsApart : Disjoint reads (temps ∪ names)) (otherReads : Disjoint reads otherTemps)
    (tempsApart : Disjoint (temps ∪ names) otherTemps) (namesApart : Disjoint names otherNames) :
    Decides program scope frame reads (temps ∪ otherTemps) (names ∪ otherNames)
      (fun bindings => ∃ first second, matching first ∧ following second ∧
        bindings = first ++ second) machine (parts.append second) := by
  intro before changes declared
  have tempsOutside : temps ⊆ readsᶜ := fun name isTemp isRead =>
    Set.disjoint_left.1 readsApart isRead (.inl isTemp)
  have otherOutside : otherTemps ⊆ (reads ∪ temps)ᶜ := by
    rintro name isOther (isRead | isTemp)
    · exact Set.disjoint_left.1 otherReads isRead isOther
    · exact Set.disjoint_left.1 tempsApart (.inl isTemp) isOther
  have ownOutside : temps ∪ names ⊆ (reads ∪ otherTemps)ᶜ := by
    rintro name isOwn (isRead | isOther)
    · exact Set.disjoint_left.1 readsApart isRead isOwn
    · exact Set.disjoint_left.1 tempsApart isOwn isOther
  have firstDeclared : Declared scope (temps ∪ names) before :=
    declared.mono (Set.union_subset_union Set.subset_union_left Set.subset_union_left)
  rcases first before changes firstDeclared with
    ⟨middle, failed, written, noMatch⟩ | ⟨middle, held, written, assigns⟩
  · refine .inl ⟨middle, failed.append_false, written.mono Set.subset_union_left, ?_⟩
    rintro bindings ⟨one, _, isMatch, _⟩
    exact noMatch one isMatch
  have hasMatch : ∃ bindings, matching bindings := by
    obtain ⟨_, _, bindings, _, _, isMatch, _⟩ := assigns middle (.refl middle)
    exact ⟨bindings, isMatch⟩
  have secondDeclared : Declared scope (otherTemps ∪ otherNames) middle :=
    (declared.changes written).mono
      (Set.union_subset_union Set.subset_union_right Set.subset_union_right)
  rcases next hasMatch middle (changes.trans (written.mono tempsOutside)) secondDeclared with
    ⟨after, failed, otherWritten, noMatch⟩ | ⟨after, otherHeld, otherWritten, otherAssigns⟩
  · refine .inl ⟨after, held.append_true failed, (written.mono Set.subset_union_left).trans
      (otherWritten.mono Set.subset_union_right), ?_⟩
    rintro bindings ⟨_, two, _, isMatch, _⟩
    exact noMatch two isMatch
  refine .inr ⟨after, held.append_true otherHeld, (written.mono Set.subset_union_left).trans
    (otherWritten.mono Set.subset_union_right), fun later further => ?_⟩
  -- The assignments of the first parts run after the checks of the second.
  have firstFurther : Changes scope (reads ∪ temps)ᶜ middle later :=
    (otherWritten.mono otherOutside).trans (further.mono (Set.compl_subset_compl.2
      (Set.union_subset_union_right reads Set.subset_union_left)))
  obtain ⟨firstValues, between, one, firstRuns, firstWritten, firstMatch, firstHolds⟩ :=
    assigns later firstFurther
  have secondFurther : Changes scope (reads ∪ otherTemps)ᶜ after between :=
    (further.mono (Set.compl_subset_compl.2
      (Set.union_subset_union_right reads Set.subset_union_right))).trans
      (firstWritten.mono ownOutside)
  obtain ⟨secondValues, last, two, secondRuns, secondWritten, secondMatch, secondHolds⟩ :=
    otherAssigns between secondFurther
  have namesKept : Disjoint names (otherTemps ∪ otherNames) :=
    Set.disjoint_union_right.2 ⟨tempsApart.mono_left Set.subset_union_right, namesApart⟩
  refine ⟨_, last, one ++ two, firstRuns.append secondRuns, ?_, ⟨one, two, firstMatch, secondMatch, rfl⟩,
    (firstHolds.changes secondWritten namesKept).append secondHolds⟩
  exact (firstWritten.mono (Set.union_subset_union Set.subset_union_left Set.subset_union_left)).trans
    (secondWritten.mono (Set.union_subset_union Set.subset_union_right Set.subset_union_right))

/-- The condition made from the parts is true exactly on a match, and then the
    designated variables are set. -/
theorem condition (decides : Decides program scope frame reads temps names matching machine parts)
    (changes : Changes scope readsᶜ machine before)
    (declared : Declared scope (temps ∪ names) before) :
    ∃ answer after, Evaluates program scope frame (parts.condition span) before (.bool answer) after ∧
      ((answer = false ∧ Changes scope temps before after ∧ ∀ bindings, ¬ matching bindings) ∨
        (answer = true ∧ Changes scope (temps ∪ names) before after ∧
          ∃ bindings, matching bindings ∧ Holds scope names after bindings)) := by
  rcases decides before changes declared with
    ⟨after, failed, written, noMatch⟩ | ⟨middle, held, written, assigns⟩
  · exact ⟨false, after, failed.append_false.conjunction, .inl ⟨rfl, written, noMatch⟩⟩
  obtain ⟨values, after, bindings, runs, assigned, isMatch, holds⟩ := assigns middle (.refl middle)
  refine ⟨true, after, ?_, .inr ⟨rfl, (written.mono Set.subset_union_left).trans assigned, bindings,
    isMatch, holds⟩⟩
  refine (held.append_true ?_).conjunction
  cases isEmpty : parts.assigns.isEmpty with
  | true =>
    rw [isEmpty_iff.1 isEmpty] at runs
    cases runs
    exact .nil _
  | false => exact .single (.seq runs (.literal span (.bool true) after))

variable {name : String} {subject : Expr}
  {target : Matched} (subjectReads : Reads program scope frame reads machine subject target)

include subjectReads

theorem assignSubject
    (shared : ∀ machine value address, target.HeldAs machine value → value ≠ .object address)
    (changes : Changes scope readsᶜ machine before) (declared : (before.valueOf? scope name).isSome) :
    ∃ value after,
      Evaluates program scope frame (span.assign (span.ident name) subject) before value after ∧
      Changes scope {name} before after ∧ after.valueOf? scope name = some value ∧
      target.HeldAs after value := by
  obtain ⟨value, middle, evaluated, held, unchanged⟩ := subjectReads before changes
  have isDeclared := unchanged.declared name declared
  have assigned : Changes scope {name} middle (middle.assign scope name value) :=
    .ofAssign value isDeclared
  refine ⟨value, middle.assign scope name value,
    .assign evaluated (fun address => shared middle value address held) isDeclared,
    (unchanged.mono (Set.empty_subset _)).trans assigned, ?_, held.mono assigned.extends⟩
  rw [Machine.valueOf?_assign isDeclared, if_pos rfl]

theorem prepend
    (shared : ∀ machine value address, target.HeldAs machine value → value ≠ .object address)
    (decides : ∀ stable, stable.Extends machine →
      Reads program scope frame {name} stable (span.ident name) target →
      Decides program scope frame {name} temps names matching stable parts) :
    Decides program scope frame reads (insert name temps) names matching machine
      (parts.prepend span (span.assign (span.ident name) subject)) := by
  intro before changes declared
  have nameDeclared : (before.valueOf? scope name).isSome :=
    declared name (.inl (Set.mem_insert name temps))
  have restDeclared : Declared scope (temps ∪ names) before :=
    declared.mono (Set.union_subset_union_left names (Set.subset_insert name temps))
  have nameWritten : ({name} : Set String) ⊆ insert name temps := by simp
  obtain ⟨checks, assigns⟩ := parts
  cases checks with
  | cons first rest =>
    obtain ⟨value, stable, sets, written, found, held⟩ :=
      assignSubject subjectReads shared changes nameDeclared
    have seqRuns : ∀ {answer : Bool} {after : Machine},
        ChecksTo program scope frame (first :: rest) stable answer after →
        ChecksTo program scope frame
          (span.seq [span.assign (span.ident name) subject] first :: rest) before answer after := by
      intro answer after ran
      cases ran with
      | fails failed => exact .fails (.seq (.single sets) failed)
      | holds passed others => exact .holds (.seq (.single sets) passed) others
    have extended : stable.Extends machine := written.extends.trans changes.extends
    rcases decides stable extended (.held found held) stable (.refl stable)
      (restDeclared.changes written) with ⟨after, failed, others, noMatch⟩ | ⟨after, passed, others, assigned⟩
    · exact .inl ⟨after, seqRuns failed, (written.mono nameWritten).trans
        (others.mono (Set.subset_insert name temps)), noMatch⟩
    refine .inr ⟨after, seqRuns passed, (written.mono nameWritten).trans
      (others.mono (Set.subset_insert name temps)), fun later further => ?_⟩
    have innerFurther : Changes scope ({name} ∪ temps)ᶜ after later := by
      refine further.mono (Set.compl_subset_compl.2 ?_)
      rw [Set.singleton_union]
      exact Set.subset_union_right
    obtain ⟨values, last, bindings, runs, innerWritten, isMatch, holds⟩ := assigned later innerFurther
    exact ⟨values, last, bindings, runs,
      innerWritten.mono (Set.union_subset_union_left names (Set.subset_insert name temps)),
      isMatch, holds⟩
  | nil =>
    -- Without a check the temporary is set among the assignments.
    refine .inr ⟨before, .nil before, .refl before, fun later further => ?_⟩
    have stillReads : Changes scope readsᶜ machine later :=
      changes.trans (further.mono (Set.compl_subset_compl.2 Set.subset_union_left))
    obtain ⟨value, stable, sets, written, found, held⟩ :=
      assignSubject subjectReads shared stillReads (further.declared name nameDeclared)
    have extended : stable.Extends machine := written.extends.trans stillReads.extends
    have stableDeclared : Declared scope (temps ∪ names) stable :=
      (restDeclared.changes further).changes written
    rcases decides stable extended (.held found held) stable (.refl stable) stableDeclared with
      ⟨after, failed, _⟩ | ⟨after, passed, _, assigned⟩
    · cases failed
    cases passed
    obtain ⟨values, last, bindings, runs, innerWritten, isMatch, holds⟩ :=
      assigned stable (.refl stable)
    exact ⟨value :: values, last, bindings, .cons sets runs,
      (written.mono (nameWritten.trans Set.subset_union_left)).trans
        (innerWritten.mono (Set.union_subset_union_left names (Set.subset_insert name temps))),
      isMatch, holds⟩

theorem designate
    (shared : ∀ machine value address, target.HeldAs machine value → value ≠ .object address) :
    Decides program scope frame reads temps {name} (fun bindings => bindings = [(name, target)])
      machine { assigns := [span.assign (span.ident name) subject] } := by
  intro before changes declared
  refine .inr ⟨before, .nil before, .refl before, fun later further => ?_⟩
  have stillReads : Changes scope readsᶜ machine later :=
    changes.trans (further.mono (Set.compl_subset_compl.2 Set.subset_union_left))
  obtain ⟨value, last, sets, written, found, held⟩ := assignSubject subjectReads shared stillReads
    (further.declared name (declared name (.inr rfl)))
  refine ⟨[value], last, [(name, target)], .single sets, written.mono Set.subset_union_right, rfl, ?_⟩
  intro entry isIn
  obtain rfl := mem_singleton.1 isIn
  exact ⟨rfl, value, found, held⟩

end Decides

/-! ## Single checks

What the comparisons of a condition test: `null`, literals, and lengths.
-/

/-! ## Values of plain types -/

section Values

variable {types : Universe} {heap machine : Machine} {type : Ty} {target : Matched} {value : Value}

theorem Matched.HeldAs.sequence_not_object {sequence : Sequence}
    (held : target.HeldAs machine value) (found : target.sequence? heap = some sequence)
    {address : Nat} : value ≠ .object address := by
  cases target with
  | value expected =>
    cases expected with
    | list other =>
      obtain rfl : value = .list other := held
      nofun
    | _ => cases found
  | part isArray items =>
    obtain ⟨other, rfl, _⟩ := held
    nofun

theorem Ty.Admits.not_object (admits : type.Admits types heap target) (machine : Machine)
    (value : Value) (address : Nat) (held : target.HeldAs machine value) :
    value ≠ .object address := by
  unfold Ty.Admits at admits
  split at admits
  · obtain ⟨number, rfl⟩ := admits
    obtain rfl : value = .int number := held
    nofun
  · obtain ⟨truth, rfl⟩ := admits
    obtain rfl : value = .bool truth := held
    nofun
  · obtain ⟨char, rfl⟩ := admits
    obtain rfl : value = .char char := held
    nofun
  · obtain rfl | ⟨text, rfl, _⟩ := admits
    · obtain rfl : value = .null := held
      nofun
    · obtain rfl : value = .str text := held
      nofun
  · obtain rfl | ⟨sequence, found, _⟩ := admits
    · obtain rfl : value = .null := held
      nofun
    · exact held.sequence_not_object found
  · obtain ⟨_, rfl | ⟨sequence, found, _⟩⟩ := admits
    · obtain rfl : value = .null := held
      nofun
    · exact held.sequence_not_object found
  · obtain ⟨_, items, rfl, _⟩ := admits
    obtain rfl : value = .tuple items := held
    nofun
  · cases admits

theorem Matched.HeldAs.builtinEq_null (held : target.HeldAs machine value) :
    value.builtinEq .null = true ↔ target = .value .null := by
  cases target with
  | value expected =>
    obtain rfl : value = expected := held
    cases value <;> simp [Value.builtinEq, Value.number?, Value.sameSimple]
  | part isArray items =>
    obtain ⟨address, rfl, _⟩ := held
    simp [Value.builtinEq, Value.number?, Value.sameSimple]

def Ty.IsLiteral (type : Ty) : Prop :=
  type = .int ∨ type = .bool ∨ type = .char ∨ type = .string

theorem Ty.Admits.builtinEq_literal (admits : type.Admits types heap target)
    (simple : type.IsLiteral) (typed : Infer.literalType literal = type)
    (held : target.HeldAs machine value) :
    value.builtinEq (Eval.literalValue literal) = true ↔
      target = .value (Eval.literalValue literal) := by
  rcases simple with rfl | rfl | rfl | rfl
  · obtain ⟨number, rfl⟩ := admits
    obtain rfl : value = .int number := held
    cases literal <;> cases typed
    simp [Eval.literalValue, Value.builtinEq, Value.number?, Value.sameNumber]
  · obtain ⟨truth, rfl⟩ := admits
    obtain rfl : value = .bool truth := held
    cases literal <;> cases typed
    simp [Eval.literalValue, Value.builtinEq, Value.number?, Value.sameSimple]
  · obtain ⟨char, rfl⟩ := admits
    obtain rfl : value = .char char := held
    cases literal <;> cases typed
    simp only [Eval.literalValue, Value.builtinEq, Value.number?, Value.sameNumber, beq_iff_eq,
      Matched.value.injEq, Value.char.injEq]
    exact Int.ofNat_inj.trans Char.toNat_inj
  · cases literal <;> cases typed
    obtain rfl | ⟨text, rfl, _⟩ := admits
    · obtain rfl : value = .null := held
      simp [Eval.literalValue, Value.builtinEq, Value.number?, Value.sameSimple]
    · obtain rfl : value = .str text := held
      simp [Eval.literalValue, Value.builtinEq, Value.number?, Value.sameSimple]

end Values

/-! ## Evaluating comparisons -/

section Comparisons

variable {program : Program} {left right : Value} {machine : Machine}

theorem operatorEq_eq {recur : Answer} {negated : Bool}
    (leftPlain : ∀ address, left ≠ .object address) (rightPlain : ∀ address, right ≠ .object address) :
    Eval.operatorEq program recur negated left right machine =
      (.ok (.bool (left.builtinEq right != negated)), machine) := by
  have noClass : Eval.operandClass? left right machine = (.ok none, machine) := by
    unfold Eval.operandClass?
    split
    · exact absurd rfl (leftPlain _)
    · exact absurd rfl (rightPlain _)
    · rfl
  unfold Eval.operatorEq
  rw [Eval.bind_ok noClass]
  rfl

theorem literalValue_not_object (literal : Literal) (address : Nat) :
    Eval.literalValue literal ≠ .object address := by
  cases literal <;> nofun

end Comparisons

/-! ## Tests -/

section Tests

variable (program : Program) (scope : Nat) (frame : Frame)

/-- As long as the variables `reads` stay as they are, an expression tests a
    condition and changes no variable. -/
def Tests (reads : Set String) (machine : Machine) (node : Expr) (condition : Prop) : Prop :=
  ∀ later, Changes scope readsᶜ machine later →
    ∃ answer after, Evaluates program scope frame node later (.bool answer) after ∧
      Changes scope ∅ later after ∧ (answer = true ↔ condition)

end Tests

variable {program : Program} {scope : Nat} {frame : Frame} {reads : Set String}
  {machine heap : Machine} {node : Expr} {target : Matched} {span : Span}

namespace Tests

theorem decides {temps names : Set String} {test : Expr} {condition : Prop}
    (tests : Tests program scope frame reads machine test condition) :
    Decides program scope frame reads temps names (fun bindings => condition ∧ bindings = [])
      machine (.check test) := by
  refine .check (fun before changes _ => ?_) fun bindings isMatch => isMatch.2
  obtain ⟨answer, after, evaluated, unchanged, decided⟩ := tests before changes
  refine ⟨answer, after, evaluated, unchanged.mono (Set.empty_subset _), decided.trans ?_⟩
  exact ⟨fun holds => ⟨[], holds, rfl⟩, fun ⟨_, holds, _⟩ => holds⟩

theorem decides_pair {temps names : Set String} {first second : Expr} {condition other : Prop}
    (tests : Tests program scope frame reads machine first condition)
    (next : condition → Tests program scope frame reads machine second other)
    (apart : Disjoint reads (temps ∪ names)) :
    Decides program scope frame reads temps names
      (fun bindings => (condition ∧ other) ∧ bindings = []) machine
      { checks := [first, second] } := by
  have firstDecides : Decides program scope frame reads temps names
      (fun bindings => condition ∧ bindings = []) machine (.check first) := tests.decides
  have secondDecides : (∃ bindings : Bindings, condition ∧ bindings = []) →
      Decides program scope frame reads ∅ ∅ (fun bindings => other ∧ bindings = []) machine
        (.check second) :=
    fun ⟨_, holds, _⟩ => (next holds).decides
  have both := firstDecides.append secondDecides apart (Set.disjoint_empty _) (Set.disjoint_empty _)
    (Set.disjoint_empty _)
  rw [Set.union_empty, Set.union_empty] at both
  refine both.congr fun bindings => ?_
  constructor
  · rintro ⟨_, _, ⟨holds, rfl⟩, ⟨otherHolds, rfl⟩, rfl⟩
    exact ⟨⟨holds, otherHolds⟩, rfl⟩
  · rintro ⟨⟨holds, otherHolds⟩, rfl⟩
    exact ⟨[], [], ⟨holds, rfl⟩, ⟨otherHolds, rfl⟩, rfl⟩

variable (subject : Reads program scope frame reads machine node target)
  (notObject : ∀ machine value address, target.HeldAs machine value → value ≠ .object address)

include subject notObject

theorem equality (literal : Literal) (negated : Bool) {condition : Prop}
    (decided : ∀ machine value, target.HeldAs machine value →
      (value.builtinEq (Eval.literalValue literal) = true ↔ condition)) (mark : Mark) :
    Tests program scope frame reads machine
      (span.binary (if negated then .notEq else .eq) node ⟨mark, .literal literal⟩)
      (if negated then ¬ condition else condition) := by
  intro later changes
  obtain ⟨value, after, evaluated, held, unchanged⟩ := subject later changes
  have literalEval : Evaluates program scope frame ⟨mark, .literal literal⟩ after
      (Eval.literalValue literal) after := .of_step 0 fun _ _ => rfl
  refine ⟨value.builtinEq (Eval.literalValue literal) != negated, after,
    .binary evaluated literalEval ?_ ?_, unchanged, ?_⟩
  · cases negated <;> exact ⟨nofun, nofun, nofun⟩
  · intro recur
    have compared : Eval.operatorEq program recur negated value (Eval.literalValue literal) after =
        (.ok (.bool (value.builtinEq (Eval.literalValue literal) != negated)), after) :=
      operatorEq_eq (fun address => notObject after value address held)
        (literalValue_not_object literal)
    cases negated <;> exact compared
  · have equal := decided after value held
    cases negated
    · simpa using equal
    · simpa using not_congr equal

theorem isNull : Tests program scope frame reads machine (span.binary .eq node span.nullLit)
    (target = .value .null) :=
  equality subject notObject .null false (fun _ _ held => held.builtinEq_null) span.mark

theorem notNull : Tests program scope frame reads machine (span.binary .notEq node span.nullLit)
    (target ≠ .value .null) :=
  equality subject notObject .null true (fun _ _ held => held.builtinEq_null) span.mark

omit subject notObject

theorem relation {types : Universe} {type : Ty} (op : Comparison)
    (subject : Reads program scope frame reads machine node target)
    (admits : type.Admits types heap target) (simple : type = .int ∨ type = .char)
    (typed : Infer.literalType literal = type) (mark : Mark) :
    Tests program scope frame reads machine
      (span.binary op.toBinary node ⟨mark, .literal literal⟩) (op.Relates target literal) := by
  intro later changes
  obtain ⟨value, after, evaluated, held, unchanged⟩ := subject later changes
  have literalEval : Evaluates program scope frame ⟨mark, .literal literal⟩ after
      (Eval.literalValue literal) after := .of_step 0 fun _ _ => rfl
  have eager : op.toBinary ≠ .and ∧ op.toBinary ≠ .or ∧ op.toBinary ≠ .coalesce := by
    cases op <;> exact ⟨nofun, nofun, nofun⟩
  rcases simple with rfl | rfl
  · obtain ⟨number, rfl⟩ := admits
    obtain rfl : value = .int number := held
    cases literal <;> cases typed
    rename_i bound
    refine ⟨decide (op.Holds number bound), after, .binary evaluated literalEval eager ?_, unchanged,
      by simp [Comparison.Relates]⟩
    intro recur
    cases op <;> rfl
  · obtain ⟨char, rfl⟩ := admits
    obtain rfl : value = .char char := held
    cases literal <;> cases typed
    rename_i bound
    refine ⟨decide (op.Holds char.toNat bound.toNat), after, .binary evaluated literalEval eager ?_,
      unchanged, by simp [Comparison.Relates]⟩
    intro recur
    cases op <;> rfl

variable {length bound : Nat}
  (measured : Reads program scope frame reads machine node (.value (.int length)))

include measured

theorem lengthAtLeast :
    Tests program scope frame reads machine (span.binary .gtEq node (span.intLit bound))
      (bound ≤ length) := by
  intro later changes
  obtain ⟨_, after, evaluated, rfl, unchanged⟩ := measured later changes
  refine ⟨decide ((bound : Int) ≤ length), after, .binary evaluated
    (.literal span (.int bound) after) ⟨nofun, nofun, nofun⟩ fun recur => rfl, unchanged, ?_⟩
  simp

theorem lengthIs :
    Tests program scope frame reads machine (span.binary .eq node (span.intLit bound))
      (length = bound) := by
  have plain : ∀ machine value address, (Matched.value (.int length)).HeldAs machine value →
      value ≠ .object address := by
    rintro _ _ address rfl
    nofun
  refine equality measured plain (.int bound) false ?_ span.mark
  rintro _ _ rfl
  simp only [Eval.literalValue, Value.builtinEq, Value.number?, Value.sameNumber, beq_iff_eq]
  exact Int.ofNat_inj

end Tests

end Unsugar
