import Unsugar.Proofs.Lower.Runs
import Unsugar.Proofs.Patterns.Decisions
import Mathlib.Data.List.Nodup

open List

namespace Unsugar

open Pass (TestParts Subject)

/-! # What lowering contributes

Lowering a pattern draws fresh names, queues declarations and yields parts of a
condition.  `Contributes` says all three at once, so that the lowering of a
pattern is put together from those of its parts.
-/

/-! ## Fresh names -/

theorem freshName_injective {hint : String} {left right : Nat}
    (same : freshName hint left = freshName hint right) : left = right := by
  have digits : Nat.toDigits 10 left = Nat.toDigits 10 right := by
    have spelled := congrArg String.toList same
    simpa [freshName, String.toList_append] using spelled
  rw [← Nat.ofDigitChars_ten_toDigits (n := left), digits, Nat.ofDigitChars_ten_toDigits]

def temporaries (low high : Nat) : Set String :=
  { name | ∃ number, low ≤ number ∧ number < high ∧ name = freshName "t" number }

def IsTemporary (name : String) : Prop := ∃ number, name = freshName "t" number

variable {high low : Nat}

theorem temporaries_isTemporary {name : String} (isIn : name ∈ temporaries low high) :
    IsTemporary name := by
  obtain ⟨number, _, _, rfl⟩ := isIn
  exact ⟨number, rfl⟩

theorem temporaries_union {middle : Nat} (first : low ≤ middle) (second : middle ≤ high) :
    temporaries low middle ∪ temporaries middle high = temporaries low high := by
  ext name
  constructor
  · rintro (⟨number, lower, upper, rfl⟩ | ⟨number, lower, upper, rfl⟩)
    · exact ⟨number, lower, by omega, rfl⟩
    · exact ⟨number, by omega, upper, rfl⟩
  · rintro ⟨number, lower, upper, rfl⟩
    by_cases before : number < middle
    · exact .inl ⟨number, lower, before, rfl⟩
    · exact .inr ⟨number, by omega, upper, rfl⟩

theorem temporaries_disjoint {low middle high : Nat} :
    Disjoint (temporaries low middle) (temporaries middle high) := by
  refine Set.disjoint_left.2 ?_
  rintro name ⟨number, _, upper, rfl⟩ ⟨other, lower, _, same⟩
  have := freshName_injective same
  omega

theorem temporaries_insert (inside : low + 1 ≤ high) :
    insert (freshName "t" low) (temporaries (low + 1) high) = temporaries low high := by
  rw [← temporaries_union (Nat.le_succ low) inside, Set.insert_eq]
  congr 1
  ext name
  constructor
  · rintro rfl
    exact ⟨low, by omega, by omega, rfl⟩
  · rintro ⟨number, lower, upper, rfl⟩
    obtain rfl : number = low := by omega
    rfl

/-! ## Queued declarations -/

def HoistQueue.names (queue : HoistQueue) (point : InstallPoint) : List String :=
  (queue.at? point).map HoistedLocal.name

theorem HoistQueue.mem_names_declare {queue : HoistQueue} {point : InstallPoint}
    {hoisted : HoistedLocal} {name : String} :
    name ∈ (queue.declare point hoisted).names point ↔
      name ∈ queue.names point ∨ name = hoisted.name := by
  obtain ⟨entries⟩ := queue
  unfold names at? declare
  induction entries with
  | nil => simp [declareIn]
  | cons entry rest ih =>
    obtain ⟨other, queued⟩ := entry
    by_cases same : other = point
    · subst same
      by_cases known : queued.any fun other => other.name == hoisted.name
      · have present : ∃ other ∈ queued, other.name = hoisted.name := by
          simpa using known
        simp only [declareIn, if_pos, addTo, known, lookup_cons_self, Option.getD_some, mem_map]
        constructor
        · exact .inl
        · rintro (isIn | rfl)
          · exact isIn
          · exact present
      · simp [declareIn, addTo, known]
    · have different : (point == other) = false := by simpa using Ne.symm same
      simpa [declareIn, same, lookup_cons, different] using ih

/-- Fresh names were drawn and declarations queued at a point, for these names
    and for every temporary that was drawn. -/
structure Draws (point : InstallPoint) (names : List String) (before after : PassState) : Prop where
  grows : before.nextName ≤ after.nextName
  kept : ∀ name ∈ before.hoists.names point, name ∈ after.hoists.names point
  declared : ∀ name ∈ names, name ∈ after.hoists.names point
  drawn : ∀ name ∈ temporaries before.nextName after.nextName, name ∈ after.hoists.names point

namespace Draws

variable {point : InstallPoint} {names others : List String} {before middle after : PassState}

theorem refl (state : PassState) : Draws point [] state state where
  grows := Nat.le_refl _
  kept _ isIn := isIn
  declared _ isIn := absurd isIn not_mem_nil
  drawn := by
    rintro name ⟨number, lower, upper, _⟩
    omega

theorem trans (first : Draws point names before middle) (second : Draws point others middle after) :
    Draws point (names ++ others) before after where
  grows := first.grows.trans second.grows
  kept name isIn := second.kept name (first.kept name isIn)
  declared name isIn := by
    rcases mem_append.1 isIn with isFirst | isSecond
    · exact second.kept name (first.declared name isFirst)
    · exact second.declared name isSecond
  drawn name isIn := by
    rw [← temporaries_union first.grows second.grows] at isIn
    rcases isIn with isFirst | isSecond
    · exact second.kept name (first.drawn name isFirst)
    · exact second.drawn name isSecond

end Draws

/-! ## Contributions -/

namespace Pass

variable {α β : Type} {env : PassEnv} {before after : PassState} {result : α}

theorem inPattern_ok {node : Pattern} {action : Pass α}
    (ran : action env before = .ok (result, after)) :
    inPattern node action env before = .ok (result, after) := by
  change (tryCatch (action env before) fun error => _ : Except LowerError (α × PassState)) = _
  rw [ran]
  rfl

theorem inPattern_eq_ok {node : Pattern} {action : Pass α}
    (ran : inPattern node action env before = .ok (result, after)) :
    action env before = .ok (result, after) := by
  rcases tryCatch_eq_ok ran with acted | ⟨error, raised⟩
  · exact acted
  · cases raised

theorem designate_unnamed {point : InstallPoint} {span : Span} {mark : Mark} {name : String}
    {written : TypeSyntax} {type : Ty} {value : Expr} (unnamed : isDesignation name = false) :
    designate point span mark name written type value env before = .ok ({}, before) := by
  unfold designate
  rw [unnamed]
  rfl

end Pass

/-- A rule always succeeds; it draws names for `names`, and the parts it yields
    are sound for the temporaries it drew. -/
def Contributes (env : PassEnv) (point : InstallPoint) (names : List String)
    (action : Pass TestParts) (sound : Set String → TestParts → Prop) : Prop :=
  ∀ before, ∃ parts after, action env before = .ok (parts, after) ∧
    Draws point names before after ∧ sound (temporaries before.nextName after.nextName) parts

def Distinct (names : List String) : Prop :=
  names.Nodup ∧ ∀ name ∈ names, ¬ IsTemporary name

theorem Distinct.left {names others : List String} (distinct : Distinct (names ++ others)) :
    Distinct names :=
  ⟨(nodup_append.1 distinct.1).1, fun name isIn =>
    distinct.2 name (mem_append_left _ isIn)⟩

theorem Distinct.right {names others : List String} (distinct : Distinct (names ++ others)) :
    Distinct others :=
  ⟨(nodup_append.1 distinct.1).2.1, fun name isIn =>
    distinct.2 name (mem_append_right _ isIn)⟩

def nameSet (names : List String) : Set String := { name | name ∈ names }

theorem nameSet_append {names others : List String} :
    nameSet (names ++ others) = nameSet names ∪ nameSet others := by
  ext name
  exact mem_append

theorem nameSet_nil : nameSet [] = ∅ := by
  ext name
  simp [nameSet]

theorem Distinct.disjoint_temporaries {names : List String} (distinct : Distinct names)
    {low high : Nat} : Disjoint (nameSet names) (temporaries low high) :=
  Set.disjoint_left.2 fun name isIn isTemp =>
    distinct.2 name isIn (temporaries_isTemporary isTemp)

theorem Distinct.disjoint {names others : List String} (distinct : Distinct (names ++ others)) :
    Disjoint (nameSet names) (nameSet others) :=
  Set.disjoint_left.2 fun name isIn isOther =>
    (nodup_append.1 distinct.1).2.2 name isIn name isOther rfl

/-! ## Soundness of parts -/

section Sound

variable (program : Program) (scope : Nat) (frame : Frame) (types : Universe) (heap : Machine)

/-- Wherever a subject of a type can be read and `given` holds of it, parts decide
    whether it matches. -/
def Sound (given : Matched → Prop) (type : Ty) (subject : Expr) (names : List String)
    (matching : Matched → Bindings → Prop) (temps : Set String) (parts : TestParts) : Prop :=
  ∀ reads machine target, machine.Extends heap → Disjoint reads (temps ∪ nameSet names) →
    Reads program scope frame reads machine subject target → type.Admits types heap target →
    given target →
    Decides program scope frame reads temps (nameSet names) (matching target) machine parts

end Sound

variable {program : Program} {scope : Nat} {frame : Frame} {types : Universe} {heap : Machine}
  {given : Matched → Prop} {type : Ty} {subject : Expr} {names others : List String}
  {matching following : Matched → Bindings → Prop} {env : PassEnv} {point : InstallPoint}
  {span : Span}

namespace Contributes

variable {action next : Pass TestParts}

theorem mono {sound stronger : Set String → TestParts → Prop}
    (contributes : Contributes env point names action stronger)
    (weaker : ∀ temps parts, stronger temps parts → sound temps parts) :
    Contributes env point names action sound := by
  intro before
  obtain ⟨parts, after, ran, draws, isSound⟩ := contributes before
  exact ⟨parts, after, ran, draws, weaker _ _ isSound⟩

theorem pure {parts : TestParts} {sound : Set String → TestParts → Prop}
    (isSound : ∀ temps, sound temps parts) : Contributes env point [] (pure parts) sound :=
  fun before => ⟨parts, before, rfl, .refl before, isSound _⟩

/-- One contribution after another; the second may rely on a match of the
    first. -/
theorem append (first : Contributes env point names action
      (Sound program scope frame types heap given type subject names matching))
    (second : Contributes env point others next (Sound program scope frame types heap
        (fun target => given target ∧ ∃ bindings, matching target bindings) type subject others
        following))
    (distinct : Distinct (names ++ others)) :
    Contributes env point (names ++ others)
      (do let left ← action
          return left.append (← next))
      (Sound program scope frame types heap given type subject (names ++ others)
        fun target bindings => ∃ first second, matching target first ∧ following target second ∧
          bindings = first ++ second) := by
  intro before
  obtain ⟨parts, middle, ran, draws, isSound⟩ := first before
  obtain ⟨otherParts, after, otherRan, otherDraws, otherSound⟩ := second middle
  refine ⟨parts.append otherParts, after, ?_, draws.trans otherDraws, ?_⟩
  · rw [Pass.bind_ok ran, Pass.bind_ok otherRan]
    rfl
  intro reads machine target extended apart subjectReads admits holds
  rw [← temporaries_union draws.grows otherDraws.grows] at apart ⊢
  rw [nameSet_append] at apart ⊢
  have readsApart : Disjoint reads (temporaries before.nextName middle.nextName ∪ nameSet names) :=
    apart.mono_right (Set.union_subset_union Set.subset_union_left Set.subset_union_left)
  have otherApart : Disjoint reads (temporaries middle.nextName after.nextName ∪ nameSet others) :=
    apart.mono_right (Set.union_subset_union Set.subset_union_right Set.subset_union_right)
  refine .append (isSound reads machine target extended readsApart subjectReads admits holds)
    (fun isMatch => otherSound reads machine target extended otherApart subjectReads admits
      ⟨holds, isMatch⟩) readsApart (otherApart.mono_right Set.subset_union_left) ?_
    distinct.disjoint
  exact Set.disjoint_union_left.2 ⟨temporaries_disjoint, distinct.left.disjoint_temporaries⟩

end Contributes

namespace Sound

variable {temps : Set String} {parts : TestParts}

section

variable
  (isSound : Sound program scope frame types heap given type subject names matching temps parts)

include isSound

theorem congr {other : Matched → Bindings → Prop}
    (same : ∀ target, type.Admits types heap target → given target →
      ∀ bindings, matching target bindings ↔ other target bindings) :
    Sound program scope frame types heap given type subject names other temps parts := by
  intro reads machine target extended apart subjectReads admits holds
  exact (isSound reads machine target extended apart subjectReads admits holds).congr
    (same target admits holds)

theorem weaken {stronger : Matched → Prop} (implied : ∀ target, stronger target → given target) :
    Sound program scope frame types heap stronger type subject names matching temps parts :=
  fun reads machine target extended apart subjectReads admits holds =>
    isSound reads machine target extended apart subjectReads admits (implied target holds)

end

theorem within {inner : Expr} {innerType : Ty} {reached : Matched → Bindings → Prop}
    (isSound : Sound program scope frame types heap (fun _ => True) innerType inner names matching
      temps parts)
    (reach : ∀ reads machine target, machine.Extends heap →
      Reads program scope frame reads machine subject target → type.Admits types heap target →
      given target → ∃ part, Reads program scope frame reads machine inner part ∧
        innerType.Admits types heap part ∧
        ∀ bindings, matching part bindings ↔ reached target bindings) :
    Sound program scope frame types heap given type subject names reached temps parts := by
  intro reads machine target extended apart subjectReads admits holds
  obtain ⟨part, partReads, partAdmits, same⟩ :=
    reach reads machine target extended subjectReads admits holds
  exact (isSound reads machine part extended apart partReads partAdmits trivial).congr same

theorem nothing (always : ∀ target, type.Admits types heap target → given target →
      matching target []) :
    Sound program scope frame types heap given type subject names matching temps {} :=
  fun _ _ target _ _ _ admits holds => .nothing (always target admits holds)

end Sound

/-! ## Subjects -/

def Expr.Anonymous (node : Expr) : Prop :=
  ∀ site, (node.rebuild Rules.forget site : Id Expr) = node

structure Pass.Subject.Readable (subject : Subject) : Prop where
  anonymous : subject.read.Anonymous
  notBase : subject.read.kind ≠ .base

theorem Pass.Subject.read_eq {subject : Subject} (anonymous : subject.expr.Anonymous) :
    subject.read = subject.expr :=
  anonymous .detached

theorem Pass.Subject.Readable.ofAnonymous {subject : Subject} (anonymous : subject.expr.Anonymous)
    (notBase : subject.expr.kind ≠ .base) : subject.Readable := by
  have same := Pass.Subject.read_eq anonymous
  exact ⟨same.symm ▸ anonymous, same.symm ▸ notBase⟩

namespace Contributes

theorem designate (mark : Mark) (name : String) (subjectType : Ty) :
    Contributes env point (designatedName name)
      (Pass.designate point span mark name .absent subjectType subject)
      (Sound program scope frame types heap given type subject (designatedName name)
        fun target bindings => bindings = designated name target) := by
  intro before
  unfold Pass.designate designatedName designated
  by_cases designates : isDesignation name = true
  · simp only [designates, Bool.not_true, Bool.false_eq_true, if_false, if_true]
    refine ⟨_, _, rfl, ⟨Nat.le_refl _, ?_, ?_, ?_⟩, ?_⟩
    · intro other isIn
      exact HoistQueue.mem_names_declare.2 (.inl isIn)
    · intro other isIn
      obtain rfl := mem_singleton.1 isIn
      exact HoistQueue.mem_names_declare.2 (.inr rfl)
    · rintro other ⟨number, lower, upper, _⟩
      exact absurd upper (Nat.not_lt.2 lower)
    · intro reads machine target _ _ subjectReads admits _
      have single : nameSet [name] = {name} := by
        ext other
        exact mem_singleton
      rw [single]
      exact .designate subjectReads admits.not_object
  · simp only [designates, Bool.not_false, if_true, if_false, Bool.false_eq_true]
    exact ⟨{}, before, rfl, .refl before, .nothing fun _ _ _ => rfl⟩

theorem stabilized {lower : Subject → Pass TestParts} (stable : Subject) (count : Nat)
    (lowers : ∀ inner : Subject, inner.type = stable.type → inner.Readable →
      Contributes env point names (lower inner)
        (Sound program scope frame types heap (fun _ => True) stable.type inner.read names matching))
    (readable : stable.Readable) (distinct : Distinct names) :
    Contributes env point names (Pass.stabilized point span count stable lower)
      (Sound program scope frame types heap (fun _ => True) stable.type stable.read names
        matching) := by
  unfold Pass.stabilized
  split
  · exact lowers stable rfl readable
  intro before
  -- The temporary is drawn first, so the parts draw from the next number on.
  obtain ⟨drawn, ran, numbered, queued⟩ : ∃ drawn : PassState,
      Pass.temporary point "t" stable.type span env before =
        .ok (freshName "t" before.nextName, drawn) ∧
      drawn.nextName = before.nextName + 1 ∧
      ∀ name, name ∈ drawn.hoists.names point ↔
        name ∈ before.hoists.names point ∨ name = freshName "t" before.nextName :=
    ⟨_, rfl, rfl, fun _ => HoistQueue.mem_names_declare⟩
  let drawnSubject : Subject := ⟨span.ident (freshName "t" before.nextName), stable.type, none⟩
  have isReadable : drawnSubject.Readable := .ofAnonymous (fun _ => rfl) nofun
  obtain ⟨parts, after, lowered, draws, isSound⟩ := lowers drawnSubject rfl isReadable drawn
  have grows : before.nextName + 1 ≤ after.nextName := numbered ▸ draws.grows
  rw [numbered] at isSound
  refine ⟨parts.prepend span (span.assign (span.ident (freshName "t" before.nextName)) stable.read),
    after, ?_, ?_, ?_⟩
  · rw [Pass.bind_ok ran, Pass.bind_ok lowered]
    rfl
  · refine ⟨by omega, fun name isIn => draws.kept name ((queued name).2 (.inl isIn)),
      draws.declared, fun name isIn => ?_⟩
    rw [← temporaries_insert grows] at isIn
    rcases isIn with isFirst | isLater
    · exact draws.kept name ((queued name).2 (.inr isFirst))
    · exact draws.drawn name (numbered ▸ isLater)
  · intro reads machine target extended apart subjectReads admits _
    rw [← temporaries_insert grows]
    refine .prepend subjectReads admits.not_object fun stableMachine later reading => ?_
    refine isSound {freshName "t" before.nextName} stableMachine target (later.trans extended) ?_
      reading admits trivial
    refine Set.disjoint_singleton_left.2 ?_
    rintro (⟨number, lower, _, same⟩ | isName)
    · have := freshName_injective same
      omega
    · exact distinct.2 _ isName ⟨_, rfl⟩

/-! ## Alternatives and negations -/

theorem testCondition {reads temps : Set String} {machine before : Machine} {parts : TestParts}
    {decided : Bindings → Prop} (span : Span)
    (decides : Decides program scope frame reads temps (nameSet []) decided machine parts)
    (changes : Changes scope readsᶜ machine before) (declared : Declared scope temps before) :
    ∃ answer after,
      Evaluates program scope frame (parts.condition span) before (.bool answer) after ∧
      Changes scope temps before after ∧ (answer = true ↔ ∃ bindings, decided bindings) := by
  rw [nameSet_nil] at decides
  obtain ⟨answer, after, evaluated, outcome⟩ :=
    decides.condition changes (declared.mono (Set.union_empty temps).subset)
  refine ⟨answer, after, evaluated, ?_⟩
  rcases outcome with ⟨rfl, written, noMatch⟩ | ⟨rfl, written, bindings, isMatch, _⟩
  · exact ⟨written, nofun, fun ⟨bindings, isMatch⟩ => absurd isMatch (noMatch bindings)⟩
  · exact ⟨written.mono (Set.union_empty temps).subset, fun _ => ⟨bindings, isMatch⟩, fun _ => rfl⟩

theorem negation {action : Pass TestParts} (span : Span) (inner : Contributes env point [] action
      (Sound program scope frame types heap given type subject [] matching)) :
    Contributes env point []
      (do let inner := (← action).condition span
          return .check (span.unary .not inner))
      (Sound program scope frame types heap given type subject [] fun target bindings =>
        (∀ bound, ¬ matching target bound) ∧ bindings = []) := by
  intro before
  obtain ⟨parts, after, ran, draws, isSound⟩ := inner before
  refine ⟨.check (span.unary .not (parts.condition span)), after, ?_, draws, ?_⟩
  · rw [Pass.bind_ok ran]
    rfl
  intro reads machine target extended apart subjectReads admits holds
  have decides := isSound reads machine target extended apart subjectReads admits holds
  refine .check (fun start changes declared => ?_) fun bindings isMatch => isMatch.2
  obtain ⟨answer, last, evaluated, written, decided⟩ :=
    testCondition span decides changes (declared.mono Set.subset_union_left)
  refine ⟨!answer, last, .not evaluated, written, ?_⟩
  cases answer with
  | true =>
    obtain ⟨bound, isMatch⟩ := decided.1 rfl
    exact ⟨nofun, fun ⟨_, noMatch, _⟩ => absurd isMatch (noMatch bound)⟩
  | false =>
    refine ⟨fun _ => ⟨[], fun bound isMatch => ?_, rfl⟩, fun _ => rfl⟩
    cases decided.2 ⟨bound, isMatch⟩

theorem alternative {left right : Pass TestParts} (span : Span)
    (first : Contributes env point [] left
      (Sound program scope frame types heap given type subject [] matching))
    (second : Contributes env point [] right
      (Sound program scope frame types heap given type subject [] following)) :
    Contributes env point []
      (do let left := (← left).condition span
          let right := (← right).condition span
          return .check (span.binary .or left right))
      (Sound program scope frame types heap given type subject [] fun target bindings =>
        ((∃ inner, matching target inner) ∨ ∃ inner, following target inner) ∧ bindings = []) := by
  intro before
  obtain ⟨leftParts, middle, leftRan, leftDraws, leftSound⟩ := first before
  obtain ⟨rightParts, after, rightRan, rightDraws, rightSound⟩ := second middle
  refine ⟨.check (span.binary .or (leftParts.condition span) (rightParts.condition span)), after, ?_,
    leftDraws.trans rightDraws, ?_⟩
  · rw [Pass.bind_ok leftRan, Pass.bind_ok rightRan]
    rfl
  intro reads machine target extended apart subjectReads admits holds
  rw [← temporaries_union leftDraws.grows rightDraws.grows] at apart ⊢
  have leftApart : Disjoint reads (temporaries before.nextName middle.nextName ∪ nameSet []) :=
    apart.mono_right (Set.union_subset_union_left _ Set.subset_union_left)
  have rightApart : Disjoint reads (temporaries middle.nextName after.nextName ∪ nameSet []) :=
    apart.mono_right (Set.union_subset_union_left _ Set.subset_union_right)
  have leftDecides := leftSound reads machine target extended leftApart subjectReads admits holds
  have rightDecides := rightSound reads machine target extended rightApart subjectReads admits holds
  refine .check (fun start changes declared => ?_) fun bindings isMatch => isMatch.2
  have leftDeclared : Declared scope (temporaries before.nextName middle.nextName) start :=
    declared.mono (Set.subset_union_left.trans Set.subset_union_left)
  obtain ⟨leftAnswer, between, leftEval, leftWritten, leftDecided⟩ :=
    testCondition span leftDecides changes leftDeclared
  cases leftAnswer with
  | true =>
    have matched := leftDecided.1 rfl
    exact ⟨true, between, .or_true leftEval, leftWritten.mono Set.subset_union_left,
      fun _ => ⟨[], .inl matched, rfl⟩, fun _ => rfl⟩
  | false =>
    have outside : temporaries before.nextName middle.nextName ⊆ readsᶜ := fun name isTemp isRead =>
      Set.disjoint_left.1 leftApart isRead (.inl isTemp)
    have rightDeclared : Declared scope (temporaries middle.nextName after.nextName) between :=
      (declared.changes leftWritten).mono (Set.subset_union_right.trans Set.subset_union_left)
    obtain ⟨answer, last, rightEval, rightWritten, rightDecided⟩ :=
      testCondition span rightDecides (changes.trans (leftWritten.mono outside)) rightDeclared
    refine ⟨answer, last, .or_false leftEval rightEval, (leftWritten.mono Set.subset_union_left).trans
      (rightWritten.mono Set.subset_union_right), fun isTrue => ?_, ?_⟩
    · exact ⟨[], .inr (rightDecided.1 isTrue), rfl⟩
    · rintro ⟨_, leftMatch | rightMatch, _⟩
      · cases leftDecided.2 leftMatch
      · exact rightDecided.2 rightMatch

end Contributes

end Unsugar
