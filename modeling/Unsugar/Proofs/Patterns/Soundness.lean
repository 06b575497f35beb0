import Unsugar.Proofs.Patterns.Sequences

open List

namespace Unsugar

open Pass (TestParts Subject ListSubject)

/-! # Soundness of lowered patterns

Every pattern over plain types can be lowered, and contributes parts that decide
its own meaning.  The proof follows the pattern: each kind of pattern has one
lemma that is given what its subpatterns contribute.
-/

variable {before : PassState} {elements : List Ty} {sequence : Indexed} {rest : List Pattern}
  {designation : String}
  {program : Program} {scope : Nat} {frame : Frame} {heap : Machine} {env : PassEnv}
  {point : InstallPoint} {span : Span} {subject : Subject}

/-! ## Patterns that need no parts -/

mutual

theorem Pattern.isDiscard_matches (heap : Machine) : (node : Pattern) → node.isDiscard = true →
    node.designations = [] ∧ ∀ target bindings, node.Matches heap target bindings ↔ bindings = []
  | ⟨_, kind⟩, isDiscard => kind.isDiscard_matches heap isDiscard

theorem PatternKind.isDiscard_matches (heap : Machine) : (kind : PatternKind) → kind.isDiscard = true →
    kind.designations = [] ∧ ∀ target bindings, kind.Matches heap target bindings ↔ bindings = []
  | .discard, _ => ⟨rfl, fun _ _ => Iff.rfl⟩
  | .var name, isDiscard => by
    have undesignated : isDesignation name = false := by
      simpa [PatternKind.isDiscard] using isDiscard
    simp [PatternKind.designations, PatternKind.Matches, designatedName, designated, undesignated]
  | .paren inner, isDiscard => inner.isDiscard_matches heap isDiscard

end

/-! ## Checks -/

variable {type : Ty} {value : Expr} {matching : Matched → Bindings → Prop}
  {lower : Subject → Pass TestParts} {names : List String} {view : View} {index : Nat} (mark : Mark)

theorem View.HasLiteral.isNull_eq_false (known : view.HasLiteral value type)
    (simple : type.IsLiteral) : view.isNull value = false := by
  obtain ⟨literal, isLiteral, typed, _, notNull⟩ := known
  have different : literal ≠ .null := by
    rintro rfl
    rcases simple with rfl | rfl | rfl | rfl <;> cases typed
  unfold View.isNull
  split
  · rename_i isNullLiteral
    rw [isLiteral] at isNullLiteral
    cases isNullLiteral
    exact absurd rfl different
  · simpa using notNull

mutual

theorem Pattern.isNullConstant_matches (heap : Machine) {type : Ty} : (node : Pattern) →
    node.Fits env.view false type → node.isNullConstant env.view = true →
    ∀ target bindings, node.Matches heap target bindings ↔ target = .value .null ∧ bindings = []
  | ⟨_, kind⟩, fits, isNull => kind.isNullConstant_matches heap fits isNull

theorem PatternKind.isNullConstant_matches (heap : Machine) {type : Ty} : (kind : PatternKind) →
    kind.Fits env.view false type → kind.isNullConstant env.view = true →
    ∀ target bindings, kind.Matches heap target bindings ↔ target = .value .null ∧ bindings = []
  | .constant value, fits, isNull => by
    intro target bindings
    rcases fits with isLiteral | ⟨simple, known⟩
    · simp [PatternKind.Matches, isLiteral, Eval.literalValue]
    · have notNull : env.view.isNull value = true := isNull
      rw [known.isNull_eq_false simple] at notNull
      cases notNull
  | .paren inner, fits, isNull => inner.isNullConstant_matches heap fits isNull

end

theorem Contributes.ofCheck {types : Universe} {node : Expr} {action : Pass TestParts}
    {condition : Matched → Prop} (test : Expr)
    (ran : ∀ before, action env before = .ok (.check test, before))
    (tests : ∀ reads machine target, machine.Extends heap →
      Reads program scope frame reads machine node target → type.Admits types heap target →
      Tests program scope frame reads machine test (condition target)) :
    Contributes env point [] action
      (Sound program scope frame types heap (fun _ => True) type node []
        fun target bindings => condition target ∧ bindings = []) := by
  intro before
  refine ⟨.check test, before, ran before, .refl before, ?_⟩
  intro reads machine target extended _ subjectReads admits _
  exact (tests reads machine target extended subjectReads admits).decides

theorem comparesByValue_eq (simple : type.IsLiteral) (sameType : env.view.typeOf value = type) :
    Pass.comparesByValue type value env before = .ok (true, before) := by
  have compared : Pass.comparedByValue? type = some type := by
    rcases simple with rfl | rfl | rfl | rfl <;> rfl
  have known : (env.view.typeInfo value).type = type := sameType
  unfold Pass.comparesByValue
  rw [compared]
  change Except.ok ((env.view.typeInfo value).type == type || _ || _, before) = _
  simp [known]

theorem constantCheck_eq (notNull : env.view.isNull value = false)
    (compares : Pass.comparesByValue subject.type value env before = .ok (true, before)) :
    Pass.constantCheck span subject value env before =
      .ok (span.binary .eq subject.read value, before) := by
  unfold Pass.constantCheck
  rw [Pass.bind_ok (show Pass.view env before = .ok (env.view, before) from rfl), notNull]
  simp only [Bool.false_eq_true, if_false]
  rw [Pass.bind_ok compares]
  rfl

theorem relationalChecks_eq {op : BinaryOp} (sameType : env.view.typeOf value = subject.type) :
    Pass.relationalChecks span subject op value env before =
      .ok ([span.binary op subject.read value], before) := by
  have direct : Pass.comparesDirectly subject.type (env.view.typeOf value) = true := by
    simp [Pass.comparesDirectly, sameType]
  unfold Pass.relationalChecks
  rw [Pass.bind_ok (show Pass.typeOf value env before = .ok (env.view.typeOf value, before) from rfl),
    if_pos direct]
  rfl

theorem constant_sound (fits : (PatternKind.constant value).Fits env.view false subject.type) :
    Contributes env point [] (Pass.lowerPatternKind point span mark subject (.constant value))
      (Sound program scope frame env.view.types heap (fun _ => True) subject.type subject.read []
        ((PatternKind.constant value).Matches heap)) := by
  obtain ⟨valueMark, kind⟩ := value
  rcases fits with isNull | ⟨simple, known⟩
  · obtain rfl : kind = .literal .null := isNull
    have checks : Contributes env point []
        (Pass.lowerPatternKind point span mark subject (.constant ⟨valueMark, .literal .null⟩))
        (Sound program scope frame env.view.types heap (fun _ => True) subject.type subject.read []
          fun target bindings => target = .value .null ∧ bindings = []) :=
      .ofCheck _ (fun _ => rfl) fun _ _ _ _ subjectReads admits =>
        .isNull subjectReads admits.not_object
    refine checks.mono fun _ _ isSound => isSound.congr fun target _ _ bindings => ?_
    simp [PatternKind.Matches, Eval.literalValue]
  · have notNull := known.isNull_eq_false simple
    obtain ⟨literal, isLiteral, typed, sameType, _⟩ := known
    obtain rfl : kind = .literal literal := isLiteral
    have checks : Contributes env point []
        (Pass.lowerPatternKind point span mark subject (.constant ⟨valueMark, .literal literal⟩))
        (Sound program scope frame env.view.types heap (fun _ => True) subject.type subject.read []
          fun target bindings => target = .value (Eval.literalValue literal) ∧ bindings = []) := by
      refine .ofCheck (span.binary .eq subject.read ⟨valueMark, .literal literal⟩)
        (fun before => ?_) fun _ _ _ _ subjectReads admits => ?_
      · change (Pass.constantCheck span subject _ >>= fun test => pure (TestParts.check test)) env
          before = _
        rw [Pass.bind_ok (constantCheck_eq notNull (comparesByValue_eq simple sameType))]
        rfl
      · exact .equality subjectReads admits.not_object literal false
          (fun _ _ held => admits.builtinEq_literal simple typed held) valueMark
    refine checks.mono fun _ _ isSound => isSound.congr fun target _ _ bindings => ?_
    simp [PatternKind.Matches]

theorem relational_sound {op : Comparison}
    (fits : (PatternKind.relational op value).Fits env.view false subject.type) :
    Contributes env point [] (Pass.lowerPatternKind point span mark subject (.relational op value))
      (Sound program scope frame env.view.types heap (fun _ => True) subject.type subject.read []
        ((PatternKind.relational op value).Matches heap)) := by
  obtain ⟨valueMark, kind⟩ := value
  obtain ⟨simple, literal, isLiteral, typed, sameType, _⟩ := fits
  obtain rfl : kind = .literal literal := isLiteral
  have checks : Contributes env point []
      (Pass.lowerPatternKind point span mark subject (.relational op ⟨valueMark, .literal literal⟩))
      (Sound program scope frame env.view.types heap (fun _ => True) subject.type subject.read []
        fun target bindings => op.Relates target literal ∧ bindings = []) := by
    refine .ofCheck (span.binary op.toBinary subject.read ⟨valueMark, .literal literal⟩)
      (fun before => ?_) fun _ _ _ _ subjectReads admits =>
      .relation op subjectReads admits simple typed valueMark
    change (Pass.relationalChecks span subject op.toBinary _ >>= fun checks =>
      pure ({ checks } : TestParts)) env before = _
    rw [Pass.bind_ok (relationalChecks_eq sameType)]
    rfl
  refine checks.mono fun _ _ isSound => isSound.congr fun target _ _ bindings => ?_
  simp [PatternKind.Matches]

/-! ## Tuples -/

section Tuples

variable {types : Universe}

theorem admitsEach_length : (elements : List Ty) → (items : List Value) →
    admitsEach types heap elements items → elements.length = items.length
  | [], [], _ => rfl
  | _ :: elements, _ :: items, admits =>
    congrArg (· + 1) (admitsEach_length elements items admits.2)

theorem admitsEach_getElem? {type : Ty} : (elements : List Ty) → (items : List Value) →
    (index : Nat) → admitsEach types heap elements items → elements[index]? = some type →
    ∃ item, items[index]? = some item ∧ type.Admits types heap (.value item)
  | first :: _, item :: _, 0, admits, found => by
    obtain rfl : first = type := Option.some.inj found
    exact ⟨item, rfl, admits.1⟩
  | _ :: elements, _ :: items, index + 1, admits, found =>
    admitsEach_getElem? elements items index admits.2 found

end Tuples

theorem fitEach_length : (nodes : List Pattern) → (elements : List Ty) →
    fitEach view nodes elements → nodes.length = elements.length
  | [], [], _ => rfl
  | _ :: nodes, _ :: elements, fits =>
    congrArg (· + 1) (fitEach_length nodes elements fits.2)

def tupleMembers (number : Nat) (elements : List Ty) : List (String × Ty) :=
  (TypeData.tupleItems number elements).map fun component => (component.member, component.type)

theorem components_tuple {types : Universe} :
    types.components (.tuple elements) elements.length = tupleMembers 1 elements := by
  have sameLength : ∀ number, (TypeData.tupleItems number elements).length = elements.length := by
    intro number
    induction elements generalizing number with
    | nil => rfl
    | cons type rest ih => simp [TypeData.tupleItems, ih]
  unfold Universe.components
  exact if_pos (sameLength 1)

theorem positionalItem_sound (span : Span) (count : Nat)
    (isTuple : subject.type = .tuple elements) (found : elements[index]? = some type)
    (readable : subject.Readable) (distinct : Distinct names)
    (lowers : ∀ inner : Subject, inner.type = type → inner.Readable →
      Contributes env point names (lower inner)
        (Sound program scope frame env.view.types heap (fun _ => True) type inner.read names
          matching)) :
    Contributes env point names (Pass.stabilized point span count
        ⟨span.member subject.read ("Item" ++ toString (index + 1)), type, none⟩ lower)
      (Sound program scope frame env.view.types heap (fun _ => True) subject.type subject.read names
        fun target bindings => ∃ items item, target = .value (.tuple items) ∧
          items[index]? = some item ∧ matching (.value item) bindings) := by
  let item : Subject := ⟨span.member subject.read ("Item" ++ toString (index + 1)), type, none⟩
  have anonymous : item.expr.Anonymous := readable.anonymous.member _
  refine (Contributes.stabilized item count lowers (.ofAnonymous anonymous nofun)
    distinct).mono fun temps parts isSound => isSound.within ?_
  intro reads machine target _ subjectReads admits _
  rw [isTuple] at admits
  obtain ⟨bound, items, rfl, admitted⟩ := admits
  obtain ⟨value, present, valueAdmits⟩ := admitsEach_getElem? elements items index admitted found
  have inside : index < elements.length := (List.getElem?_eq_some_iff.1 found).1
  refine ⟨.value value, ?_, valueAdmits, fun bindings => ?_⟩
  · rw [Subject.read_eq anonymous]
    exact subjectReads.tupleItem present (by omega)
  · constructor
    · exact fun isMatch => ⟨items, value, rfl, present, isMatch⟩
    · rintro ⟨others, other, same, otherPresent, isMatch⟩
      cases same
      obtain rfl := Option.some.inj (present.symm.trans otherPresent)
      exact isMatch

/-! ## Lists -/

section Lists

variable {list : ListSubject} {item : Ty}

/-- A sequence that is long enough for the element patterns. -/
def Pass.ListSubject.Fits (list : ListSubject) (heap : Machine) (target : Matched) : Prop :=
  ∃ sequence, target.indexed? heap = some sequence ∧ list.Enough sequence.length

variable {node : Pattern}

theorem Pattern.Fits.outside {type : Ty} (fits : node.Fits view true type)
    (notSlice : node.isSlice = false) : node.Fits view false type := by
  obtain ⟨mark, kind⟩ := node
  cases kind with
  | slice inner => cases notSlice
  | _ => exact fits

theorem exists_indexed {target : Matched} {condition : Indexed → Prop}
    (isIndexed : target.indexed? heap = some sequence) :
    (∃ other, target.indexed? heap = some other ∧ condition other) ↔ condition sequence := by
  constructor
  · rintro ⟨other, otherIndexed, holds⟩
    obtain rfl := Option.some.inj (isIndexed.symm.trans otherIndexed)
    exact holds
  · exact fun holds => ⟨sequence, isIndexed, holds⟩

theorem listChecks_sound (describes : list.Describes env.view.types item) :
    Contributes env point [] (do return ({ checks := ← list.checks span } : TestParts))
      (Sound program scope frame env.view.types heap (fun _ => True) list.subject.type
        list.subject.read [] fun target bindings => list.Fits heap target ∧ bindings = []) := by
  intro before
  have reference := Ty.itemType?_reference describes.itemType
  obtain ⟨test, ran, tests⟩ : ∃ test, list.checks span env before =
      .ok ([Pass.nullCheck span list.subject .notEq, test], before) ∧
      ∀ reads machine (length : Nat),
        Reads program scope frame reads machine (list.readLength span) (.value (.int length)) →
        Tests program scope frame reads machine test (list.Enough length) := by
    unfold ListSubject.checks ListSubject.Enough
    rw [Pass.bind_ok (show Pass.types env before = .ok (env.view.types, before) from rfl), reference]
    cases list.sliceAt with
    | some position => exact ⟨_, rfl, fun _ _ _ measured => .lengthAtLeast measured⟩
    | none => exact ⟨_, rfl, fun _ _ _ measured => .lengthIs measured⟩
  refine ⟨_, before, by rw [Pass.bind_ok ran]; rfl, .refl before, ?_⟩
  intro reads machine target extended apart subjectReads admits _
  have enough : target ≠ .value .null →
      Tests program scope frame reads machine test (list.Fits heap target) := by
    intro notNull
    obtain ⟨sequence, isIndexed⟩ := (admits.indexed?_iff describes.itemType).1 notNull
    intro later changes
    obtain ⟨answer, after, evaluated, unchanged, decided⟩ := tests reads machine sequence.length
      (describes.reads_length extended subjectReads admits isIndexed span) later changes
    refine ⟨answer, after, evaluated, unchanged, decided.trans ?_⟩
    unfold ListSubject.Fits
    rw [exists_indexed isIndexed]
  refine (Tests.decides_pair (.notNull subjectReads admits.not_object) enough apart).congr
    fun bindings => ?_
  refine and_congr_left fun _ => ⟨And.right, fun fits => ⟨?_, fits⟩⟩
  obtain ⟨sequence, isIndexed, _⟩ := fits
  exact (admits.indexed?_iff describes.itemType).2 ⟨sequence, isIndexed⟩

theorem element_sound {span : Span} {count : Nat}
    (describes : list.Describes env.view.types item) (aligned : list.Aligned index (node :: rest))
    (elsewhere : list.sliceAt ≠ some index) (distinct : Distinct names)
    (lowers : ∀ inner : Subject, inner.type = item → inner.Readable →
      Contributes env point names (lower inner)
        (Sound program scope frame env.view.types heap (fun _ => True) item inner.read names
          matching)) :
    Contributes env point names (Pass.stabilized point span count (list.elementAt span index) lower)
      (Sound program scope frame env.view.types heap (list.Fits heap) list.subject.type
        list.subject.read names
        fun target bindings => ∃ sequence, target.indexed? heap = some sequence ∧
          matching (sequence.item (list.start index sequence.length)) bindings) := by
  have readable : (list.elementAt span index).Readable :=
    .ofAnonymous describes.elementAt_anonymous nofun
  have typed : (list.elementAt span index).type = item := describes.element
  refine (Contributes.stabilized (list.elementAt span index) count (typed.symm ▸ lowers) readable
    distinct).mono fun temps parts isSound => isSound.within ?_
  rintro reads machine target extended subjectReads admits ⟨sequence, isIndexed, enough⟩
  obtain ⟨inside, _, counted⟩ := aligned.start_offSlice elsewhere enough
  obtain ⟨_, itemAdmits, _⟩ := admits.indexed describes.itemType isIndexed
  refine ⟨_, describes.reads_elementAt extended subjectReads admits isIndexed inside counted,
    typed.symm ▸ itemAdmits _ inside, fun bindings => by rw [exists_indexed isIndexed]⟩

theorem slice_sound (span : Span) (count : Nat)
    (describes : list.Describes env.view.types item) (aligned : list.Aligned index (node :: rest))
    (here : list.sliceAt = some index) (distinct : Distinct names)
    (lowers : ∀ inner : Subject, inner.type = list.subject.type → inner.Readable →
      Contributes env point names (lower inner)
        (Sound program scope frame env.view.types heap (fun _ => True) list.subject.type inner.read
          names matching)) :
    Contributes env point names (Pass.stabilized point span count (list.slice span index) lower)
      (Sound program scope frame env.view.types heap (list.Fits heap) list.subject.type
        list.subject.read names
        fun target bindings => ∃ sequence, target.indexed? heap = some sequence ∧
          matching (sequence.part index (sequence.length - rest.length)) bindings) := by
  have readable : (list.slice span index).Readable := by
    refine .ofAnonymous describes.slice_anonymous ?_
    unfold ListSubject.slice
    dsimp only
    split <;> nofun
  refine (Contributes.stabilized (list.slice span index) count lowers readable
    distinct).mono fun temps parts isSound => isSound.within ?_
  rintro reads machine target extended subjectReads admits ⟨sequence, isIndexed, enough⟩
  obtain ⟨_, _, room⟩ := aligned.start_atSlice here enough
  have counted : list.count - index - 1 = rest.length := by
    have := aligned.count
    simp only [length_cons] at this
    omega
  obtain ⟨_, _, partAdmits⟩ := admits.indexed describes.itemType isIndexed
  refine ⟨_, describes.reads_slice extended subjectReads admits isIndexed counted room,
    partAdmits _ _, fun bindings => by rw [exists_indexed isIndexed]⟩

end Lists

/-! ## Patterns -/

theorem Contributes.of_eq {action other : Pass TestParts} {sound : Set String → TestParts → Prop}
    (contributes : Contributes env point names action sound)
    (same : ∀ before, other env before = action env before) :
    Contributes env point names other sound := by
  intro before
  rw [same before]
  exact contributes before

/-- At the end of the element patterns nothing of the sequence is left. -/
theorem Pass.ListSubject.Aligned.start_nil {list : ListSubject} {index length : Nat}
    (aligned : list.Aligned index []) (enough : list.Enough length) :
    list.start index length = length := by
  have count : list.count = index := aligned.count
  cases isPast : list.isPast index with
  | true => simp [start, isPast, count]
  | false =>
    have noSlice : list.sliceAt = none := (aligned.before isPast).1
    simp only [Enough, noSlice] at enough
    simp [start, isPast, enough, count]

theorem negation_sound {inner : Pattern} (fits : inner.Fits env.view false subject.type)
    (innerSound : Contributes env point [] (Pass.lowerPattern point span subject inner)
      (Sound program scope frame env.view.types heap (fun _ => True) subject.type subject.read []
        (inner.Matches heap))) :
    Contributes env point [] (Pass.lowerPatternKind point span mark subject (.not inner))
      (Sound program scope frame env.view.types heap (fun _ => True) subject.type subject.read []
        ((PatternKind.not inner).Matches heap)) := by
  have viewed : ∀ before, Pass.view env before = .ok (env.view, before) := fun _ => rfl
  cases isNull : inner.isNullConstant env.view with
  | true =>
    have checks : Contributes env point []
        (Pass.lowerPatternKind point span mark subject (.not inner))
        (Sound program scope frame env.view.types heap (fun _ => True) subject.type subject.read []
          fun target bindings => target ≠ .value .null ∧ bindings = []) := by
      refine .ofCheck (Pass.nullCheck span subject .notEq) (fun before => ?_)
        fun _ _ _ _ subjectReads admits => .notNull subjectReads admits.not_object
      rw [Pass.lowerPatternKind, Pass.bind_ok (viewed before), isNull]
      rfl
    refine checks.mono fun _ _ isSound => isSound.congr fun target _ _ bindings => ?_
    have nullOnly := inner.isNullConstant_matches heap fits isNull target
    refine and_congr_left fun _ => ⟨fun notNull bound isMatch => ?_, fun noMatch isNull => ?_⟩
    · exact notNull ((nullOnly bound).1 isMatch).1
    · exact noMatch [] ((nullOnly []).2 ⟨isNull, rfl⟩)
  | false =>
    refine (Contributes.negation span innerSound).of_eq fun before => ?_
    rw [Pass.lowerPatternKind, Pass.bind_ok (viewed before), isNull]
    rfl

theorem recursive_sound {positional : List Pattern}
    (isTuple : subject.type = .tuple elements) (fits : fitEach env.view positional elements)
    (distinct : Distinct (designationsOf positional ++ designatedName designation))
    (items : Contributes env point (designationsOf positional)
      (Pass.lowerPositional point span subject (tupleMembers 1 elements) positional)
      (Sound program scope frame env.view.types heap (fun _ => True) subject.type subject.read
        (designationsOf positional)
        fun target bindings => ∃ items, target = .value (.tuple items) ∧
          matchEach heap positional (items.drop 0) bindings)) :
    Contributes env point (designationsOf positional ++ designatedName designation)
      (Pass.lowerPatternKind point span mark subject (.recursive .absent positional [] designation))
      (Sound program scope frame env.view.types heap (fun _ => True) subject.type subject.read
        (designationsOf positional ++ designatedName designation)
        ((PatternKind.recursive .absent positional [] designation).Matches heap)) := by
  have bound : Contributes env point (designatedName designation)
      (Pass.designate point span mark designation .absent subject.type subject.read)
      (Sound program scope frame env.view.types heap
        (fun target => True ∧ ∃ bindings, ∃ items, target = .value (.tuple items) ∧
          matchEach heap positional (items.drop 0) bindings) subject.type subject.read
        (designatedName designation) fun target bindings => bindings = designated designation target) :=
    .designate mark designation subject.type
  refine ((items.append bound distinct).mono fun _ _ isSound =>
    isSound.congr fun target _ _ bindings => ?_).of_eq fun before => ?_
  · constructor
    · rintro ⟨inner, _, ⟨values, rfl, isMatch⟩, rfl, rfl⟩
      exact ⟨⟨rfl, rfl⟩, values, inner, rfl, isMatch, rfl⟩
    · rintro ⟨_, values, inner, rfl, isMatch, rfl⟩
      exact ⟨inner, _, ⟨values, rfl, isMatch⟩, rfl, rfl⟩
  · have members : env.view.types.components subject.type positional.length =
        tupleMembers 1 elements := by
      rw [isTuple, fitEach_length positional elements fits]
      exact components_tuple
    have isValue : env.view.types.isValueType subject.type = true := by
      rw [isTuple]
      rfl
    have typed : Pass.types env before = .ok (env.view.types, before) := rfl
    obtain ⟨itemParts, middle, itemsRan, _⟩ := items before
    obtain ⟨boundParts, after, boundRan, _⟩ := bound middle
    rw [Pass.lowerPatternKind, Pass.bind_ok typed, Pass.bind_ok itemsRan, Pass.bind_ok boundRan]
    dsimp only
    rw [isValue, pure_bind, Pass.bind_ok typed]
    dsimp only
    rw [members, Pass.bind_ok itemsRan, Pass.lowerProperties, pure_bind, Pass.bind_ok boundRan]
    simp only [TestParts.append, nil_append, append_nil]
    rfl

theorem enough_of_matchElements {list : ListSubject} {elements : List Pattern}
    {bindings : Bindings} (counted : list.count = elements.length)
    (placed : list.sliceAt = elements.findIdx? Pattern.isSlice)
    (single : elements.countP Pattern.isSlice ≤ 1)
    (isMatch : matchElements heap elements sequence 0 bindings) : list.Enough sequence.length := by
  obtain ⟨bound, exact⟩ := matchElements_length isMatch
  unfold ListSubject.Enough
  rw [placed]
  cases found : elements.findIdx? Pattern.isSlice with
  | some position =>
    simp only
    omega
  | none =>
    have noSlice : elements.countP Pattern.isSlice = 0 := by
      rw [countP_eq_zero]
      simpa using found
    simp only
    have := exact noSlice
    omega

theorem list_sound {elements : List Pattern} {item : Ty}
    (itemType : subject.type.itemType? env.view.types = some item)
    (single : elements.countP Pattern.isSlice ≤ 1) (readable : subject.Readable)
    (distinct : Distinct (designationsOf elements ++ designatedName designation))
    (parts : ∀ list : ListSubject, list.Describes env.view.types item → list.Aligned 0 elements →
      list.subject = subject →
      Contributes env point (designationsOf elements) (Pass.lowerElements point span list 0 elements)
        (Sound program scope frame env.view.types heap (list.Fits heap) list.subject.type
          list.subject.read (designationsOf elements)
          fun target bindings => ∃ sequence, target.indexed? heap = some sequence ∧
            matchElements heap elements sequence (list.start 0 sequence.length) bindings)) :
    Contributes env point (designationsOf elements ++ designatedName designation)
      (Pass.lowerPatternKind point span mark subject (.list elements designation))
      (Sound program scope frame env.view.types heap (fun _ => True) subject.type subject.read
        (designationsOf elements ++ designatedName designation)
        ((PatternKind.list elements designation).Matches heap)) := by
  let list : ListSubject :=
    { subject
      length := env.view.types.lengthMember subject.type
      element := if subject.type = .string then .char
        else (env.view.types.data subject.type).element.getD .unknown
      count := elements.length
      sliceAt := elements.findIdx? Pattern.isSlice }
  have describes : list.Describes env.view.types item :=
    ⟨readable, itemType, rfl, Ty.itemType?_element itemType⟩
  have notPast : list.isPast 0 = false := by
    unfold ListSubject.isPast
    split <;> simp
  have aligned : list.Aligned 0 elements :=
    ⟨by simp [list], fun _ => ⟨by simp [list], single⟩, fun past => by simp [notPast] at past⟩
  have checked : Contributes env point [] (do return ({ checks := ← list.checks span } : TestParts))
      (Sound program scope frame env.view.types heap (fun _ => True) subject.type subject.read []
        fun target bindings => list.Fits heap target ∧ bindings = []) := listChecks_sound describes
  have afterChecks : Contributes env point (designationsOf elements)
      (Pass.lowerElements point span list 0 elements)
      (Sound program scope frame env.view.types heap
        (fun target => True ∧ ∃ bindings : Bindings, list.Fits heap target ∧ bindings = [])
        subject.type subject.read (designationsOf elements)
        fun target bindings => ∃ sequence, target.indexed? heap = some sequence ∧
          matchElements heap elements sequence (list.start 0 sequence.length) bindings) :=
    (parts list describes aligned rfl).mono fun _ _ isSound =>
      isSound.weaken fun _ ⟨_, _, fits, _⟩ => fits
  have bound : Contributes env point (designatedName designation)
      (Pass.designate point span mark designation .absent subject.type subject.read)
      (Sound program scope frame env.view.types heap
        (fun target => True ∧ ∃ bindings first second : Bindings,
          (list.Fits heap target ∧ first = []) ∧
          (∃ sequence, target.indexed? heap = some sequence ∧
            matchElements heap elements sequence (list.start 0 sequence.length) second) ∧
          bindings = first ++ second) subject.type subject.read
        (designatedName designation) fun target bindings => bindings = designated designation target) :=
    .designate mark designation subject.type
  have matched := (checked.append afterChecks distinct.left).append bound distinct
  refine (matched.mono fun _ _ isSound => isSound.congr fun target _ _ bindings => ?_).of_eq
    fun before => ?_
  · have start : ∀ length, list.start 0 length = 0 := fun length => by
      simp [ListSubject.start, notPast]
    constructor
    · rintro ⟨_, _, ⟨_, inner, ⟨_, rfl⟩, ⟨sequence, isIndexed, isMatch⟩, same⟩, rfl, rfl⟩
      rw [start] at isMatch
      exact ⟨sequence, inner, isIndexed, isMatch, by rw [same, nil_append]⟩
    · rintro ⟨sequence, inner, isIndexed, isMatch, rfl⟩
      refine ⟨inner, _, ⟨[], inner, ⟨⟨sequence, isIndexed, ?_⟩, rfl⟩,
        ⟨sequence, isIndexed, by rw [start]; exact isMatch⟩, rfl⟩, rfl, rfl⟩
      exact enough_of_matchElements rfl rfl single isMatch
  · have listed : Pass.listSubject subject elements env before = .ok (list, before) := rfl
    rw [Pass.lowerPatternKind, Pass.bind_ok listed]
    simp only [bind_assoc, pure_bind]

mutual

theorem lowerPattern_sound : (node : Pattern) → (subject : Subject) →
    node.Fits env.view false subject.type → subject.Readable → Distinct node.designations →
    Contributes env point node.designations (Pass.lowerPattern point span subject node)
      (Sound program scope frame env.view.types heap (fun _ => True) subject.type subject.read
        node.designations (node.Matches heap))
  | ⟨mark, kind⟩, subject, fits, readable, distinct => by
    intro before
    obtain ⟨parts, after, ran, draws, isSound⟩ :=
      lowerPatternKind_sound kind mark subject fits readable distinct before
    exact ⟨parts, after, Pass.inPattern_ok ran, draws, isSound⟩

theorem lowerPatternKind_sound : (kind : PatternKind) → (mark : Mark) → (subject : Subject) →
    kind.Fits env.view false subject.type → subject.Readable → Distinct kind.designations →
    Contributes env point kind.designations (Pass.lowerPatternKind point span mark subject kind)
      (Sound program scope frame env.view.types heap (fun _ => True) subject.type subject.read
        kind.designations (kind.Matches heap))
  | .discard, _, _, _, _, _ => .pure fun _ => .nothing fun _ _ _ => rfl
  | .paren inner, _, subject, fits, readable, distinct =>
    lowerPattern_sound inner subject fits readable distinct
  | .constant _, mark, _, fits, _, _ => constant_sound mark fits
  | .relational _ _, mark, _, fits, _, _ => relational_sound mark fits
  | .var name, mark, subject, _, _, _ => .designate mark name subject.type
  | .and left right, mark, subject, fits, readable, distinct =>
    .append (lowerPattern_sound left subject fits.1 readable distinct.left)
      ((lowerPattern_sound right subject fits.2 readable distinct.right).mono
        fun _ _ isSound => isSound.weaken fun _ _ => trivial) distinct
  | .or left right, mark, subject, fits, readable, distinct => by
    obtain ⟨⟨leftFits, rightFits⟩, leftNone, rightNone⟩ := fits
    have leftSound := lowerPattern_sound left subject leftFits readable distinct.left
    have rightSound := lowerPattern_sound right subject rightFits readable distinct.right
    rw [leftNone] at leftSound
    rw [rightNone] at rightSound
    have none : (PatternKind.or left right).designations = [] := by
      simp [PatternKind.designations, leftNone, rightNone]
    rw [none]
    exact .alternative span leftSound rightSound
  | .not inner, mark, subject, fits, readable, distinct => by
    obtain ⟨innerFits, noNames⟩ := fits
    have innerSound := lowerPattern_sound inner subject innerFits readable distinct
    rw [noNames] at innerSound
    have none : (PatternKind.not inner).designations = [] := noNames
    rw [none]
    exact negation_sound mark innerFits innerSound
  | .recursive _ positional _ designation, mark, subject, fits, readable, distinct => by
    obtain ⟨⟨rfl, rfl⟩, elements, isTuple, each⟩ := fits
    exact recursive_sound mark isTuple each distinct
      (lowerPositional_sound positional subject elements elements 0 isTuple rfl each readable
        distinct.left)
  | .list elements designation, mark, subject, fits, readable, distinct => by
    obtain ⟨single, item, itemType, each⟩ := fits
    exact list_sound mark itemType single readable distinct fun list describes aligned sameSubject =>
      lowerElements_sound elements list item 0 describes aligned (sameSubject ▸ each) distinct.left
  | .slice (some _), _, _, fits, _, _ => by
    cases fits.1

theorem lowerPositional_sound : (rest : List Pattern) → (subject : Subject) →
    (elements suffix : List Ty) → (index : Nat) → subject.type = .tuple elements →
    elements.drop index = suffix → fitEach env.view rest suffix → subject.Readable →
    Distinct (designationsOf rest) →
    Contributes env point (designationsOf rest)
      (Pass.lowerPositional point span subject (tupleMembers (index + 1) suffix) rest)
      (Sound program scope frame env.view.types heap (fun _ => True) subject.type subject.read
        (designationsOf rest)
        fun target bindings => ∃ items, target = .value (.tuple items) ∧
          matchEach heap rest (items.drop index) bindings)
  | [], subject, elements, [], index, isTuple, dropped, _, _, _ => by
    refine .pure fun _ => .nothing fun target admits _ => ?_
    rw [isTuple] at admits
    obtain ⟨_, items, rfl, each⟩ := admits
    have past : items.drop index = [] := by
      rw [drop_eq_nil_iff, ← admitsEach_length elements items each]
      exact drop_eq_nil_iff.1 dropped
    exact ⟨items, rfl, by rw [past]; rfl⟩
  | node :: rest, subject, elements, type :: suffix, index, isTuple, dropped, fits, readable,
      distinct => by
      have found : elements[index]? = some type := by
        rw [← head?_drop, dropped]
        rfl
      have droppedNext : elements.drop (index + 1) = suffix := by
        rw [← tail_drop, dropped]
        rfl
      have lowers : ∀ inner : Subject, inner.type = type → inner.Readable →
          Contributes env point node.designations (Pass.lowerPattern point span inner node)
            (Sound program scope frame env.view.types heap (fun _ => True) type inner.read
              node.designations (node.Matches heap)) := by
        rintro inner rfl innerReadable
        exact lowerPattern_sound node inner fits.1 innerReadable distinct.left
      have first := positionalItem_sound span (node.reads env.view type) isTuple found
        readable distinct.left lowers
      have others := lowerPositional_sound rest subject elements suffix (index + 1) isTuple
        droppedNext fits.2 readable distinct.right
      refine ((first.append (others.mono fun _ _ isSound => isSound.weaken fun _ _ => trivial)
        distinct).mono fun _ _ isSound => isSound.congr fun target admits _ bindings => ?_).of_eq
        fun before => ?_
      · rw [isTuple] at admits
        obtain ⟨_, items, rfl, each⟩ := admits
        obtain ⟨value, present, _⟩ := admitsEach_getElem? elements items index each found
        obtain ⟨inside, rfl⟩ := List.getElem?_eq_some_iff.1 present
        constructor
        · rintro ⟨one, two, ⟨_, other, same, otherPresent, oneMatch⟩, ⟨_, again, twoMatch⟩, rfl⟩
          cases same
          cases again
          obtain rfl := Option.some.inj (present.symm.trans otherPresent)
          refine ⟨items, rfl, ?_⟩
          rw [drop_eq_getElem_cons inside]
          exact ⟨one, two, oneMatch, twoMatch, rfl⟩
        · rintro ⟨_, same, isMatch⟩
          cases same
          rw [drop_eq_getElem_cons inside] at isMatch
          obtain ⟨one, two, oneMatch, twoMatch, rfl⟩ := isMatch
          exact ⟨one, two, ⟨items, _, rfl, present, oneMatch⟩, ⟨items, rfl, twoMatch⟩, rfl⟩
      · rfl

theorem lowerElements_sound : (rest : List Pattern) → (list : ListSubject) → (item : Ty) →
    (index : Nat) → list.Describes env.view.types item → list.Aligned index rest →
    fitElements env.view rest list.subject.type item → Distinct (designationsOf rest) →
    Contributes env point (designationsOf rest) (Pass.lowerElements point span list index rest)
      (Sound program scope frame env.view.types heap (list.Fits heap) list.subject.type
        list.subject.read (designationsOf rest)
        fun target bindings => ∃ sequence, target.indexed? heap = some sequence ∧
          matchElements heap rest sequence (list.start index sequence.length) bindings)
  | [], list, item, index, _, aligned, _, _ => by
    refine .pure fun _ => .nothing ?_
    rintro target _ ⟨sequence, isIndexed, enough⟩
    exact ⟨sequence, isIndexed, aligned.start_nil enough, rfl⟩
  | node :: rest, list, item, index, describes, aligned, fits, distinct => by
    have others next :=
      lowerElements_sound rest list item (index + 1) describes next fits.2 distinct.right
    by_cases here : list.sliceAt = some index
    · obtain ⟨isSlice, _, past, next⟩ := aligned.atSlice here
      have first := lowerSlice_sound node rest list item index describes aligned here isSlice
        (by simpa [isSlice] using fits.1) distinct.left
      refine ((first.append ((others next).mono fun _ _ isSound => isSound.weaken
        fun _ fits => fits.1) distinct).mono fun _ _ isSound => isSound.congr ?_).of_eq fun before => ?_
      · rintro target _ ⟨sequence, isIndexed, enough⟩ bindings
        obtain ⟨start, startNext, room⟩ := aligned.start_atSlice here enough
        simp only [exists_indexed isIndexed, start, startNext]
        exact (matchElements_slice isSlice (next.past past) room).symm
      · rw [Pass.lowerElements, if_pos here]
    · obtain ⟨notSlice, _, next⟩ := aligned.offSlice here
      have first : Contributes env point node.designations
          (if node.isDiscard then pure {}
            else Pass.stabilized point span (node.reads env.view list.element)
              (list.elementAt span index) fun item => Pass.lowerPattern point span item node)
          (Sound program scope frame env.view.types heap (list.Fits heap) list.subject.type
            list.subject.read node.designations
            fun target bindings => ∃ sequence, target.indexed? heap = some sequence ∧
              node.Matches heap (sequence.item (list.start index sequence.length)) bindings) := by
        cases isDiscard : node.isDiscard with
        | true =>
          obtain ⟨noNames, always⟩ := node.isDiscard_matches heap isDiscard
          rw [noNames]
          refine .pure fun _ => .nothing ?_
          rintro target _ ⟨sequence, isIndexed, _⟩
          exact ⟨sequence, isIndexed, (always _ _).2 rfl⟩
        | false =>
          rw [if_neg Bool.false_ne_true]
          refine element_sound describes aligned here distinct.left ?_
          rintro inner rfl innerReadable
          have nodeFits : node.Fits env.view true inner.type := by
            simpa [notSlice] using fits.1
          exact lowerPattern_sound node inner (nodeFits.outside notSlice) innerReadable
            distinct.left
      refine ((first.append ((others next).mono fun _ _ isSound => isSound.weaken
        fun _ fits => fits.1) distinct).mono fun _ _ isSound => isSound.congr ?_).of_eq fun before => ?_
      · rintro target _ ⟨sequence, isIndexed, enough⟩ bindings
        obtain ⟨inside, startNext, _⟩ := aligned.start_offSlice here enough
        simp only [exists_indexed isIndexed, startNext]
        exact (matchElements_item notSlice inside).symm
      · rw [Pass.lowerElements, if_neg here]
        cases node.isDiscard <;> rfl

theorem lowerSlice_sound : (node : Pattern) → (rest : List Pattern) → (list : ListSubject) →
    (item : Ty) → (index : Nat) → list.Describes env.view.types item →
    list.Aligned index (node :: rest) → list.sliceAt = some index → node.isSlice = true →
    node.Fits env.view true list.subject.type → Distinct node.designations →
    Contributes env point node.designations (Pass.lowerSlice point span list index node)
      (Sound program scope frame env.view.types heap (list.Fits heap) list.subject.type
        list.subject.read node.designations
        fun target bindings => ∃ sequence, target.indexed? heap = some sequence ∧
          node.Matches heap (sequence.part index (sequence.length - rest.length)) bindings)
  | ⟨_, .slice none⟩, _, _, _, _, _, _, _, _, _, _ => by
    refine .pure fun _ => .nothing ?_
    rintro target _ ⟨sequence, isIndexed, _⟩
    exact ⟨sequence, isIndexed, rfl⟩
  | ⟨mark, .slice (some inner)⟩, rest, list, item, index, describes, aligned, here, _, fits,
      distinct => by
      have lowers : ∀ part : Subject, part.type = list.subject.type → part.Readable →
          Contributes env point inner.designations (Pass.lowerPattern point span part inner)
            (Sound program scope frame env.view.types heap (fun _ => True) list.subject.type part.read
              inner.designations (inner.Matches heap)) := by
        intro part sameType partReadable
        rw [← sameType]
        exact lowerPattern_sound inner part (sameType ▸ fits.2) partReadable distinct
      cases isDiscard : inner.isDiscard with
      | true =>
        obtain ⟨noNames, always⟩ := inner.isDiscard_matches heap isDiscard
        have none : (Pattern.mk mark (.slice (some inner))).designations = [] := noNames
        rw [none, Pass.lowerSlice, if_pos isDiscard]
        refine .pure fun _ => .nothing ?_
        rintro target _ ⟨sequence, isIndexed, _⟩
        exact ⟨sequence, isIndexed, (always _ _).2 rfl⟩
      | false =>
        refine (slice_sound span (inner.reads env.view list.subject.type) describes aligned here
          distinct lowers).of_eq fun before => ?_
        rw [Pass.lowerSlice, isDiscard]
        rfl

end

end Unsugar
