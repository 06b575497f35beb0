import Unsugar.Proofs.Patterns.Soundness

open List

namespace Unsugar

open Pass (Subject)

/-! # Conditions of pattern tests

A test against a pattern over plain types becomes a condition that never throws,
is true exactly when the pattern matches, and then has set every designated
variable.  This holds as long as no variable of the test has the name of a
temporary: such names are reserved, and the last statement shows that they have
to be.
-/

variable {heap : Machine} {view : View}

/-! ## Designated variables -/

theorem designated_names {name : String} {target : Matched} :
    (designated name target).map Prod.fst = designatedName name := by
  unfold designated designatedName
  split <;> rfl

mutual

theorem Pattern.matches_names : (node : Pattern) → (inList : Bool) → (type : Ty) →
    (target : Matched) → (bindings : Bindings) → node.Fits view inList type →
    node.Matches heap target bindings → bindings.map Prod.fst = node.designations
  | ⟨_, kind⟩, inList, type, target, bindings, fits, isMatch =>
    kind.matches_names inList type target bindings fits isMatch

theorem PatternKind.matches_names : (kind : PatternKind) → (inList : Bool) →
    (type : Ty) → (target : Matched) → (bindings : Bindings) → kind.Fits view inList type →
    kind.Matches heap target bindings → bindings.map Prod.fst = kind.designations
  | .discard, _, _, _, _, _, isMatch => congrArg _ isMatch
  | .paren inner, _, type, target, bindings, fits, isMatch =>
    inner.matches_names false type target bindings fits isMatch
  | .constant _, _, _, _, _, _, isMatch => congrArg _ isMatch.2
  | .relational _ _, _, _, _, _, _, isMatch => congrArg _ isMatch.2
  | .var name, _, _, target, _, _, isMatch =>
    (congrArg _ isMatch).trans designated_names
  | .and left right, _, type, target, _, fits, isMatch => by
    obtain ⟨first, second, leftMatch, rightMatch, rfl⟩ := isMatch
    rw [map_append, left.matches_names false type target first fits.1 leftMatch,
      right.matches_names false type target second fits.2 rightMatch]
    rfl
  | .or left right, _, _, _, _, fits, isMatch => by
    obtain ⟨_, leftNone, rightNone⟩ := fits
    simp [PatternKind.designations, isMatch.2, leftNone, rightNone]
  | .not inner, _, _, _, _, fits, isMatch => by
    simp [PatternKind.designations, isMatch.2, fits.2]
  | .recursive _ positional _ designation, _, type, target, _, fits, isMatch => by
    obtain ⟨_, elements, _, each⟩ := fits
    obtain ⟨_, items, inner, _, itemsMatch, rfl⟩ := isMatch
    rw [map_append, matchEach_names positional elements items inner each itemsMatch,
      designated_names]
    rfl
  | .list elements designation, _, type, target, _, fits, isMatch => by
    obtain ⟨_, item, _, each⟩ := fits
    obtain ⟨sequence, inner, _, elementsMatch, rfl⟩ := isMatch
    rw [map_append, matchElements_names elements type item sequence 0 inner each elementsMatch,
      designated_names]
    rfl
  | .slice none, _, _, _, _, _, isMatch => congrArg _ isMatch
  | .slice (some inner), _, type, target, bindings, fits, isMatch =>
    inner.matches_names false type target bindings fits.2 isMatch

theorem matchEach_names : (nodes : List Pattern) → (elements : List Ty) →
    (items : List Value) → (bindings : Bindings) → fitEach view nodes elements →
    matchEach heap nodes items bindings → bindings.map Prod.fst = designationsOf nodes
  | [], _, [], _, _, isMatch => congrArg _ isMatch
  | node :: rest, type :: elements, item :: items, _, fits, isMatch => by
    obtain ⟨first, others, nodeMatch, restMatch, rfl⟩ := isMatch
    rw [map_append, node.matches_names false type _ first fits.1 nodeMatch,
      matchEach_names rest elements items others fits.2 restMatch]
    rfl

theorem matchElements_names : (nodes : List Pattern) → (whole item : Ty) →
    (sequence : Indexed) → (start : Nat) → (bindings : Bindings) → fitElements view nodes whole item →
    matchElements heap nodes sequence start bindings →
    bindings.map Prod.fst = designationsOf nodes
  | [], _, _, _, _, _, _, isMatch => congrArg _ isMatch.2
  | node :: rest, whole, item, sequence, start, _, fits, isMatch => by
    obtain ⟨stop, target, first, others, _, nodeMatch, restMatch, rfl⟩ := isMatch
    rw [map_append, node.matches_names true _ target first fits.1 nodeMatch,
      matchElements_names rest whole item sequence stop others fits.2 restMatch]
    rfl

end

/-! ## The condition -/

variable {name : String}

theorem Pass.Subject.Readable.ofVariable {subject : Subject} {mark : Mark}
    (isVariable : subject.expr = ⟨mark, .ident name⟩) :
    subject.read = mark.span.ident name ∧ subject.Readable := by
  have read : subject.read = mark.span.ident name := by
    unfold Pass.Subject.read
    rw [isVariable]
    rfl
  refine ⟨read, ⟨?_, ?_⟩⟩
  · rw [read]
    exact fun _ => rfl
  · rw [read]
    nofun

theorem patternCondition_variable {env : PassEnv} {before after : PassState} {point : InstallPoint}
    {span : Span} {subject : Subject} {mark : Mark} {node : Pattern} {parts : Pass.TestParts}
    (isVariable : subject.expr = ⟨mark, .ident name⟩)
    (ran : Pass.lowerPattern point span subject node env before = .ok (parts, after)) :
    Pass.patternCondition point span subject node env before =
      .ok (parts.condition span, after) := by
  have simple : subject.expr.isSimple = true := by
    rw [isVariable]
    rfl
  have viewed : Pass.view env before = .ok (env.view, before) := rfl
  unfold Pass.patternCondition
  rw [Pass.bind_ok viewed, simple, Bool.or_true, if_pos rfl, Pass.bind_ok ran]
  rfl

/-- Testing a variable of a plain type against a pattern.  The test can be
    lowered; where its declarations have been made, its condition evaluates
    without an exception, is true exactly when the pattern matches, and then
    every designated variable holds what it is bound to.  Otherwise nothing but
    temporaries has changed. -/
theorem patternCondition_true_iff_matches (env : PassEnv) (before : PassState) (point : InstallPoint)
    (span : Span) (subject : Subject) (mark : Mark) (name : String) (node : Pattern)
    (isVariable : subject.expr = ⟨mark, .ident name⟩)
    (fits : node.Fits env.view false subject.type) (distinct : (name :: node.designations).Nodup)
    (unreserved : ∀ other ∈ name :: node.designations, ¬ IsTemporary other) :
    ∃ condition after,
      Pass.patternCondition point span subject node env before = .ok (condition, after) ∧
      ∀ (program : Program) (scope : Nat) (frame : Frame) (start : Machine) (value : Value),
        start.valueOf? scope name = some value →
        subject.type.Admits env.view.types start (.value value) →
        (∀ hoisted ∈ after.hoists.names point, (start.valueOf? scope hoisted).isSome) →
        ∃ answer finish, Evaluates program scope frame condition start (.bool answer) finish ∧
          (answer = true ↔ ∃ bindings, node.Matches start (.value value) bindings) ∧
          (answer = true → ∃ bindings, node.Matches start (.value value) bindings ∧
            bindings.map Prod.fst = node.designations ∧
            Holds scope (nameSet node.designations) finish bindings ∧
            Changes scope { other | IsTemporary other ∨ other ∈ node.designations } start finish) ∧
          (answer = false → Changes scope { other | IsTemporary other } start finish) := by
  obtain ⟨read, readable⟩ := Subject.Readable.ofVariable isVariable
  have designationsDistinct : Distinct node.designations :=
    ⟨(List.nodup_cons.1 distinct).2, fun other isIn => unreserved other (List.mem_cons_of_mem _ isIn)⟩
  have lowers : ∀ (program : Program) (scope : Nat) (frame : Frame) (heap : Machine),
      Contributes env point node.designations (Pass.lowerPattern point span subject node)
        (Sound program scope frame env.view.types heap (fun _ => True) subject.type subject.read
          node.designations (node.Matches heap)) :=
    fun _ _ _ _ => lowerPattern_sound node subject fits readable designationsDistinct
  obtain ⟨parts, after, ran, draws, _⟩ := lowers ⟨[]⟩ 0 default {} before
  refine ⟨parts.condition span, after, patternCondition_variable isVariable ran, ?_⟩
  intro program scope frame start value found admits declared
  -- What lowering yields does not depend on where its condition will run.
  obtain ⟨_, _, ranAgain, _, isSound⟩ := lowers program scope frame start before
  rw [ran] at ranAgain
  cases ranAgain
  let temps := temporaries before.nextName after.nextName
  have apart : Disjoint {name} (temps ∪ nameSet node.designations) := by
    refine Set.disjoint_singleton_left.2 ?_
    rintro (isTemp | isDesignated)
    · exact unreserved name List.mem_cons_self (temporaries_isTemporary isTemp)
    · exact (List.nodup_cons.1 distinct).1 isDesignated
  have reading : Reads program scope frame {name} start subject.read (.value value) := by
    rw [read]
    exact .ident found
  have decides := isSound {name} start (.value value) (fun _ _ present => present) apart reading
    admits trivial
  have isDeclared : Declared scope (temps ∪ nameSet node.designations) start := by
    rintro other (isTemp | isDesignated)
    · exact declared other (draws.drawn other isTemp)
    · exact declared other (draws.declared other isDesignated)
  obtain ⟨answer, finish, evaluated, outcome⟩ := decides.condition (.refl start) isDeclared
  refine ⟨answer, finish, evaluated, ?_⟩
  rcases outcome with ⟨rfl, written, noMatch⟩ | ⟨rfl, written, bindings, isMatch, holds⟩
  · exact ⟨⟨nofun, fun ⟨bindings, isMatch⟩ => absurd isMatch (noMatch bindings)⟩, nofun,
      fun _ => written.mono fun _ => temporaries_isTemporary⟩
  · refine ⟨⟨fun _ => ⟨bindings, isMatch⟩, fun _ => rfl⟩, fun _ => ?_, nofun⟩
    refine ⟨bindings, isMatch, node.matches_names false _ _ bindings fits isMatch, holds,
      written.mono ?_⟩
    rintro other (isTemp | isDesignated)
    · exact .inl (temporaries_isTemporary isTemp)
    · exact .inr isDesignated

theorem not_isTemporary (unreserved : name.toList.head? ≠ some '_') : ¬ IsTemporary name := by
  rintro ⟨number, rfl⟩
  refine unreserved ?_
  simp [freshName, String.toList_append]

/-- The mark of a node without a text. -/
def Mark.numbered (id : Nat) : Mark := ⟨⟨0, 0⟩, some id⟩

def sliceTest : Pattern :=
  ⟨.numbered 8, .list
    [⟨.numbered 5, .and ⟨.numbered 2, .relational .gt ⟨.numbered 1, .literal (.int 0)⟩⟩
        ⟨.numbered 4, .relational .lt ⟨.numbered 3, .literal (.int 5)⟩⟩⟩,
      ⟨.numbered 7, .slice (some ⟨.numbered 6, .var "rest"⟩)⟩] ""⟩

def testUnit (type : TypeSyntax) (name : String) (test : Pattern) : CompilationUnit :=
  let result : Expr := ⟨.numbered 9, .isPattern ⟨.numbered 0, .ident name⟩ test⟩
  let body : Stmt := ⟨.numbered 11, .block [⟨.numbered 10, .ret (some result)⟩]⟩
  ⟨[], none, [⟨"C", .classType, [], [], none, [], none,
    [⟨.method "M" [] [.plain type name] (.simple "bool") (.block body), [], ⟨0, 0⟩⟩], ⟨0, 0⟩⟩]⟩

def testEnv (unit : CompilationUnit) : PassEnv :=
  { pass := "patterns", unit, view := unit.analyze 12 unit.vocabulary }

def testSubject (type : Ty) (name : String) : Subject :=
  ⟨⟨.numbered 0, .ident name⟩, type, some ⟨.numbered 0, .ident name⟩⟩

/-- An array, and the variables that its test declares. -/
def sliceMachine : Machine :=
  { sequences := #[⟨[.int 1, .int 7, .int 8], true⟩]
    scopes := #[⟨[("xs", .list 0), ("__t0", .null), ("rest", .null)], none⟩] }

def sliceEnv : PassEnv := testEnv (testUnit (.array (.simple "int")) "xs" sliceTest)

theorem sliceTest_fits : sliceTest.Fits sliceEnv.view false (.array .int) := by
  refine ⟨by decide, .int, rfl, ⟨⟨?_, ?_⟩, ⟨rfl, trivial⟩, trivial⟩⟩
  · exact ⟨.inl rfl, .int 0, rfl, rfl, rfl, by decide +kernel⟩
  · exact ⟨.inl rfl, .int 5, rfl, rfl, rfl, by decide +kernel⟩

theorem sliceTest_matches :
    sliceTest.Matches sliceMachine (.value (.list 0)) [("rest", .part true [.int 7, .int 8])] := by
  refine ⟨_, [("rest", .part true [.int 7, .int 8])], rfl, ?_, rfl⟩
  refine ⟨1, _, [], _, ⟨by decide, rfl, rfl⟩, ⟨[], [], ⟨⟨_, rfl, ?_⟩, rfl⟩, ⟨⟨_, rfl, ?_⟩, rfl⟩, rfl⟩,
    ⟨3, _, _, [], ⟨by decide, by decide, rfl⟩, rfl, ⟨rfl, rfl⟩, rfl⟩, rfl⟩
  · change (0 : Int) < 1
    decide
  · change (1 : Int) < 5
    decide

def testState : PassState := { nextName := 0, nextId := 12 }

/-- A slice behind a checked element: the array holds `1`, `7` and `8`. -/
theorem patternCondition_slice :
    (sliceTest.Fits sliceEnv.view false (.array .int) ∧
      Ty.Admits sliceEnv.view.types sliceMachine (.array .int) (.value (.list 0))) ∧
    ∃ condition after finish bindings,
      Pass.patternCondition (.stmt 10) ⟨0, 0⟩ (testSubject (.array .int) "xs") sliceTest sliceEnv
        testState = .ok (condition, after) ∧
      Evaluates ⟨[]⟩ 0 ⟨.null, none⟩ condition sliceMachine (.bool true) finish ∧
      sliceTest.Matches sliceMachine (.value (.list 0)) bindings ∧
      Holds 0 (nameSet ["rest"]) finish bindings := by
  have admits : Ty.Admits sliceEnv.view.types sliceMachine (.array .int) (.value (.list 0)) := by
    refine .inr ⟨_, rfl, by decide, ?_⟩
    intro item isIn
    replace isIn : item ∈ [Value.int 1, .int 7, .int 8] := isIn
    simp only [List.mem_cons, List.not_mem_nil, or_false] at isIn
    rcases isIn with rfl | rfl | rfl <;> exact ⟨_, rfl⟩
  have unreserved : ∀ other ∈ ["xs", "rest"], ¬ IsTemporary other := by
    intro other isIn
    simp only [List.mem_cons, List.not_mem_nil, or_false] at isIn
    rcases isIn with rfl | rfl
    · exact not_isTemporary (by decide)
    · exact not_isTemporary (by decide)
  obtain ⟨condition, after, ran, sound⟩ := patternCondition_true_iff_matches sliceEnv testState
    (.stmt 10) ⟨0, 0⟩ (testSubject (.array .int) "xs") (.numbered 0) "xs" sliceTest rfl
    sliceTest_fits (by decide) unreserved
  have names : after.hoists.names (.stmt 10) = ["__t0", "rest"] := by
    obtain ⟨known, knownAfter, knownRan, knownNames⟩ : ∃ known knownAfter,
        Pass.patternCondition (.stmt 10) ⟨0, 0⟩ (testSubject (.array .int) "xs") sliceTest sliceEnv
          testState = .ok (known, knownAfter) ∧
        knownAfter.hoists.names (.stmt 10) = ["__t0", "rest"] := ⟨_, _, rfl, rfl⟩
    rw [ran] at knownRan
    cases knownRan
    exact knownNames
  obtain ⟨answer, finish, evaluated, decided, assigned, _⟩ := sound ⟨[]⟩ 0 ⟨.null, none⟩ sliceMachine
    (.list 0) rfl admits (by rw [names]; decide)
  obtain rfl : answer = true := decided.2 ⟨_, sliceTest_matches⟩
  obtain ⟨bindings, isMatch, _, holds, _⟩ := assigned rfl
  exact ⟨⟨sliceTest_fits, admits⟩, condition, after, finish, bindings, ran, evaluated, isMatch, holds⟩

/-! ## Reserved names -/

def nestedTest : Pattern :=
  ⟨.numbered 7, .list
    [⟨.numbered 3, .list [⟨.numbered 2, .constant ⟨.numbered 1, .literal (.int 1)⟩⟩] ""⟩,
      ⟨.numbered 6, .list [⟨.numbered 5, .constant ⟨.numbered 4, .literal (.int 2)⟩⟩] ""⟩] ""⟩

def nestedEnv : PassEnv := testEnv (testUnit (.array (.array (.simple "int"))) "__t0" nestedTest)

/-- Two arrays in an array that the variable `__t0` holds, and inside its scope
    the variables that its test declares. -/
def nestedMachine : Machine :=
  { sequences := #[⟨[.int 1], true⟩, ⟨[.int 2], true⟩, ⟨[.list 0, .list 1], true⟩]
    scopes := #[⟨[("__t0", .list 2)], none⟩, ⟨[("__t0", .null), ("__t1", .null)], some 0⟩] }

set_option maxRecDepth 4000 in
/-- A subject with the name of a temporary is hidden by it: the test fails on a
    value that matches. -/
theorem patternCondition_reserved_subject :
    nestedTest.Fits nestedEnv.view false (.array (.array .int)) ∧
    (∃ bindings, nestedTest.Matches nestedMachine (.value (.list 2)) bindings) ∧
    ∃ condition after,
      Pass.patternCondition (.stmt 10) ⟨0, 0⟩ (testSubject (.array (.array .int)) "__t0") nestedTest
        nestedEnv testState = .ok (condition, after) ∧
      after.hoists.names (.stmt 10) = ["__t0", "__t1"] ∧
      nestedMachine.valueOf? 0 "__t0" = some (.list 2) ∧
      Evaluates ⟨[]⟩ 1 ⟨.null, none⟩ condition nestedMachine (.bool false) nestedMachine := by
  have first : View.HasLiteral nestedEnv.view ⟨.numbered 1, .literal (.int 1)⟩ .int :=
    ⟨.int 1, rfl, rfl, rfl, by decide +kernel⟩
  have second : View.HasLiteral nestedEnv.view ⟨.numbered 4, .literal (.int 2)⟩ .int :=
    ⟨.int 2, rfl, rfl, rfl, by decide +kernel⟩
  have fits : nestedTest.Fits nestedEnv.view false (.array (.array .int)) :=
    ⟨by decide, .array .int, rfl,
      ⟨by decide, .int, rfl, .inr ⟨.inl rfl, first⟩, trivial⟩,
      ⟨by decide, .int, rfl, .inr ⟨.inl rfl, second⟩, trivial⟩, trivial⟩
  refine ⟨fits, ⟨[], _, [], rfl, ?_, rfl⟩, _, _, rfl, rfl, rfl, 20, fun fuel bound => ?_⟩
  · have inner : ∀ (address : Nat) (number : Int) (mark literal : Mark),
        nestedMachine.sequences[address]? = some ⟨[.int number], true⟩ →
        (Pattern.mk mark (.list [⟨mark, .constant ⟨literal, .literal (.int number)⟩⟩] "")).Matches
          nestedMachine (.value (.list address)) [] := by
      intro address number mark literal present
      refine ⟨.ofSequence ⟨[.int number], true⟩, [], Matched.indexed?_sequence present, ?_, rfl⟩
      exact ⟨1, _, [], [], ⟨Nat.zero_lt_one, rfl, rfl⟩, ⟨⟨_, rfl, rfl⟩, rfl⟩, ⟨rfl, rfl⟩, rfl⟩
    exact ⟨1, _, [], [], ⟨by decide, rfl, rfl⟩, inner 0 1 (.numbered 3) (.numbered 1) rfl,
      ⟨2, _, [], [], ⟨by decide, rfl, rfl⟩, inner 1 2 (.numbered 6) (.numbered 4) rfl,
        ⟨rfl, rfl⟩, rfl⟩, rfl⟩
  · obtain ⟨rest, rfl⟩ : ∃ rest, fuel = rest + 20 := ⟨fuel - 20, by omega⟩
    rfl

end Unsugar
