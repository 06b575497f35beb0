import Unsugar.Proofs.Patterns.Conditions

open List

namespace Unsugar

open Pass (Subject TestParts nullCheck)

/-! # Tests against null

A test against `null` is a comparison with `==` or `!=`, and so is the guard that
keeps `null` away from the members of a subject.  Declared operators decide such a
comparison when an object is compared.  The guard is left out for values of value
types, among them those that can be `null`.
-/

/-! ## Guards -/

variable {target : Ty} {written : TypeSyntax} {positional : List Pattern}
  {properties : List PropertyPattern} {designation : String} {kind : PatternKind} {view : View}
  {negated : Bool}

namespace Pass.Subject

/-- How a subject becomes a value of a type.  Nothing is known of an unknown type. -/
def conversion (view : View) (subject : Subject) (target : Ty) : Conversion :=
  if target = .unknown then .explicit
  else
    match subject.source with
    | some source => view.classifyConversion source target
    | none => view.types.classifyTypes subject.type target

def nullGuard? (view : View) (span : Span) (subject : Subject) : Option Expr :=
  if view.types.isValueType subject.type then none else some (nullCheck span subject .notEq)

def typeGuard? (view : View) (span : Span) (subject : Subject) (target : Ty)
    (written : TypeSyntax) : Option Expr :=
  if (subject.conversion view target).isIdentityOrReference then subject.nullGuard? view span
  else some (span.typeTest subject.read written)

def narrowed (view : View) (span : Span) (subject : Subject) (target : Ty)
    (written : TypeSyntax) : Subject :=
  if (subject.conversion view target).isIdentityOrReference then
    if subject.conversion view target = .identity then subject
    else { expr := subject.expr, type := target }
  else { expr := span.cast written subject.read, type := target }

end Pass.Subject

def PatternKind.guard? (view : View) (span : Span) (subject : Subject) : PatternKind → Option Expr
  | .declaration written _ | .type written =>
    subject.typeGuard? view span (view.bind written) written
  | .recursive .absent _ _ _ | .list _ _ => subject.nullGuard? view span
  | .recursive written _ _ _ => subject.typeGuard? view span (view.bind written) written
  | _ => none

section Guards

variable {env : PassEnv} {before after : PassState} {point : InstallPoint} {span : Span}
  {subject : Subject} {mark : Mark} {parts : TestParts}

theorem conversionTo_ok (known : target ≠ .unknown) : Pass.conversionTo subject target env before =
      .ok (subject.conversion env.view target, before) := by
  unfold Pass.Subject.conversion Pass.conversionTo
  rw [if_neg known]
  cases subject.source <;> rfl

theorem typeCheck_eq : Pass.typeCheck span subject target written env before =
      .ok (((subject.typeGuard? env.view span target written).toList,
        subject.narrowed env.view span target written), before) := by
  unfold Pass.typeCheck
  by_cases unknown : target = .unknown
  · have isExplicit : subject.conversion env.view target = .explicit := if_pos unknown
    rw [if_pos unknown, Pass.Subject.typeGuard?, Pass.Subject.narrowed, isExplicit]
    rfl
  · rw [if_neg unknown, Pass.bind_ok (conversionTo_ok unknown)]
    unfold Pass.Subject.typeGuard? Pass.Subject.narrowed Pass.Subject.nullGuard?
    beta_reduce
    by_cases keeps : (subject.conversion env.view target).isIdentityOrReference = true
    · rw [if_pos keeps, if_pos keeps, if_pos keeps, Pass.bind_ok (Pass.types_ok env before)]
      split <;> rfl
    · rw [if_neg keeps, if_neg keeps, if_neg keeps]
      rfl

theorem recursiveParts_checks {checks : List Expr} {narrowed : Subject} :
    Pass.Returns (do
      let members := (← Pass.types).components narrowed.type positional.length
      let items ← Pass.lowerPositional point span narrowed members positional
      let others ← Pass.lowerProperties point span narrowed properties
      let bound ← Pass.designate point span mark designation written narrowed.type narrowed.read
      return (((TestParts.append { checks } items).append others).append bound))
      fun parts => ∃ rest, parts.checks = checks ++ rest :=
  .last fun _ => .last fun items => .last fun others => .last fun bound =>
    .pure ⟨items.checks ++ (others.checks ++ bound.checks), by
      simp only [TestParts.append, append_assoc]⟩

theorem lowerRecursive_guarded (ran : Pass.lowerPatternKind point span mark subject
      (.recursive written positional properties designation) env before = .ok (parts, after)) :
    ∃ rest, parts.checks = ((PatternKind.recursive written positional properties
      designation).guard? env.view span subject).toList ++ rest := by
  unfold Pass.lowerPatternKind at ran
  cases written with
  | absent =>
    obtain ⟨types, _, typed, ran⟩ := Pass.bind_eq_ok ran
    cases typed
    obtain ⟨⟨checks, narrowed⟩, _, headed, ran⟩ := Pass.bind_eq_ok ran
    have isGuard : checks = (subject.nullGuard? env.view span).toList := by
      unfold Pass.Subject.nullGuard?
      cases headed
      split <;> rfl
    rw [PatternKind.guard?, ← isGuard]
    exact recursiveParts_checks _ _ _ _ ran
  | _ =>
    obtain ⟨view, _, viewed, ran⟩ := Pass.bind_eq_ok ran
    cases viewed
    rw [Pass.bind_ok typeCheck_eq] at ran
    exact recursiveParts_checks _ _ _ _ ran

theorem lowerList_guarded {elements : List Pattern}
    (ran : Pass.lowerPatternKind point span mark subject (.list elements designation) env before =
      .ok (parts, after)) :
    ∃ rest, parts.checks = (subject.nullGuard? env.view span).toList ++ rest := by
  unfold Pass.lowerPatternKind at ran
  obtain ⟨list, _, ranList, ran⟩ := Pass.bind_eq_ok ran
  obtain ⟨checks, _, ranChecks, ran⟩ := Pass.bind_eq_ok ran
  obtain ⟨others, _, _, ran⟩ := Pass.bind_eq_ok ran
  obtain ⟨bound, _, _, ran⟩ := Pass.bind_eq_ok ran
  cases ran
  have isSubject : list.subject = subject := by
    cases ranList
    rfl
  obtain ⟨types, _, typed, ranChecks⟩ := Pass.bind_eq_ok ranChecks
  cases typed
  cases ranChecks
  rw [isSubject]
  unfold Pass.Subject.nullGuard?
  split
  · exact ⟨_, by simp only [TestParts.append, append_assoc]; rfl⟩
  · exact ⟨_, by simp only [TestParts.append, append_assoc]; rfl⟩

theorem lowerPatternKind_guarded
    (ran : Pass.lowerPatternKind point span mark subject kind env before = .ok (parts, after)) :
    ∃ rest, parts.checks = (kind.guard? env.view span subject).toList ++ rest := by
  cases kind with
  | recursive written positional properties designation => exact lowerRecursive_guarded ran
  | list elements designation => exact lowerList_guarded ran
  | type written =>
    unfold Pass.lowerPatternKind at ran
    obtain ⟨view, _, viewed, ran⟩ := Pass.bind_eq_ok ran
    cases viewed
    rw [Pass.bind_ok typeCheck_eq] at ran
    cases ran
    exact ⟨[], (append_nil _).symm⟩
  | declaration written name =>
    unfold Pass.lowerPatternKind at ran
    obtain ⟨view, _, viewed, ran⟩ := Pass.bind_eq_ok ran
    cases viewed
    rw [Pass.bind_ok typeCheck_eq] at ran
    obtain ⟨bound, _, _, ran⟩ := Pass.bind_eq_ok ran
    cases ran
    exact ⟨_, rfl⟩
  | _ => exact ⟨_, rfl⟩

theorem nullGuard?_cases : subject.nullGuard? view span = none ∨
      subject.nullGuard? view span = some (nullCheck span subject .notEq) := by
  unfold Pass.Subject.nullGuard?
  split
  · exact .inl rfl
  · exact .inr rfl

theorem typeGuard?_cases : subject.typeGuard? view span target written = none ∨
      subject.typeGuard? view span target written = some (nullCheck span subject .notEq) ∨
        subject.typeGuard? view span target written = some (span.typeTest subject.read written) := by
  unfold Pass.Subject.typeGuard?
  split
  · exact nullGuard?_cases.imp_right .inl
  · exact .inr (.inr rfl)

theorem nullGuard?_none_iff :
    subject.nullGuard? view span = none ↔ view.types.isValueType subject.type = true := by
  unfold Pass.Subject.nullGuard?
  split <;> simp_all

theorem typeGuard?_none_iff : subject.typeGuard? view span target written = none ↔
      view.types.isValueType subject.type = true ∧
        (subject.conversion view target).isIdentityOrReference = true := by
  unfold Pass.Subject.typeGuard?
  split
  · rename_i keeps
    rw [nullGuard?_none_iff, and_iff_left keeps]
  · rename_i converts
    exact ⟨nofun, fun both => absurd both.2 converts⟩

theorem guard?_cases {span : Span} {subject : Subject} : kind.guard? view span subject = none ∨
      kind.guard? view span subject = some (nullCheck span subject .notEq) ∨
        ∃ written, kind.guard? view span subject = some (span.typeTest subject.read written) := by
  cases kind with
  | type written => exact typeGuard?_cases.imp_right (.imp_right fun is => ⟨_, is⟩)
  | declaration written name =>
    exact typeGuard?_cases.imp_right (.imp_right fun is => ⟨_, is⟩)
  | list elements designation => exact nullGuard?_cases.imp_right .inl
  | recursive written positional properties designation =>
    cases written with
    | absent => exact nullGuard?_cases.imp_right .inl
    | _ => exact typeGuard?_cases.imp_right (.imp_right fun is => ⟨_, is⟩)
  | _ => exact .inl rfl

end Guards

/-! ## What `null` is tested with -/

section Operators

variable {α β : Type} {program : Program} {machine : Machine}

def Program.nullOperator? (program : Program) (machine : Machine) (negated : Bool) :
    Value → Option Code
  | .object address =>
    let className := (machine.objects.getD address default).className
    if negated then
      (program.findOperator? className .notEq).or (program.findOperator? className .eq)
    else program.findOperator? className .eq
  | _ => none

/-- A computation that never ends with a result. -/
def Eval.Fails (action : Eval α) : Prop := ∀ machine, ∃ reason, (action machine).1 = .error reason

namespace Eval.Fails

theorem exit (reason : Exit) : Fails (Eval.exit reason : Eval α) := fun _ => ⟨reason, rfl⟩

theorem first {action : Eval α} (fails : Fails action) (next : α → Eval β) :
    Fails (action >>= next) := by
  intro machine
  obtain ⟨reason, failed⟩ := fails machine
  exact ⟨reason, congrArg Prod.fst (Eval.bind_error (Prod.ext failed rfl))⟩

theorem next (action : Eval α) {next : α → Eval β} (fails : ∀ value, Fails (next value)) :
    Fails (action >>= next) := by
  intro machine
  change ∃ reason, (ExceptT.bindCont next (action machine).1 (action machine).2).1 = .error reason
  cases (action machine).1 with
  | error reason => exact ⟨reason, rfl⟩
  | ok value => exact fails value _

theorem nested {call : Eval α} (fails : Fails call) : Fails (Machine.nested call) := by
  refine .next _ fun before => ?_
  have rest : Fails (do
      modify fun machine : Machine => { machine with depth := machine.depth + 1 }
      let result ← Eval.outcome call
      modify fun machine : Machine => { machine with depth := machine.depth - 1 }
      Eval.resume result) := by
    refine .next _ fun _ machine => ?_
    obtain ⟨reason, failed⟩ := fails machine
    refine ⟨reason, ?_⟩
    change (Eval.resume (call machine).1 _).1 = _
    rw [failed]
    rfl
  split
  · exact .next _ fun _ => rest
  · exact rest

end Eval.Fails

def Eval.unanswered : Answer := fun _ => Eval.fault .outOfFuel

theorem Eval.Fails.runMember (code : Code) (this : Value) (args : List Value) :
    Fails (Eval.runMember program Eval.unanswered code this args) := by
  refine .next _ fun scope => .first (.nested ?_) _
  obtain ⟨owner, params, body⟩ := code
  cases body with
  | none => exact .exit _
  | expr value => exact .exit _
  | block body => exact fun machine => ⟨_, rfl⟩

theorem operatorEq_object (program : Program) (machine : Machine) (recur : Answer) (negated : Bool)
    (address : Nat) :
    let className := (machine.objects.getD address default).className
    Eval.operatorEq program recur negated (.object address) .null machine =
      (match program.findOperator? className (if negated then .notEq else .eq) with
      | some code => do
        return (← Eval.runMember program recur code .null [.object address, .null]).value
      | none => do
        if !negated then return .bool ((Value.object address).builtinEq .null != negated)
        match program.findOperator? className .eq with
        | none => return .bool ((Value.object address).builtinEq .null != negated)
        | some code =>
          match (← Eval.runMember program recur code .null [.object address, .null]).value with
          | .bool result => return .bool (!result)
          | _ => Eval.unsupported "operator == returned no bool" : Eval Value) machine := rfl

theorem Eval.Fails.ne_ok {action : Eval α} (fails : Fails action) {result : α} {after : Machine} :
    action machine ≠ (.ok result, after) := by
  intro ran
  obtain ⟨reason, failed⟩ := fails machine
  rw [ran] at failed
  cases failed

/-- Comparing with `null` asks for nothing, and tells whether a value is `null`, exactly where
    no operator decides it. -/
theorem comparesNull_iff {value : Value} :
    (∀ recur : Answer, Eval.operatorEq program recur negated value .null machine =
        (.ok (.bool (value.isNull != negated)), machine)) ↔
      program.nullOperator? machine negated value = none := by
  cases value with
  | object address =>
    set className := (machine.objects.getD address default).className with isClass
    have decided (recur : Answer) := operatorEq_object program machine recur negated address
    rw [← isClass] at decided
    simp only [decided, Program.nullOperator?, ← isClass]
    cases negated with
    | false =>
      simp only [Bool.false_eq_true, if_false, Bool.not_false, if_true]
      cases program.findOperator? className .eq with
      | none => exact iff_of_true (fun _ => rfl) rfl
      | some code =>
        exact iff_of_false (fun compared => ((Eval.Fails.runMember code _ _).first _).ne_ok
          (compared Eval.unanswered)) (Option.some_ne_none code)
    | true =>
      simp only [if_true, Bool.not_true, Bool.false_eq_true, if_false]
      cases program.findOperator? className .notEq with
      | some code =>
        exact iff_of_false (fun compared => ((Eval.Fails.runMember code _ _).first _).ne_ok
          (compared Eval.unanswered)) (Option.some_ne_none code)
      | none =>
        cases program.findOperator? className .eq with
        | none => exact iff_of_true (fun _ => rfl) rfl
        | some code =>
          exact iff_of_false (fun compared => ((Eval.Fails.runMember code _ _).first _).ne_ok
            (compared Eval.unanswered)) (Option.some_ne_none code)
  | _ => exact ⟨fun _ => rfl, fun _ recur => operatorEq_eq nofun nofun⟩

theorem run_nullCheck {subject : Subject} {span : Span} {fuel scope : Nat} {frame : Frame} :
    Eval.run program (fuel + 2)
        (.eval (nullCheck span subject (if negated then .notEq else .eq)) scope frame) =
      Eval.run program (fuel + 1) (.eval subject.read scope frame) >>= fun value =>
        Eval.operatorEq program (Eval.run program (fuel + 1)) negated value .null := by
  cases negated <;> rfl

end Operators

/-! ## Tests that a subject is null, or is not -/

mutual

def Pattern.isNotNull (view : View) : Pattern → Bool
  | ⟨_, kind⟩ => kind.isNotNull view

def PatternKind.isNotNull (view : View) : PatternKind → Bool
  | .not inner => inner.isNullConstant view
  | .paren inner => inner.isNotNull view
  | _ => false

end

section NullTests

variable {env : PassEnv} {before : PassState} {point : InstallPoint} {span : Span}
  {subject : Subject}

mutual

theorem Pattern.reads_isNull (type : Ty) : (node : Pattern) →
    node.isNullConstant view = true → node.reads view type = 1
  | ⟨_, kind⟩, isNull => kind.reads_isNull type isNull

theorem PatternKind.reads_isNull (type : Ty) : (kind : PatternKind) →
    kind.isNullConstant view = true → kind.reads view type = 1
  | .constant _, _ => rfl
  | .paren inner, isNull => inner.reads_isNull type isNull

end

mutual

theorem Pattern.reads_isNotNull (type : Ty) : (node : Pattern) →
    node.isNotNull view = true → node.reads view type = 1
  | ⟨_, kind⟩, isNotNull => kind.reads_isNotNull type isNotNull

theorem PatternKind.reads_isNotNull (type : Ty) : (kind : PatternKind) →
    kind.isNotNull view = true → kind.reads view type = 1
  | .not inner, isNotNull => inner.reads_isNull type isNotNull
  | .paren inner, isNotNull => inner.reads_isNotNull type isNotNull

end

mutual

theorem lowerPattern_isNull : (node : Pattern) → node.isNullConstant env.view = true →
    Pass.lowerPattern point span subject node env before =
      .ok (.check (nullCheck span subject .eq), before)
  | ⟨mark, kind⟩, isNull => by
    unfold Pass.lowerPattern
    exact Pass.inPattern_ok (lowerPatternKind_isNull kind isNull)

theorem lowerPatternKind_isNull {mark : Mark} : (kind : PatternKind) →
    kind.isNullConstant env.view = true →
    Pass.lowerPatternKind point span mark subject kind env before =
      .ok (.check (nullCheck span subject .eq), before)
  | .constant value, isNull => by
    have checked : Pass.constantCheck span subject value env before =
        .ok (nullCheck span subject .eq, before) := by
      have known : env.view.isNull value = true := isNull
      unfold Pass.constantCheck
      rw [Pass.bind_ok (Pass.view_ok env before), known]
      rfl
    unfold Pass.lowerPatternKind
    rw [Pass.bind_ok checked]
    rfl
  | .paren inner, isNull => by
    unfold Pass.lowerPatternKind
    exact lowerPattern_isNull inner isNull

end

mutual

theorem lowerPattern_isNotNull : (node : Pattern) → node.isNotNull env.view = true →
    Pass.lowerPattern point span subject node env before =
      .ok (.check (nullCheck span subject .notEq), before)
  | ⟨mark, kind⟩, isNotNull => by
    unfold Pass.lowerPattern
    exact Pass.inPattern_ok (lowerPatternKind_isNotNull kind isNotNull)

theorem lowerPatternKind_isNotNull {mark : Mark} : (kind : PatternKind) →
    kind.isNotNull env.view = true →
    Pass.lowerPatternKind point span mark subject kind env before =
      .ok (.check (nullCheck span subject .notEq), before)
  | .not inner, isNotNull => by
    have known : inner.isNullConstant env.view = true := isNotNull
    unfold Pass.lowerPatternKind
    rw [Pass.bind_ok (Pass.view_ok env before), known]
    rfl
  | .paren inner, isNotNull => by
    unfold Pass.lowerPatternKind
    exact lowerPattern_isNotNull inner isNotNull

end

theorem patternCondition_readOnce {node : Pattern} {parts : TestParts} {after : PassState}
    (once : node.reads env.view subject.type ≤ 1)
    (ran : Pass.lowerPattern point span subject node env before = .ok (parts, after)) :
    Pass.patternCondition point span subject node env before =
      .ok (parts.condition span, after) := by
  unfold Pass.patternCondition
  rw [Pass.bind_ok (Pass.view_ok env before), decide_eq_true once, Bool.true_or, if_pos rfl,
    Pass.bind_ok ran]
  rfl

end NullTests

/-- What tests for `null` are made of and what decides them.  A test against `null` compares the
    subject with `==`, one against `not null` with `!=`, and the guard of a pattern compares with
    `!=` or tests a type.  Such a comparison evaluates the subject and then says whether it is
    `null` without asking for anything else, exactly if no operator decides it: the value is no
    object, or its class has no operator `==`, nor `!=` where that is the comparison. -/
theorem nullTests_decided_iff (env : PassEnv) (before : PassState) (point : InstallPoint)
    (span : Span) (subject : Subject) :
    ((∀ node : Pattern, node.isNullConstant env.view = true →
        Pass.patternCondition point span subject node env before =
          .ok (nullCheck span subject .eq, before)) ∧
      (∀ node : Pattern, node.isNotNull env.view = true →
        Pass.patternCondition point span subject node env before =
          .ok (nullCheck span subject .notEq, before)) ∧
      ∀ (mark : Mark) (kind : PatternKind) (parts : TestParts) (after : PassState),
        Pass.lowerPatternKind point span mark subject kind env before = .ok (parts, after) →
        (∃ rest, parts.checks = (kind.guard? env.view span subject).toList ++ rest) ∧
          (kind.guard? env.view span subject = none ∨
            kind.guard? env.view span subject = some (nullCheck span subject .notEq) ∨
            ∃ written, kind.guard? env.view span subject =
              some (span.typeTest subject.read written))) ∧
    ∀ (program : Program) (scope : Nat) (frame : Frame) (machine middle : Machine) (fuel : Nat)
        (negated : Bool) (value : Value),
      Eval.run program (fuel + 1) (.eval subject.read scope frame) machine = (.ok value, middle) →
      Eval.run program (fuel + 2)
          (.eval (nullCheck span subject (if negated then .notEq else .eq)) scope frame) machine =
        Eval.operatorEq program (Eval.run program (fuel + 1)) negated value .null middle ∧
      ((∀ recur : Answer, Eval.operatorEq program recur negated value .null middle =
          (.ok (.bool (value.isNull != negated)), middle)) ↔
        program.nullOperator? middle negated value = none) := by
  refine ⟨⟨fun node isNull => ?_, fun node isNotNull => ?_, fun mark kind parts after ran => ?_⟩, ?_⟩
  · exact patternCondition_readOnce (node.reads_isNull _ isNull).le (lowerPattern_isNull node isNull)
  · exact patternCondition_readOnce (node.reads_isNotNull _ isNotNull).le
      (lowerPattern_isNotNull node isNotNull)
  · exact ⟨lowerPatternKind_guarded ran, guard?_cases⟩
  · intro program scope frame machine middle fuel negated value evaluated
    refine ⟨?_, comparesNull_iff⟩
    rw [run_nullCheck, Eval.bind_ok evaluated]

def equalUnit : CompilationUnit :=
  ⟨[], none, [⟨"C", .classType, [], [], none, [], none,
    [⟨.operator .eq [.plain (.simple "C") "a", .plain (.simple "C") "b"] (.simple "bool")
      (.expr ⟨.numbered 0, .literal (.bool true)⟩), [.isPublic, .isStatic], ⟨0, 0⟩⟩], ⟨0, 0⟩⟩]⟩

def equalMachine : Machine :=
  { objects := #[⟨"C", [], false⟩], scopes := #[⟨[("x", .object 0)], none⟩] }

def nullTest : Pattern := ⟨.numbered 2, .constant ⟨.numbered 1, .literal .null⟩⟩

/-- `x is null` holds of an object that is equal to everything. -/
theorem nullTests_decided_byOperator :
    nullTest.isNullConstant (testEnv equalUnit).view = true ∧
    ∃ condition,
      Pass.patternCondition (.stmt 10) ⟨0, 0⟩ (testSubject (.declared 0) "x") nullTest
        (testEnv equalUnit) testState = .ok (condition, testState) ∧
      (Eval.run equalUnit.program 5 (.eval condition 0 ⟨.null, none⟩) equalMachine).1 =
        .ok (.bool true) ∧
      ¬ ∀ recur : Answer, Eval.operatorEq equalUnit.program recur false (.object 0) .null
        equalMachine = (.ok (.bool false), equalMachine) := by
  have isNull : nullTest.isNullConstant (testEnv equalUnit).view = true := rfl
  obtain ⟨⟨tested, _, _⟩, decided⟩ := nullTests_decided_iff (testEnv equalUnit) testState (.stmt 10)
    ⟨0, 0⟩ (testSubject (.declared 0) "x")
  obtain ⟨ran, asks⟩ := decided equalUnit.program 0 ⟨.null, none⟩ equalMachine equalMachine 3 false
    (.object 0) rfl
  refine ⟨isNull, _, tested nullTest isNull, (congrArg Prod.fst ran).trans rfl, fun always => ?_⟩
  have undecided : equalUnit.program.nullOperator? equalMachine false (.object 0) = none :=
    asks.1 always
  cases undecided

end Unsugar
