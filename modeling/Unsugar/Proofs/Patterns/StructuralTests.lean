import Unsugar.Proofs.Hoist.TestedPatterns
import Unsugar.Proofs.Patterns.NullTests

namespace Unsugar

open Pass (Subject TestParts nullCheck)

/-! # Structural patterns and null

A recursive or a list pattern looks at the parts of its subject, so `null` should
not get past what it checks first.  Its guard turns `null` away wherever the
pattern stands.  Without one, which happens for subjects of value types, `null`
gets to the parts, and the pattern accepts it if it asks for none.
-/

variable {view : View} {node condition : Expr} {name : String}

/-- The declarations that are queued at a point by now have been made. -/
def PassState.DeclaredAt (state : PassState) (point : InstallPoint) (scope : Nat)
    (machine : Machine) : Prop :=
  ∀ hoisted ∈ state.hoists.names point, (machine.valueOf? scope hoisted).isSome

/-- Whether a pattern looks at the parts of its subject. -/
def PatternKind.isStructural : PatternKind → Bool
  | .recursive .. | .list .. => true
  | _ => false

/-- Whether a subject needs no test to be of the type that a pattern names, if it names one. -/
def PatternKind.isOfHead (view : View) (subject : Subject) : PatternKind → Bool
  | .recursive .absent _ _ _ | .list _ _ => true
  | .recursive written _ _ _ =>
    (subject.conversion view (view.bind written)).isIdentityOrReference
  | _ => false

section Guarded

variable {env : PassEnv} {before after : PassState} {point : InstallPoint} {span : Span}
  {subject : Subject} {mark : Mark} {kind : PatternKind} {parts : TestParts}

theorem guard?_none_iff (structural : kind.isStructural = true) :
    kind.guard? view span subject = none ↔
      view.types.isValueType subject.type = true ∧ kind.isOfHead view subject = true := by
  cases kind with
  | list elements designation => exact nullGuard?_none_iff.trans (and_iff_left rfl).symm
  | recursive written positional properties designation =>
    cases written with
    | absent => exact nullGuard?_none_iff.trans (and_iff_left rfl).symm
    | _ => exact typeGuard?_none_iff
  | _ => cases structural

/-! ## Guards turn null away -/

variable {program : Program} {scope : Nat} {frame : Frame} {machine middle : Machine}

theorem Evaluates.typeTest_null {written : TypeSyntax}
    (isNull : Evaluates program scope frame node machine .null middle) :
    Evaluates program scope frame (span.typeTest node written) machine (.bool false) middle := by
  obtain ⟨enough, runs⟩ := isNull
  refine .of_step enough fun fuel bound => ?_
  change (Eval.run program fuel (.eval node scope frame) >>= fun value => do
    return Value.bool (program.isInstance (← get) value written) : Eval Value) machine = _
  rw [Eval.bind_ok (runs fuel bound)]
  change (Except.ok (Value.bool (program.isInstance middle .null written)), middle) = _
  rw [Program.isInstance_null]

theorem Evaluates.notEq_null (isNull : Evaluates program scope frame node machine .null middle) :
    Evaluates program scope frame (span.binary .notEq node span.nullLit) machine (.bool false)
      middle :=
  .binary isNull (.literal span .null middle) ⟨nofun, nofun, nofun⟩ fun _ =>
    operatorEq_eq nofun nofun

theorem guard_rejects {guard : Expr} (isGuard : kind.guard? view span subject = some guard)
    (isNull : Evaluates program scope frame subject.read machine .null middle) :
    Evaluates program scope frame guard machine (.bool false) middle := by
  rcases guard?_cases with none | check | ⟨written, test⟩
  · rw [none] at isGuard
    cases isGuard
  · rw [check] at isGuard
    cases isGuard
    exact .notEq_null isNull
  · rw [test] at isGuard
    cases isGuard
    exact .typeTest_null isNull

theorem lowerPattern_rejects (guarded : (kind.guard? env.view span subject).isSome)
    (ran : Pass.lowerPattern point span subject ⟨mark, kind⟩ env before = .ok (parts, after))
    (isNull : Evaluates program scope frame subject.read machine .null middle) :
    ChecksTo program scope frame parts.checks machine false middle := by
  obtain ⟨guard, isGuard⟩ := Option.isSome_iff_exists.mp guarded
  unfold Pass.lowerPattern at ran
  obtain ⟨rest, starts⟩ := lowerPatternKind_guarded (Pass.inPattern_eq_ok ran)
  rw [starts, isGuard]
  exact .fails (guard_rejects isGuard isNull)

/-! ## Guarded patterns -/

/-- Where the subject is read from says nothing about its guard. -/
theorem guard?_isSome_congr (structural : kind.isStructural = true) (expr : Expr) :
    (kind.guard? view span { subject with expr }).isSome = (kind.guard? view span subject).isSome := by
  have sameHead : kind.isOfHead view { subject with expr } = kind.isOfHead view subject := by
    unfold PatternKind.isOfHead
    split <;> rfl
  rw [Bool.eq_iff_iff, ← not_iff_not]
  simp only [Option.not_isSome_iff_eq_none, guard?_none_iff structural, sameHead]

theorem drawn_declared {type : Ty} {drawn : PassState} {stable : Subject}
    (drew : Pass.temporary point "t" type span env before = .ok (name, drawn))
    (ran : Pass.lowerPattern point span stable ⟨mark, kind⟩ env drawn = .ok (parts, after))
    (declared : after.DeclaredAt point scope middle) : (middle.valueOf? scope name).isSome := by
  obtain ⟨hoisted, isQueued⟩ : ∃ hoisted, drawn.hoists.local? point name = some hoisted := by
    cases drew
    refine Option.isSome_iff_exists.mp ?_
    rw [HoistQueue.local?_declare, if_pos ⟨rfl, rfl⟩, Option.isSome_or]
    exact Bool.or_true _
  have isKept := (Pass.lowerPattern_binds env point span _ _ _ ran).kept isQueued
  refine declared name (List.mem_map.mpr ⟨hoisted, List.mem_of_find?_eq_some isKept, ?_⟩)
  exact HoistQueue.local?_name isKept

theorem temporary_rejects
    (ran : Pass.lowerPattern point span { subject with expr := span.ident name } ⟨mark, kind⟩ env
      before = .ok (parts, after))
    (structural : kind.isStructural = true) (guarded : (kind.guard? env.view span subject).isSome)
    (declared : (middle.valueOf? scope name).isSome) :
    ChecksTo program scope frame parts.checks (middle.assign scope name .null) false
      (middle.assign scope name .null) := by
  have stableGuarded := (guard?_isSome_congr structural (span.ident name)).trans guarded
  refine lowerPattern_rejects stableGuarded ran (.ident ?_)
  rw [Machine.valueOf?_assign declared, if_pos rfl]

/-- How a pattern that stands in another one is lowered: against the subject of that one, or
    against a part of it, which is read from a temporary if it is read often. -/
inductive LowersNested (point : InstallPoint) (span : Span) (node : Pattern) :
    Subject → Pass TestParts → Prop where
  | same {subject : Subject} :
      LowersNested point span node subject (Pass.lowerPattern point span subject node)
  | part {expr : Expr} {type : Ty} {reads : Nat} :
      LowersNested point span node { expr, type } (Pass.stabilized point span reads { expr, type }
        fun stable => Pass.lowerPattern point span stable node)

theorem LowersNested.rejects {action : Pass TestParts} (structural : kind.isStructural = true)
    (lowers : LowersNested point span ⟨mark, kind⟩ subject action)
    (guarded : (kind.guard? env.view span subject).isSome)
    (ran : action env before = .ok (parts, after))
    (isNull : Evaluates program scope frame subject.read machine .null middle)
    (declared : after.DeclaredAt point scope middle) :
    ∃ finish, ChecksTo program scope frame parts.checks machine false finish := by
  cases lowers with
  | same => exact ⟨middle, lowerPattern_rejects guarded ran isNull⟩
  | @part expr type =>
    unfold Pass.stabilized at ran
    split at ran
    · exact ⟨middle, lowerPattern_rejects guarded ran isNull⟩
    obtain ⟨name, drawn, drew, ran⟩ := Pass.bind_eq_ok ran
    obtain ⟨⟨checks, assigns⟩, _, lowered, ran⟩ := Pass.bind_eq_ok ran
    cases ran
    have isDeclared := drawn_declared drew lowered declared
    have rejects : ChecksTo program scope frame checks (middle.assign scope name .null) false
        (middle.assign scope name .null) :=
      temporary_rejects lowered structural guarded isDeclared
    have sets : EvaluatesAll program scope frame
        [span.assign (span.ident name) (Pass.Subject.read { expr, type })] machine [.null]
        (middle.assign scope name .null) := .single (.assign isNull nofun isDeclared)
    refine ⟨middle.assign scope name .null, ?_⟩
    cases rejects with
    | fails first => exact .fails (.seq sets first)
    | holds first others => exact .holds (.seq sets first) others

theorem patternCondition_cases {tested : Pattern}
    (ran : Pass.patternCondition point span subject tested env before = .ok (condition, after)) :
    (∃ parts, Pass.lowerPattern point span subject tested env before = .ok (parts, after) ∧
      condition = parts.condition span) ∨
    ∃ name drawn parts, Pass.temporary point "t" subject.type span env before = .ok (name, drawn) ∧
      Pass.lowerPattern point span { subject with expr := span.ident name } tested env drawn =
        .ok (parts, after) ∧
      condition = span.seq [span.assign (span.ident name) subject.expr] (parts.condition span) := by
  unfold Pass.patternCondition at ran
  rw [Pass.bind_ok (Pass.view_ok env before)] at ran
  split at ran
  · obtain ⟨parts, _, lowered, ran⟩ := Pass.bind_eq_ok ran
    cases ran
    exact .inl ⟨parts, lowered, rfl⟩
  · obtain ⟨name, drawn, drew, ran⟩ := Pass.bind_eq_ok ran
    obtain ⟨parts, _, lowered, ran⟩ := Pass.bind_eq_ok ran
    cases ran
    exact .inr ⟨name, drawn, parts, drew, lowered, rfl⟩

theorem patternCondition_rejects (structural : kind.isStructural = true)
    (guarded : (kind.guard? env.view span subject).isSome)
    (ran : Pass.patternCondition point span subject ⟨mark, kind⟩ env before = .ok (condition, after))
    (isNull : Evaluates program scope frame subject.read machine .null middle)
    (isNullOnce : Evaluates program scope frame subject.expr machine .null middle)
    (declared : after.DeclaredAt point scope middle) :
    ∃ finish, Evaluates program scope frame condition machine (.bool false) finish := by
  obtain ⟨parts, lowered, rfl⟩ | ⟨name, drawn, parts, drew, lowered, rfl⟩ := patternCondition_cases ran
  · exact ⟨middle, (lowerPattern_rejects guarded lowered isNull).append_false.conjunction⟩
  have isDeclared := drawn_declared drew lowered declared
  have rejects : ChecksTo program scope frame parts.checks (middle.assign scope name .null) false
      (middle.assign scope name .null) :=
    temporary_rejects lowered structural guarded isDeclared
  exact ⟨_, .seq (.single (.assign isNullOnce nofun isDeclared)) rejects.append_false.conjunction⟩

end Guarded

/-! ## Without a guard -/

section Unguarded

variable {env : PassEnv} {before after : PassState} {point : InstallPoint} {span : Span}
  {subject : Subject} {mark : Mark} {written : TypeSyntax} {designation : String}

theorem lowerPositional_nil {members : List (String × Ty)} :
    Pass.lowerPositional point span subject members [] env before = .ok ({}, before) := by
  cases members <;> rfl

theorem lowerPattern_unguarded (unnamed : isDesignation designation = false)
    (unguarded : (PatternKind.recursive written [] [] designation).guard? env.view span subject = none) :
    Pass.lowerPattern point span subject ⟨mark, .recursive written [] [] designation⟩ env before =
      .ok ({}, before) := by
  have rest (narrowed : Subject) : (do
      let members := (← Pass.types).components narrowed.type 0
      let items ← Pass.lowerPositional point span narrowed members []
      let others ← Pass.lowerProperties point span narrowed []
      let bound ← Pass.designate point span mark designation written narrowed.type narrowed.read
      return (((TestParts.append {} items).append others).append bound) : Pass TestParts) env before =
        .ok ({}, before) := by
    rw [Pass.bind_ok (Pass.types_ok env before), Pass.bind_ok lowerPositional_nil,
      Pass.bind_ok (show Pass.lowerProperties point span narrowed [] env before = _ from rfl),
      Pass.bind_ok (Pass.designate_unnamed unnamed)]
    rfl
  unfold Pass.lowerPattern
  refine Pass.inPattern_ok ?_
  unfold Pass.lowerPatternKind
  cases written with
  | absent =>
    have isValue : env.view.types.isValueType subject.type = true :=
      nullGuard?_none_iff.mp unguarded
    refine (Pass.bind_ok (Pass.types_ok env before)).trans ?_
    rw [isValue]
    exact rest subject
  | _ =>
    have noGuard : subject.typeGuard? env.view span _ _ = none := unguarded
    refine (Pass.bind_ok (Pass.view_ok env before)).trans ?_
    refine (Pass.bind_ok typeCheck_eq).trans ?_
    rw [noGuard]
    exact rest _

theorem patternCondition_accepts (unnamed : isDesignation designation = false)
    (unguarded : (PatternKind.recursive written [] [] designation).guard? env.view span subject = none) :
    ∃ condition after,
      Pass.patternCondition point span subject ⟨mark, .recursive written [] [] designation⟩ env before =
        .ok (condition, after) ∧
      ∀ (program : Program) (scope : Nat) (frame : Frame) (machine middle : Machine),
        Evaluates program scope frame subject.expr machine .null middle →
        after.DeclaredAt point scope middle →
        ∃ finish, Evaluates program scope frame condition machine (.bool true) finish := by
  have holds (span : Span) (program : Program) (scope : Nat) (frame : Frame) (machine : Machine) :
      Evaluates program scope frame (({} : TestParts).condition span) machine (.bool true) machine :=
    .literal span (.bool true) machine
  unfold Pass.patternCondition
  rw [Pass.bind_ok (Pass.view_ok env before)]
  split
  · rw [Pass.bind_ok (lowerPattern_unguarded unnamed unguarded)]
    exact ⟨_, _, rfl, fun program scope frame machine _ _ _ =>
      ⟨machine, holds span program scope frame machine⟩⟩
  · obtain ⟨name, drawn, drew⟩ : ∃ name drawn, Pass.temporary point "t" subject.type span env before =
        .ok (name, drawn) := ⟨_, _, rfl⟩
    have stable : (PatternKind.recursive written [] [] designation).guard? env.view span
        { subject with expr := span.ident name } = none := by
      rw [guard?_none_iff rfl] at unguarded ⊢
      exact unguarded
    have lowered : Pass.lowerPattern point span _ ⟨mark, _⟩ env drawn = .ok ({}, drawn) :=
      lowerPattern_unguarded unnamed stable
    rw [Pass.bind_ok drew, Pass.bind_ok lowered]
    exact ⟨_, _, rfl, fun program scope frame machine middle isNull declared =>
      ⟨_, .seq (.single (.assign isNull nofun (drawn_declared drew lowered declared)))
        (holds span program scope frame _)⟩⟩

end Unguarded

/-! ### Sequences -/

section Sequences

variable {program : Program} {scope : Nat} {frame : Frame} {span : Span} {machine middle : Machine}

def Throws (program : Program) (scope : Nat) (frame : Frame) (node : Expr) (before : Machine) : Prop :=
  ∃ enough, ∀ fuel, enough ≤ fuel →
    ∃ value after, Eval.run program fuel (.eval node scope frame) before = (.error (.throw value), after)

namespace Throws

theorem binary {op : BinaryOp} {left right : Expr} (throws : Throws program scope frame left machine) :
    Throws program scope frame (span.binary op left right) machine := by
  obtain ⟨enough, runs⟩ := throws
  refine ⟨enough + 1, fun fuel bound => ?_⟩
  obtain _ | rest := fuel
  · omega
  obtain ⟨value, after, ran⟩ := runs rest (by omega)
  exact ⟨value, after, Eval.bind_error ran⟩

theorem conjunction {first : Expr} {rest : List Expr}
    (throws : Throws program scope frame first machine) :
    Throws program scope frame (span.conjunction (first :: rest)) machine := by
  change Throws program scope frame (rest.foldl (span.binary .and) first) machine
  induction rest generalizing first with
  | nil => exact throws
  | cons next rest ih => exact ih throws.binary

theorem member_null (isMember : (name == "HasValue") = false)
    (isNull : Evaluates program scope frame node machine .null middle) :
    Throws program scope frame (span.member node name) machine := by
  obtain ⟨enough, runs⟩ := isNull
  refine ⟨enough + 1, fun fuel bound => ?_⟩
  obtain _ | rest := fuel
  · omega
  obtain ⟨value, after, raised⟩ : ∃ value after,
      (Machine.raiseNull : Eval Value) middle = (.error (.throw value), after) := ⟨_, _, rfl⟩
  refine ⟨value, after, ?_⟩
  change (Eval.run program rest (.eval node scope frame) >>= fun target =>
    Eval.getMember program (Eval.run program rest) target name) machine = _
  rw [Eval.bind_ok (runs rest (by omega)), Eval.getMember, isMember]
  exact raised

theorem seq {effect : Expr} {value : Value}
    (sets : Evaluates program scope frame effect machine value middle)
    (throws : Throws program scope frame node middle) :
    Throws program scope frame (span.seq [effect] node) machine := by
  obtain ⟨setsEnough, setsRun⟩ := (EvaluatesAll.single sets).answers
  obtain ⟨nodeEnough, nodeRuns⟩ := throws
  refine ⟨max setsEnough nodeEnough + 1, fun fuel bound => ?_⟩
  obtain _ | rest := fuel
  · omega
  obtain ⟨thrown, after, ran⟩ := nodeRuns rest (by omega)
  refine ⟨thrown, after, ?_⟩
  change (Eval.evalAll (Eval.run program rest) [effect] scope frame >>= fun _ =>
    Eval.run program rest (.eval node scope frame)) machine = _
  rw [Eval.bind_ok (setsRun rest (by omega))]
  exact ran

end Throws

variable {env : PassEnv} {before after : PassState} {point : InstallPoint} {subject : Subject}
  {mark : Mark} {parts : TestParts} {elements : List Pattern} {designation : String}

theorem lowerPattern_measures (unguarded : subject.nullGuard? env.view span = none)
    (ran : Pass.lowerPattern point span subject ⟨mark, .list elements designation⟩ env before =
      .ok (parts, after)) :
    ∃ op count rest, parts.checks = span.binary op
      (span.member subject.read (env.view.types.lengthMember subject.type)) (span.intLit count) :: rest := by
  unfold Pass.lowerPattern at ran
  replace ran := Pass.inPattern_eq_ok ran
  unfold Pass.lowerPatternKind at ran
  obtain ⟨list, _, ranList, ran⟩ := Pass.bind_eq_ok ran
  obtain ⟨checks, _, ranChecks, ran⟩ := Pass.bind_eq_ok ran
  obtain ⟨others, _, _, ran⟩ := Pass.bind_eq_ok ran
  obtain ⟨bound, _, _, ran⟩ := Pass.bind_eq_ok ran
  cases ran
  cases ranList
  obtain ⟨types, _, typed, ranChecks⟩ := Pass.bind_eq_ok ranChecks
  cases typed
  cases ranChecks
  rw [if_pos (nullGuard?_none_iff.mp unguarded)]
  simp only [List.nil_append]
  split
  · exact ⟨_, _, _, rfl⟩
  · exact ⟨_, _, _, rfl⟩

theorem patternCondition_throws (unguarded : subject.nullGuard? env.view span = none)
    (ran : Pass.patternCondition point span subject ⟨mark, .list elements designation⟩ env before =
      .ok (condition, after))
    (isNull : Evaluates program scope frame subject.read machine .null middle)
    (isNullOnce : Evaluates program scope frame subject.expr machine .null middle)
    (declared : after.DeclaredAt point scope middle) :
    Throws program scope frame condition machine := by
  have isMember (type : Ty) : (env.view.types.lengthMember type == "HasValue") = false := by
    unfold Universe.lengthMember
    split <;> rfl
  obtain ⟨parts, lowered, rfl⟩ | ⟨name, drawn, parts, drew, lowered, rfl⟩ := patternCondition_cases ran
  · obtain ⟨op, count, rest, starts⟩ := lowerPattern_measures unguarded lowered
    unfold TestParts.condition
    rw [starts]
    exact .conjunction (.binary (.member_null (isMember _) isNull))
  have isDeclared := drawn_declared drew lowered declared
  have isValue : env.view.types.isValueType subject.type = true :=
    nullGuard?_none_iff.mp unguarded
  have stable : Pass.Subject.nullGuard? env.view span { subject with expr := span.ident name } = none :=
    nullGuard?_none_iff.mpr isValue
  obtain ⟨op, count, rest, starts⟩ := lowerPattern_measures stable lowered
  unfold TestParts.condition
  rw [starts]
  refine .seq (.assign isNullOnce nofun isDeclared) ?_
  refine .conjunction (.binary (.member_null (isMember _) (.ident ?_)))
  rw [Machine.valueOf?_assign isDeclared, if_pos rfl]

end Sequences

/-! ## Null and structural patterns -/

/-- Structural patterns and `null`.  There is no guard exactly for subjects of value types, those
    that can be `null` included, that need no test to be of the type asked for.  A guarded pattern
    turns `null` away without an exception: its condition is false, and so is every condition in
    which it stands behind checks that hold, whatever pattern it is nested in.  An unguarded
    recursive pattern that asks for no part accepts `null`, and an unguarded list pattern asks it
    for its length and throws. -/
theorem structuralTests_reject_null (env : PassEnv) (before : PassState) (point : InstallPoint)
    (span : Span) (subject : Subject) (mark : Mark) (kind : PatternKind)
    (structural : kind.isStructural = true) :
    (kind.guard? env.view span subject = none ↔
      env.view.types.isValueType subject.type = true ∧ kind.isOfHead env.view subject = true) ∧
    ∀ (program : Program) (scope : Nat) (frame : Frame) (machine middle : Machine),
      Evaluates program scope frame subject.read machine .null middle →
      ((kind.guard? env.view span subject).isSome →
        (∀ condition after, Pass.patternCondition point span subject ⟨mark, kind⟩ env before =
            .ok (condition, after) →
          Evaluates program scope frame subject.expr machine .null middle →
          after.DeclaredAt point scope middle →
          ∃ finish, Evaluates program scope frame condition machine (.bool false) finish) ∧
        ∀ action, LowersNested point span ⟨mark, kind⟩ subject action →
          ∀ parts after, action env before = .ok (parts, after) → after.DeclaredAt point scope middle →
            ∀ (left right : TestParts) (start : Machine),
              ChecksTo program scope frame left.checks start true machine →
              ∃ finish, Evaluates program scope frame
                ((left.append (parts.append right)).condition span) start (.bool false) finish) ∧
      (kind.guard? env.view span subject = none →
        Evaluates program scope frame subject.expr machine .null middle →
        (∀ written designation, kind = .recursive written [] [] designation →
          isDesignation designation = false →
          ∃ condition after, Pass.patternCondition point span subject ⟨mark, kind⟩ env before =
              .ok (condition, after) ∧
            (after.DeclaredAt point scope middle →
              ∃ finish, Evaluates program scope frame condition machine (.bool true) finish)) ∧
        ∀ elements designation, kind = .list elements designation →
          ∀ condition after, Pass.patternCondition point span subject ⟨mark, kind⟩ env before =
              .ok (condition, after) →
            after.DeclaredAt point scope middle → Throws program scope frame condition machine) := by
  refine ⟨guard?_none_iff structural, fun program scope frame machine middle isNull =>
    ⟨fun guarded => ⟨?_, ?_⟩, fun unguarded isNullOnce => ⟨?_, ?_⟩⟩⟩
  · intro condition after ran isNullOnce declared
    exact patternCondition_rejects structural guarded ran isNull isNullOnce declared
  · intro action lowers parts after ran declared left right start held
    obtain ⟨finish, failed⟩ := lowers.rejects structural guarded ran isNull declared
    refine ⟨finish, ChecksTo.conjunction (.append_false ?_)⟩
    exact held.append_true failed.append_false
  · rintro written designation rfl unnamed
    obtain ⟨condition, after, ran, accepts⟩ := patternCondition_accepts unnamed unguarded
    exact ⟨condition, after, ran, accepts program scope frame machine middle isNullOnce⟩
  · rintro elements designation rfl condition after ran declared
    exact patternCondition_throws unguarded ran isNull isNullOnce declared

def presenceKind : PatternKind := .recursive .absent [] [] ""

def absentMachine : Machine := { scopes := #[⟨[("x", .null)], none⟩] }

theorem structuralTests_reject_null_nullable :
    presenceKind.isStructural = true ∧
    (∃ condition after finish,
      Pass.patternCondition (.stmt 10) ⟨0, 0⟩ (testSubject (.nullable .int) "x")
        ⟨.numbered 2, presenceKind⟩ (testEnv ⟨[], none, []⟩) testState = .ok (condition, after) ∧
      Evaluates ⟨[]⟩ 0 ⟨.null, none⟩ condition absentMachine (.bool true) finish) ∧
    ∃ condition after finish,
      Pass.patternCondition (.stmt 10) ⟨0, 0⟩ (testSubject .string "x") ⟨.numbered 2, presenceKind⟩
        (testEnv ⟨[], none, []⟩) testState = .ok (condition, after) ∧
      Evaluates ⟨[]⟩ 0 ⟨.null, none⟩ condition absentMachine (.bool false) finish := by
  have isNull (mark : Mark) : Evaluates ⟨[]⟩ 0 ⟨.null, none⟩ ⟨mark, .ident "x"⟩ absentMachine .null
      absentMachine := .of_step 0 fun _ _ => rfl
  refine ⟨rfl, ?_, ?_⟩
  · have tests := structuralTests_reject_null (testEnv ⟨[], none, []⟩) testState (.stmt 10) ⟨0, 0⟩
      (testSubject (.nullable .int) "x") (.numbered 2) presenceKind rfl
    obtain ⟨_, unguarded⟩ := tests.2 ⟨[]⟩ 0 ⟨.null, none⟩ absentMachine absentMachine (isNull _)
    obtain ⟨accepts, _⟩ := unguarded rfl (isNull _)
    obtain ⟨condition, after, ran, accepts⟩ := accepts .absent "" rfl rfl
    cases ran
    obtain ⟨finish, holds⟩ := accepts nofun
    exact ⟨_, _, finish, rfl, holds⟩
  · have tests := structuralTests_reject_null (testEnv ⟨[], none, []⟩) testState (.stmt 10) ⟨0, 0⟩
      (testSubject .string "x") (.numbered 2) presenceKind rfl
    obtain ⟨guarded, _⟩ := tests.2 ⟨[]⟩ 0 ⟨.null, none⟩ absentMachine absentMachine (isNull _)
    obtain ⟨finish, rejected⟩ := (guarded rfl).1 _ _ rfl (isNull _) nofun
    exact ⟨_, _, finish, rfl, rejected⟩

end Unsugar
