import Unsugar.Proofs.Patterns.NullTests

open List

namespace Unsugar

open Pass (Subject TestParts nullCheck)

/-! # How often a subject is read

A subject that is not simple should be evaluated once by the condition that a test
becomes.  A pattern that may read it more often than once reads a temporary; the
others read the subject itself, and some of them never do: what they answer is
known beforehand, and the subject is dropped.
-/

/-! ## Forms that read an expression -/

variable {early : Bool} {value : Expr} {answer : Option Bool} {name : String} {written : TypeSyntax}
  {answers : List (Option Bool)}

section Forms

/-- Whether an expression is only allowed as the argument of a call. -/
def Expr.isOut (node : Expr) : Bool :=
  match node.kind with
  | .out _ => true
  | _ => false

variable (program : Program) (scope : Nat) (frame : Frame)

/-- A form over an expression that evaluates it once and then goes on with its value.  What comes
    afterwards does not depend on the expression, and is not reached if there is no value. -/
def ReadsOnce (form : Expr → Expr) : Prop :=
  ∃ depth enough, ∃ rest : Nat → Value → Eval Value, ∀ node fuel, node.isOut = false → enough ≤ fuel →
    Eval.run program (fuel + depth) (.eval (form node) scope frame) =
      Eval.run program fuel (.eval node scope frame) >>= rest fuel

/-- A form over an expression that is known to be true or false, and never evaluates it. -/
def Ignores (form : Expr → Expr) (answer : Bool) : Prop :=
  ∃ enough, ∀ node fuel, node.isOut = false → enough ≤ fuel →
    Eval.run program fuel (.eval (form node) scope frame) = pure (.bool answer)

def Answering (form : Expr → Expr) : Option Bool → Prop
  | some answer => Ignores program scope frame form answer
  | none => ReadsOnce program scope frame form

/-- What `left && right` answers, where `false` is the answer that is reached early, and what
    `left || right` does, where it is `true`.  At most one of them reads. -/
def shortAnswer (early : Bool) : Option Bool → Option Bool → Option Bool
  | some answer, other => if answer = early then some early else other
  | none, _ => none

variable {program scope frame} {form left right : Expr → Expr} {span : Span}
  {forms : List (Expr → Expr)}

theorem ReadsOnce.of_step
    (steps : ∀ recur : Answer, ∃ next : Value → Eval Value, ∀ node, node.isOut = false →
      Eval.step program recur (.eval (form node) scope frame) =
        recur (.eval node scope frame) >>= next) :
    ReadsOnce program scope frame form := by
  have runs (fuel : Nat) := steps (Eval.run program fuel)
  choose rest reads using runs
  exact ⟨1, 0, rest, fun node fuel notOut _ => reads fuel node notOut⟩

theorem run_short {fuel : Nat} {left right : Expr} : Eval.run program (fuel + 1)
        (.eval (span.binary (if early then .or else .and) left right) scope frame) =
      Eval.run program fuel (.eval left scope frame) >>= fun
        | .bool answer =>
          if answer = early then pure (.bool early)
          else Eval.run program fuel (.eval right scope frame)
        | _ => Eval.run program fuel (.eval right scope frame) := by
  change Eval.evalBinary program (Eval.run program fuel) (if early then .or else .and) left right
    scope frame = _
  refine bind_congr fun value => ?_
  cases value with
  | bool answer =>
    cases early <;> cases answer
    · rfl
    · exact bind_pure _
    · exact bind_pure _
    · rfl
  | _ => cases early <;> exact bind_pure _

namespace Answering

theorem short (early : Bool) {first second : Option Bool}
    (answersLeft : Answering program scope frame left first)
    (answersRight : Answering program scope frame right second)
    (readOnce : first = none → second ≠ none) :
    Answering program scope frame
      (fun node => span.binary (if early then .or else .and) (left node) (right node))
      (shortAnswer early first second) := by
  cases first with
  | some answer =>
    obtain ⟨leftEnough, ignores⟩ := answersLeft
    have skips (node : Expr) (fuel : Nat) (notOut : node.isOut = false) (bound : leftEnough ≤ fuel) :
        Eval.run program (fuel + 1) (.eval
          (span.binary (if early then .or else .and) (left node) (right node)) scope frame) =
        if answer = early then pure (.bool early)
        else Eval.run program fuel (.eval (right node) scope frame) := by
      rw [run_short, ignores node fuel notOut bound, pure_bind]
    by_cases isEarly : answer = early
    · rw [show shortAnswer early (some answer) second = some early from if_pos isEarly]
      refine ⟨leftEnough + 1, fun node fuel notOut bound => ?_⟩
      obtain _ | rest := fuel
      · omega
      rw [skips node rest notOut (by omega), if_pos isEarly]
    · rw [show shortAnswer early (some answer) second = second from if_neg isEarly]
      cases second with
      | some other =>
        obtain ⟨rightEnough, answers⟩ := answersRight
        refine ⟨max leftEnough rightEnough + 1, fun node fuel notOut bound => ?_⟩
        obtain _ | rest := fuel
        · omega
        rw [skips node rest notOut (by omega), if_neg isEarly, answers node rest notOut (by omega)]
      | none =>
        obtain ⟨depth, rightEnough, next, reads⟩ := answersRight
        refine ⟨depth + 1, max leftEnough rightEnough, next, fun node fuel notOut bound => ?_⟩
        rw [← Nat.add_assoc, skips node (fuel + depth) notOut (by omega), if_neg isEarly,
          reads node fuel notOut (by omega)]
  | none =>
    obtain ⟨depth, leftEnough, next, reads⟩ := answersLeft
    obtain ⟨other, rfl⟩ := Option.ne_none_iff_exists'.mp (readOnce rfl)
    obtain ⟨rightEnough, answers⟩ := answersRight
    refine ⟨depth + 1, max leftEnough rightEnough, fun fuel value => next fuel value >>= fun
      | .bool answer => if answer = early then pure (.bool early) else pure (.bool other)
      | _ => pure (.bool other), fun node fuel notOut bound => ?_⟩
    rw [← Nat.add_assoc, run_short, reads node fuel notOut (by omega), bind_assoc,
      answers node (fuel + depth) notOut (by omega)]

theorem not {inner : Option Bool} (answers : Answering program scope frame form inner) :
    Answering program scope frame (fun node => span.unary .not (form node)) (inner.map (!·)) := by
  have run_not (fuel : Nat) (operand : Expr) :
      Eval.run program (fuel + 1) (.eval (span.unary .not operand) scope frame) =
        Eval.run program fuel (.eval operand scope frame) >>= Eval.unary .not := rfl
  cases inner with
  | some answer =>
    obtain ⟨enough, ignores⟩ := answers
    refine ⟨enough + 1, fun node fuel notOut bound => ?_⟩
    obtain _ | rest := fuel
    · omega
    rw [run_not, ignores node rest notOut (by omega), pure_bind]
    rfl
  | none =>
    obtain ⟨depth, enough, next, reads⟩ := answers
    refine ⟨depth + 1, enough, fun fuel value => next fuel value >>= Eval.unary .not,
      fun node fuel notOut bound => ?_⟩
    rw [← Nat.add_assoc, run_not, reads node fuel notOut bound, bind_assoc]

theorem literal (answer : Bool) :
    Answering program scope frame (fun _ => span.boolLit answer) (some answer) := by
  refine ⟨1, fun node fuel notOut bound => ?_⟩
  obtain _ | rest := fuel
  · omega
  rfl

theorem seq (reads : ReadsOnce program scope frame form) :
    Answering program scope frame (fun node => span.seq [form node] value) none := by
  obtain ⟨depth, enough, next, runs⟩ := reads
  refine ⟨depth + 1, enough, fun fuel result => next fuel result >>= fun _ =>
    Eval.run program (fuel + depth) (.eval value scope frame), fun node fuel notOut bound => ?_⟩
  have run_seq (fuel : Nat) (effect : Expr) :
      Eval.run program (fuel + 1) (.eval (span.seq [effect] value) scope frame) =
        Eval.run program fuel (.eval effect scope frame) >>= fun _ =>
          Eval.run program fuel (.eval value scope frame) := by
    change ([effect].mapM (fun node => Eval.run program fuel (.eval node scope frame)) >>= fun _ =>
      Eval.run program fuel (.eval value scope frame)) = _
    simp only [mapM_cons, mapM_nil, bind_assoc, pure_bind]
  rw [← Nat.add_assoc, run_seq, runs node fuel notOut bound, bind_assoc]

theorem foldl {first : Option Bool} (answersFirst : Answering program scope frame form first)
    (each : Forall₂ (Answering program scope frame) forms answers)
    (once : (first :: answers).countP Option.isNone ≤ 1) :
    Answering program scope frame
      (fun node => (forms.map (· node)).foldl (span.binary .and) (form node))
      (answers.foldl (shortAnswer false) first) := by
  induction each generalizing form first with
  | nil => exact answersFirst
  | @cons next answer forms answers answersNext _ ih =>
    refine ih (answersFirst.short false answersNext ?_) ?_
    · rintro rfl rfl
      simp at once
    · cases first with
      | none =>
        simp only [countP_cons, Option.isNone_none, if_true, shortAnswer] at once ⊢
        omega
      | some answer =>
        simp only [countP_cons, Option.isNone_some, Bool.false_eq_true, if_false,
          shortAnswer] at once ⊢
        split
        · simp only [Option.isNone_some, Bool.false_eq_true, if_false]
          omega
        · omega

theorem conjunction (each : Forall₂ (Answering program scope frame) forms answers)
    (once : answers.countP Option.isNone ≤ 1) :
    Answering program scope frame (fun node => span.conjunction (forms.map (· node)))
      (answers.foldl (shortAnswer false) (some true)) := by
  cases each with
  | nil => exact .literal true
  | cons answersFirst others => exact answersFirst.foldl others once

end Answering

/-! ### Tests of an expression -/

namespace ReadsOnce

theorem binary (op : BinaryOp) (other : Expr) :
    ReadsOnce program scope frame fun node => span.binary op node other :=
  .of_step fun _ => ⟨_, fun _ _ => rfl⟩

theorem typeTest (type : TypeSyntax) :
    ReadsOnce program scope frame fun node => span.typeTest node type :=
  .of_step fun _ => ⟨_, fun _ _ => rfl⟩

theorem assign (name : String) :
    ReadsOnce program scope frame fun node => span.assign (span.ident name) node :=
  .of_step fun _ => ⟨_, fun _ _ => rfl⟩

theorem writeBack_notOut {recur : Answer} {callee : Nat} {node other : Expr}
    (notOut : node.isOut = false)
    (otherNotOut : other.isOut = false) {args : List Expr} {params : List Param} :
    Eval.writeBack recur callee scope frame (node :: args) params =
      Eval.writeBack recur callee scope frame (other :: args) params := by
  have skips {arg : Expr} (isValue : arg.isOut = false) (param : Param) (params : List Param) :
      Eval.writeBack recur callee scope frame (arg :: args) (param :: params) =
        Eval.writeBack recur callee scope frame args params := by
    unfold Expr.isOut at isValue
    rw [Eval.writeBack]
    split
    · rename_i isOut
      rw [isOut] at isValue
      cases isValue
    · rfl
  cases params with
  | nil => rfl
  | cons param params => rw [skips notOut, skips otherNotOut]

def calledMember (program : Program) (scope : Nat) (frame : Frame) (receiver : Expr)
    (name : String) (args : List Expr) (recur : Answer) (values : List Value) : Eval Value := do
  let result ← Eval.callMember program recur receiver name values scope frame
  match result.params with
  | some (params, inner) => Eval.writeBack recur inner scope frame args params
  | none => pure ()
  return result.value

theorem methodCall (receiver : Expr) (name : String) (other : Expr) :
    ReadsOnce program scope frame fun node => span.methodCall receiver name [node, other] := by
  let finish (recur : Answer) (first : Expr) :=
    calledMember program scope frame receiver name [first, other] recur
  refine .of_step fun recur => ⟨fun value => recur (.eval other scope frame) >>= fun last =>
    finish recur span.nullLit [value, last], fun node notOut => ?_⟩
  have sameBack : finish recur node = finish recur span.nullLit := by
    refine funext fun values => bind_congr fun result => ?_
    cases result.params with
    | none => rfl
    | some entry =>
      have isLiteral : Expr.isOut span.nullLit = false := rfl
      dsimp only
      rw [writeBack_notOut notOut isLiteral]
  change ([node, other].mapM (fun node => recur (.eval node scope frame)) >>= finish recur node) = _
  simp only [mapM_cons, mapM_nil, bind_assoc, pure_bind, sameBack]

end ReadsOnce

end Forms

/-! ## What patterns make of a subject -/

/-- What a pattern that reads its subject at most once makes of it. -/
structure Usage where
  checks : List (Option Bool) := []
  /-- How many variables it binds to the subject. -/
  binds : Nat := 0

namespace Usage

def append (left right : Usage) : Usage :=
  ⟨left.checks ++ right.checks, left.binds + right.binds⟩

/-- What the checks and the assignments answer together; without an answer the subject is read. -/
def answer? (usage : Usage) : Option Bool :=
  (usage.checks ++ if usage.binds = 0 then [] else [none]).foldl (shortAnswer false) (some true)

def reads (usage : Usage) : Nat := usage.checks.countP Option.isNone + usage.binds

end Usage

/-- Whether it is known that a subject is of a type and no `null` has to be excluded. -/
def Pass.Subject.isSure (view : View) (subject : Subject) (target : Ty) : Bool :=
  view.types.isValueType subject.type && (subject.conversion view target).isIdentityOrReference

mutual

/-- What a pattern makes of its subject, part by part. -/
def Pattern.usage (view : View) (subject : Subject) : Pattern → Usage
  | ⟨_, kind⟩ => kind.usage view subject

def PatternKind.usage (view : View) (subject : Subject) : PatternKind → Usage
  | .discard => {}
  | .paren inner => inner.usage view subject
  | .var name => { binds := if isDesignation name then 1 else 0 }
  | .type written =>
    { checks := if subject.isSure view (view.bind written) then [] else [none] }
  | .declaration written name =>
    { checks := if subject.isSure view (view.bind written) then [] else [none]
      binds := if isDesignation name then 1 else 0 }
  | .and left right => (left.usage view subject).append (right.usage view subject)
  | .or left right =>
    { checks := [shortAnswer true (left.usage view subject).answer?
        (right.usage view subject).answer?] }
  | .not inner =>
    { checks := [if inner.isNullConstant view then none
        else (inner.usage view subject).answer?.map (!·)] }
  | .constant _ | .relational .. | .recursive .. | .list .. => { checks := [none] }
  | .slice _ => {}

end

section Usages

theorem foldl_isSome {first : Option Bool} (known : (first :: answers).countP Option.isNone = 0) :
    (answers.foldl (shortAnswer false) first).isSome := by
  induction answers generalizing first with
  | nil => cases first <;> simp_all
  | cons next answers ih =>
    refine ih ?_
    cases first <;> cases next <;> simp_all [shortAnswer]
    split <;> nofun

theorem Usage.reads_pos {usage : Usage} (reads : usage.answer? = none) : 1 ≤ usage.reads := by
  by_contra noReads
  have known : usage.reads = 0 := by omega
  obtain ⟨noChecks, noBinds⟩ := Nat.add_eq_zero_iff.mp known
  have isSome : usage.answer?.isSome := by
    unfold Usage.answer?
    refine foldl_isSome ?_
    simp [noBinds, noChecks]
  rw [reads] at isSome
  cases isSome

variable {view : View} {subject : Subject}

section

variable
  (own : ∀ source, subject.source = some source → view.classifyConversion source subject.type =
      .identity)

include own

theorem Pass.Subject.conversion_self (isValue : view.types.isValueType subject.type = true) :
    subject.conversion view subject.type = .identity := by
  have known : subject.type ≠ .unknown := by
    intro isUnknown
    rw [isUnknown] at isValue
    cases isValue
  unfold Pass.Subject.conversion
  rw [if_neg known]
  split
  · exact own _ ‹_›
  · exact if_pos rfl

theorem Pass.Subject.isSure_self (isValue : view.types.isValueType subject.type = true) :
    subject.isSure view subject.type = true := by
  unfold Pass.Subject.isSure
  rw [isValue, subject.conversion_self own isValue]
  rfl

end

theorem Usage.reads_append (left right : Usage) :
    (left.append right).reads = left.reads + right.reads := by
  simp only [Usage.append, Usage.reads, countP_append]
  omega

theorem Usage.reads_single :
    (Usage.mk [answer] 0).reads = if answer = none then 1 else 0 := by
  cases answer <;> rfl

theorem Usage.reads_answer (usage : Usage) : (Usage.mk [usage.answer?] 0).reads ≤ usage.reads := by
  rw [reads_single]
  split
  · exact Usage.reads_pos ‹_›
  · exact Nat.zero_le _

theorem shortAnswer_reads {left right : Option Bool} :
    (Usage.mk [shortAnswer early left right] 0).reads ≤
      (Usage.mk [left] 0).reads + (Usage.mk [right] 0).reads := by
  cases left with
  | none => exact Nat.le_add_right _ _
  | some answer =>
    by_cases isEarly : answer = early
    · rw [show shortAnswer early (some answer) right = some early from if_pos isEarly]
      exact Nat.zero_le _
    · rw [show shortAnswer early (some answer) right = right from if_neg isEarly]
      exact Nat.le_add_left _ _

mutual

theorem Pattern.usage_reads (own : ∀ source, subject.source = some source →
      view.classifyConversion source subject.type = .identity) :
    (node : Pattern) → (node.usage view subject).reads ≤ node.reads view subject.type
  | ⟨_, kind⟩ => kind.usage_reads own

theorem PatternKind.usage_reads (own : ∀ source, subject.source = some source →
      view.classifyConversion source subject.type = .identity) :
    (kind : PatternKind) → (kind.usage view subject).reads ≤ kind.reads view subject.type
  | .discard => le_refl 0
  | .paren inner => inner.usage_reads own
  | .var name => by
    unfold PatternKind.usage PatternKind.reads
    split <;> simp [Usage.reads]
  | .type written => by
    unfold PatternKind.usage PatternKind.reads
    split <;> simp [Usage.reads]
  | .declaration written name => by
    have isOne : (if isDesignation name then 1 else 0) ≤ 1 := by
      split <;> omega
    have bound : 1 ≤ if view.bind written = subject.type ∧
        view.types.isValueType subject.type then 1 else 2 := by
      split <;> omega
    unfold PatternKind.usage PatternKind.reads
    split
    · simp only [Usage.reads, countP_nil, Nat.zero_add]
      exact isOne.trans bound
    · rename_i unsure
      have twice : ¬ (view.bind written = subject.type ∧ view.types.isValueType subject.type) := by
        rintro ⟨same, isValue⟩
        rw [same] at unsure
        exact unsure (subject.isSure_self own isValue)
      rw [if_neg twice]
      simp only [Usage.reads, countP_cons, countP_nil, Option.isNone_none, if_true]
      omega
  | .and left right => by
    unfold PatternKind.usage PatternKind.reads
    rw [Usage.reads_append]
    exact Nat.add_le_add (left.usage_reads own) (right.usage_reads own)
  | .or left right => by
    unfold PatternKind.usage PatternKind.reads
    exact shortAnswer_reads.trans (Nat.add_le_add
      ((left.usage view subject).reads_answer.trans (left.usage_reads own))
      ((right.usage view subject).reads_answer.trans (right.usage_reads own)))
  | .not inner => by
    unfold PatternKind.usage PatternKind.reads
    split
    · rename_i isNull
      exact (inner.reads_isNull subject.type isNull).ge
    · have negated (answer : Option Bool) :
          (Usage.mk [answer.map (!·)] 0).reads = (Usage.mk [answer] 0).reads := by
        cases answer <;> rfl
      rw [negated]
      exact (inner.usage view subject).reads_answer.trans (inner.usage_reads own)
  | .constant _ => le_refl 1
  | .relational _ value => by
    unfold PatternKind.usage PatternKind.reads
    split <;> simp [Usage.reads]
  | .recursive .. => by
    unfold PatternKind.usage PatternKind.reads
    simp [Usage.reads]
    omega
  | .list .. => by
    unfold PatternKind.usage PatternKind.reads
    simp [Usage.reads]
    omega
  | .slice none | .slice (some _) => Nat.zero_le _

end

end Usages

/-! ## Parts over a subject -/

section Parts

variable (program : Program) (scope : Nat) (frame : Frame) (span : Span)

/-- Parts over the expression that reads the subject do what a pattern makes of it. -/
structure Usage.Describes (usage : Usage) (parts : Expr → TestParts) : Prop where
  checks : ∃ forms, (∀ node, (parts node).checks = forms.map (· node)) ∧
    Forall₂ (Answering program scope frame) forms usage.checks
  assigns : ∃ names : List String, names.length = usage.binds ∧
    ∀ node, (parts node).assigns = names.map fun name => span.assign (span.ident name) node

namespace Usage.Describes

variable {program scope frame span} {usage other : Usage} {parts others : Expr → TestParts}

theorem nothing : ({} : Usage).Describes program scope frame span fun _ => {} :=
  ⟨⟨[], fun _ => rfl, .nil⟩, ⟨[], rfl, fun _ => rfl⟩⟩

theorem check {form : Expr → Expr} (answers : Answering program scope frame form answer) :
    (Usage.mk [answer] 0).Describes program scope frame span fun node => .check (form node) :=
  ⟨⟨[form], fun _ => rfl, .cons answers .nil⟩, ⟨[], rfl, fun _ => rfl⟩⟩

theorem bind (name : String) : (Usage.mk [] 1).Describes program scope frame span fun node =>
      { assigns := [span.assign (span.ident name) node] } :=
  ⟨⟨[], fun _ => rfl, .nil⟩, ⟨[name], rfl, fun _ => rfl⟩⟩

theorem append (first : usage.Describes program scope frame span parts)
    (second : other.Describes program scope frame span others) :
    (usage.append other).Describes program scope frame span fun node =>
      (parts node).append (others node) := by
  obtain ⟨⟨forms, areForms, answers⟩, ⟨names, count, areNames⟩⟩ := first
  obtain ⟨⟨moreForms, areMore, moreAnswers⟩, ⟨moreNames, moreCount, areMoreNames⟩⟩ := second
  refine ⟨⟨forms ++ moreForms, fun node => ?_, rel_append answers moreAnswers⟩,
    ⟨names ++ moreNames, ?_, fun node => ?_⟩⟩
  · simp only [TestParts.append, areForms, areMore, map_append]
  · simp only [Usage.append, length_append, count, moreCount]
  · simp only [TestParts.append, areNames, areMoreNames, map_append]

theorem condition (describes : usage.Describes program scope frame span parts)
    (once : usage.reads ≤ 1) :
    Answering program scope frame (fun node => (parts node).condition span) usage.answer? := by
  obtain ⟨⟨forms, areForms, answers⟩, ⟨names, count, areNames⟩⟩ := describes
  unfold Usage.reads at once
  unfold Usage.answer? TestParts.condition
  simp only [areForms, areNames]
  match names, count with
  | [], count =>
    have isNone : usage.binds = 0 := count.symm
    rw [if_pos isNone]
    simp only [map_nil, isEmpty_nil, if_true, append_nil]
    exact .conjunction answers (by omega)
  | [name], count =>
    have isOne : usage.binds = 1 := count.symm
    rw [isOne] at once ⊢
    have sets : Answering program scope frame
        (fun node => span.seq [span.assign (span.ident name) node] (span.boolLit true)) none :=
      .seq (.assign name)
    have joined : Answering program scope frame (fun node => span.conjunction
        ((forms ++ [fun node => span.seq [span.assign (span.ident name) node] (span.boolLit true)]).map
          (· node))) ((usage.checks ++ [none]).foldl (shortAnswer false) (some true)) := by
      refine .conjunction (rel_append answers (.cons sets .nil)) ?_
      rw [countP_append]
      exact once
    simpa only [map_append, map_cons, map_nil, isEmpty_cons, Bool.false_eq_true,
      if_false, Nat.one_ne_zero] using joined
  | _ :: _ :: _, count =>
    simp only [length_cons] at count
    omega

end Usage.Describes

end Parts

/-! ## Lowering against a subject that is read at most once -/

section Lowering

variable {env : PassEnv} {before after : PassState} {point : InstallPoint} {span : Span}
  {subject : Subject} {mark : Mark} {parts : TestParts}

/-- Lowering that succeeds with parts that an expression is put into, whatever is put there. -/
def Lowers (env : PassEnv) (span : Span) (subject : Subject) (usage : Usage)
    (lower : Subject → Pass TestParts) (before after : PassState) : Prop :=
  ∃ parts : Expr → TestParts,
    (∀ other, lower { subject with expr := other } env before = .ok (parts other.forget, after)) ∧
      ∀ program scope frame, usage.Describes program scope frame span parts

theorem designate_lowers {type : Ty}
    (ran : Pass.designate point span mark name written type value env before = .ok (parts, after)) :
    Lowers env span subject { binds := if isDesignation name then 1 else 0 }
      (fun subject => Pass.designate point span mark name written type subject.read) before after := by
  cases designates : isDesignation name with
  | false =>
    rw [Pass.designate_unnamed designates] at ran
    cases ran
    exact ⟨fun _ => {}, fun other => Pass.designate_unnamed designates, fun _ _ _ => .nothing⟩
  | true =>
    refine ⟨fun node => { assigns := [span.assign (span.ident name) node] }, fun other => ?_,
      fun _ _ _ => .bind name⟩
    unfold Pass.designate at ran ⊢
    simp only [designates, Bool.not_true, Bool.false_eq_true, if_false] at ran ⊢
    rw [Pass.bind_ok (Pass.view_ok env before)] at ran ⊢
    -- How the type is written down does not depend on the value.
    generalize env.view.declared? mark = declared at ran ⊢
    revert ran
    repeat' split
    all_goals
      intro ran
      obtain ⟨shown, middle, showed, ran⟩ := Pass.bind_eq_ok ran
      obtain ⟨_, hoisted, queued, ran⟩ := Pass.bind_eq_ok ran
      cases ran
      rw [Pass.bind_ok showed, Pass.bind_ok queued]
      rfl

theorem Lowers.check {lower : Subject → Pass TestParts} (form : Expr → Expr)
    (reads : ∀ program scope frame, ReadsOnce program scope frame form)
    (ran : ∀ other, lower { subject with expr := other } env before =
      .ok (.check (form other.forget), before)) :
    Lowers env span subject { checks := [none] } lower before before :=
  ⟨fun node => .check (form node), ran, fun program scope frame => by
    have answers : Answering program scope frame form none := reads program scope frame
    exact .check answers⟩

theorem constant_lowers :
    Lowers env span subject { checks := [none] }
      (fun subject => Pass.lowerPatternKind point span mark subject (.constant value)) before before := by
  obtain ⟨byValue, compares⟩ : ∃ byValue,
      Pass.comparesByValue subject.type value env before = .ok (byValue, before) := by
    unfold Pass.comparesByValue
    cases Pass.comparedByValue? subject.type with
    | none => exact ⟨false, rfl⟩
    | some type => exact ⟨_, rfl⟩
  have checks {form : Expr → Expr} (reads : ∀ program scope frame, ReadsOnce program scope frame form)
      (checked : ∀ other, Pass.constantCheck span { subject with expr := other } value env before =
        .ok (form other.forget, before)) :
      Lowers env span subject { checks := [none] }
        (fun subject => Pass.lowerPatternKind point span mark subject (.constant value)) before
        before := by
    refine .check form reads fun other => ?_
    unfold Pass.lowerPatternKind
    rw [Pass.bind_ok (checked other)]
    rfl
  unfold Pass.constantCheck at checks
  simp only [Pass.bind_ok (Pass.view_ok env before)] at checks
  cases isNull : env.view.isNull value with
  | true =>
    simp only [isNull, if_true] at checks
    exact checks (fun _ _ _ => .binary .eq span.nullLit) fun _ => rfl
  | false =>
    simp only [isNull, Bool.false_eq_true, if_false, Pass.bind_ok compares] at checks
    cases byValue with
    | true => exact checks (fun _ _ _ => .binary .eq value) fun _ => rfl
    | false => exact checks (fun _ _ _ => .methodCall _ "Equals" value) fun _ => rfl

theorem relational_lowers {op : Comparison}
    (directly : Pass.comparesDirectly subject.type (env.view.typeOf value) = true) :
    Lowers env span subject { checks := [none] }
      (fun subject => Pass.lowerPatternKind point span mark subject (.relational op value)) before
      before := by
  refine .check (span.binary op.toBinary · value) (fun _ _ _ => .binary op.toBinary value)
    fun other => ?_
  unfold Pass.lowerPatternKind Pass.relationalChecks
  rw [bind_assoc, Pass.bind_ok (Pass.typeOf_ok env value before), if_pos directly]
  rfl

theorem typeGuard?_forms {view : View} {span : Span} {subject : Subject} {target : Ty} :
    ∃ forms : List (Expr → Expr),
      (∀ other, (Pass.Subject.typeGuard? view span { subject with expr := other } target written).toList =
        forms.map (· other.forget)) ∧
      ∀ program scope frame, Forall₂ (Answering program scope frame) forms
        (if subject.isSure view target then [] else [none]) := by
  have reading (form : Expr → Expr) (reads : ∀ program scope frame, ReadsOnce program scope frame form)
      (program : Program) (scope : Nat) (frame : Frame) :
      Forall₂ (Answering program scope frame) [form] [none] :=
    .cons (reads program scope frame) .nil
  cases isSure : subject.isSure view target with
  | true =>
    refine ⟨[], fun other => ?_, fun _ _ _ => .nil⟩
    obtain ⟨isValue, keeps⟩ := Bool.and_eq_true_iff.mp isSure
    have unguarded : Pass.Subject.typeGuard? view span { subject with expr := other } target written =
        none := typeGuard?_none_iff.mpr ⟨isValue, keeps⟩
    rw [unguarded]
    rfl
  | false =>
    cases keeps : (subject.conversion view target).isIdentityOrReference with
    | true =>
      have isReference : view.types.isValueType subject.type = false := by
        unfold Pass.Subject.isSure at isSure
        rwa [keeps, Bool.and_true] at isSure
      refine ⟨[(span.binary .notEq · span.nullLit)], fun other => ?_,
        reading _ fun _ _ _ => .binary .notEq span.nullLit⟩
      have guarded : Pass.Subject.typeGuard? view span { subject with expr := other } target written =
          some (nullCheck span { subject with expr := other } .notEq) := by
        refine (if_pos keeps).trans ?_
        unfold Pass.Subject.nullGuard?
        rw [isReference]
        rfl
      rw [guarded]
      rfl
    | false =>
      refine ⟨[(span.typeTest · written)], fun other => ?_, reading _ fun _ _ _ => .typeTest written⟩
      have guarded : Pass.Subject.typeGuard? view span { subject with expr := other } target written =
          some (span.typeTest other.forget written) := if_neg (by
        change ¬ (subject.conversion view target).isIdentityOrReference = true
        rw [keeps]
        nofun)
      rw [guarded]
      rfl

theorem type_lowers : Lowers env span subject
      { checks := if subject.isSure env.view (env.view.bind written) then [] else [none] }
      (fun subject => Pass.lowerPatternKind point span mark subject (.type written)) before before := by
  obtain ⟨forms, areForms, answers⟩ := typeGuard?_forms
  refine ⟨fun node => { checks := forms.map (· node) }, fun other => ?_, fun program scope frame =>
    ⟨⟨forms, fun _ => rfl, answers program scope frame⟩, ⟨[], rfl, fun _ => rfl⟩⟩⟩
  unfold Pass.lowerPatternKind
  beta_reduce
  rw [Pass.bind_ok (Pass.view_ok env before), Pass.bind_ok typeCheck_eq, areForms]
  rfl

theorem declaration_lowers (own : ∀ source, subject.source = some source →
      env.view.classifyConversion source subject.type = .identity)
    (same : env.view.bind written = subject.type)
    (isValue : env.view.types.isValueType subject.type = true)
    (ran : Pass.lowerPatternKind point span mark subject (.declaration written name) env before =
      .ok (parts, after)) :
    Lowers env span subject { binds := if isDesignation name then 1 else 0 }
      (fun subject => Pass.lowerPatternKind point span mark subject (.declaration written name)) before
      after := by
  have checked (other : Expr) : Pass.typeCheck span { subject with expr := other }
      (env.view.bind written) written env before =
        .ok (([], { subject with expr := other }), before) := by
    have isIdentity : Pass.Subject.conversion env.view { subject with expr := other }
        (env.view.bind written) = .identity := by
      rw [same]
      exact subject.conversion_self own isValue
    rw [typeCheck_eq]
    unfold Pass.Subject.typeGuard? Pass.Subject.narrowed Pass.Subject.nullGuard?
    rw [isIdentity, isValue]
    rfl
  unfold Pass.lowerPatternKind at ran
  rw [Pass.bind_ok (Pass.view_ok env before), Pass.bind_ok (checked subject.expr)] at ran
  obtain ⟨bound, _, designated, ran⟩ := Pass.bind_eq_ok ran
  cases ran
  obtain ⟨parts, lowered, describes⟩ : Lowers env span subject _ _ before after :=
    designate_lowers designated
  refine ⟨parts, fun other => ?_, describes⟩
  unfold Pass.lowerPatternKind
  beta_reduce
  rw [Pass.bind_ok (Pass.view_ok env before), Pass.bind_ok (checked other)]
  exact (Pass.bind_ok (lowered other)).trans rfl

/-! ### Combinations -/

variable {middle : PassState} {first second : Subject → Pass TestParts} {usage other : Usage}

theorem Lowers.to (lowers : Lowers env span subject usage first before middle)
    (ran : first subject env before = .ok (parts, after)) :
    Lowers env span subject usage first before after := by
  obtain ⟨made, lowered, describes⟩ := lowers
  cases ran.symm.trans (lowered subject.expr)
  exact ⟨made, lowered, describes⟩

theorem Lowers.inPattern {kind : PatternKind} (lowers : Lowers env span subject usage
      (fun subject => Pass.lowerPatternKind point span mark subject kind) before after) :
    Lowers env span subject usage (fun subject => Pass.lowerPattern point span subject ⟨mark, kind⟩)
      before after := by
  obtain ⟨parts, lowered, describes⟩ := lowers
  refine ⟨parts, fun other => ?_, describes⟩
  unfold Pass.lowerPattern
  exact Pass.inPattern_ok (lowered other)

theorem Lowers.append (left : Lowers env span subject usage first before middle)
    (right : Lowers env span subject other second middle after) :
    Lowers env span subject (usage.append other)
      (fun subject => do
        let left ← first subject
        return left.append (← second subject)) before after := by
  obtain ⟨parts, lowered, describes⟩ := left
  obtain ⟨others, otherLowered, otherDescribes⟩ := right
  refine ⟨fun node => (parts node).append (others node), fun other => ?_, fun program scope frame =>
    (describes program scope frame).append (otherDescribes program scope frame)⟩
  beta_reduce
  rw [Pass.bind_ok (lowered other), Pass.bind_ok (otherLowered other)]
  rfl

theorem Lowers.or (left : Lowers env span subject usage first before middle)
    (right : Lowers env span subject other second middle after)
    (once : usage.reads + other.reads ≤ 1) :
    Lowers env span subject { checks := [shortAnswer true usage.answer? other.answer?] }
      (fun subject => do
        let left := (← first subject).condition span
        let right := (← second subject).condition span
        return .check (span.binary .or left right)) before after := by
  obtain ⟨parts, lowered, describes⟩ := left
  obtain ⟨others, otherLowered, otherDescribes⟩ := right
  refine ⟨fun node => .check (span.binary .or ((parts node).condition span)
    ((others node).condition span)), fun other => ?_, fun program scope frame => ?_⟩
  · beta_reduce
    rw [Pass.bind_ok (lowered other), Pass.bind_ok (otherLowered other)]
    rfl
  · refine .check (.short true ((describes program scope frame).condition (by omega))
      ((otherDescribes program scope frame).condition (by omega)) fun leftReads rightReads => ?_)
    have := Usage.reads_pos leftReads
    have := Usage.reads_pos rightReads
    omega

theorem Lowers.not (inner : Lowers env span subject usage first before after)
    (once : usage.reads ≤ 1) :
    Lowers env span subject { checks := [usage.answer?.map (!·)] }
      (fun subject => do
        let inner := (← first subject).condition span
        return .check (span.unary .not inner)) before after := by
  obtain ⟨parts, lowered, describes⟩ := inner
  refine ⟨fun node => .check (span.unary .not ((parts node).condition span)), fun other => ?_,
    fun program scope frame => .check (.not ((describes program scope frame).condition once))⟩
  beta_reduce
  rw [Pass.bind_ok (lowered other)]
  rfl

mutual

theorem lowerPattern_lowers (own : ∀ source, subject.source = some source →
      env.view.classifyConversion source subject.type = .identity) :
    (node : Pattern) → (before after : PassState) → (parts : TestParts) →
    node.reads env.view subject.type ≤ 1 →
    Pass.lowerPattern point span subject node env before = .ok (parts, after) →
    Lowers env span subject (node.usage env.view subject)
      (fun subject => Pass.lowerPattern point span subject node) before after
  | ⟨mark, kind⟩, before, after, parts, once, ran => by
    unfold Pass.lowerPattern at ran
    exact .inPattern (lowerPatternKind_lowers own kind before after parts once
      (Pass.inPattern_eq_ok ran))

theorem lowerPatternKind_lowers (own : ∀ source, subject.source = some source →
      env.view.classifyConversion source subject.type = .identity) {mark : Mark} :
    (kind : PatternKind) → (before after : PassState) → (parts : TestParts) →
    kind.reads env.view subject.type ≤ 1 →
    Pass.lowerPatternKind point span mark subject kind env before = .ok (parts, after) →
    Lowers env span subject (kind.usage env.view subject)
      (fun subject => Pass.lowerPatternKind point span mark subject kind) before after
  | .discard, before, after, parts, once, ran => by
    cases ran
    exact ⟨fun _ => {}, fun _ => rfl, fun _ _ _ => .nothing⟩
  | .paren inner, before, after, parts, once, ran => by
    unfold Pass.lowerPatternKind at ran ⊢
    exact lowerPattern_lowers own inner before after parts once ran
  | .var name, before, after, parts, once, ran => by
    unfold Pass.lowerPatternKind at ran ⊢
    exact designate_lowers ran
  | .constant value, before, after, parts, once, ran => by
    have lowers : Lowers env span subject { checks := [none] }
        (fun subject => Pass.lowerPatternKind point span mark subject (.constant value)) before before :=
      constant_lowers
    exact lowers.to ran
  | .type written, before, after, parts, once, ran => by
    have lowers : Lowers env span subject _
        (fun subject => Pass.lowerPatternKind point span mark subject (.type written)) before before :=
      type_lowers
    exact lowers.to ran
  | .declaration written name, before, after, parts, once, ran => by
    obtain ⟨same, isValue⟩ : env.view.bind written = subject.type ∧
        env.view.types.isValueType subject.type = true := by
      by_contra unsure
      have twice : (if env.view.bind written = subject.type ∧
          env.view.types.isValueType subject.type = true then 1 else 2) ≤ 1 := once
      rw [if_neg unsure] at twice
      omega
    have isSure : subject.isSure env.view (env.view.bind written) = true := by
      rw [same]
      exact subject.isSure_self own isValue
    unfold PatternKind.usage
    rw [if_pos isSure]
    exact declaration_lowers own same isValue ran
  | .relational op value, before, after, parts, once, ran => by
    have directly : Pass.comparesDirectly subject.type (env.view.typeOf value) = true := by
      by_contra indirect
      have thrice : (if Pass.comparesDirectly subject.type (env.view.typeOf value) then 1 else 3) ≤ 1 :=
        once
      rw [if_neg indirect] at thrice
      omega
    have lowers : Lowers env span subject { checks := [none] }
        (fun subject => Pass.lowerPatternKind point span mark subject (.relational op value)) before
        before := relational_lowers directly
    exact lowers.to ran
  | .and left right, before, after, parts, once, ran => by
    unfold Pass.lowerPatternKind at ran ⊢
    obtain ⟨one, middle, ranLeft, ran⟩ := Pass.bind_eq_ok ran
    obtain ⟨two, _, ranRight, ran⟩ := Pass.bind_eq_ok ran
    cases ran
    replace once : left.reads env.view subject.type + right.reads env.view subject.type ≤ 1 := once
    exact .append (lowerPattern_lowers own left before middle one (by omega) ranLeft)
      (lowerPattern_lowers own right middle after two (by omega) ranRight)
  | .or left right, before, after, parts, once, ran => by
    unfold Pass.lowerPatternKind at ran ⊢
    obtain ⟨one, middle, ranLeft, ran⟩ := Pass.bind_eq_ok ran
    obtain ⟨two, _, ranRight, ran⟩ := Pass.bind_eq_ok ran
    cases ran
    replace once : left.reads env.view subject.type + right.reads env.view subject.type ≤ 1 := once
    exact .or (lowerPattern_lowers own left before middle one (by omega) ranLeft)
      (lowerPattern_lowers own right middle after two (by omega) ranRight)
      ((Nat.add_le_add (left.usage_reads own) (right.usage_reads own)).trans once)
  | .not inner, before, after, parts, once, ran => by
    cases isNull : inner.isNullConstant env.view with
    | true =>
      have lowers : Lowers env span subject { checks := [none] }
          (fun subject => Pass.lowerPatternKind point span mark subject (.not inner)) before before := by
        refine .check (span.binary .notEq · span.nullLit) (fun _ _ _ => .binary .notEq span.nullLit)
          fun other => ?_
        exact lowerPatternKind_isNotNull (.not inner) isNull
      unfold PatternKind.usage
      rw [if_pos isNull]
      exact lowers.to ran
    | false =>
      unfold Pass.lowerPatternKind at ran ⊢
      simp only [Pass.bind_ok (Pass.view_ok env before), isNull, Bool.false_eq_true, if_false] at ran
      obtain ⟨one, _, ranInner, ran⟩ := Pass.bind_eq_ok ran
      cases ran
      have lowers : Lowers env span subject (inner.usage env.view subject)
          (fun subject => Pass.lowerPattern point span subject inner) before after :=
        lowerPattern_lowers own inner before after one once ranInner
      obtain ⟨made, lowered, describes⟩ := lowers.not ((inner.usage_reads own).trans once)
      unfold PatternKind.usage
      rw [isNull]
      refine ⟨made, fun other => ?_, describes⟩
      refine (Pass.bind_ok (Pass.view_ok env before)).trans ?_
      rw [isNull]
      exact lowered other
  | .recursive .., before, after, parts, once, ran => by
    unfold PatternKind.reads at once
    omega
  | .list .., before, after, parts, once, ran => by
    unfold PatternKind.reads at once
    omega
  | .slice _, before, after, parts, once, ran => by
    cases ran

end

/-! ### Conditions -/

/-- What a test answers whatever the subject is, in which case the subject is dropped. -/
def Pattern.foregone? (view : View) (subject : Subject) (node : Pattern) : Option Bool :=
  if node.reads view subject.type ≤ 1 then (node.usage view subject).answer? else none

theorem Ignores.not_readsOnce {program : Program} {scope : Nat} {frame : Frame} {form : Expr → Expr}
    {answer : Bool} (ignores : Ignores program scope frame form answer) :
    ¬ ReadsOnce program scope frame form := by
  rintro ⟨depth, readsEnough, rest, reads⟩
  obtain ⟨enough, skips⟩ := ignores
  let throwing : Expr := Span.expr ⟨0, 0⟩ (.throw (Span.nullLit ⟨0, 0⟩))
  let machine : Machine := {}
  let fuel := readsEnough + enough + 2
  have thrown : Eval.run program fuel (.eval throwing scope frame) machine =
      (.error (.throw .null), machine) := rfl
  have evaluated := reads throwing fuel rfl (by omega)
  rw [skips throwing (fuel + depth) rfl (by omega)] at evaluated
  have failed := congrFun evaluated machine
  rw [Eval.bind_error thrown] at failed
  cases failed

/-- The subject of a test is tested as its own type, so it needs no conversion if it is no `null`. -/
theorem View.classifyConversion_typeOf {view : View} {source : Expr}
    (notNull : (view.facts.get source.id).isNull = false) :
    view.classifyConversion source (view.typeOf source) = .identity := by
  rw [classifyConversion, notNull]
  exact if_pos rfl

/-- The condition of a test on a subject that is not simple, as a form over the subject: the subject
    itself, or a copy of it without identities, is put into it.  The condition evaluates the subject
    exactly once unless the answer is foregone, and otherwise never. -/
theorem patternCondition_readsOnce_iff (env : PassEnv) (before after : PassState)
    (point : InstallPoint) (span : Span) (subject : Subject) (node : Pattern) (condition : Expr)
    (own : ∀ source, subject.source = some source →
      env.view.classifyConversion source subject.type = .identity)
    (complex : subject.expr.isSimple = false)
    (ran : Pass.patternCondition point span subject node env before = .ok (condition, after)) :
    ∃ copy form : Expr → Expr, (copy = id ∨ copy = Expr.forget) ∧
      condition = form (copy subject.expr) ∧
      (∀ other : Expr, other.isSimple = false →
        Pass.patternCondition point span { subject with expr := other } node env before =
          .ok (form (copy other), after)) ∧
      ∀ (program : Program) (scope : Nat) (frame : Frame),
        (ReadsOnce program scope frame form ↔ node.foregone? env.view subject = none) ∧
        ∀ answer, node.foregone? env.view subject = some answer →
          Ignores program scope frame form answer := by
  suffices formed : ∃ copy form : Expr → Expr, (copy = id ∨ copy = Expr.forget) ∧
      (∀ other : Expr, other.isSimple = false →
        Pass.patternCondition point span { subject with expr := other } node env before =
          .ok (form (copy other), after)) ∧
      ∀ program scope frame, Answering program scope frame form (node.foregone? env.view subject) by
    obtain ⟨copy, form, copies, lowered, answers⟩ := formed
    have same := ran.symm.trans (lowered subject.expr complex)
    refine ⟨copy, form, copies, by cases same; rfl, lowered, fun program scope frame => ⟨?_, ?_⟩⟩
    · specialize answers program scope frame
      cases foregone : node.foregone? env.view subject with
      | none =>
        rw [foregone] at answers
        exact ⟨fun _ => rfl, fun _ => answers⟩
      | some answer =>
        rw [foregone] at answers
        have ignores : Ignores program scope frame form answer := answers
        exact ⟨fun reads => absurd reads ignores.not_readsOnce, nofun⟩
    · intro answer foregone
      have known := answers program scope frame
      rw [foregone] at known
      exact known
  unfold Pass.patternCondition at ran ⊢
  rw [Pass.bind_ok (Pass.view_ok env before)] at ran
  simp only [Pass.bind_ok (Pass.view_ok env before)]
  by_cases once : node.reads env.view subject.type ≤ 1
  · simp only [once, decide_true, Bool.true_or, if_true] at ran ⊢
    obtain ⟨parts, middle, lowered, ran⟩ := Pass.bind_eq_ok ran
    cases ran
    obtain ⟨made, lowers, describes⟩ : Lowers env span subject _
        (fun subject => Pass.lowerPattern point span subject node) before after :=
      lowerPattern_lowers own node before after parts once lowered
    refine ⟨Expr.forget, fun node => (made node).condition span, .inr rfl, fun other _ => ?_,
      fun program scope frame => ?_⟩
    · rw [Pass.bind_ok (lowers other)]
      rfl
    · unfold Pattern.foregone?
      rw [if_pos once]
      exact (describes program scope frame).condition ((node.usage_reads own).trans once)
  · simp only [once, complex, decide_false, Bool.or_false, Bool.false_eq_true, if_false] at ran ⊢
    obtain ⟨name, drawn, drew, ran⟩ := Pass.bind_eq_ok ran
    obtain ⟨parts, middle, lowered, ran⟩ := Pass.bind_eq_ok ran
    cases ran
    refine ⟨id, fun node => span.seq [span.assign (span.ident name) node] (parts.condition span), .inl rfl,
      fun other isComplex => ?_, fun program scope frame => ?_⟩
    · simp only [isComplex, Bool.or_self, Bool.false_eq_true, if_false]
      rw [Pass.bind_ok drew, Pass.bind_ok lowered]
      rfl
    · unfold Pattern.foregone?
      rw [if_neg once]
      exact .seq (.assign name)

end Lowering

def assignedSubject : Expr :=
  ⟨.numbered 2, .assign none ⟨.numbered 0, .ident "x"⟩ ⟨.numbered 1, .literal (.int 5)⟩⟩

def discardTest : Pattern := ⟨.numbered 3, .discard⟩

def assignedUnit : CompilationUnit :=
  let result : Expr := ⟨.numbered 4, .isPattern assignedSubject discardTest⟩
  let body : Stmt := ⟨.numbered 6, .block [⟨.numbered 5, .ret (some result)⟩]⟩
  ⟨[], none, [⟨"C", .classType, [], [], none, [], none,
    [⟨.method "M" [] [.plain (.simple "int") "x"] (.simple "bool") (.block body), [], ⟨0, 0⟩⟩],
    ⟨0, 0⟩⟩]⟩

def countingMachine : Machine := { scopes := #[⟨[("x", .int 0)], none⟩] }

theorem patternCondition_readsOnce_discard :
    (∀ source, some assignedSubject = some source →
      (testEnv assignedUnit).view.classifyConversion source .int = .identity) ∧
    assignedSubject.isSimple = false ∧
    ∃ condition,
      Pass.patternCondition (.stmt 5) ⟨0, 0⟩ ⟨assignedSubject, .int, some assignedSubject⟩ discardTest
        (testEnv assignedUnit) testState = .ok (condition, testState) ∧
      (∃ enough, ∀ fuel, enough ≤ fuel →
        Eval.run ⟨[]⟩ fuel (.eval condition 0 ⟨.null, none⟩) countingMachine =
          (.ok (.bool true), countingMachine)) ∧
      (Eval.run ⟨[]⟩ 3 (.eval assignedSubject 0 ⟨.null, none⟩) countingMachine).2.valueOf? 0 "x" =
        some (.int 5) := by
  have own : ∀ source, some assignedSubject = some source →
      (testEnv assignedUnit).view.classifyConversion source .int = .identity := by
    rintro source ⟨⟩
    exact View.classifyConversion_typeOf (by decide +kernel)
  obtain ⟨copy, form, copies, isForm, lowered, reads⟩ := patternCondition_readsOnce_iff
    (testEnv assignedUnit) testState testState (.stmt 5) ⟨0, 0⟩
    ⟨assignedSubject, .int, some assignedSubject⟩ discardTest _ own rfl rfl
  obtain ⟨enough, ignores⟩ := (reads ⟨[]⟩ 0 ⟨.null, none⟩).2 true rfl
  refine ⟨own, rfl, _, rfl, ⟨enough, fun fuel bound => ?_⟩, rfl⟩
  rw [isForm, ignores]
  · rfl
  · rcases copies with rfl | rfl <;> rfl
  · exact bound

end Unsugar
