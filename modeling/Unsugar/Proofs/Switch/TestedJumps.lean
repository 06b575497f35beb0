import Unsugar.Proofs.Ownership.Counts
import Unsugar.Proofs.Switch.Jumps

open List

namespace Unsugar

/-! # Jumps in tests

A pattern holds jumps only in functions, in the values that it compares with.  The
condition it becomes has all of these values but the constants that are known to be
`null`, and what it queues goes to one point.
-/

open Node

variable {value : Expr} {op : BinaryOp} {subject : Subject}
  {scope : JumpScope} {control : Control}

/-! ## Jumps in patterns -/

/-- Said in a constant of a pattern that is known to be `null`. -/
inductive Pattern.Nulls (view : View) (scope : JumpScope) (control : Control) : Pattern → Prop where
  | constant {mark : Mark} {value : Expr} (isNull : view.isNull value = true)
      (shows' : (expr value).Shows scope control) : Nulls view scope control ⟨mark, .constant value⟩
  | inside {node inner : Pattern} (isChild : pattern inner ∈ node.kind.children)
      (nulls : inner.Nulls view scope control) : Nulls view scope control node

inductive Pattern.Keeps (view : View) (scope : JumpScope) (control : Control) : Pattern → Prop where
  | constant {mark : Mark} {value : Expr} (notNull : view.isNull value = false)
      (shows' : (expr value).Shows scope control) : Keeps view scope control ⟨mark, .constant value⟩
  | relational {mark : Mark} {op : Comparison} {value : Expr}
      (shows' : (expr value).Shows scope control) :
      Keeps view scope control ⟨mark, .relational op value⟩
  | inside {node inner : Pattern} (isChild : pattern inner ∈ node.kind.children)
      (keeps : inner.Keeps view scope control) : Keeps view scope control node

def Keep (view : View) (scope : JumpScope) (control : Control) (nodes : List Pattern) : Prop :=
  ∃ node ∈ nodes, node.Keeps view scope control

section Patterns

variable {view : View}

theorem keep_nil : ¬ Keep view scope control [] := by
  simp [Keep]

theorem keep_append {first others : List Pattern} : Keep view scope control (first ++ others) ↔
      Keep view scope control first ∨ Keep view scope control others := by
  simp [Keep, or_and_right, exists_or]

variable {node : Pattern}

theorem keep_single : Keep view scope control [node] ↔ node.Keeps view scope control := by
  simp [Keep]

theorem Pattern.Keeps.given (keeps : node.Keeps view scope control)
    (same : node.kind.children = [expr value]) : (expr value).Shows scope control := by
  cases keeps with
  | constant _ shows' | relational shows' =>
    cases same
    exact shows'
  | inside isChild => simp [same] at isChild

theorem Pattern.Keeps.parts {nodes : List Pattern} (keeps : node.Keeps view scope control)
    (same : node.kind.children = nodes.map pattern) : Keep view scope control nodes := by
  cases keeps with
  | constant _ _ | relational _ => cases nodes <;> cases same
  | inside isChild keeps =>
    rw [same] at isChild
    obtain ⟨inner, listed, isInner⟩ := mem_map.mp isChild
    cases isInner
    exact ⟨_, listed, keeps⟩

theorem shows_pattern :
    (pattern node).Shows scope control ↔ Shown node.kind.children scope control := by
  refine Node.shows_iff_children (Node.control?_notCode rfl) ?_
  rcases node.kind.role_cases with isRole | isRole <;> simp [JumpScope.below, Node.role, isRole]

theorem Pattern.nulls_or_keeps (shows' : (pattern node).Shows scope control) :
    node.Nulls view scope control ∨ node.Keeps view scope control := by
  generalize isRoot : pattern node = root at shows'
  induction root using Node.childInduction generalizing node with
  | step root ih =>
    subst isRoot
    obtain ⟨child, isChild, childShows⟩ := shows_pattern.mp shows'
    cases child with
    | pattern inner =>
      rcases ih _ isChild rfl childShows with nulls | keeps
      · exact .inl (.inside isChild nulls)
      · exact .inr (.inside isChild keeps)
    | stmt inner => cases PatternKind.children_isCode _ isChild
    | expr value =>
      obtain ⟨mark, kind⟩ := node
      cases kind with
      | constant value =>
        cases mem_singleton.mp isChild
        cases isNull : view.isNull value with
        | true => exact .inl (.constant isNull childShows)
        | false => exact .inr (.constant isNull childShows)
      | relational op value =>
        cases mem_singleton.mp isChild
        exact .inr (.relational childShows)
      | slice inner => cases inner <;> simp [PatternKind.children] at isChild
      | _ => simp [PatternKind.children] at isChild

mutual

theorem Pattern.not_keeps_discard : (node : Pattern) → node.isDiscard = true →
    ¬ node.Keeps view scope control
  | ⟨mark, kind⟩, isDiscard, keeps => kind.not_keeps_discard mark isDiscard keeps

theorem PatternKind.not_keeps_discard (mark : Mark) : (kind : PatternKind) →
    kind.isDiscard = true → ¬ Pattern.Keeps view scope control ⟨mark, kind⟩
  | .discard, _, .inside isChild _ | .var _, _, .inside isChild _ => by cases isChild
  | .paren inner, isDiscard, .inside isChild keeps => by
    cases mem_singleton.mp isChild
    exact inner.not_keeps_discard isDiscard keeps

end

mutual

theorem Pattern.not_keeps_null : (node : Pattern) → node.isNullConstant view = true →
    ¬ node.Keeps view scope control
  | ⟨mark, kind⟩, isNull, keeps => kind.not_keeps_null mark isNull keeps

theorem PatternKind.not_keeps_null (mark : Mark) : (kind : PatternKind) →
    kind.isNullConstant view = true → ¬ Pattern.Keeps view scope control ⟨mark, kind⟩
  | .constant value, isNull, .constant notNull _ => by
    rw [PatternKind.isNullConstant, notNull] at isNull
    cases isNull
  | .constant value, _, .inside isChild _ => by
    cases mem_singleton.mp isChild
  | .paren inner, isNull, .inside isChild keeps => by
    cases mem_singleton.mp isChild
    exact inner.not_keeps_null isNull keeps

end

end Patterns

/-! ## Jumps in what is made -/

section Made

variable {span : Span}

theorem shows_made {kind : ExprKind} (notFunction : kind.role ≠ .function) :
    (expr (span.expr kind)).Shows scope control ↔ Shown kind.children scope control := by
  refine Node.shows_iff_children (Node.control?_notCode rfl) ?_
  rcases kind.role_cases with isRole | isRole | isRole
  · exact absurd isRole notFunction
  · simp [JumpScope.below, Node.role, Span.expr, isRole]
  · simp [JumpScope.below, Node.role, Span.expr, isRole]

@[simp] theorem shows_unary {op : UnaryOp} {operand : Expr} :
    (expr (span.unary op operand)).Shows scope control ↔ (expr operand).Shows scope control := by
  rw [Span.unary, shows_made (by simp [ExprKind.role])]
  simp [ExprKind.children]

@[simp] theorem shows_binary {left right : Expr} :
    (expr (span.binary op left right)).Shows scope control ↔
      (expr left).Shows scope control ∨ (expr right).Shows scope control := by
  rw [Span.binary, shows_made (by simp [ExprKind.role])]
  simp [ExprKind.children]

@[simp] theorem shows_seq {effects : List Expr} :
    (expr (span.seq effects value)).Shows scope control ↔
      Shown (ofExprs effects) scope control ∨ (expr value).Shows scope control := by
  rw [Span.seq, shows_made (by simp [ExprKind.role])]
  simp [ExprKind.children]

@[simp] theorem shows_call {callee : Expr} {args : List Expr} :
    (expr (span.call callee args)).Shows scope control ↔
      (expr callee).Shows scope control ∨ Shown (ofExprs args) scope control := by
  rw [Span.call, shows_made (by simp [ExprKind.role])]
  simp [ExprKind.children]

theorem shows_foldl_binary {first : Expr} {rest : List Expr} :
    (expr (rest.foldl (span.binary op) first)).Shows scope control ↔
      (expr first).Shows scope control ∨ Shown (ofExprs rest) scope control := by
  induction rest generalizing first with
  | nil => simp [ofExprs]
  | cons second rest ih =>
    rw [foldl_cons, ih, shows_binary]
    simp [ofExprs, or_assoc]

theorem shows_conjunction {nodes : List Expr} (shown : Shown (ofExprs nodes) scope control) :
    (expr (span.conjunction nodes)).Shows scope control := by
  cases nodes with
  | nil => exact (shown_nil.mp shown).elim
  | cons first rest => exact shows_foldl_binary.mpr (shown_cons.mp shown)

theorem Expr.MadeOf.shows_given {given : Expr → Prop} {named : Span → String → Prop} {node : Expr}
    (made : node.MadeOf given named) (shows' : (expr node).Shows scope control) :
    ∃ part, given part ∧ (expr part).Shows scope control := by
  induction made with
  | given isGiven => exact ⟨_, isGiven, shows'⟩
  | @around span kind isPlain arePlain parts ih =>
    have notFunction : kind.role ≠ .function := by
      intro isFunction
      cases kind with
      | lambda => exact isPlain
      | literal value => cases value <;> cases isFunction
      | _ => cases isFunction
    obtain ⟨child, isChild, shows'⟩ := (shows_made notFunction).mp shows'
    obtain ⟨part, rfl⟩ := arePlain child isChild
    exact ih part isChild shows'

theorem Expr.isSimple_not_shows : (node : Expr) → node.isSimple = true →
    ¬ (expr node).Shows scope control
  | ⟨mark, .literal value⟩, _, shows' => by
    rcases Node.shows_iff.mp shows' with isControl | ⟨child, isChild, _⟩
    · rw [Node.control?_notCode rfl] at isControl
      cases isControl
    · cases isChild
  | ⟨mark, .ident _⟩, _, shows' | ⟨mark, .self⟩, _, shows' | ⟨mark, .base⟩, _, shows'
  | ⟨mark, .typeRef _⟩, _, shows' | ⟨mark, .defaultOf _⟩, _, shows' => by
    rcases Node.shows_iff.mp shows' with isControl | ⟨child, isChild, _⟩
    · cases isControl
    · cases isChild
  | ⟨mark, .paren ⟨other, inner⟩⟩, isSimple, shows' => by
    rcases Node.shows_iff.mp shows' with isControl | ⟨child, isChild, shows'⟩
    · cases isControl
    · cases mem_singleton.mp isChild
      exact Expr.isSimple_not_shows ⟨other, inner⟩ isSimple shows'

end Made

/-! ## Steps of a test -/

namespace Pass

variable {α β : Type} {env : PassEnv} {point : InstallPoint} {action : Pass α}

/-- A step of a test: its result has a property, and what it queues goes to a point. -/
def Tests (env : PassEnv) (point : InstallPoint) (holds : α → Prop) (action : Pass α) : Prop :=
  ∀ before result after, action env before = .ok (result, after) →
    holds result ∧ ∀ place ∈ after.hoists.points, place ∈ before.hoists.points ∨ place = point

namespace Tests

variable {holds : α → Prop} {follows : β → Prop}

theorem pure {value : α} (isHeld : holds value) : Tests env point holds (Pure.pure value) := by
  rintro before result after ⟨⟩
  exact ⟨isHeld, fun _ => .inl⟩

theorem mono {weaker : α → Prop} (tests : Tests env point holds action)
    (weaken : ∀ value, holds value → weaker value) : Tests env point weaker action :=
  fun before result after ran => (tests before result after ran).imp_left (weaken result)

theorem bind {next : α → Pass β} (first : Tests env point holds action)
    (rest : ∀ value, holds value → Tests env point follows (next value)) :
    Tests env point follows (action >>= next) := by
  intro before result after ran
  obtain ⟨value, middle, ranFirst, ranRest⟩ := bind_eq_ok ran
  obtain ⟨isFirst, fromFirst⟩ := first _ _ _ ranFirst
  obtain ⟨isRest, fromRest⟩ := rest value isFirst _ _ _ ranRest
  refine ⟨isRest, fun place isPlace => ?_⟩
  rcases fromRest place isPlace with isMiddle | isPoint
  · exact fromFirst place isMiddle
  · exact .inr isPoint

theorem knowing (quiet : Quiet action)
    (answers : ∀ before result after, action env before = .ok (result, after) → holds result) :
    Tests env point holds action := by
  intro before result after ran
  refine ⟨answers before result after ran, fun place isPlace => ?_⟩
  rw [quiet _ _ _ _ ran] at isPlace
  exact .inl isPlace

theorem quiet (quiet : Quiet action) : Tests env point (fun _ => True) action :=
  knowing quiet fun _ _ _ _ => trivial

theorem after {next : α → Pass β} (first : Quiet action)
    (rest : ∀ value, Tests env point follows (next value)) :
    Tests env point follows (action >>= next) :=
  (quiet first).bind fun value _ => rest value

theorem ite {condition : Prop} [Decidable condition] {yes no : Pass α}
    (isYes : condition → Tests env point holds yes) (isNo : ¬condition → Tests env point holds no) :
    Tests env point holds (if condition then yes else no) := by
  split
  · exact isYes ‹_›
  · exact isNo ‹_›

theorem view {next : View → Pass β} (rest : Tests env point follows (next env.view)) :
    Tests env point follows (Pass.view >>= next) := by
  have viewed : Tests env point (· = env.view) Pass.view :=
    knowing view_asks.quiet fun before result after ran => by
      cases ran
      rfl
  refine viewed.bind ?_
  rintro value rfl
  exact rest

theorem hoist (name : String) (type : TypeSyntax) (span : Span) :
    Tests env point (fun _ => True) (hoist point name type span) := by
  rintro before result after ⟨⟩
  exact ⟨trivial, fun place isPlace => HoistQueue.mem_points_declare isPlace⟩

theorem temporary (hint : String) (type : Ty) (span : Span) :
    Tests env point (fun _ => True) (temporary point hint type span) :=
  .after fresh_quiet fun _ => .after syntaxOf_quiet fun _ =>
    (hoist _ _ _).bind fun _ _ => .pure trivial

theorem designate (span : Span) (mark : Mark) (name : String) (written : TypeSyntax)
    (subjectType : Ty) (value : Expr) :
    Tests env point (fun _ => True) (designate point span mark name written subjectType value) := by
  have queued (shown : TypeSyntax) : Tests env point (fun _ => True) (do
      Pass.hoist point name shown span
      return { assigns := [span.assign (span.ident name) value] : TestParts }) :=
    (hoist _ _ _).bind fun _ _ => .pure trivial
  unfold Pass.designate
  exact .ite (fun _ => .pure trivial) fun _ => .view
    (.ite (fun _ => queued _) fun _ => .after syntaxOf_quiet queued)

end Tests

/-! ## Patterns -/

def TestParts.Shows (parts : TestParts) (scope : JumpScope) (control : Control) : Prop :=
  Shown (ofExprs parts.checks) scope control ∨ Shown (ofExprs parts.assigns) scope control

section Parts

variable {span : Span} {parts left right : TestParts}

theorem TestParts.shows_append : (left.append right).Shows scope control ↔
      left.Shows scope control ∨ right.Shows scope control := by
  simp only [Shows, append, ofExprs_append, shown_append]
  exact or_or_or_comm

theorem TestParts.shows_check {test : Expr} :
    (TestParts.check test).Shows scope control ↔ (expr test).Shows scope control := by
  simp [Shows, check]

theorem TestParts.shows_condition (shown : parts.Shows scope control) :
    (expr (parts.condition span)).Shows scope control := by
  refine shows_conjunction ?_
  rw [ofExprs_append, shown_append]
  refine shown.imp_right fun inAssigns => ?_
  split
  · rename_i isEmpty
    rw [isEmpty_iff.mp isEmpty] at inAssigns
    exact inAssigns
  · simp [inAssigns]

theorem TestParts.shows_prepend {effect : Expr} (shown : parts.Shows scope control) :
    (parts.prepend span effect).Shows scope control := by
  obtain ⟨checks, assigns⟩ := parts
  cases checks with
  | nil =>
    have inAssigns : Shown (ofExprs assigns) scope control := by simpa [Shows] using shown
    exact .inr (by simp [prepend, inAssigns])
  | cons first rest =>
    refine shown.imp_left fun inChecks => ?_
    simp only [prepend, ofExprs_cons, shown_cons, shows_seq] at inChecks ⊢
    exact inChecks.imp_left .inr

end Parts

section Patterns

variable (env point) (span : Span) (scope : JumpScope) (control : Control)

/-- A test says what the patterns it is made for keep. -/
def testsWalk : TestWalk point span where
  toTestSteps := @TestSteps.runs env
    (fun _ before after => ∀ place ∈ after.points, place ∈ before.points ∨ place = point)
    (fun _ _ => .inl) (fun first rest place isPlace => (rest place isPlace).elim (first place) .inr)
    point span
  toTestReads := .any span
  brings _ := True
  made nodes parts := Keep env.view scope control nodes → parts.Shows scope control
  part _ _ := trivial
  inPattern _ := TestSteps.runs_inPattern env _ _
  nothing keep := (keep_nil keep).elim
  check _ keep := (keep_nil keep).elim
  append left right keep := TestParts.shows_append.mpr ((keep_append.mp keep).imp left right)
  whole made same keep := made ((keep_single.mp keep).parts same)
  discard isDiscard keep := absurd (keep_single.mp keep) (Pattern.not_keeps_discard _ isDiscard)
  null isView isNull _ keep := by
    subst isView
    exact absurd (keep_single.mp keep) (Pattern.not_keeps_null _ isNull)
  compare _ _ same _ keep :=
    TestParts.shows_check.mpr (shows_binary.mpr (.inr ((keep_single.mp keep).given same)))
  equals _ same _ keep := TestParts.shows_check.mpr
    (shows_call.mpr (.inr (by simp [(keep_single.mp keep).given same])))
  or left right keep := by
    rw [TestParts.shows_check, shows_binary]
    rw [← singleton_append, keep_append] at keep
    exact keep.imp (TestParts.shows_condition ∘ left) (TestParts.shows_condition ∘ right)
  not made keep := by
    rw [TestParts.shows_check, shows_unary]
    exact TestParts.shows_condition (made keep)
  temporary type := Tests.temporary "t" type span
  prepend _ _ made keep := TestParts.shows_prepend (made keep)
  designate written type _ _ _ := Tests.mono (Tests.designate span _ _ written type _)
    fun _ _ keep => (keep_nil keep).elim

theorem lowerPattern_tests {node : Pattern} :
    Tests env point (fun parts => node.Keeps env.view scope control → parts.Shows scope control)
      (lowerPattern point span subject node) :=
  Tests.mono ((testsWalk env point span scope control).lowerPattern subject trivial node trivial)
    fun _ made keeps => made (keep_single.mpr keeps)

theorem patternCondition_tests (simple : subject.expr.isSimple = true) {node : Pattern} :
    Tests env point
      (fun cond => node.Keeps env.view scope control → (expr cond).Shows scope control)
      (patternCondition point span subject node) := by
  unfold patternCondition
  refine .view ?_
  rw [if_pos (by simp [simple])]
  exact (lowerPattern_tests env point span scope control).bind fun parts shows' =>
    .pure fun keeps => TestParts.shows_condition (shows' keeps)

end Patterns

end Pass

end Unsugar
