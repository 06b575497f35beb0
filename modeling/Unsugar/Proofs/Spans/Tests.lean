import Unsugar.Proofs.Ownership.Tests
import Unsugar.Proofs.Spans.Rules

open List

namespace Unsugar

/-! # Where the spans of tests come from

A condition carries the span of the test or label it is made for, except for the
constants of its pattern and the subject it reads.  An error is raised at that span
and then said to be within the pattern and the test.
-/

open Node

variable {node tested : Pattern} {parts : TestParts} {name : String}

theorem LowerError.inNode_from {source : Span → Prop} {error : LowerError} {span : Span}
    {pass node : String} (isFrom : error.From source) (isSpan : source span) :
    (error.inNode pass node span).From source := by
  cases error with
  | within => exact isFrom
  | _ => exact forall_mem_cons.2 ⟨isSpan, isFrom⟩

namespace Pass

section Tests

variable {source : Span → Prop} {span : Span} {subject : Subject} (point : InstallPoint)

theorem inPattern_sourced {α : Type} {action : Pass α} {post : α → Prop}
    (isFrom : (pattern node).From source) (sourced : Sourced source action post) :
    Sourced source (inPattern node action) post :=
  sourced.rethrow fun _ isError => (inputPattern_sourced isFrom).bind fun _ isInput =>
    read_calm.after fun _ => .fail (LowerError.inNode_from isError isInput.patternSpan)

/-! ## Checks and assignments -/

theorem TestParts.append_from {left right : TestParts} (isLeft : AllFrom source left.nodes)
    (isRight : AllFrom source right.nodes) : AllFrom source (left.append right).nodes := by
  simp only [nodes, append, ofExprs_append, allFrom_append] at isLeft isRight ⊢
  exact ⟨⟨isLeft.1, isRight.1⟩, isLeft.2, isRight.2⟩

theorem TestParts.checks_from {checks : List Expr} (areFrom : AllFrom source (ofExprs checks)) :
    AllFrom source (TestParts.nodes { checks }) :=
  allFrom_append.2 ⟨areFrom, allFrom_nil⟩

theorem TestParts.check_from {test : Expr} (isFrom : (expr test).From source) :
    AllFrom source (check test).nodes :=
  checks_from (allFrom_cons.2 ⟨isFrom, allFrom_nil⟩)

theorem TestParts.none_from : AllFrom source (TestParts.nodes {}) := allFrom_nil

variable (isSpan : source span)

include isSpan

theorem TestParts.condition_from (areFrom : AllFrom source parts.nodes) :
    (expr (parts.condition span)).From source := by
  obtain ⟨areChecks, areAssigns⟩ := allFrom_append.1 areFrom
  refine from_conjunction isSpan ?_
  rw [ofExprs_append, allFrom_append]
  refine ⟨areChecks, ?_⟩
  split
  · exact allFrom_nil
  · simp [isSpan, areAssigns]

theorem TestParts.prepend_from {effect : Expr}
    (isEffect : (expr effect).From source) (areFrom : AllFrom source parts.nodes) :
    AllFrom source (parts.prepend span effect).nodes := by
  obtain ⟨areChecks, areAssigns⟩ := allFrom_append.1 areFrom
  unfold prepend nodes
  split
  · next first rest isFirst =>
      rw [isFirst, ofExprs_cons, allFrom_cons] at areChecks
      simp [isSpan, isEffect, areChecks.1, areChecks.2, areAssigns]
  · next isNone => simp [isNone, isEffect, areAssigns]

variable {value : Expr}

theorem designate_sourced {mark : Mark} {written : TypeSyntax} {type : Ty}
    (isValue : (expr value).From source) :
    Sourced source (designate point span mark name written type value) fun parts =>
      AllFrom source parts.nodes := by
  have assigned : AllFrom source
      (TestParts.nodes { assigns := [span.assign (span.ident name) value] }) := by
    simp [TestParts.nodes, isSpan, isValue]
  have following (shown : TypeSyntax) : Sourced source (do
      hoist point name shown span
      return ({ assigns := [span.assign (span.ident name) value] } : TestParts))
      fun parts => AllFrom source parts.nodes :=
    (hoist_calm point isSpan).after fun _ => .pure assigned
  refine .ite (.pure TestParts.none_from) (view_calm.after fun _ => .ite ?_ ?_)
  · exact following written
  · exact (syntaxOf_calm _).after following

def sourcedSteps (isSpan : source span) : TestSteps point span where
  holds _ action post := Sourced source action post
  views _ := True
  pure isPost := .pure isPost
  mono sourced weaker := sourced.mono weaker
  bind first rest := first.bind rest
  asks answer answers isPost env before _ areQueued := by
    rw [answers]
    refine ⟨?_, nofun⟩
    rintro result after ⟨⟩
    exact ⟨isPost env, areQueued⟩
  view := view_calm
  syntaxOf := syntaxOf_calm
  unresolved what := .fail (by simpa [LowerError.From, LowerError.spans] using isSpan)
  unsupported what := unsupported_sourced isSpan

def sourcedWalk (isSpan : source span) : TestWalk point span where
  toTestSteps := sourcedSteps point isSpan
  subject node := (expr node).From source
  reads node := (expr node).From source
  names _ := True
  read isSubject := Expr.forget_from isSubject
  subjectOf isRead := isRead
  ident _ := from_ident.2 isSpan
  literal _ := by simp [isSpan, ExprKind.From, ExprKind.children]
  binary _ left right := from_binary.2 ⟨isSpan, left, right⟩
  cast _ isRead := by simp [isSpan, isRead]
  typeTest _ isRead := by simp [isSpan, isRead]
  member _ isRead := from_member.2 ⟨isSpan, isRead⟩
  index isRead isPlace := by simp [isSpan, isRead, isPlace]
  slice _ isRead isStart isCount := by simp [isSpan, isRead, isStart, isCount]
  brings node := (pattern node).From source
  made _ parts := AllFrom source parts.nodes
  part isFrom isChild := (from_pattern.1 isFrom).2 _ isChild
  inPattern := inPattern_sourced
  nothing := allFrom_nil
  check := TestParts.check_from
  append := TestParts.append_from
  whole areFrom _ := areFrom
  discard _ := allFrom_nil
  null _ _ := TestParts.check_from
  compare op isFrom same isRead := by
    have isValue := (from_pattern.1 isFrom).2
    rw [PatternKind.From, same] at isValue
    exact TestParts.check_from (from_binary.2 ⟨isSpan, isRead, (allFrom_cons.1 isValue).1⟩)
  equals isFrom same isRead := by
    have isValue := (from_pattern.1 isFrom).2
    rw [PatternKind.From, same] at isValue
    exact TestParts.check_from (by simp [isSpan, isRead, (allFrom_cons.1 isValue).1])
  or left right := TestParts.check_from (from_binary.2
    ⟨isSpan, TestParts.condition_from isSpan left, TestParts.condition_from isSpan right⟩)
  not areFrom := TestParts.check_from
    (from_unary.2 ⟨isSpan, TestParts.condition_from isSpan areFrom⟩)
  temporary type := temporary_calm point isSpan
  prepend _ isRead areFrom := TestParts.prepend_from isSpan (by simp [isSpan, isRead]) areFrom
  designate written type _ _ isRead := designate_sourced point isSpan isRead

theorem lowerPattern_sourced {subject : Subject} (isSubject : (expr subject.expr).From source)
    (isFrom : (pattern node).From source) :
    Sourced source (lowerPattern point span subject node) fun parts => AllFrom source parts.nodes :=
  (sourcedWalk point isSpan).lowerPattern subject isSubject node isFrom

theorem patternCondition_sourced (isSubject : (expr subject.expr).From source)
    (isFrom : (pattern node).From source) :
    Sourced source (patternCondition point span subject node) fun result =>
      (expr result).From source := by
  refine view_calm.after fun _ => .ite ?_ ?_
  · exact (lowerPattern_sourced point isSpan isSubject isFrom).bind fun _ areParts =>
      .pure (TestParts.condition_from isSpan areParts)
  · refine (temporary_calm point isSpan).after fun name => ?_
    refine (lowerPattern_sourced point isSpan
      (from_ident.2 isSpan) isFrom).bind fun _ areParts => .pure ?_
    have isCond := TestParts.condition_from isSpan areParts
    simp [isSpan, isSubject, isCond]

end Tests

section Conditions

variable {source : Span → Prop}

theorem lowerIs_sourced {site : Site} {node subject : Expr}
    (isFrom : (expr node).From source) (isKind : (ExprKind.isPattern subject tested).From source) :
    Sourced source (lowerIs site node subject tested) fun result => (expr result).From source := by
  have isSpan := isFrom.exprSpan
  obtain ⟨isSubject, isRest⟩ := allFrom_cons.1 isKind.2
  refine (installPoint_calm site isSpan).after fun point => typeOf_calm.after
    fun type => .rethrow ?_ fun error isError => read_calm.after fun _ =>
      .fail (LowerError.inNode_from isError isSpan)
  exact (patternCondition_sourced point isSpan isSubject (allFrom_cons.1 isRest).1).bind
    fun _ => replace_sourced

theorem declarationTest?_from {cond subject : Expr} {type : TypeSyntax}
    (isFrom : (expr cond).From source)
    (isTest : declarationTest? cond = some (subject, tested, type, name)) :
    (expr subject).From source := by
  unfold declarationTest? at isTest
  split at isTest
  · split at isTest
    · cases isTest
      exact (allFrom_cons.1 isFrom.exprKind.2).1
    · cases isTest
  · cases isTest

theorem lowerBranchTest_sourced {node : Stmt} {cond : Expr} {yes : Stmt} {no : Option Stmt}
    (isFrom : (stmt node).From source) (isKind : (StmtKind.ifElse cond yes no).From source) :
    Sourced source (lowerBranchTest node cond yes no) fun results =>
      AllFrom source (ofStmts results) := by
  obtain ⟨isCond, isRest⟩ := allFrom_cons.1 isKind
  obtain ⟨isYes, isNo⟩ := allFrom_cons.1 isRest
  have isSpan := isCond.exprSpan
  unfold lowerBranchTest
  split
  · exact keepStmt_sourced isFrom isKind
  · next subject tested type name isTest =>
      have isRead := Expr.forget_from (declarationTest?_from isCond isTest)
      have declared (written : TypeSyntax) : Sourced source
          (setStmt node (.ifElse (cond.span.typeTest subject.forget type) (yes.span.block
            [cond.span.declare written name (some (cond.span.cast type subject.forget)), yes]) no))
          fun results => AllFrom source (ofStmts results) := by
        refine setStmt_sourced isFrom (allFrom_cons.2 ⟨?_, allFrom_cons.2 ⟨?_, isNo⟩⟩)
        · simp [isSpan, isRead]
        · simp [isSpan, isRead, isYes, isYes.stmtSpan]
      refine view_calm.after fun _ => ?_
      dsimp only
      split
      · exact (syntaxOf_calm _).after declared
      · exact declared type

theorem patternRules_traced : patternRules.Traced (.sourced source) source where
  expr site node kind isFrom isKind := by
    change Sourced source _ _
    cases kind with
    | isPattern subject tested =>
      exact .ite (keepExpr_sourced isFrom isKind) (lowerIs_sourced isFrom isKind)
    | _ => exact keepExpr_sourced isFrom isKind
  stmt _ node kind isFrom isKind := by
    change Sourced source _ _
    cases kind with
    | ifElse cond yes no => exact lowerBranchTest_sourced isFrom isKind
    | _ => exact keepStmt_sourced isFrom isKind
  pattern _ _ _ := keepPattern_sourced

end Conditions

/-! ## Switch statements -/

section Switches

variable {source : Span → Prop} {span : Span}

mutual

/-- A `break` that leaves a switch stands below the statement. -/
theorem breaks_from : (node : Stmt) → (stmt node).From source → AllFrom source (ofStmts node.breaks)
  | ⟨mark, kind⟩, isFrom => by
    rw [Stmt.breaks]
    exact kindBreaks_from kind (from_stmt.1 isFrom).1 (from_stmt.1 isFrom).2

theorem kindBreaks_from {mark : Mark} : (kind : StmtKind) → source mark.span →
    kind.From source → AllFrom source (ofStmts (kind.breaks mark))
  | .breakLoop, isSpan, isFrom => by
    rw [StmtKind.breaks]
    exact allFrom_single (from_stmt.2 ⟨isSpan, isFrom⟩)
  | .block body, _, isFrom => by
    rw [StmtKind.breaks]
    exact breaksIn_from body isFrom
  | .ifElse _ yes no, _, isFrom => by
    obtain ⟨isYes, isNo⟩ := allFrom_cons.1 (allFrom_cons.1 isFrom).2
    rw [StmtKind.breaks, ofStmts_append, allFrom_append]
    exact ⟨breaks_from yes isYes, breaksIn?_from no isNo⟩
  | .eval _, _, _ | .declare .., _, _ | .whileLoop .., _, _ | .forLoop .., _, _
  | .forEach .., _, _ | .ret _, _, _ | .continueLoop, _, _ | .throw _, _, _ | .switch .., _, _
  | .localFunction .., _, _ | .empty, _, _ => by
    simp [StmtKind.breaks]

theorem breaksIn_from : (body : List Stmt) → AllFrom source (ofStmts body) →
    AllFrom source (ofStmts (breaksIn body))
  | [], _ => by simp [breaksIn]
  | node :: rest, areFrom => by
    obtain ⟨isNode, areRest⟩ := allFrom_cons.1 areFrom
    rw [breaksIn, ofStmts_append, allFrom_append]
    exact ⟨breaks_from node isNode, breaksIn_from rest areRest⟩

theorem breaksIn?_from : (node : Option Stmt) → AllFrom source (ofStmt? node) →
    AllFrom source (ofStmts (breaksIn? node))
  | none, _ => by simp [breaksIn?]
  | some node, isFrom => by
    rw [breaksIn?]
    exact breaks_from node (allFrom_cons.1 isFrom).1

end

theorem kept_from {body kept : List Stmt} {dropped : Stmt} (ends : EndsInBreak body kept dropped)
    (areFrom : AllFrom source (ofStmts body)) : AllFrom source (ofStmts kept) := by
  induction ends with
  | here => exact allFrom_nil
  | block mark ends ih =>
    obtain ⟨isSpan, isKind⟩ := from_stmt.1 (allFrom_cons.1 areFrom).1
    exact allFrom_single (from_stmt.2 ⟨isSpan, ih isKind⟩)
  | later node ends ih =>
    obtain ⟨isNode, areRest⟩ := allFrom_cons.1 areFrom
    exact allFrom_cons.2 ⟨isNode, ih areRest⟩

theorem sectionBody_sourced (isSpan : source span) {body : List Stmt}
    (areFrom : AllFrom source (ofStmts body)) :
    Sourced source (sectionBody span body) fun result => (stmt result).From source := by
  unfold sectionBody
  split
  next kept trailing isKept =>
    have areKept : AllFrom source (ofStmts kept) := by
      split at isKept
      · next found =>
          cases isKept
          exact kept_from (endsInBreak_of_drop body _ _ found) areFrom
      · cases isKept
        exact areFrom
    have isBlock : (stmt (span.block kept)).From source := from_block.2 ⟨isSpan, areKept⟩
    dsimp only
    split
    · next stray _ isStray =>
        have isBreak : stray ∈ breaksIn body :=
          (mem_filter.1 (isStray ▸ mem_cons_self)).1
        exact unsupported_sourced (allFrom_stmts.1 (breaksIn_from body areFrom) _ isBreak).stmtSpan
    · exact .ite (markChanged_calm.after fun _ => .pure isBlock) (.pure isBlock)

section Arms

variable (label : Nat) {subject : Subject}

theorem labelCondition_sourced (isSubject : (expr subject.expr).From source)
    {guard : Option Expr} (isFrom : AllFrom source (ofLabel (.case tested guard))) :
    Sourced source (labelCondition label subject tested guard) fun result =>
      (expr result).From source := by
  obtain ⟨isTested, isGuard⟩ := allFrom_cons.1 isFrom
  have isSpan := isTested.patternSpan
  refine (patternCondition_sourced _ isSpan isSubject isTested).bind fun cond isCond => ?_
  cases guard with
  | none => exact .pure isCond
  | some guard => exact .pure (from_binary.2 ⟨isSpan, isCond, (allFrom_cons.1 isGuard).1⟩)

theorem labelConditions_sourced (isSubject : (expr subject.expr).From source)
    {labels : List Label} (areFrom : AllFrom source (labels.flatMap ofLabel)) :
    Sourced source (labelConditions label subject labels) fun results =>
      AllFrom source (ofExprs results) := by
  induction labels with
  | nil => exact .pure allFrom_nil
  | cons label rest ih =>
    rw [flatMap_cons, allFrom_append] at areFrom
    cases label with
    | default => exact ih areFrom.2
    | case tested guard =>
      exact (labelCondition_sourced _ isSubject areFrom.1).bind fun _ isCond =>
        (ih areFrom.2).bind fun _ areOthers =>
          .pure (allFrom_cons.2 ⟨isCond, areOthers⟩)

theorem switchArms_sourced (isSpan : source span) (isSubject : (expr subject.expr).From source) :
    (sections : List Section) → AllFrom source (sections.flatMap ofSection) →
    (seen : SwitchArms) → AllFrom source seen.nodes →
    Sourced source (switchArms label span subject seen sections) fun arms =>
      AllFrom source arms.nodes
  | [], _, seen, isSeen => .pure isSeen
  | ⟨labels, body⟩ :: rest, areFrom, seen, isSeen => by
    rw [flatMap_cons, ofSection, allFrom_append, allFrom_append] at areFrom
    obtain ⟨⟨areLabels, isBody⟩, areRest⟩ := areFrom
    obtain ⟨areArms, isOtherwise⟩ := allFrom_append.1 isSeen
    unfold switchArms
    refine (sectionBody_sourced isSpan isBody).bind fun block isBlock => .ite ?_ ?_
    · exact switchArms_sourced isSpan isSubject rest areRest _
        (allFrom_append.2 ⟨areArms, allFrom_cons.2 ⟨isBlock, allFrom_nil⟩⟩)
    · refine (labelConditions_sourced label isSubject areLabels).bind fun conds areConds => ?_
      split
      · exact switchArms_sourced isSpan isSubject rest areRest seen isSeen
      · obtain ⟨isFirst, areOthers⟩ := allFrom_cons.1 areConds
        refine switchArms_sourced isSpan isSubject rest areRest _
          (allFrom_append.2 ⟨?_, isOtherwise⟩)
        simp [areArms, isBlock, from_foldl_binary isSpan isFirst areOthers]

end Arms

theorem ifChain_from (isSpan : source span) {otherwise : Option Stmt} {arms : List (Expr × Stmt)}
    (areFrom : AllFrom source (SwitchArms.nodes ⟨arms, otherwise⟩)) :
    AllFrom source (ofStmts (ifChain span otherwise arms).toList) := by
  induction arms with
  | nil => cases otherwise <;> exact areFrom
  | cons arm rest ih =>
    obtain ⟨isCond, areFrom⟩ := allFrom_cons.1 areFrom
    obtain ⟨isBody, areRest⟩ := allFrom_cons.1 areFrom
    refine allFrom_single (from_ifElse.2 ⟨isSpan, isCond, isBody, ?_⟩)
    have isChain := ih areRest
    cases isRest : ifChain span otherwise rest with
    | none => exact allFrom_nil
    | some chain => rwa [isRest] at isChain

theorem lowerSwitch_sourced {node : Stmt} {subject : Expr} {sections : List Section}
    (isFrom : (stmt node).From source) (isKind : (StmtKind.switch subject sections).From source) :
    Sourced source (lowerSwitch node subject sections) fun results =>
      AllFrom source (ofStmts results) := by
  have isSpan := isFrom.stmtSpan
  obtain ⟨isSubject, areSections⟩ := allFrom_cons.1 isKind
  have lowered (tested : Subject) (opening : List Stmt)
      (isTested : (expr tested.expr).From source) (isOpening : AllFrom source (ofStmts opening)) :
      Sourced source (do
        let arms ← switchArms (node.id.getD 0) node.span tested {} sections
        setStmt node (.block (opening ++ (ifChain node.span arms.otherwise arms.arms).toList)))
        fun results => AllFrom source (ofStmts results) := by
    refine (switchArms_sourced _ isSpan isTested sections areSections {} allFrom_nil).bind
      fun arms areArms => setStmt_sourced isFrom ?_
    rw [StmtKind.from_block, ofStmts_append, allFrom_append]
    exact ⟨isOpening, ifChain_from isSpan areArms⟩
  refine typeOf_calm.after fun type => .ite ?_ ?_
  · exact lowered _ [] isSubject allFrom_nil
  · exact fresh_calm.after fun name => localSyntax_calm.after fun written =>
      lowered _ _ (from_ident.2 isSpan) (allFrom_single (by simp [isSpan, isSubject]))

theorem switchRules_traced : switchRules.Traced (.sourced source) source where
  expr _ _ _ := keepExpr_sourced
  stmt _ node kind isFrom isKind := by
    change Sourced source _ _
    cases kind with
    | switch subject sections =>
      exact .ite (keepStmt_sourced isFrom isKind) (lowerSwitch_sourced isFrom isKind)
    | _ => exact keepStmt_sourced isFrom isKind
  pattern _ _ _ := keepPattern_sourced

end Switches

end Pass

end Unsugar
