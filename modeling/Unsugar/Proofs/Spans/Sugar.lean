import Unsugar.Proofs.Spans.Rules

open List

namespace Unsugar

/-! # Where the spans of lowered expressions come from

What conditional accesses, switch expressions, collections, interpolated strings and
copies with changes become carries the span of the whole, of one of its parts or of
one of its arms.
-/

open Node

variable {receiver : Expr} {type target : Ty} {params : List Param} {arms : List Arm}
  {buffer name : String} {inits : List FieldInit} {owner : Owner} {targets : List Expr}
  (site : Site)

namespace Pass

section Expressions

variable {source : Span → Prop} {span : Span} {node : Expr}

/-! ## Conditional access -/

theorem bindAccess_sourced {anchor : Expr}
    (isReceiver : (expr receiver).From source) {access : Expr}
    (isFrom : (expr access).From source) :
    Sourced source (bindAccess site anchor receiver type access) fun result =>
      (expr result).From source := by
  have isCopy := Expr.forget_from isReceiver
  fun_induction bindAccess site anchor receiver type access with
  | case1 mark inner name ih =>
    have isInner := (allFrom_cons.1 isFrom.exprKind.2).1
    exact (ih isInner).bind fun _ isBound => .pure
      (from_expr.2 ⟨isFrom.exprSpan, forall_mem_nil _, allFrom_cons.2 ⟨isBound, allFrom_nil⟩⟩)
  | case2 mark callee args ih =>
    obtain ⟨isCallee, areArgs⟩ := allFrom_cons.1 isFrom.exprKind.2
    exact (ih isCallee).bind fun _ isBound => .pure
      (from_expr.2 ⟨isFrom.exprSpan, forall_mem_nil _, allFrom_cons.2 ⟨isBound, areArgs⟩⟩)
  | case3 mark inner args ih =>
    obtain ⟨isInner, areArgs⟩ := allFrom_cons.1 isFrom.exprKind.2
    refine (ih isInner).bind fun bound isBound =>
      (subscriptArg_sourced areArgs).bind fun found isFound => ?_
    split
    · exact .pure (from_expr.2 ⟨isFrom.exprSpan, forall_mem_nil _, allFrom_cons.2 ⟨isBound, areArgs⟩⟩)
    · next arg =>
        exact (subscriptOn_sourced site isFrom.exprSpan isBound (isFound arg rfl)).bind
          fun _ => replace_sourced
  | case4 mark name =>
    exact setKind_sourced isFrom ⟨forall_mem_nil _, allFrom_cons.2 ⟨isCopy, allFrom_nil⟩⟩
  | case5 mark args =>
    refine (subscriptArg_sourced isFrom.exprKind.2).bind fun found isFound => ?_
    split
    · next arg =>
        exact (subscript_sourced site isFrom.exprSpan isReceiver
          (isFound arg rfl)).bind fun _ => replace_sourced
    · exact setKind_sourced isFrom ⟨forall_mem_nil _, allFrom_cons.2 ⟨isCopy, isFrom.exprKind.2⟩⟩
  | case6 => exact unsupported_sourced isFrom.exprSpan

def GuardedAccess.nodes (chain : GuardedAccess) : List Node :=
  ofExprs chain.guards ++ [expr chain.value]

theorem guardAccess_sourced (site : Site) (anchor : Expr) (outer : Option (Expr × Ty))
    (isOuter : ∀ read ∈ outer, (expr read.1).From source) (node : Expr)
    (isFrom : (expr node).From source) :
    Sourced source (guardAccess site anchor outer node) fun chain =>
      AllFrom source chain.nodes := by
  obtain ⟨mark, kind⟩ := node
  cases kind with
  | conditionalAccess receiver access =>
    have isSpan : source mark.span := isFrom.exprSpan
    obtain ⟨isReceiver, isRest⟩ := allFrom_cons.1 isFrom.exprKind.2
    have isAccess := (allFrom_cons.1 isRest).1
    have further {inner : Expr} (type : Ty) (isInner : (expr inner).From source) :=
      guardAccess_sourced site anchor (some (inner, type))
        (fun _ same => by cases same; exact isInner) access isAccess
    unfold guardAccess
    extract_lets span guarded
    have isGuarded (tested : Expr) (isTested : (expr tested).From source) :
        Sourced source (guarded tested) fun chain => AllFrom source chain.nodes := by
      refine typeOf_calm.after fun type =>
        (stabilize_sourced site isTested).bind fun stable isStable => ?_
      have isRead : (expr (stable.2.getD stable.1.forget)).From source := by
        cases captured : stable.2 with
        | none => exact Expr.forget_from isStable.1
        | some capture =>
          have isCapture := isStable.2
          rw [captured] at isCapture
          exact (allFrom_cons.1 isCapture).1
      have isGuard : (expr (span.binary .notEq (stable.2.getD stable.1.forget)
          span.nullLit)).From source :=
        from_binary.2 ⟨isSpan, isRead, from_nullLit.2 isSpan⟩
      have isMember : (expr (span.member stable.1.forget "Value")).From source :=
        from_member.2 ⟨isSpan, Expr.forget_from isStable.1⟩
      dsimp only
      split
      · refine (further _ ?_).bind fun chain isChain => .pure (allFrom_cons.2 ⟨isGuard, isChain⟩)
        split
        · exact isMember
        · exact isStable.1
      · refine (bindAccess_sourced site ?_ isAccess).bind fun value isValue =>
          .pure (allFrom_cons.2 ⟨isGuard, allFrom_cons.2 ⟨isValue, allFrom_nil⟩⟩)
        split
        · exact isMember
        · exact isStable.1
    split
    · next read type =>
        exact (bindAccess_sourced site (isOuter _ rfl) isReceiver).bind isGuarded
    · exact isGuarded receiver isReceiver
  | _ => exact unsupported_sourced isFrom.exprSpan

theorem isVoidAccess_calm {node : Expr} : Calm source (isVoidAccess node) := by
  unfold isVoidAccess
  split
  · exact typeOf_calm.afterPure fun _ => trivial
  · exact .pure trivial

variable {value subject : Expr} {parts : List Part}

theorem conditionalValue_sourced (isSpan : source span) {cond : Expr}
    (isCond : (expr cond).From source) (isValue : (expr value).From source) :
    Sourced source (conditionalValue span type cond value) fun result =>
      (expr result).From source := by
  unfold conditionalValue
  split
  · exact .pure (by simp [isSpan, isCond, isValue])
  · exact (syntaxOf_calm _).after fun _ => (defaultValue_sourced isSpan).bind fun _ isDefault =>
      .pure (by simp [isSpan, isCond, isValue, isDefault])
  · exact (defaultValue_sourced isSpan).bind fun _ isDefault =>
      .pure (by simp [isSpan, isCond, isValue, isDefault])

theorem lowerConditionalAccess_sourced {site : Site} {kind : ExprKind}
    (isFrom : (expr node).From source) (isKind : kind.From source) :
    Sourced source (lowerConditionalAccess site node kind) fun result =>
      (expr result).From source := by
  have isSpan := isFrom.exprSpan
  have isRebuilt := keepExpr_from isFrom isKind
  refine .ite (.pure isRebuilt) (isVoidAccess_calm.after fun _ => .ite (.pure isRebuilt) ?_)
  refine (guardAccess_sourced site node none nofun _ isRebuilt).bind fun chain isChain => ?_
  obtain ⟨areGuards, isLast⟩ := allFrom_append.1 isChain
  exact typeOf_calm.after fun type => (conditionalValue_sourced isSpan
    (from_conjunction isSpan areGuards) (allFrom_cons.1 isLast).1).bind fun _ => replace_sourced

theorem lowerVoidAccess_sourced (isFrom : (expr node).From source) :
    Sourced source (lowerVoidAccess site node) fun result =>
      (expr result.1).From source ∧ (stmt result.2).From source := by
  have isSpan := isFrom.exprSpan
  refine (guardAccess_sourced site node none nofun node isFrom).bind fun chain isChain => .pure ?_
  obtain ⟨areGuards, isLast⟩ := allFrom_append.1 isChain
  exact ⟨from_conjunction isSpan areGuards, from_evalStmt.2 ⟨isSpan, (allFrom_cons.1 isLast).1⟩⟩

theorem lowerVoidStatement_sourced {node : Stmt} (isFrom : (stmt node).From source)
    (isValue : (expr value).From source) :
    Sourced source (lowerVoidStatement site node value) fun results =>
      AllFrom source (ofStmts results) :=
  (lowerVoidAccess_sourced _ isValue).bind fun _ isLowered => setStmt_sourced isFrom
    (allFrom_cons.2 ⟨isLowered.1, allFrom_cons.2 ⟨isLowered.2, allFrom_nil⟩⟩)

theorem lowerVoidLambda_sourced {id : Option Nat} {isAsync : Bool}
    (isFrom : (expr node).From source)
    (isKind : (ExprKind.lambda id params isAsync (.expr value)).From source) :
    Sourced source (lowerVoidLambda site node id params isAsync value) fun result =>
      (expr result).From source := by
  obtain ⟨areParams, isBody⟩ := allFrom_append.1 isKind.2
  have isValue := (allFrom_cons.1 isBody).1
  have isSpan := isValue.exprSpan
  refine (lowerVoidAccess_sourced _ isValue).bind fun lowered isLowered => setKind_sourced isFrom
    ⟨nofun, allFrom_append.2 ⟨areParams, ?_⟩⟩
  simp [ofLambdaBody, isSpan, isLowered.1, isLowered.2]

/-! ## Other sugar of expressions -/

theorem contextType_calm {node : Expr} : Calm source (contextType node) :=
  view_calm.afterPure fun _ => trivial

theorem convertResult_sourced {input result : Expr}
    (isInput : (expr input).From source) (isResult : (expr result).From source) :
    Sourced source (convertResult input result target) fun converted =>
      (expr converted).From source :=
  view_calm.after fun _ => .ite (.pure isResult) ((syntaxOf_calm target).afterPure fun _ =>
    from_cast.2 ⟨isInput.exprSpan, isResult⟩)

def ArmsFrom (source : Span → Prop) (arms : List Arm) : Prop :=
  ∀ arm ∈ arms, source arm.span ∧ AllFrom source (ofArm arm)

theorem armsFrom_of_switch (isFrom : (ExprKind.switch subject arms).From source) :
    ArmsFrom source arms := by
  intro arm isArm
  obtain ⟨areSpans, areNodes⟩ := isFrom
  exact ⟨areSpans arm.span (mem_map_of_mem isArm),
    allFrom_flatMap.1 (allFrom_cons.1 areNodes).2 arm isArm⟩

theorem switchChain_sourced {otherwise : Expr}
    (isSubject : (expr subject).From source) (isOtherwise : (expr otherwise).From source) :
    (inputs arms : List Arm) → ArmsFrom source inputs → ArmsFrom source arms →
    Sourced source (switchChain subject target otherwise inputs arms) fun result =>
      (expr result).From source
  | input :: inputs, arm :: arms, areInputs, areArms => by
    obtain ⟨isInput, areInputs⟩ := forall_mem_cons.1 areInputs
    obtain ⟨⟨isSpan, isArm⟩, areArms⟩ := forall_mem_cons.1 areArms
    obtain ⟨isPattern, isRest⟩ := allFrom_cons.1 isArm
    obtain ⟨isGuard, isLast⟩ := allFrom_append.1 isRest
    have inputResult := (allFrom_cons.1 (allFrom_append.1 (allFrom_cons.1 isInput.2).2).2).1
    have isTest : (expr (arm.span.expr (.isPattern subject.forget arm.pattern))).From source :=
      from_spanExpr.2 ⟨isSpan, nofun, allFrom_cons.2
        ⟨Expr.forget_from isSubject, allFrom_cons.2 ⟨isPattern, allFrom_nil⟩⟩⟩
    unfold switchChain
    refine (switchChain_sourced isSubject isOtherwise inputs arms areInputs areArms).bind
      fun rest isRest => (convertResult_sourced inputResult (allFrom_cons.1 isLast).1).bind
        fun result isResult => ?_
    split
    · exact .ite (.pure isResult) (.pure (from_conditional.2 ⟨isSpan, isTest, isResult, isRest⟩))
    · next guarded =>
        rw [guarded] at isGuard
        exact .pure (from_conditional.2 ⟨isSpan,
          from_binary.2 ⟨isSpan, isTest, (allFrom_cons.1 isGuard).1⟩, isResult, isRest⟩)
  | [], _, _, _ | _ :: _, [], _, _ => .pure isOtherwise

theorem lowerSwitchExpression_sourced (isFrom : (expr node).From source)
    (isKind : (ExprKind.switch subject arms).From source) :
    Sourced source (lowerSwitchExpression site node subject arms) fun result =>
      (expr result).From source := by
  have isSpan := isFrom.exprSpan
  refine contextType_calm.after fun target => typeOf_calm.after fun type =>
    (stabilize_sourced site (allFrom_cons.1 isKind.2).1).bind fun stable isStable => ?_
  have isFailure : (expr (node.span.expr (.throw (node.span.create
      (.simple "SwitchExpressionException") [stable.1.forget])))).From source :=
    from_spanExpr.2 ⟨isSpan, forall_mem_nil _,
      allFrom_cons.2 ⟨by simp [isSpan, isStable.1], allFrom_nil⟩⟩
  refine (switchChain_sourced isStable.1 isFailure _ arms ?_
    (armsFrom_of_switch isKind)).bind fun _ isChain =>
      replace_sourced (from_after isSpan isStable.2 isChain)
  split
  · next isSwitch =>
      have isInput := isFrom.exprKind
      rw [isSwitch] at isInput
      exact armsFrom_of_switch isInput
  · exact armsFrom_of_switch isKind

theorem addItem_sourced (isSpan : source span) {item : Expr} (isItem : (expr item).From source) :
    Sourced source (addItem buffer span item) fun results => AllFrom source (ofStmts results) := by
  have isKind := isItem.exprKind.2
  unfold addItem
  split
  · next value isSpread =>
      rw [isSpread] at isKind
      have isValue := (allFrom_cons.1 isKind).1
      exact fresh_calm.after fun _ => typeOf_calm.after fun _ =>
        localSyntax_calm.afterPure fun _ => by simp [isSpan, isValue]
  · exact .pure (by simp [isSpan, isItem])

theorem addItems_sourced :
    (inputs items : List Expr) → AllFrom source (ofExprs inputs) → AllFrom source (ofExprs items) →
    Sourced source (addItems buffer inputs items) fun results => AllFrom source (ofStmts results)
  | _ :: inputs, _ :: items, areInputs, areItems => by
    obtain ⟨isInput, areInputs⟩ := allFrom_cons.1 areInputs
    obtain ⟨isItem, areItems⟩ := allFrom_cons.1 areItems
    refine (addItem_sourced isInput.exprSpan isItem).bind fun _ areHere =>
      (addItems_sourced inputs items areInputs areItems).bind fun _ areOthers => .pure ?_
    rw [ofStmts_append, allFrom_append]
    exact ⟨areHere, areOthers⟩
  | [], _, _, _ | _ :: _, [], _, _ => .pure allFrom_nil

theorem lowerCollection_sourced {items : List Expr} (isFrom : (expr node).From source)
    (isKind : (ExprKind.collection items).From source) :
    Sourced source (lowerCollection node items) fun result => (expr result).From source := by
  have isSpan := isFrom.exprSpan
  refine .ite (keepExpr_sourced isFrom isKind) (contextType_calm.after fun _ =>
    types_calm.after fun _ => (syntaxOf_calm _).after fun _ => fresh_calm.after fun buffer =>
      (addItems_sourced _ items ?_ isKind.2).bind fun adds areAdds => ?_)
  · split
    · next isCollection =>
        have isInput := isFrom.exprKind.2
        rwa [isCollection] at isInput
    · exact isKind.2
  have replaced (type : TypeSyntax) {start : Stmt} {result : Expr}
      (isStart : (stmt start).From source) (isResult : (expr result).From source) :
      Sourced source
        (replace node (node.span.immediate type (start :: adds ++ [node.span.ret result])))
        fun result => (expr result).From source :=
    replace_sourced (by simp [isSpan, isStart, areAdds, isResult])
  dsimp only
  split
  · exact replaced _ (by simp [isSpan]) (by split <;> simp [isSpan])
  · exact (syntaxOf_calm _).after fun _ =>
      replaced _ (by simp [isSpan]) (by split <;> simp [isSpan])

theorem alignmentText_calm {input : Option Expr} (isFrom : AllFrom source (ofExpr? input)) :
    Calm source (alignmentText input) := by
  unfold alignmentText
  split
  · exact .pure trivial
  · have isSpan := (allFrom_cons.1 isFrom).1.exprSpan
    refine view_calm.after fun _ => ?_
    split
    · exact .pure trivial
    · exact read_calm.after fun _ => .fail (by
        simpa [LowerError.From, LowerError.spans] using isSpan)

theorem compositeFormat_calm (next : Nat) (parts : List Part)
    (areFrom : AllFrom source (parts.flatMap ofPart)) :
    Calm source (compositeFormat next parts) := by
  induction parts generalizing next with
  | nil => exact .pure trivial
  | cons part rest ih =>
    obtain ⟨isPart, areRest⟩ := allFrom_append.1 areFrom
    cases part with
    | text content => exact (ih next areRest).afterPure fun _ => trivial
    | hole value alignment format =>
      exact (alignmentText_calm (allFrom_cons.1 isPart).2).after fun _ =>
        (ih (next + 1) areRest).afterPure fun _ => trivial

theorem holeValues_from (areFrom : AllFrom source (parts.flatMap ofPart)) :
    AllFrom source (ofExprs (holeValues parts)) := by
  induction parts with
  | nil => exact allFrom_nil
  | cons part rest ih =>
    obtain ⟨isPart, areRest⟩ := allFrom_append.1 areFrom
    cases part with
    | text text => exact ih areRest
    | hole value alignment format =>
      exact allFrom_cons.2 ⟨(allFrom_cons.1 isPart).1, ih areRest⟩

theorem concatenation_from (isSpan : source span) (areFrom : AllFrom source (parts.flatMap ofPart)) :
    (expr (concatenation span parts)).From source := by
  have areOperands : AllFrom source (ofExprs (parts.map (Part.operand span))) := by
    induction parts with
    | nil => exact allFrom_nil
    | cons part rest ih =>
      obtain ⟨isPart, areRest⟩ := allFrom_append.1 areFrom
      cases part with
      | text text =>
        exact allFrom_cons.2 ⟨from_strLit.2 isSpan, ih areRest⟩
      | hole value alignment format =>
        exact allFrom_cons.2 ⟨(allFrom_cons.1 isPart).1, ih areRest⟩
  obtain ⟨first, rest, joined, pieces⟩ := concatenation_eq
  have arePieces : AllFrom source (ofExprs (first :: rest)) := by
    rcases pieces with pieces | pieces
    · rw [pieces]
      exact areOperands
    · rw [pieces]
      exact allFrom_cons.2 ⟨from_strLit.2 isSpan, areOperands⟩
  obtain ⟨isFirst, areRest⟩ := allFrom_cons.1 arePieces
  rw [joined]
  exact from_foldl_binary isSpan isFirst areRest

theorem lowerInterpolated_sourced (isFrom : (expr node).From source)
    (isKind : (ExprKind.interpolated parts).From source) :
    Sourced source (lowerInterpolated node parts) fun result => (expr result).From source := by
  have isSpan := isFrom.exprSpan
  refine .ite ((compositeFormat_calm 0 _ ?_).after fun _ => replace_sourced ?_)
    (replace_sourced (concatenation_from isSpan isKind.2))
  · split
    · next isInterpolated =>
        have isInput := isFrom.exprKind.2
        rwa [isInterpolated] at isInput
    · exact isKind.2
  · simp [isSpan, holeValues_from isKind.2]

theorem sets_from (isSpan : source span) {copy : String}
    (areFrom : AllFrom source (ofInits inits)) :
    AllFrom source (ofStmts (inits.map fun init =>
      span.assignStmt (span.member (span.ident copy) init.name) init.value)) := by
  induction inits with
  | nil => exact allFrom_nil
  | cons init rest ih =>
    obtain ⟨isInit, areRest⟩ := allFrom_cons.1 areFrom
    exact allFrom_cons.2 ⟨by simp [isSpan, isInit], ih areRest⟩

theorem lowerCopyWith_sourced
    (isFrom : (expr node).From source) (isKind : (ExprKind.copyWith receiver inits).From source) :
    Sourced source (lowerCopyWith node receiver inits) fun result => (expr result).From source := by
  have isSpan := isFrom.exprSpan
  obtain ⟨isReceiver, areInits⟩ := allFrom_cons.1 isKind.2
  have copied (type : Ty) : Sourced source (copyAs node receiver inits type) fun result =>
      (expr result).From source := by
    refine fresh_calm.after fun copy => types_calm.after fun types =>
      (syntaxOf_calm type).after fun written => replace_sourced ?_
    have isRead : (expr (if types.isValueType type then receiver
        else node.span.methodCall receiver "__Clone" [])).From source := by
      split
      · exact isReceiver
      · simp [isSpan, isReceiver]
    simp [isSpan, isRead, sets_from isSpan areInits]
  refine typeOf_calm.after fun ownType => ?_
  dsimp only
  split
  · exact typeOf_calm.after copied
  · exact copied ownType

theorem primaryParamsAt_calm : Calm source (primaryParamsAt owner) := by
  unfold primaryParamsAt
  split
  · exact read_calm.afterPure fun _ => trivial
  · exact .pure trivial

theorem inInstanceBody_calm : Calm source (inInstanceBody site) := by
  unfold inInstanceBody
  split
  · refine read_calm.after fun _ => ?_
    split <;> exact .pure trivial
  · exact .pure trivial

theorem noteCapture_calm :
    Calm source (noteCapture owner name) := by
  unfold noteCapture
  split
  · exact calm_of_ok fun _ _ => ⟨_, _, rfl, id⟩
  · exact .pure trivial

theorem lowerName_sourced (isFrom : (expr node).From source) :
    Sourced source (lowerName site node name) fun result => (expr result).From source := by
  have isSelf : (expr node.span.self).From source := from_self.2 isFrom.exprSpan
  exact view_calm.after fun _ => primaryParamsAt_calm.after fun _ =>
    (inInstanceBody_calm site).after fun _ => .ite
      (noteCapture_calm.after fun _ => setKind_sourced isFrom
        ⟨nofun, allFrom_cons.2 ⟨isSelf, allFrom_nil⟩⟩)
      (keepExpr_sourced isFrom ⟨nofun, allFrom_nil⟩)

theorem trigger_calm (change : Triggers → Triggers) : Calm source (trigger change) :=
  calm_of_ok fun _ _ => ⟨_, _, rfl, id⟩

theorem observe_calm {kind : StmtKind} : Calm source (observe kind) := by
  unfold observe
  split
  · exact trigger_calm _
  · exact .ite (trigger_calm _) (.pure trivial)
  · exact .ite (.pure trivial) (trigger_calm _)
  · exact .pure trivial

theorem desugarRules_traced : desugarRules.Traced (.sourced source) source where
  expr site node kind isFrom isKind := by
    change Sourced source (desugarExpr site node kind) _
    cases kind with
    | ident name => exact lowerName_sourced site isFrom
    | isPattern subject tested =>
      exact (trigger_calm _).after fun _ => keepExpr_sourced isFrom isKind
    | switch subject arms =>
      exact (lowerSwitchExpression_sourced site isFrom isKind).bind fun _ isLowered =>
        (trigger_calm _).afterPure fun _ => isLowered
    | index receiver args => exact lowerIndex_sourced site isFrom isKind
    | fromEnd value => exact lowerFromEnd_sourced site isFrom isKind
    | range start stop => exact lowerRange_sourced site isFrom isKind
    | conditionalAccess receiver access => exact lowerConditionalAccess_sourced isFrom isKind
    | collection items => exact lowerCollection_sourced isFrom isKind
    | interpolated parts => exact lowerInterpolated_sourced isFrom isKind
    | copyWith receiver inits => exact lowerCopyWith_sourced isFrom isKind
    | lambda id params isAsync body =>
      cases body with
      | expr value =>
        exact isVoidAccess_calm.after fun _ => .ite (lowerVoidLambda_sourced site isFrom isKind)
          (keepExpr_sourced isFrom isKind)
      | block body => exact keepExpr_sourced isFrom isKind
    | _ => exact keepExpr_sourced isFrom isKind
  stmt site node kind isFrom isKind := by
    refine Sourced.after observe_calm fun _ => ?_
    split
    · next value =>
        exact isVoidAccess_calm.after fun _ => .ite
          (lowerVoidStatement_sourced site isFrom (allFrom_cons.1 isKind).1)
          (keepStmt_sourced isFrom isKind)
    · exact keepStmt_sourced isFrom isKind
  pattern _ _ _ := keepPattern_sourced

end Expressions

/-! ## Functions and chains -/

section Statements

variable {source : Span → Prop} {span : Span}

theorem lambdaBody_sourced (isSpan : source span) {typeParams : List String} {body : Body}
    (isBody : AllFrom source (ofBody body)) :
    Sourced source (lambdaBody span name typeParams params body) fun result =>
      AllFrom source (ofLambdaBody result) := by
  refine .ite (unsupported_sourced isSpan) (.ite (unsupported_sourced isSpan) ?_)
  cases body with
  | none => exact unsupported_sourced isSpan
  | expr value => exact .pure isBody
  | block body => exact .pure isBody

theorem functionSyntax_calm {ret : TypeSyntax} : Calm source (functionSyntax params ret) :=
  view_calm.after fun _ => .ite (.pure trivial) (.pure trivial)

def FunctionBlock.nodes (block : FunctionBlock) : List Node :=
  ofStmts (block.decls ++ block.assigns ++ block.rest)

theorem sortFunctions_sourced : (body : List Stmt) → AllFrom source (ofStmts body) →
    Sourced source (sortFunctions body) fun sorted => AllFrom source sorted.nodes
  | [], _ => .pure allFrom_nil
  | ⟨mark, kind⟩ :: others, areFrom => by
    obtain ⟨isFirst, areOthers⟩ := allFrom_cons.1 areFrom
    have sorting := sortFunctions_sourced others areOthers
    simp only [FunctionBlock.nodes, ofStmts_append, allFrom_append] at sorting ⊢
    cases kind with
    | localFunction name typeParams params ret body =>
      obtain ⟨isSpan, isKind⟩ := from_stmt.1 isFirst
      obtain ⟨areParams, isBody⟩ := allFrom_append.1 isKind
      refine (lambdaBody_sourced isSpan isBody).bind fun made isMade =>
        functionSyntax_calm.after fun _ => sorting.bind fun sorted areSorted =>
          .pure ⟨⟨?_, ?_⟩, areSorted.2⟩
      · simp [isSpan, areSorted.1.1]
      · simp [StmtKind.From, StmtKind.children, isSpan, areParams, isMade, areSorted.1.2]
    | _ =>
      exact sorting.bind fun sorted areSorted =>
        .pure ⟨areSorted.1, allFrom_cons.2 ⟨isFirst, areSorted.2⟩⟩

theorem localFunctionRules_traced : localFunctionRules.Traced (.sourced source) source where
  expr _ _ _ := keepExpr_sourced
  stmt _ node kind isFrom isKind := by
    change Sourced source _ _
    cases kind with
    | block body =>
      exact .ite ((sortFunctions_sourced body isKind).bind fun _ areSorted =>
        setStmt_sourced isFrom areSorted) (keepStmt_sourced isFrom isKind)
    | _ => exact keepStmt_sourced isFrom isKind
  pattern _ _ _ := keepPattern_sourced

theorem assignmentChain_from {value : Expr} (isFrom : (expr value).From source) :
    AllFrom source (ofExprs (assignmentChain value).1) ∧
      (expr (assignmentChain value).2).From source := by
  fun_induction assignmentChain value with
  | case1 mark target value targets last split ih =>
    obtain ⟨isTarget, isRest⟩ := allFrom_cons.1 isFrom.exprKind.2
    have areRest := ih (allFrom_cons.1 isRest).1
    rw [split] at areRest
    exact ⟨allFrom_cons.2 ⟨isTarget, areRest.1⟩, areRest.2⟩
  | case2 => exact ⟨allFrom_nil, isFrom⟩

theorem chainType_calm {value : Expr} :
    Calm source (chainType targets value) := by
  unfold chainType
  split
  · exact typeOf_calm.after fun _ => .ite typeOf_calm (.pure trivial)
  · exact typeOf_calm

theorem splitChain_sourced {node : Stmt} {value : Expr}
    (isFrom : (stmt node).From source) (areTargets : AllFrom source (ofExprs targets))
    (isValue : (expr value).From source) :
    Sourced source (splitChain node targets value) fun results =>
      AllFrom source (ofStmts results) := by
  have isSpan := isFrom.stmtSpan
  refine fresh_calm.after fun name => chainType_calm.after fun type =>
    localSyntax_calm.after fun _ => splice_sourced isFrom
      (allFrom_cons.2 ⟨isValue, allFrom_nil⟩) (allFrom_stmts_map fun target isTarget => ?_)
  simp [isSpan, allFrom_exprs.1 areTargets target (mem_reverse.1 isTarget)]

theorem chainRules_traced : chainRules.Traced (.sourced source) source where
  expr _ _ _ := keepExpr_sourced
  stmt _ node kind isFrom isKind := by
    change Sourced source _ _
    cases kind with
    | eval value =>
      obtain ⟨areTargets, isLast⟩ := assignmentChain_from (allFrom_cons.1 isKind).1
      exact .ite (splitChain_sourced isFrom areTargets isLast) (keepStmt_sourced isFrom isKind)
    | _ => exact keepStmt_sourced isFrom isKind
  pattern _ _ _ := keepPattern_sourced

end Statements

end Pass

end Unsugar
