import Unsugar.Proofs.Switch.FirstArm

namespace Unsugar

/-! # What an operand keeps

Desugaring an expression leaves its identity, and so the type that the analysis
gives it.  It never makes a `^` or a range: one that is left was written there,
right inside of a subscript.
-/

open Pass

variable {replacement value anchor receiver : Expr} {kind : ExprKind} {arg : SubscriptArg}
  {mark : Mark}

/-- `^value` or `start..stop`. -/
def ExprKind.isOffset : ExprKind → Bool
  | .fromEnd _ | .range _ _ => true
  | _ => false

variable (node : Expr) (span : Span)

namespace Pass

/-! ## Identities -/

theorem replace_returns {node : Expr} :
    Returns (replace node replacement) fun result => result = node.replaceBy replacement := by
  rintro env before result after ⟨⟩
  rfl

theorem setKind_returns :
    Returns (setKind node kind) fun result => result = { node with kind } := by
  rintro env before result after ⟨⟩
  rfl

theorem replace_id {node : Expr} :
    Returns (replace node replacement) fun result => result.id = node.id :=
  replace_returns.mono fun _ isResult => isResult ▸ rfl

theorem setKind_id : Returns (setKind node kind) fun result => result.id = node.id :=
  (setKind_returns node).mono fun _ isResult => isResult ▸ rfl

theorem desugarExpr_id {site : Site} {node : Expr} :
    Returns (desugarExpr site node kind) fun result => result.id = node.id := by
  have kept (kind : ExprKind) : Returns (pure { node with kind } : Pass Expr) fun result =>
      result.id = node.id := .pure rfl
  cases kind with
  | ident name =>
    exact .last fun _ => .last fun _ => .last fun _ => .ite (.last fun _ => setKind_id _) (kept _)
  | isPattern subject pattern => exact .last fun _ => kept _
  | «switch» subject arms =>
    have isLowered : Returns (lowerSwitchExpression site node subject arms) fun result =>
        result.id = node.id :=
      .last fun _ => .last fun _ => .last fun _ => .last fun _ => replace_id
    exact isLowered.bind fun _ same => .last fun _ => .pure same
  | index receiver args =>
    refine .ite (kept _) (.last fun found => ?_)
    split
    · exact kept _
    · exact .last fun _ => replace_id
  | fromEnd value => exact .ite (kept _) replace_id
  | range start stop =>
    change Returns (lowerRange site node start stop) _
    unfold lowerRange
    refine .ite (kept _) ?_
    split
    exact .last fun _ => .last fun _ => replace_id
  | conditionalAccess receiver access =>
    exact .ite (kept _) (.last fun _ => .ite (kept _)
      (.last fun _ => .last fun _ => .last fun _ => replace_id))
  | collection items =>
    change Returns (lowerCollection node items) _
    unfold lowerCollection
    refine .ite (kept _) (.last fun _ => .last fun _ => .last fun _ => .last fun _ =>
      .last fun _ => ?_)
    dsimp only
    split <;> exact .last fun _ => replace_id
  | interpolated parts =>
    change Returns (lowerInterpolated node parts) _
    unfold lowerInterpolated
    exact .ite (.last fun _ => replace_id) replace_id
  | copyWith receiver inits =>
    refine .last fun ownType => ?_
    extract_lets copied
    have isCopied (type : Ty) : Returns (copied type) fun result => result.id = node.id :=
      .last fun _ => .last fun _ => .last fun _ => replace_id
    exact .ite (.last fun _ => isCopied _) (.last fun _ => isCopied _)
  | lambda id params isAsync body =>
    cases body with
    | expr value =>
      exact .last fun _ => .ite (.last fun _ => setKind_id _) (kept _)
    | block body => exact kept _
  | _ => exact kept _

end Pass

variable {after before : PassState} {env : PassEnv} {rebuilt : Expr} {site : Site}

theorem Expr.rebuild_id {node : Expr}
    (ran : node.rebuild desugarRules site env before = .ok (rebuilt, after)) :
    rebuilt.id = node.id := by
  obtain ⟨mark, kind⟩ := node
  rw [Expr.rebuild] at ran
  obtain ⟨kept, middle, _, ran⟩ := bind_eq_ok ran
  exact desugarExpr_id env middle rebuilt after ran

theorem View.typeOf_rebuilt (view : View) {node : Expr}
    (ran : node.rebuild desugarRules site env before = .ok (rebuilt, after)) :
    view.typeOf rebuilt = view.typeOf node := by
  unfold View.typeOf View.typeInfo
  rw [Expr.rebuild_id ran]

/-! ## Offsets -/

namespace Pass

theorem replace_offset (noOffset : replacement.kind.isOffset = false) :
    Returns (replace node replacement) fun result => result.kind.isOffset = false :=
  replace_returns.mono fun _ isResult => isResult ▸ noOffset

theorem setKind_offset (noOffset : kind.isOffset = false) :
    Returns (setKind node kind) fun result => result.kind.isOffset = false :=
  (setKind_returns node).mono fun _ isResult => isResult ▸ noOffset

theorem isOffset_after {effect : Option Expr}
    (noOffset : value.kind.isOffset = false) : (span.after effect value).kind.isOffset = false := by
  cases effect with
  | none => exact noOffset
  | some effect => rfl

theorem slice_offset {site : Site} {span : Span} {sequence : Sequenced} {start stop : Expr} :
    Returns (slice site anchor span sequence start stop) fun result =>
      result.kind.isOffset = false :=
  .ite (.pure rfl) (.ite (.pure rfl) (.last fun _ => .pure (isOffset_after _ rfl)))

theorem subscript_offset {site : Site} {span : Span} {type : Ty} :
    Returns (subscript site anchor span receiver type arg) fun result =>
      result.kind.isOffset = false := by
  refine .last fun types => ?_
  cases arg with
  | fromEnd value => exact .pure rfl
  | indexValue index => exact .pure rfl
  | range start stop => exact .last fun _ => .last fun _ => slice_offset
  | rangeValue range =>
    exact .last fun _ => .last fun _ => .bind slice_offset fun _ noOffset =>
      .pure (isOffset_after _ noOffset)

theorem subscriptOn_offset {site : Site} {span : Span} :
    Returns (subscriptOn site anchor span receiver arg) fun result =>
      result.kind.isOffset = false :=
  .last fun _ => .last fun _ => .bind subscript_offset fun _ noOffset =>
    .pure (isOffset_after _ noOffset)

theorem isOffset_foldl {first : Expr} (noOffset : first.kind.isOffset = false) {rest : List Expr} :
    (rest.foldl (span.binary .add) first).kind.isOffset = false := by
  induction rest generalizing first with
  | nil => exact noOffset
  | cons next rest ih => exact ih rfl

theorem concatenation_offset {parts : List Part} :
    (concatenation span parts).kind.isOffset = false := by
  cases parts with
  | nil => rfl
  | cons part rest =>
    cases part with
    | text text => exact isOffset_foldl span rfl
    | hole value alignment format => exact isOffset_foldl span rfl

theorem conditionalValue_offset {type : Ty} {cond : Expr} :
    Returns (conditionalValue span type cond value) fun result => result.kind.isOffset = false := by
  unfold conditionalValue
  split
  · exact .pure rfl
  · exact .last fun _ => .last fun _ => .pure rfl
  · exact .last fun _ => .pure rfl

theorem desugarExpr_offset {site : Site} {node : Expr}
    (notSwitch : ∀ subject arms, kind ≠ .switch subject arms) :
    Returns (desugarExpr site node kind) fun result =>
      result.kind.isOffset = true → kind.isOffset = true ∧ inSubscript node site.ancestors = true := by
  have without {action : Pass Expr}
      (returns : Returns action fun result => result.kind.isOffset = false) :
      Returns action fun result => result.kind.isOffset = true →
        kind.isOffset = true ∧ inSubscript node site.ancestors = true :=
    returns.mono fun result noOffset isOffset => absurd isOffset (by simp [noOffset])
  have kept {kind : ExprKind} (noOffset : kind.isOffset = false) :
      Returns (pure { node with kind } : Pass Expr) fun result => result.kind.isOffset = false :=
    .pure noOffset
  cases kind with
  | «switch» subject arms => exact absurd rfl (notSwitch subject arms)
  | ident name =>
    exact without (.last fun _ => .last fun _ => .last fun _ => .ite
      (.last fun _ => setKind_offset _ rfl) (kept rfl))
  | isPattern subject pattern => exact without (.last fun _ => kept rfl)
  | index receiver args =>
    refine without (.ite (kept rfl) (.last fun found => ?_))
    split
    · exact kept rfl
    · exact .bind subscriptOn_offset fun _ noOffset => replace_offset _ noOffset
  | fromEnd value =>
    change Returns (lowerFromEnd site node value) _
    unfold lowerFromEnd
    by_cases inside : inSubscript node site.ancestors = true
    · rw [if_pos inside]
      exact .pure fun _ => ⟨rfl, inside⟩
    · rw [if_neg inside]
      exact without (replace_offset _ rfl)
  | range start stop =>
    change Returns (lowerRange site node start stop) _
    unfold lowerRange
    by_cases inside : inSubscript node site.ancestors = true
    · rw [if_pos inside]
      exact .pure fun _ => ⟨rfl, inside⟩
    · rw [if_neg inside]
      refine without ?_
      split
      exact .last fun _ => .last fun _ => replace_offset _ rfl
  | conditionalAccess receiver access =>
    refine without (.ite (kept rfl) (.last fun _ => .ite (kept rfl)
      (.last fun _ => .last fun _ => .bind (conditionalValue_offset _)
        fun _ noOffset => replace_offset _ noOffset)))
  | collection items =>
    change Returns (lowerCollection node items) _
    unfold lowerCollection
    refine without (.ite (kept rfl) (.last fun _ => .last fun _ => .last fun _ =>
      .last fun _ => .last fun _ => ?_))
    dsimp only
    split <;> exact .last fun _ => replace_offset _ rfl
  | interpolated parts =>
    change Returns (lowerInterpolated node parts) _
    unfold lowerInterpolated
    exact without (.ite (.last fun _ => replace_offset _ rfl)
      (replace_offset _ (concatenation_offset _)))
  | copyWith receiver inits =>
    refine without (.last fun ownType => ?_)
    extract_lets copied
    have isCopied (type : Ty) : Returns (copied type) fun result =>
        result.kind.isOffset = false :=
      .last fun _ => .last fun _ => .last fun _ => replace_offset _ rfl
    exact .ite (.last fun _ => isCopied _) (.last fun _ => isCopied _)
  | lambda id params isAsync body =>
    cases body with
    | expr value =>
      exact without (.last fun _ => .ite (.last fun _ => setKind_offset _ rfl) (kept rfl))
    | block body => exact without (kept rfl)
  | _ => exact without (kept rfl)

end Pass

theorem ExprKind.rebuild_offset {rules : Rules Pass} (site : Site) (kind : ExprKind) :
    Returns (kind.rebuild rules site) fun result =>
      (result.isOffset = true → kind.isOffset = true) ∧
        ((∀ subject arms, kind ≠ .switch subject arms) →
          ∀ subject arms, result ≠ .switch subject arms) := by
  cases kind with
  | «switch» subject arms =>
    rw [ExprKind.rebuild]
    exact .last fun _ => .last fun _ => .pure ⟨nofun, fun notSwitch => absurd rfl (notSwitch _ _)⟩
  | fromEnd value =>
    rw [ExprKind.rebuild]
    exact .last fun _ => .pure ⟨fun _ => rfl, fun _ => nofun⟩
  | range start stop =>
    rw [ExprKind.rebuild]
    exact .last fun _ => .last fun _ => .pure ⟨fun _ => rfl, fun _ => nofun⟩
  | _ =>
    rw [ExprKind.rebuild]
    first
      | exact .pure ⟨nofun, fun _ => nofun⟩
      | exact .last fun _ => .pure ⟨nofun, fun _ => nofun⟩
      | exact .last fun _ => .last fun _ => .pure ⟨nofun, fun _ => nofun⟩
      | exact .last fun _ => .last fun _ => .last fun _ => .pure ⟨nofun, fun _ => nofun⟩

theorem armChain_offset {view : View} {target : Ty} {subject otherwise : Expr}
    (noOffset : otherwise.kind.isOffset = false) {arms : List (Arm × Arm)}
    (isOffset : (armChain view target subject otherwise arms).kind.isOffset = true) :
    ∃ input arm rest, arms = (input, arm) :: rest ∧ arm.result.kind.isOffset = true := by
  match arms with
  | [] => exact absurd isOffset (by simp [armChain, noOffset])
  | (input, arm) :: rest =>
    refine ⟨input, arm, rest, rfl, ?_⟩
    rw [armChain] at isOffset
    split at isOffset
    · unfold convertedResult at isOffset
      split at isOffset
      · exact isOffset
      · cases isOffset
    · cases isOffset

/-- What a switch expression becomes is no `^` and no range, unless the result of its
    first arm still is one. -/
theorem rebuild_switch_offset {input : Expr} {inputs : List Arm}
    (ran : Expr.rebuild desugarRules site ⟨mark, .switch input inputs⟩ env before =
      .ok (rebuilt, after)) (isOffset : rebuilt.kind.isOffset = true) :
    ∃ span pattern guard result rest, inputs = ⟨span, pattern, guard, result⟩ :: rest ∧
      ∃ made first last, result.rebuild desugarRules
        (site.below (.expr ⟨mark, .switch input inputs⟩)) env first = .ok (made, last) ∧
        made.kind.isOffset = true := by
  rw [Expr.rebuild, ExprKind.rebuild] at ran
  obtain ⟨_, _, ranParts, ran⟩ := bind_eq_ok ran
  obtain ⟨subject, first, _, ranParts⟩ := bind_eq_ok ranParts
  obtain ⟨arms, second, ranArms, ranParts⟩ := bind_eq_ok ranParts
  cases ranParts
  obtain ⟨lowered, third, ranSwitch, ran⟩ := bind_eq_ok ran
  obtain ⟨_, _, _, ran⟩ := bind_eq_ok ran
  cases ran
  obtain ⟨holder, _, isLowered⟩ := lowerSwitchExpression_eq ranSwitch
  rw [isLowered] at isOffset
  cases isHolder : subject.keptIn? holder with
  | some capture =>
    rw [isHolder] at isOffset
    cases isOffset
  | none =>
    rw [isHolder] at isOffset
    obtain ⟨asWritten, arm, others, isZip, isOffset⟩ := armChain_offset rfl isOffset
    match inputs, arms, ranArms, isZip with
    | ⟨span, pattern, guard, result⟩ :: rest, _, ranArms, isZip =>
      rw [rebuildArms] at ranArms
      obtain ⟨_, _, _, ranArms⟩ := bind_eq_ok ranArms
      obtain ⟨_, _, _, ranArms⟩ := bind_eq_ok ranArms
      obtain ⟨made, _, ranResult, ranArms⟩ := bind_eq_ok ranArms
      obtain ⟨_, _, _, ranArms⟩ := bind_eq_ok ranArms
      cases ranArms
      cases isZip
      exact ⟨span, pattern, guard, result, rest, rfl, made, _, _, ranResult, isOffset⟩

theorem rebuild_offset_of_not_switch (notSwitch : ∀ subject arms, kind ≠ .switch subject arms)
    (ran : Expr.rebuild desugarRules site ⟨mark, kind⟩ env before = .ok (rebuilt, after))
    (isOffset : rebuilt.kind.isOffset = true) :
    kind.isOffset = true ∧ inSubscript ⟨mark, kind⟩ site.ancestors = true := by
  rw [Expr.rebuild] at ran
  obtain ⟨kept, middle, ranParts, ran⟩ := bind_eq_ok ran
  obtain ⟨sameOffset, sameSwitch⟩ := kind.rebuild_offset _ _ _ _ _ ranParts
  obtain ⟨isKept, inside⟩ :=
    desugarExpr_offset (sameSwitch notSwitch) _ _ _ _ ran isOffset
  exact ⟨sameOffset isKept, inside⟩

/-- A `^` or a range that is left was written there, right inside of a subscript. -/
theorem Expr.rebuild_offset : (node : Expr) → {site : Site} → {rebuilt : Expr} → {env : PassEnv} →
    {before after : PassState} →
    node.rebuild desugarRules site env before = .ok (rebuilt, after) →
    rebuilt.kind.isOffset = true →
    node.kind.isOffset = true ∧ inSubscript node site.ancestors = true
  | ⟨mark, kind⟩, site, rebuilt, env, before, after => by
    intro ran isOffset
    cases kind with
    | «switch» input inputs =>
      obtain ⟨span, pattern, guard, result, rest, rfl, made, first, last, ranResult, isMade⟩ :=
        rebuild_switch_offset ran isOffset
      -- the parent of the result is the switch, which is no subscript
      cases (Expr.rebuild_offset result ranResult isMade).2
    | _ => exact rebuild_offset_of_not_switch nofun ran isOffset

end Unsugar
