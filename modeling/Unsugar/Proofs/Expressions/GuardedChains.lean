import Unsugar.Proofs.Expressions.KeptOffsets
import Unsugar.Proofs.Lower.StandingPasses

namespace Unsugar

open Pass

/-! # Guarded chains

What a chain of conditional accesses becomes before it is put into its place: for each
receiver a test against `null`, and then the access behind the last `?`, read through
the receivers that were tested.
-/

/-! ## Plain chains -/

variable {args guards : List Expr} {final made lowered : Expr}

namespace PassEnv

variable (env : PassEnv)

/-- An access that goes through members, calls and subscripts that stay as they are,
    from the binding it starts at. -/
def isPlainAccess : Expr → Bool
  | ⟨_, .member inner _⟩ => isPlainAccess inner
  | ⟨_, .call callee _⟩ => isPlainAccess callee
  | ⟨_, .index inner args⟩ => isPlainAccess inner && !env.isSlicing args
  | ⟨_, .memberBinding _⟩ => true
  | ⟨_, .elementBinding args⟩ => !env.isSlicing args
  | _ => false

/-- What follows a `?`: an access, or one that a further `?` follows. -/
def isPlainChain : Expr → Bool
  | ⟨_, .conditionalAccess next rest⟩ => env.isPlainAccess next && isPlainChain rest
  | access => env.isPlainAccess access

theorem isPlainChain_conditionalAccess {mark : Mark} {next rest : Expr}
    (plain : env.isPlainChain ⟨mark, .conditionalAccess next rest⟩ = true) :
    env.isPlainAccess next = true ∧ env.isPlainChain rest = true := by
  simpa [isPlainChain] using plain

theorem isPlainAccess_of_last {access : Expr}
    (isLast : ∀ next rest, access.kind ≠ .conditionalAccess next rest)
    (plain : env.isPlainChain access = true) : env.isPlainAccess access = true := by
  obtain ⟨mark, kind⟩ := access
  unfold isPlainChain at plain
  split at plain
  · next next rest isAccess =>
      cases isAccess
      exact absurd rfl (isLast next rest)
  · exact plain

end PassEnv

def Expr.boundTo : (access receiver : Expr) → Expr
  | ⟨mark, .member inner name⟩, receiver => ⟨mark, .member (inner.boundTo receiver) name⟩
  | ⟨mark, .call callee args⟩, receiver => ⟨mark, .call (callee.boundTo receiver) args⟩
  | ⟨mark, .index inner args⟩, receiver => ⟨mark, .index (inner.boundTo receiver) args⟩
  | ⟨mark, .memberBinding name⟩, receiver => ⟨mark, .member receiver.forget name⟩
  | ⟨mark, .elementBinding args⟩, receiver => ⟨mark, .index receiver.forget args⟩
  | access, _ => access

/-! ## Links -/

def Ty.isNullable : Ty → Bool
  | .nullable _ => true
  | _ => false

/-- A receiver of a chain, the variable that keeps it unless it is simple, and whether it
    is read through its `Value`. -/
structure ChainLink where
  span : Span
  receiver : Expr
  holder : Option String
  isNullable : Bool

namespace ChainLink

variable (link : ChainLink)

/-- What stands for the receiver once it is evaluated. -/
def stable : Expr := link.receiver.heldIn link.holder

/-- What the access that follows is read through. -/
def template : Expr :=
  if link.isNullable then link.span.member link.stable.forget "Value" else link.stable

def tested : Expr := (link.receiver.keptIn? link.holder).getD link.stable.forget

def guard : Expr := link.span.binary .notEq link.tested link.span.nullLit

/-- A link tests this receiver, and keeps it unless it is simple. -/
structure Guards (view : View) (place : Span) (read : Expr) : Prop where
  span : link.span = place
  receiver : link.receiver = read
  holder : link.holder.isNone = read.isSimple
  nullable : link.isNullable = (view.typeOf read).isNullable

end ChainLink

/-- The links of a chain, from a receiver and the access that follows its `?`, and the
    access behind the last one.  Each receiver is read through the one before it. -/
inductive Linked (view : View) : Span → Expr → Expr → List ChainLink → Expr → Prop where
  | last {span : Span} {receiver access : Expr} {link : ChainLink}
      (guards : link.Guards view span receiver)
      (isLast : ∀ next rest, access.kind ≠ .conditionalAccess next rest) :
      Linked view span receiver access [link] (access.boundTo link.template)
  | more {span : Span} {receiver : Expr} {mark : Mark} {next rest : Expr} {link : ChainLink}
      {links : List ChainLink} {final : Expr} (guards : link.Guards view span receiver)
      (others : Linked view mark.span (next.boundTo link.template) rest links final) :
      Linked view span receiver ⟨mark, .conditionalAccess next rest⟩ (link :: links) final

namespace Pass

variable {env : PassEnv} {before after : PassState} {site : Site} {anchor : Expr}

theorem ofArgs?_plain (plain : env.isSlicing args = false) {state : PassState} :
    SubscriptArg.ofArgs? args env state = .ok (none, state) := by
  obtain ⟨found, asked, isFound⟩ := subscriptArg_ok
  rw [asked]
  cases found with
  | none => rfl
  | some arg => exact absurd isFound (by simp [plain])

variable {access : Expr}

theorem bindAccess_eq {receiver : Expr} {type : Ty} {bound : Expr}
    (plain : env.isPlainAccess access = true)
    (ran : bindAccess site anchor receiver type access env before = .ok (bound, after)) :
    bound = access.boundTo receiver := by
  fun_induction bindAccess site anchor receiver type access generalizing before after bound with
  | case1 mark inner name ih =>
    obtain ⟨bound, middle, ranInner, ran⟩ := bind_eq_ok ran
    cases ran
    rw [ih plain ranInner, Expr.boundTo]
  | case2 mark callee args ih =>
    obtain ⟨bound, middle, ranCallee, ran⟩ := bind_eq_ok ran
    cases ran
    rw [ih plain ranCallee, Expr.boundTo]
  | case3 mark inner args ih =>
    obtain ⟨plainInner, plainArgs⟩ : env.isPlainAccess inner = true ∧ env.isSlicing args = false := by
      simpa [PassEnv.isPlainAccess] using plain
    obtain ⟨bound, middle, ranInner, ran⟩ := bind_eq_ok ran
    rw [bind_ok (ofArgs?_plain plainArgs)] at ran
    cases ran
    rw [ih plainInner ranInner, Expr.boundTo]
  | case4 mark name =>
    cases ran
    rw [Expr.boundTo]
  | case5 mark args =>
    have plainArgs : env.isSlicing args = false := by simpa [PassEnv.isPlainAccess] using plain
    rw [bind_ok (ofArgs?_plain plainArgs)] at ran
    cases ran
    rw [Expr.boundTo]
  | case6 => cases ran

def readThrough (span : Span) (type : Ty) (stable : Expr) : Expr × Ty :=
  match type with
  | .nullable underlying => (span.member stable.forget "Value", underlying)
  | _ => (stable, type)

theorem readThrough_eq {span : Span} {receiver : Expr} {holder : Option String} {type : Ty} :
    readThrough span type (receiver.heldIn holder) =
      ((ChainLink.mk span receiver holder type.isNullable).template,
        (readThrough span type (receiver.heldIn holder)).2) := by
  cases type <;> rfl

def accessThrough (site : Site) (anchor guard : Expr) (inner : Expr × Ty) : Expr →
    Pass GuardedAccess
  | ⟨mark, .conditionalAccess next rest⟩ => do
    let chain ← guardAccess site anchor (some (inner.1, inner.2))
      ⟨mark, .conditionalAccess next rest⟩
    return { chain with guards := guard :: chain.guards }
  | access => return ⟨[guard], ← bindAccess site anchor inner.1 inner.2 access⟩

theorem guardAccess_step {outer : Option (Expr × Ty)} {mark : Mark} {receiver : Expr}
    {chain : GuardedAccess} (plain : outer.isSome = true → env.isPlainAccess receiver = true)
    (ran : guardAccess site anchor outer ⟨mark, .conditionalAccess receiver access⟩ env before =
      .ok (chain, after)) :
    ∃ (link : ChainLink) (type : Ty) (middle : PassState),
      link.Guards env.view mark.span (outer.elim receiver fun outer => receiver.boundTo outer.1) ∧
      accessThrough site anchor link.guard (link.template, type) access env middle =
        .ok (chain, after) := by
  unfold guardAccess at ran
  extract_lets span guarded at ran
  have isGuarded {read : Expr} {start : PassState}
      (ran : guarded read env start = .ok (chain, after)) :
      ∃ (link : ChainLink) (type : Ty) (middle : PassState), link.Guards env.view mark.span read ∧
        accessThrough site anchor link.guard (link.template, type) access env middle =
          .ok (chain, after) := by
    obtain ⟨type, _, isType, ran⟩ := bind_eq_ok ran
    cases isType
    obtain ⟨⟨stable, capture⟩, middle, stabilized, ran⟩ := bind_eq_ok ran
    obtain ⟨holder, isHolder, rfl, rfl⟩ := stabilize_eq stabilized
    let link : ChainLink := ⟨mark.span, read, holder, (env.view.typeOf read).isNullable⟩
    have ran : accessThrough site anchor link.guard
        (readThrough mark.span (env.view.typeOf read) (read.heldIn holder)) access env middle =
          .ok (chain, after) := ran
    rw [readThrough_eq] at ran
    exact ⟨link, _, middle, ⟨rfl, rfl, isHolder, rfl⟩, ran⟩
  cases outer with
  | none => exact isGuarded ran
  | some outer =>
    obtain ⟨bound, middle, isBound, ran⟩ := bind_eq_ok ran
    rw [bindAccess_eq (plain rfl) isBound] at ran
    exact isGuarded ran

theorem guardAccess_eq : (access : Expr) → {receiver : Expr} → {outer : Option (Expr × Ty)} →
    {mark : Mark} → {chain : GuardedAccess} → {before after : PassState} →
    (outer.isSome = true → env.isPlainAccess receiver = true) → env.isPlainChain access = true →
    guardAccess site anchor outer ⟨mark, .conditionalAccess receiver access⟩ env before =
      .ok (chain, after) →
    ∃ links, chain.guards = links.map (·.guard) ∧ Linked env.view mark.span
      (outer.elim receiver fun outer => receiver.boundTo outer.1) access links chain.value
  | ⟨accessMark, kind⟩, receiver, outer, mark, chain, before, after => by
    intro plainReceiver plain ran
    obtain ⟨link, type, middle, guards, ran⟩ := guardAccess_step plainReceiver ran
    by_cases isMore : ∃ next rest, kind = .conditionalAccess next rest
    · obtain ⟨next, rest, rfl⟩ := isMore
      obtain ⟨plainNext, plainRest⟩ := env.isPlainChain_conditionalAccess plain
      obtain ⟨further, last, ranFurther, ran⟩ := bind_eq_ok ran
      cases ran
      obtain ⟨links, areGuards, linked⟩ :=
        guardAccess_eq rest (fun _ => plainNext) plainRest ranFurther
      exact ⟨link :: links, congrArg (link.guard :: ·) areGuards, .more guards linked⟩
    · have isLast (next rest : Expr) : kind ≠ .conditionalAccess next rest :=
        fun isAccess => isMore ⟨next, rest, isAccess⟩
      rw [accessThrough.eq_2 _ _ _ _ _ fun _ next rest isAccess =>
        isLast next rest (congrArg Expr.kind isAccess)] at ran
      obtain ⟨value, last, isBound, ran⟩ := bind_eq_ok ran
      cases ran
      rw [bindAccess_eq (env.isPlainAccess_of_last isLast plain) isBound]
      exact ⟨[link], rfl, .last guards isLast⟩

/-! ## Rebuilt chains -/

theorem isSlicing_single {env : PassEnv} {arg : Expr} : env.isSlicing [arg] = (arg.kind.isOffset ||
      (env.view.types.isNamed (env.view.typeOf arg) "Index" ||
        env.view.types.isNamed (env.view.typeOf arg) "Range")) := by
  obtain ⟨mark, kind⟩ := arg
  cases kind <;> rfl

/-- Arguments that a subscript leaves alone are left alone once they are rebuilt. -/
theorem isSlicing_rebuilt {rebuilt : List Expr} (plain : env.isSlicing args = false)
    (ran : rebuildExprs desugarRules site args env before = .ok (rebuilt, after)) :
    env.isSlicing rebuilt = false := by
  match args with
  | [] =>
    cases ran
    rfl
  | first :: second :: rest =>
    rw [rebuildExprs, rebuildExprs] at ran
    obtain ⟨made, middle, _, ran⟩ := bind_eq_ok ran
    obtain ⟨others, last, ranOthers, ran⟩ := bind_eq_ok ran
    obtain ⟨other, _, _, ranOthers⟩ := bind_eq_ok ranOthers
    obtain ⟨further, _, _, ranOthers⟩ := bind_eq_ok ranOthers
    cases ranOthers
    cases ran
    rfl
  | [arg] =>
    rw [rebuildExprs, rebuildExprs] at ran
    obtain ⟨made, middle, isMade, ran⟩ := bind_eq_ok ran
    cases ran
    rw [isSlicing_single, Bool.or_eq_false_iff] at plain
    rw [isSlicing_single, View.typeOf_rebuilt _ isMade, plain.2, Bool.or_false]
    by_contra isOffset
    have wasOffset := (arg.rebuild_offset isMade (by simpa using isOffset)).1
    rw [plain.1] at wasOffset
    cases wasOffset

theorem isBindingRooted_of_isPlainAccess : (access : Expr) → env.isPlainAccess access = true →
    isBindingRooted access = true
  | ⟨_, .member inner _⟩, plain | ⟨_, .call inner _⟩, plain => by
    rw [PassEnv.isPlainAccess] at plain
    rw [isBindingRooted]
    exact isBindingRooted_of_isPlainAccess inner plain
  | ⟨_, .index inner _⟩, plain => by
    rw [PassEnv.isPlainAccess, Bool.and_eq_true] at plain
    rw [isBindingRooted]
    exact isBindingRooted_of_isPlainAccess inner plain.1
  | ⟨_, .memberBinding _⟩, _ | ⟨_, .elementBinding _⟩, _ => by rw [isBindingRooted]

theorem isPlainAccess_rebuilt : (access : Expr) → {site : Site} → {rebuilt : Expr} →
    {before after : PassState} → env.isPlainAccess access = true →
    access.rebuild desugarRules site env before = .ok (rebuilt, after) →
    env.isPlainAccess rebuilt = true
  | ⟨mark, kind⟩, site, rebuilt, before, after => by
    intro plain ran
    rw [Expr.rebuild] at ran
    obtain ⟨kept, middle, ranKind, ran⟩ := bind_eq_ok ran
    cases kind with
    | member inner name =>
      rw [PassEnv.isPlainAccess] at plain
      rw [ExprKind.rebuild] at ranKind
      obtain ⟨made, _, isMade, ranKind⟩ := bind_eq_ok ranKind
      cases ranKind
      cases ran
      rw [PassEnv.isPlainAccess]
      exact isPlainAccess_rebuilt inner plain isMade
    | call callee args =>
      rw [PassEnv.isPlainAccess] at plain
      rw [ExprKind.rebuild] at ranKind
      obtain ⟨made, _, isMade, ranKind⟩ := bind_eq_ok ranKind
      obtain ⟨others, _, _, ranKind⟩ := bind_eq_ok ranKind
      cases ranKind
      cases ran
      rw [PassEnv.isPlainAccess]
      exact isPlainAccess_rebuilt callee plain isMade
    | index inner args =>
      rw [PassEnv.isPlainAccess, Bool.and_eq_true] at plain
      rw [ExprKind.rebuild] at ranKind
      obtain ⟨made, _, isMade, ranKind⟩ := bind_eq_ok ranKind
      obtain ⟨others, _, areOthers, ranKind⟩ := bind_eq_ok ranKind
      cases ranKind
      have waits := isBindingRooted_of_isPlainAccess inner plain.1
      change lowerIndex site ⟨mark, .index inner args⟩ made others env middle = _ at ran
      unfold lowerIndex at ran
      rw [if_pos waits] at ran
      cases ran
      rw [PassEnv.isPlainAccess, isPlainAccess_rebuilt inner plain.1 isMade,
        isSlicing_rebuilt (by simpa using plain.2) areOthers]
      rfl
    | memberBinding name =>
      cases ranKind
      cases ran
      rw [PassEnv.isPlainAccess]
    | elementBinding args =>
      rw [PassEnv.isPlainAccess] at plain
      rw [ExprKind.rebuild] at ranKind
      obtain ⟨others, _, areOthers, ranKind⟩ := bind_eq_ok ranKind
      cases ranKind
      cases ran
      rw [PassEnv.isPlainAccess, isSlicing_rebuilt (by simpa using plain) areOthers]
      rfl
    | _ => cases plain

theorem isPlainChain_of_isPlainAccess (plain : env.isPlainAccess access = true) :
    env.isPlainChain access = true := by
  obtain ⟨mark, kind⟩ := access
  cases kind with
  | conditionalAccess next rest => cases plain
  | _ => exact plain

theorem isPlainChain_rebuilt : (access : Expr) → {site : Site} → {rebuilt : Expr} →
    {before after : PassState} → continuesChain site access = true →
    env.isPlainChain access = true →
    access.rebuild desugarRules site env before = .ok (rebuilt, after) →
    env.isPlainChain rebuilt = true
  | ⟨mark, kind⟩, site, rebuilt, before, after => by
    intro continues plain ran
    by_cases isMore : ∃ next rest, kind = .conditionalAccess next rest
    · obtain ⟨next, rest, rfl⟩ := isMore
      obtain ⟨plainNext, plainRest⟩ := env.isPlainChain_conditionalAccess plain
      rw [Expr.rebuild, ExprKind.rebuild] at ran
      obtain ⟨_, middle, ranKind, ran⟩ := bind_eq_ok ran
      obtain ⟨madeNext, _, isNext, ranKind⟩ := bind_eq_ok ranKind
      obtain ⟨madeRest, _, isRest, ranKind⟩ := bind_eq_ok ranKind
      cases ranKind
      change lowerConditionalAccess site _ _ env middle = _ at ran
      unfold lowerConditionalAccess at ran
      rw [if_pos continues] at ran
      cases ran
      have inside : continuesChain (site.below (.expr ⟨mark, .conditionalAccess next rest⟩))
          rest = true := beq_self_eq_true rest.id
      have further := isPlainChain_rebuilt rest inside plainRest isRest
      rw [PassEnv.isPlainChain, isPlainAccess_rebuilt next plainNext isNext, further]
      rfl
    · have isLast (next rest : Expr) : kind ≠ .conditionalAccess next rest :=
        fun isAccess => isMore ⟨next, rest, isAccess⟩
      exact isPlainChain_of_isPlainAccess
        (isPlainAccess_rebuilt _ (env.isPlainAccess_of_last isLast plain) ran)

/-! ## Where a chain stands -/

end Pass

section Places

variable (view : View) (span : Span)

def View.defaultValue (type : Ty) : Expr :=
  if view.types.isPlainValue type then span.expr (.defaultOf (view.types.names.syntaxOf type))
  else span.nullLit

/-- What a chain becomes inside of an expression. -/
def View.guardedValue (type : Ty) (guards : List Expr) (final : Expr) : Expr :=
  let cond := span.conjunction guards
  match type with
  | .void =>
    span.conditional cond
      (span.immediate (.simple "bool") [span.evalStmt final, span.ret (span.boolLit true)])
      (span.boolLit false)
  | .nullable _ =>
    span.conditional cond (span.cast (view.types.names.syntaxOf type) final)
      (view.defaultValue span type)
  | _ => span.conditional cond final (view.defaultValue span type)

/-- What a chain without a value becomes where a statement can stand. -/
def guardedEffect (guards : List Expr) (final : Expr) : StmtKind :=
  .ifElse (span.conjunction guards) (span.evalStmt final) none

end Places

namespace Pass

variable {type : Ty}

theorem defaultValue_eq {span : Span} {value : Expr}
    (ran : defaultValue span type env before = .ok (value, after)) :
    value = env.view.defaultValue span type := by
  unfold defaultValue at ran
  obtain ⟨types, _, isTypes, ran⟩ := bind_eq_ok ran
  cases isTypes
  unfold View.defaultValue
  split at ran
  · next isPlain =>
      obtain ⟨written, _, isWritten, ran⟩ := bind_eq_ok ran
      cases isWritten
      cases ran
      rw [if_pos isPlain]
  · next notPlain =>
      cases ran
      rw [if_neg notPlain]

theorem guardedValue_other {view : View} {span : Span}
    (notVoid : type ≠ .void) (notNullable : ∀ inner, type ≠ .nullable inner) :
    view.guardedValue span type guards final =
      span.conditional (span.conjunction guards) final (view.defaultValue span type) := by
  unfold View.guardedValue
  split
  · exact absurd rfl notVoid
  · exact absurd rfl (notNullable _)
  · rfl

theorem conditionalValue_eq {span : Span}
    (ran : conditionalValue span type (span.conjunction guards) final env before =
      .ok (made, after)) :
    made = env.view.guardedValue span type guards final := by
  unfold conditionalValue at ran
  split at ran
  · cases ran
    rfl
  · obtain ⟨written, _, isWritten, ran⟩ := bind_eq_ok ran
    cases isWritten
    obtain ⟨otherwise, _, isDefault, ran⟩ := bind_eq_ok ran
    cases ran
    cases defaultValue_eq isDefault
    rfl
  · next notVoid notNullable =>
      obtain ⟨otherwise, _, isDefault, ran⟩ := bind_eq_ok ran
      cases ran
      cases defaultValue_eq isDefault
      exact (guardedValue_other notVoid notNullable).symm

theorem rebuildChain_eq {site : Site} {mark : Mark} {receiver access : Expr}
    (plain : env.isPlainChain access = true)
    (ran : Expr.rebuild desugarRules site ⟨mark, .conditionalAccess receiver access⟩ env before =
      .ok (made, after)) :
    let node : Expr := ⟨mark, .conditionalAccess receiver access⟩
    let below := site.below (.expr node)
    ∃ madeReceiver madeAccess middle last,
      receiver.rebuild desugarRules below env before = .ok (madeReceiver, middle) ∧
      access.rebuild desugarRules below env middle = .ok (madeAccess, last) ∧
      env.isPlainChain madeAccess = true ∧
      lowerConditionalAccess site node (.conditionalAccess madeReceiver madeAccess) env last =
        .ok (made, after) := by
  rw [Expr.rebuild, ExprKind.rebuild] at ran
  obtain ⟨kept, last, ranKind, ran⟩ := bind_eq_ok ran
  obtain ⟨madeReceiver, middle, isReceiver, ranKind⟩ := bind_eq_ok ranKind
  obtain ⟨madeAccess, _, isAccess, ranKind⟩ := bind_eq_ok ranKind
  cases ranKind
  have inside : continuesChain (site.below (.expr ⟨mark, .conditionalAccess receiver access⟩))
      access = true := beq_self_eq_true access.id
  exact ⟨madeReceiver, madeAccess, middle, last, isReceiver, isAccess,
    isPlainChain_rebuilt access inside plain isAccess, ran⟩

/-- The links of a chain as it was written, and what is behind them, once its parts are
    desugared. -/
def Chained (env : PassEnv) (site : Site) (mark : Mark) (receiver access : Expr)
    (start : PassState) (links : List ChainLink) (final : Expr) : Prop :=
  let below := site.below (.expr ⟨mark, .conditionalAccess receiver access⟩)
  ∃ madeReceiver madeAccess middle last,
    receiver.rebuild desugarRules below env start = .ok (madeReceiver, middle) ∧
    access.rebuild desugarRules below env middle = .ok (madeAccess, last) ∧
    Linked env.view mark.span madeReceiver madeAccess links final

section Placed

variable {mark : Mark} {receiver access : Expr} {start finish : PassState}

theorem chain_value (plain : env.isPlainChain access = true)
    (outermost : continuesChain site ⟨mark, .conditionalAccess receiver access⟩ = false)
    (notTaken : (parentTakesIf site ⟨mark, .conditionalAccess receiver access⟩ &&
      env.isVoidAccess ⟨mark, .conditionalAccess receiver access⟩) = false)
    (ran : Expr.rebuild desugarRules site ⟨mark, .conditionalAccess receiver access⟩ env start =
      .ok (lowered, finish)) :
    ∃ links final, Chained env site mark receiver access start links final ∧
      lowered.kind = (env.view.guardedValue mark.span
        (env.view.typeOf ⟨mark, .conditionalAccess receiver access⟩) (links.map (·.guard))
        final).kind := by
  obtain ⟨madeReceiver, madeAccess, first, middle, isReceiver, isAccess, plainMade, ran⟩ :=
    rebuildChain_eq plain ran
  unfold lowerConditionalAccess at ran
  rw [if_neg (by simp [outermost]), bind_ok (isVoidAccess_ok env _ middle),
    if_neg (by simp [notTaken])] at ran
  obtain ⟨chain, second, guarded, ran⟩ := bind_eq_ok ran
  obtain ⟨type, third, isType, ran⟩ := bind_eq_ok ran
  cases isType
  obtain ⟨value, fourth, isValue, ran⟩ := bind_eq_ok ran
  obtain rfl := conditionalValue_eq isValue
  cases ran
  obtain ⟨links, areGuards, linked⟩ := guardAccess_eq madeAccess (by nofun) plainMade guarded
  refine ⟨links, chain.value, ⟨_, _, _, _, isReceiver, isAccess, linked⟩, ?_⟩
  rw [← areGuards]
  rfl

theorem chain_effect (plain : env.isPlainChain access = true)
    (outermost : continuesChain site ⟨mark, .conditionalAccess receiver access⟩ = false)
    (takes : parentTakesIf site ⟨mark, .conditionalAccess receiver access⟩ = true)
    (isVoid : env.isVoidAccess ⟨mark, .conditionalAccess receiver access⟩ = true)
    (ran : Expr.rebuild desugarRules site ⟨mark, .conditionalAccess receiver access⟩ env start =
      .ok (made, finish)) :
    made.span = mark.span ∧ env.isVoidAccess made = true ∧
      ∀ place state cond body last, lowerVoidAccess place made env state = .ok ((cond, body), last) →
        ∃ links final, Chained env site mark receiver access start links final ∧
          StmtKind.ifElse cond body none = guardedEffect mark.span (links.map (·.guard)) final := by
  obtain ⟨madeReceiver, madeAccess, first, middle, isReceiver, isAccess, plainMade, ran⟩ :=
    rebuildChain_eq plain ran
  unfold lowerConditionalAccess at ran
  rw [if_neg (by simp [outermost]), bind_ok (isVoidAccess_ok env _ middle),
    if_pos (by simp [takes, isVoid])] at ran
  cases ran
  refine ⟨rfl, isVoid, fun place state cond body last lowered => ?_⟩
  unfold lowerVoidAccess at lowered
  obtain ⟨chain, second, guarded, lowered⟩ := bind_eq_ok lowered
  cases lowered
  obtain ⟨links, areGuards, linked⟩ := guardAccess_eq madeAccess (by nofun) plainMade guarded
  refine ⟨links, chain.value, ⟨_, _, _, _, isReceiver, isAccess, linked⟩, ?_⟩
  rw [← areGuards]
  rfl

theorem chain_statement {stmtMark : Mark} {lowered : List Stmt} (plain : env.isPlainChain access = true)
    (isVoid : env.isVoidAccess ⟨mark, .conditionalAccess receiver access⟩ = true)
    (ran : Stmt.rebuildMany desugarRules site ⟨stmtMark, .eval ⟨mark, .conditionalAccess receiver
      access⟩⟩ env start = .ok (lowered, finish)) :
    ∃ links final,
      Chained env (site.below (.stmt ⟨stmtMark, .eval ⟨mark, .conditionalAccess receiver access⟩⟩))
        mark receiver access start links final ∧
      lowered = [⟨stmtMark, guardedEffect mark.span (links.map (·.guard)) final⟩] := by
  rw [Stmt.rebuildMany, StmtKind.rebuild] at ran
  obtain ⟨_, middle, ranKind, ran⟩ := bind_eq_ok ran
  obtain ⟨made, _, isMade, ranKind⟩ := bind_eq_ok ranKind
  cases ranKind
  have takes : parentTakesIf (site.below (.stmt ⟨stmtMark, .eval ⟨mark, .conditionalAccess receiver
      access⟩⟩)) ⟨mark, .conditionalAccess receiver access⟩ = true := beq_self_eq_true mark.id
  obtain ⟨-, stillVoid, isEffect⟩ := chain_effect plain rfl takes isVoid isMade
  obtain ⟨_, first, observed, ran⟩ := bind_eq_ok ran
  cases observed
  change (isVoidAccess made >>= fun isVoid =>
    if isVoid then lowerVoidStatement site _ made else _) env middle = _ at ran
  rw [bind_ok (isVoidAccess_ok env made middle), if_pos stillVoid] at ran
  obtain ⟨⟨cond, body⟩, last, lowersVoid, ran⟩ := bind_eq_ok ran
  cases ran
  obtain ⟨links, final, chained, isStmt⟩ := isEffect _ _ _ _ _ lowersVoid
  exact ⟨links, final, chained, by rw [← isStmt]⟩

theorem chain_lambda {lambdaMark : Mark} {id : Option Nat} {params : List Param} {isAsync : Bool}
    (plain : env.isPlainChain access = true)
    (isVoid : env.isVoidAccess ⟨mark, .conditionalAccess receiver access⟩ = true)
    (ran : Expr.rebuild desugarRules site ⟨lambdaMark, .lambda id params isAsync (.expr
      ⟨mark, .conditionalAccess receiver access⟩)⟩ env start = .ok (lowered, finish)) :
    ∃ madeParams middle links final,
      let below := site.below (.expr ⟨lambdaMark, .lambda id params isAsync (.expr
        ⟨mark, .conditionalAccess receiver access⟩)⟩)
      rebuildParams desugarRules below params env start = .ok (madeParams, middle) ∧
      Chained env below mark receiver access middle links final ∧
      lowered = ⟨lambdaMark, .lambda id madeParams isAsync (.block (mark.span.block
        [mark.span.stmt (guardedEffect mark.span (links.map (·.guard)) final)]))⟩ := by
  rw [Expr.rebuild, ExprKind.rebuild] at ran
  obtain ⟨_, second, ranKind, ran⟩ := bind_eq_ok ran
  obtain ⟨madeParams, middle, areParams, ranKind⟩ := bind_eq_ok ranKind
  rw [LambdaBody.rebuild] at ranKind
  obtain ⟨_, _, ranBody, ranKind⟩ := bind_eq_ok ranKind
  obtain ⟨made, _, isMade, ranBody⟩ := bind_eq_ok ranBody
  cases ranBody
  cases ranKind
  have takes : parentTakesIf (site.below (.expr ⟨lambdaMark, .lambda id params isAsync (.expr
      ⟨mark, .conditionalAccess receiver access⟩)⟩)) ⟨mark, .conditionalAccess receiver access⟩ =
        true := beq_self_eq_true mark.id
  obtain ⟨sameSpan, stillVoid, isEffect⟩ := chain_effect plain rfl takes isVoid isMade
  change (isVoidAccess made >>= fun isVoid =>
    if isVoid then lowerVoidLambda site _ id madeParams isAsync made else _) env second = _ at ran
  rw [bind_ok (isVoidAccess_ok env made second), if_pos stillVoid] at ran
  obtain ⟨⟨cond, body⟩, last, lowersVoid, ran⟩ := bind_eq_ok ran
  cases ran
  obtain ⟨links, final, chained, isStmt⟩ := isEffect _ _ _ _ _ lowersVoid
  refine ⟨madeParams, middle, links, final, areParams, chained, ?_⟩
  rw [← isStmt, sameSpan]
  rfl

end Placed

end Pass

end Unsugar
