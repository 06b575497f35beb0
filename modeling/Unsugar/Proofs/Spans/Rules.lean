import Unsugar.Proofs.Ownership.Rules
import Unsugar.Proofs.Spans.Rebuilds

open List

namespace Unsugar

/-! # Where the spans of rules come from

A rule gives whatever it makes the span of a node, an arm or a declaration that it
was given, and so do the declarations it queues and the errors it raises.  `Sourced`
says all three of an action at once; every rule has one lemma.
-/

open Node

variable {hint name : String} {type : Ty} {kind : StmtKind} {owner : Owner} {queue : HoistQueue}
  {anchor inner : Expr} {args : List Expr} {arg : SubscriptArg}

namespace Pass

variable {α β : Type} {source : Span → Prop} {action : Pass α}

/-- Run where the unit and what is queued carry only these spans, an action that ends
    well ensures `post` and queues no others, and an error carries no others. -/
def Sourced (source : Span → Prop) (action : Pass α) (post : α → Prop) : Prop :=
  ∀ env before, env.unit.From source → before.hoists.From source →
    (∀ result after, action env before = .ok (result, after) →
      post result ∧ after.hoists.From source) ∧
    ∀ error, action env before = .error error → error.From source

abbrev Calm (source : Span → Prop) (action : Pass α) : Prop := Sourced source action fun _ => True

namespace Sourced

variable {post middle : α → Prop} {last : β → Prop}

theorem pure {value : α} (isPost : post value) : Sourced source (Pure.pure value) post := by
  intro env before _ areQueued
  refine ⟨?_, nofun⟩
  rintro result after ⟨⟩
  exact ⟨isPost, areQueued⟩

theorem bind {next : α → Pass β} (first : Sourced source action middle)
    (rest : ∀ value, middle value → Sourced source (next value) last) :
    Sourced source (action >>= next) last := by
  intro env before isUnit areQueued
  obtain ⟨ends, fails⟩ := first env before isUnit areQueued
  change (∀ result after,
      (action env before >>= fun (value, state) => next value env state) = _ → _) ∧
    ∀ error, (action env before >>= fun (value, state) => next value env state) = _ → _
  cases ran : action env before with
  | error error => exact ⟨nofun, fun other same => by cases same; exact fails error ran⟩
  | ok reached =>
    obtain ⟨isMiddle, stillQueued⟩ := ends reached.1 reached.2 ran
    exact rest reached.1 isMiddle env reached.2 isUnit stillQueued

theorem mono (sourced : Sourced source action middle)
    (weaker : ∀ value, middle value → post value) : Sourced source action post := by
  intro env before isUnit areQueued
  obtain ⟨ends, fails⟩ := sourced env before isUnit areQueued
  exact ⟨fun result after ran => (ends result after ran).imp_left (weaker result), fails⟩

theorem calm (sourced : Sourced source action middle) : Calm source action :=
  sourced.mono fun _ _ => trivial

/-- What follows a step whose result carries no spans. -/
theorem after {next : α → Pass β} (first : Calm source action)
    (rest : ∀ value, Sourced source (next value) last) : Sourced source (action >>= next) last :=
  first.bind fun value _ => rest value

theorem afterPure (first : Calm source action) {build : α → β}
    (isPost : ∀ value, last (build value)) :
    Sourced source (action >>= fun value => (Pure.pure (build value) : Pass β)) last :=
  first.after fun value => .pure (isPost value)

theorem ite {condition : Prop} [Decidable condition] {yes no : Pass α}
    (isYes : Sourced source yes post) (isNo : Sourced source no post) :
    Sourced source (if condition then yes else no) post := by
  split
  · exact isYes
  · exact isNo

theorem fail {error : LowerError} (isFrom : error.From source) :
    Sourced source (Pass.fail error) post := by
  intro env before _ _
  refine ⟨nofun, ?_⟩
  rintro other ⟨⟩
  exact isFrom

theorem rethrow {handler : LowerError → Pass α} (sourced : Sourced source action post)
    (raises : ∀ error : LowerError, error.From source → Sourced source (handler error) post) :
    Sourced source (tryCatch action handler) post := by
  intro env before isUnit areQueued
  obtain ⟨ends, fails⟩ := sourced env before isUnit areQueued
  change (∀ result after, (tryCatch (action env before) fun error => handler error env before :
      Except LowerError (α × PassState)) = _ → _) ∧
    ∀ error, (tryCatch (action env before) fun error => handler error env before :
      Except LowerError (α × PassState)) = _ → _
  cases ran : action env before with
  | error error => exact raises error (fails error ran) env before isUnit areQueued
  | ok reached =>
    refine ⟨?_, nofun⟩
    rintro result after ⟨⟩
    exact ends result after ran

theorem mapM {action : α → Pass β} {values : List α}
    (each : ∀ value ∈ values, Sourced source (action value) last) :
    Sourced source (values.mapM action) fun results => ∀ result ∈ results, last result := by
  induction values with
  | nil =>
    rw [mapM_nil]
    exact .pure nofun
  | cons value rest ih =>
    obtain ⟨isFirst, areRest⟩ := forall_mem_cons.1 each
    rw [mapM_cons]
    exact isFirst.bind fun _ first => (ih areRest).bind fun _ others =>
      .pure (forall_mem_cons.2 ⟨first, others⟩)

end Sourced

end Pass

def Contract.sourced (source : Span → Prop) : Contract Pass where
  holds := Pass.Sourced source
  pure := .pure
  bind := .bind

variable (site : Site) (point : InstallPoint)

namespace Pass

variable {α β : Type} {source : Span → Prop} {span : Span}

/-! ## What every rule can do -/

theorem read_sourced : Sourced source (read : Pass PassEnv) fun env => env.unit.From source := by
  intro env before isUnit areQueued
  refine ⟨?_, nofun⟩
  rintro result after ⟨⟩
  exact ⟨isUnit, areQueued⟩

theorem read_calm : Calm source (read : Pass PassEnv) := read_sourced.calm

theorem calm_of_ok {action : Pass α}
    (ends : ∀ env before, ∃ result after, action env before = .ok (result, after) ∧
      (before.hoists.From source → after.hoists.From source)) : Calm source action := by
  intro env before _ areQueued
  obtain ⟨result, after, ran, keeps⟩ := ends env before
  rw [ran]
  refine ⟨?_, nofun⟩
  rintro _ _ ⟨⟩
  exact ⟨trivial, keeps areQueued⟩

theorem get_calm : Calm source (get : Pass PassState) := calm_of_ok fun _ _ => ⟨_, _, rfl, id⟩

theorem view_calm : Calm source view := read_calm.afterPure fun _ => trivial

theorem types_calm : Calm source types := read_calm.afterPure fun _ => trivial

theorem typeOf_calm {node : Expr} : Calm source (typeOf node) :=
  view_calm.afterPure fun _ => trivial

theorem markChanged_calm : Calm source markChanged := calm_of_ok fun _ _ => ⟨_, _, rfl, id⟩

theorem fresh_calm : Calm source (fresh hint) :=
  calm_of_ok fun _ _ => ⟨_, _, rfl, id⟩

theorem freshId_calm : Calm source freshId := calm_of_ok fun _ _ => ⟨_, _, rfl, id⟩

theorem syntaxOf_calm (type : Ty) : Calm source (syntaxOf type) :=
  calm_of_ok fun _ _ => ⟨_, _, rfl, id⟩

theorem localSyntax_calm : Calm source (localSyntax type) :=
  calm_of_ok fun _ _ => ⟨_, _, rfl, id⟩

theorem unsupported_sourced {what : String} {post : α → Prop} (isSpan : source span) :
    Sourced source (unsupported what span : Pass α) post :=
  read_calm.after fun _ => .fail (by simpa [LowerError.From, LowerError.spans] using isSpan)

/-! ## Putting something in place of a node -/

section Replacing

variable {node : Expr}

theorem setKind_sourced {kind : ExprKind} (isFrom : (expr node).From source)
    (isKind : kind.From source) :
    Sourced source (setKind node kind) fun result => (expr result).From source :=
  markChanged_calm.afterPure fun _ => keepExpr_from isFrom isKind

theorem replace_sourced {replacement : Expr} (isFrom : (expr replacement).From source) :
    Sourced source (replace node replacement) fun result => (expr result).From source :=
  markChanged_calm.afterPure fun _ => from_expr.2 ⟨isFrom.exprSpan, isFrom.exprKind⟩

theorem setStmt_sourced {node : Stmt} (isFrom : (stmt node).From source)
    (isKind : kind.From source) :
    Sourced source (setStmt node kind) fun results => AllFrom source (ofStmts results) :=
  markChanged_calm.afterPure fun _ => allFrom_single (keepStmt_from isFrom isKind)

theorem splice_sourced {node : Stmt} {first : StmtKind} {rest : List Stmt}
    (isFrom : (stmt node).From source) (isFirst : first.From source)
    (areRest : AllFrom source (ofStmts rest)) :
    Sourced source (splice node first rest) fun results => AllFrom source (ofStmts results) :=
  markChanged_calm.afterPure fun _ => allFrom_cons.2 ⟨keepStmt_from isFrom isFirst, areRest⟩

theorem defaultValue_sourced (isSpan : source span) :
    Sourced source (defaultValue span type) fun result => (expr result).From source :=
  types_calm.after fun _ => .ite
    ((syntaxOf_calm type).afterPure fun _ => from_spanExpr.2 ⟨isSpan, nofun, allFrom_nil⟩)
    (.pure (from_nullLit.2 isSpan))

end Replacing

/-! ## Hoisting -/

theorem returnsValue_calm {node body : Expr} : Calm source (returnsValue node body) :=
  view_calm.after fun _ => .ite (.pure trivial) (.pure trivial)

theorem movesIntoConstructor_calm {root : Expr} :
    Calm source (movesIntoConstructor owner root) := by
  unfold movesIntoConstructor
  split
  · refine read_calm.after fun _ => ?_
    split
    · exact .pure trivial
    · split <;> exact .pure trivial
  · exact .pure trivial

theorem findPoint_calm (owner : Owner) (isSpan : source span) :
    (chain : List Node) → Calm source (findPoint owner span chain)
  | [] => unsupported_sourced isSpan
  | .stmt node :: rest => by
    unfold findPoint
    split
    · exact .pure trivial
    · exact findPoint_calm owner isSpan rest
  | .expr node :: rest => by
    have later := findPoint_calm owner isSpan rest
    unfold findPoint
    split
    · exact returnsValue_calm.afterPure fun _ => trivial
    · split
      · exact read_calm.after fun _ => movesIntoConstructor_calm.after fun _ =>
          .ite (.pure trivial) (unsupported_sourced isSpan)
      · exact later
  | .pattern _ :: rest => findPoint_calm owner isSpan rest

theorem installPoint_calm {node : Expr} (isSpan : source span) :
    Calm source (installPoint site node span) := findPoint_calm _ isSpan _

end Pass

theorem HoistQueue.From.declare {source : Span → Prop}
    {hoisted : HoistedLocal} (areQueued : queue.From source) (isFrom : source hoisted.span) :
    (queue.declare point hoisted).From source := by
  obtain ⟨entries⟩ := queue
  change ∀ entry ∈ declareIn point hoisted entries, ∀ other ∈ entry.2, source other.span
  replace areQueued : ∀ entry ∈ entries, ∀ other ∈ entry.2, source other.span := areQueued
  induction entries with
  | nil => simpa [declareIn] using isFrom
  | cons entry rest ih =>
    obtain ⟨isFirst, areRest⟩ := forall_mem_cons.1 areQueued
    obtain ⟨other, queued⟩ := entry
    unfold declareIn
    split
    · refine forall_mem_cons.2 ⟨fun added isAdded => ?_, areRest⟩
      dsimp only [addTo] at isAdded
      split at isAdded
      · exact isFirst added isAdded
      · rcases mem_append.1 isAdded with isOld | isNew
        · exact isFirst added isOld
        · exact mem_singleton.1 isNew ▸ isFrom
    · exact forall_mem_cons.2 ⟨isFirst, ih areRest⟩

theorem HoistQueue.From.relocate {source : Span → Prop}
    (start target : InstallPoint) (areQueued : queue.From source) :
    (queue.relocate start target).From source := by
  have moved : ∀ hoisted ∈ queue.at? start, source hoisted.span := by
    unfold at?
    cases found : queue.entries.lookup start with
    | none => simp
    | some queued =>
      obtain ⟨before, after, isEntry, _⟩ := lookup_eq_some_iff.1 found
      exact areQueued (start, queued) (isEntry ▸ mem_append_right _ mem_cons_self)
  have kept : HoistQueue.From source ⟨queue.entries.filter fun entry => entry.1 != start⟩ :=
    fun entry isEntry => areQueued entry (mem_filter.1 isEntry).1
  unfold HoistQueue.relocate
  generalize queue.at? start = hoisted at moved
  dsimp only
  generalize (⟨queue.entries.filter fun entry => entry.1 != start⟩ : HoistQueue) = rest at kept
  induction hoisted generalizing rest with
  | nil => exact kept
  | cons first others ih =>
    obtain ⟨isFirst, areOthers⟩ := forall_mem_cons.1 moved
    exact ih areOthers _ (HoistQueue.From.declare target kept isFirst)

variable {value : Expr} {receiver : Expr}

namespace Pass

variable {α β : Type} {source : Span → Prop} {span : Span}

theorem hoist_calm {type : TypeSyntax} (isSpan : source span) :
    Calm source (hoist point name type span) :=
  calm_of_ok fun _ _ => ⟨_, _, rfl, fun areQueued => HoistQueue.From.declare point areQueued isSpan⟩

theorem temporary_calm (isSpan : source span) : Calm source (temporary point hint type span) :=
  fresh_calm.after fun _ => (syntaxOf_calm type).after fun _ =>
    (hoist_calm point isSpan).afterPure fun _ => trivial

theorem stabilize_sourced (isFrom : (expr value).From source) :
    Sourced source (stabilize site anchor value type hint) fun result =>
      (expr result.1).From source ∧ AllFrom source (ofExpr? result.2) := by
  have isSpan := isFrom.exprSpan
  refine .ite (.pure ⟨isFrom, allFrom_nil⟩) ?_
  exact (installPoint_calm site isSpan).after fun point =>
    (temporary_calm point isSpan).afterPure fun _ => by simp [isSpan, isFrom]

theorem inputPattern_sourced {node : Pattern} (isFrom : (pattern node).From source) :
    Sourced source (inputPattern node) fun result => (pattern result).From source := by
  refine read_sourced.bind fun env isUnit => .pure ?_
  generalize found : env.unit.reachable.findSome? _ = answer
  cases answer with
  | none => exact isFrom
  | some candidate =>
    obtain ⟨inner, isInner, isFound⟩ := exists_of_findSome?_eq_some found
    cases inner with
    | pattern other =>
      simp only [Option.ite_none_right_eq_some, Option.some.injEq] at isFound
      obtain ⟨-, rfl⟩ := isFound
      exact isUnit.reachable isInner
    | _ => cases isFound

/-! ## Rules that keep what they are given -/

theorem keepExpr_sourced {node : Expr} {kind : ExprKind} (isFrom : (expr node).From source)
    (isKind : kind.From source) :
    Sourced source (pure { node with kind }) fun result => (expr result).From source :=
  .pure (keepExpr_from isFrom isKind)

theorem keepStmt_sourced {node : Stmt} (isFrom : (stmt node).From source)
    (isKind : kind.From source) :
    Sourced source (pure [{ node with kind }]) fun results => AllFrom source (ofStmts results) :=
  .pure (allFrom_single (keepStmt_from isFrom isKind))

theorem keepPattern_sourced {node : Pattern} {kind : PatternKind}
    (isFrom : (pattern node).From source) (isKind : kind.From source) :
    Sourced source (pure { node with kind }) fun result => (pattern result).From source :=
  .pure (keepPattern_from isFrom isKind)

/-! ## Bodies, names and targets -/

theorem isVoid_calm {type : TypeSyntax} : Calm source (isVoid type) :=
  view_calm.afterPure fun _ => trivial

theorem toBlock_from {body : Body} (returns : Bool) (isFrom : AllFrom source (ofBody body)) :
    AllFrom source (ofBody (body.toBlock returns)) := by
  cases body with
  | expr value =>
    have isValue := (allFrom_cons.1 isFrom).1
    cases returns <;> simp [Body.toBlock, ofBody, isValue, isValue.exprSpan]
  | _ => exact isFrom

theorem blockRules_traced : blockRules.Traced (.sourced source) source where
  expr _ _ _ := keepExpr_sourced
  stmt _ node kind isFrom isKind := by
    change Sourced source _ _
    simp only [blockRules]
    split
    · next name typeParams params ret value =>
        obtain ⟨areParams, isBody⟩ := allFrom_append.1 isKind
        exact isVoid_calm.after fun _ => setStmt_sourced isFrom
          (allFrom_append.2 ⟨areParams, @toBlock_from _ (.expr value) _ isBody⟩)
    · exact keepStmt_sourced isFrom isKind
  pattern _ _ _ := keepPattern_sourced

theorem enclosingType_calm : Calm source (enclosingType owner) :=
  read_calm.afterPure fun _ => trivial

theorem qualify_sourced {node : Expr} {reference : Reference} {container : Ty}
    (isFrom : (expr node).From source) :
    Sourced source (qualify node name reference container) fun result =>
      (expr result).From source := by
  have qualified {receiver : Expr} (isReceiver : (expr receiver).From source) :=
    @setKind_sourced _ _ (.member receiver name) isFrom
      ⟨forall_mem_nil _, allFrom_cons.2 ⟨isReceiver, allFrom_nil⟩⟩
  have isSpan := isFrom.exprSpan
  unfold qualify
  split
  · exact (syntaxOf_calm container).after fun _ => qualified (from_typeRef.2 isSpan)
  · exact qualified (from_self.2 isSpan)

theorem qualifyRules_traced (wanted : Reference → Ty → Bool → Bool) :
    (qualifyRules wanted).Traced (.sourced source) source where
  expr site node kind isFrom isKind := by
    change Sourced source _ _
    cases kind with
    | ident name =>
      refine view_calm.after fun view => ?_
      split
      · split
        · exact enclosingType_calm.after fun _ =>
            .ite (qualify_sourced isFrom) (keepExpr_sourced isFrom isKind)
        · exact keepExpr_sourced isFrom isKind
      · exact keepExpr_sourced isFrom isKind
    | _ => exact keepExpr_sourced isFrom isKind
  stmt _ _ _ := keepStmt_sourced
  pattern _ _ _ := keepPattern_sourced

theorem outVariable?_calm : Calm source (outVariable? inner) := by
  unfold outVariable?
  split
  · refine view_calm.after fun _ => ?_
    dsimp only
    split
    · exact (syntaxOf_calm _).afterPure fun _ => trivial
    · exact .pure trivial
  · exact fresh_calm.after fun _ => view_calm.after fun _ =>
      (syntaxOf_calm _).afterPure fun _ => trivial
  · exact .pure trivial

theorem outArgument_sourced {node : Expr} {input : Expr} (isFrom : (expr node).From source)
    (isInner : (expr inner).From source) :
    Sourced source (outArgument site node input inner) fun result => (expr result).From source := by
  have isSpan := isFrom.exprSpan
  have passes {passed : Expr} (isPassed : (expr passed).From source) :
      (expr { node with kind := .out passed }).From source :=
    keepExpr_from isFrom ⟨forall_mem_nil _, allFrom_cons.2 ⟨isPassed, allFrom_nil⟩⟩
  have named (name : String) : (ExprKind.ident name).From source :=
    ⟨forall_mem_nil _, allFrom_nil⟩
  refine outVariable?_calm.after fun found => ?_
  split
  · exact .pure (passes isInner)
  · exact (installPoint_calm site isSpan).after fun _ => (hoist_calm _ isSpan).after
      fun _ => (setKind_sourced isInner (named _)).bind fun _ isPassed =>
        .pure (passes isPassed)

theorem assignTargets_from (types : Universe) (isSpan : source span) {read : Expr}
    (isRead : (expr read).From source) :
    (items targets : List Expr) → (components : List (String × Ty)) →
    AllFrom source (ofExprs targets) →
    AllFrom source (ofStmts (assignTargets types span read items targets components))
  | ⟨mark, kind⟩ :: items, target :: targets, (name, type) :: components, areFrom => by
    obtain ⟨isTarget, areTargets⟩ := allFrom_cons.1 areFrom
    have others := assignTargets_from types isSpan isRead items targets components areTargets
    have isAccess : (expr (span.member read.forget name)).From source :=
      from_member.2 ⟨isSpan, Expr.forget_from isRead⟩
    cases kind with
    | discard => simpa [assignTargets] using others
    | tuple nested =>
      simp only [assignTargets, ofStmts_append, allFrom_append]
      refine ⟨assignTargets_from types isSpan isAccess nested _ _ ?_, others⟩
      split
      · next isTuple =>
          have isKind := isTarget.exprKind.2
          rwa [isTuple] at isKind
      · exact allFrom_nil
    | _ => simp [assignTargets, isSpan, isAccess, isTarget, others]
  | [], _, _, _ | _ :: _, [], _, _ | _ :: _, _ :: _, [], _ => by simp [assignTargets]

theorem deconstruct_sourced {node : Stmt} {items : List Expr} {targets : List Expr}
    (isFrom : (stmt node).From source) (areTargets : AllFrom source (ofExprs targets))
    (isValue : (expr value).From source) :
    Sourced source (deconstruct node items targets value) fun results =>
      AllFrom source (ofStmts results) := by
  have isSpan := isFrom.stmtSpan
  refine types_calm.after fun types => typeOf_calm.after fun type =>
    fresh_calm.after fun name => localSyntax_calm.after fun written =>
      splice_sourced isFrom (allFrom_cons.2 ⟨isValue, allFrom_nil⟩) ?_
  exact assignTargets_from types isSpan (from_ident.2 isSpan) items targets _ areTargets

theorem deconstructionRules_traced : deconstructionRules.Traced (.sourced source) source where
  expr site node kind isFrom isKind := by
    change Sourced source _ _
    unfold deconstructionRules
    dsimp only
    split
    · exact outArgument_sourced site isFrom (allFrom_cons.1 isKind.2).1
    · refine .ite (keepExpr_sourced isFrom isKind) ?_
      split
      · exact replace_sourced (allFrom_cons.1 (allFrom_cons.1 isKind.2).2).1
      · exact unsupported_sourced isFrom.exprSpan
      · exact keepExpr_sourced isFrom isKind
    · exact keepExpr_sourced isFrom isKind
  stmt site node kind isFrom isKind := by
    change Sourced source _ _
    unfold deconstructionRules
    dsimp only
    split
    · have isAssign := (allFrom_cons.1 isKind).1.exprKind.2
      obtain ⟨isTarget, isRest⟩ := allFrom_cons.1 isAssign
      have isValue := (allFrom_cons.1 isRest).1
      split
      · exact setStmt_sourced isFrom (allFrom_cons.2 ⟨isValue, allFrom_nil⟩)
      · next isTuple =>
          have areTargets := isTarget.exprKind.2
          rw [isTuple] at areTargets
          exact deconstruct_sourced isFrom areTargets isValue
      · exact keepStmt_sourced isFrom isKind
    · exact keepStmt_sourced isFrom isKind
  pattern _ _ _ := keepPattern_sourced

/-! ## Subscripts -/

theorem subscriptArg_sourced (areFrom : AllFrom source (ofExprs args)) :
    Sourced source (SubscriptArg.ofArgs? args) fun found =>
      ∀ arg ∈ found, AllFrom source arg.nodes := by
  unfold SubscriptArg.ofArgs?
  split
  · next arg =>
      have isArg := (allFrom_cons.1 areFrom).1
      have isKind := isArg.exprKind.2
      split
      · next isFromEnd =>
          rw [isFromEnd] at isKind
          exact .pure fun _ same => by cases same; exact isKind
      · next isRange =>
          rw [isRange] at isKind
          exact .pure fun _ same => by cases same; exact isKind
      · refine types_calm.after fun _ => typeOf_calm.after fun _ => .ite ?_ (.ite ?_ ?_)
        · exact .pure fun _ same => by cases same; exact areFrom
        · exact .pure fun _ same => by cases same; exact areFrom
        · exact .pure nofun
  · exact .pure nofun

section Sequences

variable {sequence : Sequenced}

theorem Sequenced.read_from (isFrom : (expr sequence.receiver).From source) :
    (expr sequence.read).From source := Expr.forget_from isFrom

theorem Sequenced.readLength_from (isSpan : source span)
    (isFrom : (expr sequence.receiver).From source) :
    (expr (sequence.readLength span)).From source :=
  from_member.2 ⟨isSpan, read_from isFrom⟩

theorem Sequenced.fromEnd_from (isSpan : source span)
    (isFrom : (expr sequence.receiver).From source) (isValue : (expr value).From source) :
    (expr (sequence.fromEnd span value)).From source :=
  from_binary.2 ⟨isSpan, readLength_from isSpan isFrom, isValue⟩

theorem Sequenced.offsetOf_from (isSpan : source span)
    (isFrom : (expr sequence.receiver).From source) {index : Expr}
    (isIndex : (expr index).From source) : (expr (sequence.offsetOf span index)).From source := by
  simp [offsetOf, isSpan, isIndex, readLength_from isSpan isFrom]

theorem bound_sourced (isSpan : source span) (isFrom : (expr sequence.receiver).From source)
    {missing : Expr} (isMissing : (expr missing).From source) {value : Option Expr}
    (isValue : AllFrom source (ofExpr? value)) :
    Sourced source (sequence.bound span missing value) fun result => (expr result).From source := by
  unfold Sequenced.bound
  split
  · exact .pure isMissing
  · next value =>
      have isValue := (allFrom_cons.1 isValue).1
      have isKind := isValue.exprKind.2
      split
      · next isFromEnd =>
          rw [isFromEnd] at isKind
          exact .pure (Sequenced.fromEnd_from isSpan isFrom (allFrom_cons.1 isKind).1)
      · exact types_calm.after fun _ => typeOf_calm.after fun _ =>
          .ite (.pure (Sequenced.offsetOf_from isSpan isFrom isValue)) (.pure isValue)

theorem slice_sourced (isSpan : source span)
    (isFrom : (expr sequence.receiver).From source) {start stop : Expr}
    (isStart : (expr start).From source) (isStop : (expr stop).From source) :
    Sourced source (slice site anchor span sequence start stop) fun result =>
      (expr result).From source := by
  have isRead := Sequenced.read_from isFrom
  refine .ite (.pure ?_) (.ite (.pure ?_) ?_)
  · simp [isSpan, isRead, isStart, isStop]
  · simp [isSpan, isRead, isStart, isStop]
  · refine (stabilize_sourced site isStart).bind fun stable isStable =>
      .pure (from_after isSpan isStable.2 ?_)
    simp [isSpan, isRead, isStop, isStable.1]

theorem subscript_sourced (isSpan : source span) (isReceiver : (expr receiver).From source)
    (isArg : AllFrom source arg.nodes) :
    Sourced source (subscript site anchor span receiver type arg) fun result =>
      (expr result).From source := by
  refine types_calm.after fun types => ?_
  have isFrom : (expr (Sequenced.receiver ⟨receiver, type, types.lengthMember type⟩)).From source :=
    isReceiver
  have isRead := Sequenced.read_from isFrom
  cases arg with
  | fromEnd value =>
    have isValue := Sequenced.fromEnd_from isSpan isFrom (allFrom_cons.1 isArg).1
    exact .pure (by simp [isSpan, isRead, isValue])
  | indexValue index =>
    have isIndex := Sequenced.offsetOf_from isSpan isFrom (allFrom_cons.1 isArg).1
    exact .pure (by simp [isSpan, isRead, isIndex])
  | range start stop =>
    obtain ⟨isStart, isStop⟩ := allFrom_append.1 isArg
    refine (bound_sourced isSpan isFrom (from_intLit.2 isSpan) isStart).bind fun _ isStart => ?_
    refine (bound_sourced isSpan isFrom (Sequenced.readLength_from isSpan isFrom) isStop).bind
      fun _ isStop => ?_
    exact slice_sourced site isSpan isFrom isStart isStop
  | rangeValue range =>
    refine typeOf_calm.after fun rangeType =>
      (stabilize_sourced site (allFrom_cons.1 isArg).1).bind fun stable isStable => ?_
    have isBound (name : String) : (expr (span.member stable.1.forget name)).From source :=
      from_member.2 ⟨isSpan, Expr.forget_from isStable.1⟩
    refine (slice_sourced site isSpan isFrom
      (Sequenced.offsetOf_from isSpan isFrom (isBound "Start"))
      (Sequenced.offsetOf_from isSpan isFrom (isBound "End"))).bind fun _ isSlice => ?_
    exact .pure (from_after isSpan isStable.2 isSlice)

theorem subscriptOn_sourced (isSpan : source span) (isReceiver : (expr receiver).From source)
    (isArg : AllFrom source arg.nodes) :
    Sourced source (subscriptOn site anchor span receiver arg) fun result =>
      (expr result).From source :=
  typeOf_calm.after fun _ => (stabilize_sourced site isReceiver).bind
    fun _ isStable => (subscript_sourced site isSpan isStable.1 isArg).bind
      fun _ isLowered => .pure (from_after isSpan isStable.2 isLowered)

end Sequences

section Expressions

variable {node : Expr}

theorem lowerIndex_sourced (isFrom : (expr node).From source)
    (isKind : (ExprKind.index receiver args).From source) :
    Sourced source (lowerIndex site node receiver args) fun result =>
      (expr result).From source := by
  obtain ⟨isReceiver, areArgs⟩ := allFrom_cons.1 isKind.2
  refine .ite (keepExpr_sourced isFrom isKind) ((subscriptArg_sourced areArgs).bind
    fun found isFound => ?_)
  split
  · exact keepExpr_sourced isFrom isKind
  · next arg =>
      exact (subscriptOn_sourced site isFrom.exprSpan isReceiver (isFound arg rfl)).bind
        fun _ => replace_sourced

theorem newIndex_from (isSpan : source span) (isValue : (expr value).From source) {fromEnd : Bool} :
    (expr (newIndex span value fromEnd)).From source := by
  simp [newIndex, isSpan, isValue]

theorem lowerFromEnd_sourced (isFrom : (expr node).From source)
    (isKind : (ExprKind.fromEnd value).From source) :
    Sourced source (lowerFromEnd site node value) fun result => (expr result).From source :=
  .ite (keepExpr_sourced isFrom isKind)
    (replace_sourced (newIndex_from isFrom.exprSpan (allFrom_cons.1 isKind.2).1))

theorem rangeBound_sourced (isSpan : source span) {isEnd : Bool} {input : Option Expr}
    {rebuilt : Option Expr} (isRebuilt : AllFrom source (ofExpr? rebuilt)) :
    Sourced source (rangeBound span isEnd input rebuilt) fun result =>
      (expr result).From source := by
  unfold rangeBound
  split
  · have isValue := (allFrom_cons.1 isRebuilt).1
    exact types_calm.after fun _ => typeOf_calm.after fun _ =>
      .ite (.pure isValue) (.pure (newIndex_from isSpan isValue))
  · exact .pure (newIndex_from isSpan (from_intLit.2 isSpan))

theorem lowerRange_sourced (isFrom : (expr node).From source) {start stop : Option Expr}
    (isKind : (ExprKind.range start stop).From source) :
    Sourced source (lowerRange site node start stop) fun result => (expr result).From source := by
  have isSpan := isFrom.exprSpan
  obtain ⟨isStart, isStop⟩ := allFrom_append.1 isKind.2
  unfold lowerRange
  refine .ite (keepExpr_sourced isFrom isKind) ?_
  split
  refine (rangeBound_sourced isSpan isStart).bind fun _ isStart => ?_
  refine (rangeBound_sourced isSpan isStop).bind fun _ isStop => ?_
  exact replace_sourced (by simp [isSpan, isStart, isStop])

end Expressions

end Pass

end Unsugar
