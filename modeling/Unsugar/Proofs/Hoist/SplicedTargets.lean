import Unsugar.Proofs.Hoist.Bindings

open List

namespace Unsugar

/-! # Declared targets of deconstructions

A deconstruction becomes several statements, and each target that it declares is
declared by one of them.  In a list what follows sees these targets.  In the opening
of a `for` the statements are gathered in a block, and nothing after it does.
-/

open Node

/-! ## Targets -/

mutual

def Expr.declaredTargets : Expr → List String
  | ⟨_, .declaration _ name⟩ => [name]
  | ⟨_, .tuple items⟩ => targetsOf items
  | _ => []

def targetsOf : List Expr → List String
  | [] => []
  | item :: rest => item.declaredTargets ++ targetsOf rest

end

inductive Expr.SameTuples : Expr → Expr → Prop where
  | tuple {mark other : Mark} {items targets : List Expr}
      (same : Forall₂ Expr.SameTuples items targets) :
      SameTuples ⟨mark, .tuple items⟩ ⟨other, .tuple targets⟩
  | other {item target : Expr} (noTuple : ∀ items, item.kind ≠ .tuple items) : SameTuples item target

namespace Pass

mutual

theorem rebuild_sameTuples {env : PassEnv} {site : Site} : (item : Expr) →
    ∀ before target after, item.rebuild deconstructionRules site env before = .ok (target, after) →
      item.SameTuples target
  | ⟨mark, kind⟩ => by
    intro before target after ran
    cases kind with
    | tuple items =>
      rw [Expr.rebuild] at ran
      obtain ⟨kind, middle, ranKind, ranRule⟩ := bind_eq_ok ran
      rw [ExprKind.rebuild] at ranKind
      obtain ⟨targets, _, ranItems, ranKind⟩ := bind_eq_ok ranKind
      cases ranKind
      cases ranRule
      exact .tuple (rebuildExprs_sameTuples items _ _ _ ranItems)
    | _ => exact .other nofun

theorem rebuildExprs_sameTuples {env : PassEnv} {site : Site} : (items : List Expr) →
    ∀ before targets after,
      rebuildExprs deconstructionRules site items env before = .ok (targets, after) →
        Forall₂ Expr.SameTuples items targets
  | [], before, targets, after, ran => by
    cases ran
    exact .nil
  | item :: rest, before, targets, after, ran => by
    rw [rebuildExprs] at ran
    obtain ⟨target, _, ranItem, ran⟩ := bind_eq_ok ran
    obtain ⟨others, _, ranRest, ran⟩ := bind_eq_ok ran
    cases ran
    exact .cons (rebuild_sameTuples item _ _ _ ranItem) (rebuildExprs_sameTuples rest _ _ _ ranRest)

end

/-! ## Statements for targets -/

theorem target_cases (kind : ExprKind) : kind = .discard ∨ (∃ nested, kind = .tuple nested) ∨
      (∃ written declared, kind = .declaration written declared) ∨
      (kind ≠ .discard ∧ (∀ nested, kind ≠ .tuple nested) ∧
        ∀ written declared, kind ≠ .declaration written declared) := by
  cases kind with
  | discard => exact .inl rfl
  | tuple nested => exact .inr (.inl ⟨nested, rfl⟩)
  | declaration written declared => exact .inr (.inr (.inl ⟨written, declared, rfl⟩))
  | _ => exact .inr (.inr (.inr ⟨nofun, nofun, nofun⟩))

theorem assignTargets_cons {types : Universe} {span : Span} {source : Expr} {mark : Mark}
    {kind : ExprKind} {items : List Expr} {target : Expr} {targets : List Expr} {name : String}
    {type : Ty} {components : List (String × Ty)} :
    ∃ here, assignTargets types span source (⟨mark, kind⟩ :: items) (target :: targets)
        ((name, type) :: components) =
          here ++ assignTargets types span source items targets components ∧
      ((∃ nested, kind = .tuple nested ∧ here = assignTargets types span
          (span.member source.forget name) nested
          (match target.kind with | .tuple inner => inner | _ => [])
          (types.components type nested.length)) ∨
        (∀ nested, kind ≠ .tuple nested) ∧ (∀ node ∈ here, node.id = none) ∧
          ∀ written declared, kind = .declaration written declared →
            ∃ node ∈ here, node.declaresName declared = true) := by
  rcases target_cases kind with rfl | ⟨nested, rfl⟩ | ⟨written, declared, rfl⟩ | others
  · exact ⟨[], by rw [assignTargets], .inr (by simp)⟩
  · exact ⟨_, assignTargets.eq_def .., .inl ⟨nested, rfl, rfl⟩⟩
  · refine ⟨[span.declare written declared (some (span.member source.forget name))],
      by rw [assignTargets], .inr ⟨by simp, ?_, ?_⟩⟩
    · simp [Span.declare, Span.stmt, Span.mark, Stmt.id]
    · rintro _ _ ⟨⟩
      exact ⟨_, mem_cons_self, beq_self_eq_true _⟩
  · obtain ⟨notDiscard, notTuple, notDeclared⟩ := others
    refine ⟨[span.assignStmt target (span.member source.forget name)], ?_,
      .inr ⟨notTuple, ?_, fun written declared is => absurd is (notDeclared written declared)⟩⟩
    · rw [assignTargets]
      · rintro _ ⟨⟩
        exact notDiscard rfl
      · rintro _ nested ⟨⟩
        exact notTuple nested rfl
      · rintro _ written declared ⟨⟩
        exact notDeclared written declared rfl
    · simp [Span.assignStmt, Span.evalStmt, Span.stmt, Span.mark, Stmt.id]

theorem assignTargets_made {types : Universe} {span : Span} {source : Expr} :
    (items targets : List Expr) → (components : List (String × Ty)) →
      ∀ node ∈ assignTargets types span source items targets components, node.id = none
  | ⟨mark, kind⟩ :: items, target :: targets, (name, type) :: components => by
    intro node isNode
    obtain ⟨here, isHere, parts⟩ := assignTargets_cons
    rw [isHere] at isNode
    rcases mem_append.1 isNode with isFirst | isOther
    · rcases parts with ⟨nested, rfl, rfl⟩ | ⟨-, made, -⟩
      · exact assignTargets_made nested _ _ node isFirst
      · exact made node isFirst
    · exact assignTargets_made items targets components node isOther
  | [], _, _ | _ :: _, [], _ | _ :: _, _ :: _, [] => by simp [assignTargets]

theorem assignTargets_declares {declared : String} {types : Universe} {span : Span} {source : Expr} :
    (items targets : List Expr) → (components : List (String × Ty)) →
      Forall₂ Expr.SameTuples items targets → components.length = items.length →
      declared ∈ targetsOf items →
      ∃ node ∈ assignTargets types span source items targets components,
        node.declaresName declared = true
  | ⟨mark, kind⟩ :: items, target :: targets, (name, type) :: components, .cons isTarget areTargets,
      enough, isDeclared => by
      obtain ⟨here, isHere, parts⟩ := assignTargets_cons
      rw [isHere]
      rcases mem_append.1 isDeclared with isFirst | isLater
      · obtain ⟨node, isNode, declares⟩ :
            ∃ node ∈ here, node.declaresName declared = true := by
          rcases parts with ⟨nested, rfl, rfl⟩ | ⟨notTuple, -, declares⟩
          · cases isTarget with
            | other noTuple => exact absurd rfl (noTuple nested)
            | tuple same =>
              exact assignTargets_declares nested _ _ same components_length isFirst
          · unfold Expr.declaredTargets at isFirst
            split at isFirst
            · next is =>
                cases is
                obtain rfl := mem_singleton.1 isFirst
                exact declares _ _ rfl
            · next is =>
                cases is
                exact absurd rfl (notTuple _)
            · cases isFirst
        exact ⟨node, mem_append_left _ isNode, declares⟩
      · obtain ⟨node, isNode, declares⟩ := assignTargets_declares items targets
          components areTargets (Nat.succ.inj enough) isLater
        exact ⟨node, mem_append_right _ isNode, declares⟩

theorem afterAll_made {declared : String} {body : List Stmt} (made : ∀ node ∈ body, node.id = none)
    (declares : ∃ node ∈ body, node.declaresName declared = true) (listed : Bool) (binding : Binding) :
    Cover.afterAll {} [] declared listed binding body = .made := by
  have stays (body : List Stmt) (made : ∀ node ∈ body, node.id = none) :
      Cover.afterAll {} [] declared listed .made body = .made := by
    induction body with
    | nil => rfl
    | cons node rest ih =>
      obtain ⟨isMade, areMade⟩ := forall_mem_cons.1 made
      change Cover.afterAll {} [] declared listed (node.rebinds _ _ (Cover.ahead? {} _ _ _)) rest = _
      rw [Cover.ahead?_nothing, Stmt.rebinds_made isMade, ite_self, ih areMade]
  induction body generalizing binding with
  | nil => simp at declares
  | cons node rest ih =>
    obtain ⟨isMade, areMade⟩ := forall_mem_cons.1 made
    change Cover.afterAll {} [] declared listed (node.rebinds _ _ (Cover.ahead? {} _ _ _)) rest = _
    rw [Cover.ahead?_nothing, Stmt.rebinds_made isMade]
    obtain ⟨other, isOther, declares⟩ := declares
    rcases mem_cons.1 isOther with rfl | isLater
    · rw [if_pos declares]
      exact stays rest areMade
    · exact ih areMade ⟨other, isLater, declares⟩ _

/-! ## Deconstructions -/

theorem deconstruction_declares {env : PassEnv} {site : Site} {mark outer inner : Mark}
    {items : List Expr} {value : Expr} {before after : PassState} {statements : List Stmt}
    (ran : Stmt.rebuildMany deconstructionRules site
      ⟨mark, .eval ⟨outer, .assign none ⟨inner, .tuple items⟩ value⟩⟩ env before =
        .ok (statements, after)) :
    ∃ type name init rest, statements = ⟨mark, .declare type name (some init)⟩ :: rest ∧
      (∀ node ∈ rest, node.id = none) ∧
      ∀ declared ∈ targetsOf items, ∃ node ∈ rest, node.declaresName declared = true := by
  rw [Stmt.rebuildMany] at ran
  obtain ⟨kind, _, ranKind, ran⟩ := bind_eq_ok ran
  rw [StmtKind.rebuild] at ranKind
  obtain ⟨rebuilt, _, ranAssign, ranKind⟩ := bind_eq_ok ranKind
  cases ranKind
  rw [Expr.rebuild] at ranAssign
  obtain ⟨assigned, _, ranParts, ranAssign⟩ := bind_eq_ok ranAssign
  rw [ExprKind.rebuild] at ranParts
  obtain ⟨target, _, ranTarget, ranParts⟩ := bind_eq_ok ranParts
  obtain ⟨source, _, -, ranParts⟩ := bind_eq_ok ranParts
  cases ranParts
  -- the assignment is the whole statement, so it comes back over its parts
  change (if isWholeStatement _ _ = true then _ else _ : Pass Expr) _ _ = _ at ranAssign
  rw [if_pos (by simp [isWholeStatement, Site.parent?, Site.below])] at ranAssign
  cases ranAssign
  cases rebuild_sameTuples _ _ _ _ ranTarget with
  | other noTuple => exact absurd rfl (noTuple items)
  | @tuple _ made _ targets same =>
    change deconstruct _ items targets source env _ = _ at ran
    unfold deconstruct at ran
    dsimp only at ran
    rw [bind_ok (types_ok _ _), bind_ok (typeOf_ok _ _ _)] at ran
    obtain ⟨name, _, -, ran⟩ := bind_eq_ok ran
    obtain ⟨written, _, -, ran⟩ := bind_eq_ok ran
    cases ran
    exact ⟨_, _, _, _, rfl, assignTargets_made _ _ _, fun declared isDeclared =>
      assignTargets_declares _ _ _ same components_length isDeclared⟩

end Pass

end Unsugar
