import Unsugar.Proofs.Hoist.Identities
import Unsugar.Proofs.Lower.LoweredUnits
import Unsugar.Proofs.Ownership.Tests

open List

namespace Unsugar

/-! # Passes keep ownership

No pass puts a node that has an identity at two places.  Rules spend only what they
are given, copies have no identity, and the statements that take initializers over
have identities that no other node has.  So a pass makes a proper unit of a proper one.
-/

open Node

variable {name : String} {value : Expr} {members : List Member} {types : Universe}
  {result : PassResult}

def Spending.drawingPass (id : Nat) : Spending Pass where
  holds action weight limit := ∀ env before result after, action env before = .ok (result, after) →
    before.nextId ≤ after.nextId ∧ weight result ≤ limit + drawn id before.nextId after.nextId
  mono within more env before result after ran :=
    ⟨(within env before result after ran).1, by
      have bound := (within env before result after ran).2
      omega⟩
  pure within env before result after ran := by
    cases ran
    exact ⟨Nat.le_refl _, Nat.le_trans within (Nat.le_add_right _ _)⟩
  bind aside first rest env before result after ran := by
    obtain ⟨value, middle, ranFirst, ranRest⟩ := Pass.bind_eq_ok ran
    have start := first _ _ _ _ ranFirst
    have finish := rest _ _ _ _ _ ranRest
    unfold drawn at *
    refine ⟨Nat.le_trans start.1 finish.1, ?_⟩
    split at start <;> split at finish <;> split <;> omega

theorem Spending.mapM {m : Type → Type} [Monad m] [LawfulMonad m] (spending : Spending m)
    {α β : Type} {action : α → m β} {cost : β → Nat} {limit : α → Nat}
    (each : ∀ value, spending.holds (action value) cost (limit value)) :
    (values : List α) → spending.holds (values.mapM action) (fun results => (results.map cost).sum)
      ((values.map limit).sum)
  | [] => by
    rw [mapM_nil]
    exact spending.pure (Nat.le_refl _)
  | value :: rest => by
    rw [mapM_cons, map_cons, sum_cons]
    exact spending.two (each value) (spending.mapM each rest) fun _ _ => by simp

namespace Pass

variable (id : Nat) (member : Member) (index : Nat)

theorem drawing_free {α β : Type} {action : Pass α} {next : α → Pass β} {weight : β → Nat}
    {limit : Nat} (grows : Grows action)
    (rest : ∀ value, (Spending.drawingPass id).holds (next value) weight limit) :
    (Spending.drawingPass id).holds (action >>= next) weight limit := by
  have free : (Spending.drawingPass id).holds action (fun _ => 0) 0 :=
    fun env before result after ran => ⟨(grows env before result after ran).nextId, Nat.zero_le _⟩
  refine (Spending.drawingPass id).mono ((Spending.drawingPass id).bind limit free fun value =>
    (Spending.drawingPass id).mono (rest value) (by omega)) (by omega)

/-! ## Declarations -/

theorem moveInitializer_draws : (Spending.drawingPass id).holds (moveInitializer name value)
      (fun result => (stmt result).count id) ((expr value).count id) := by
  intro env before result after ran
  have moved : after.nextId = before.nextId + 1 ∧ result = ⟨⟨value.span, some before.nextId⟩,
      .eval (value.span.assign (value.span.member value.span.self name) value)⟩ := by
    unfold moveInitializer at ran
    cases source : value.id with
    | none =>
      rw [source] at ran
      cases ran
      exact ⟨rfl, rfl⟩
    | some source' =>
      rw [source] at ran
      cases ran
      exact ⟨rfl, rfl⟩
  obtain ⟨next, rfl⟩ := moved
  rw [next]
  refine ⟨Nat.le_succ _, ?_⟩
  simp only [count_stmt, StmtKind.children, tally_cons, tally_nil, count_assign, count_member,
    count_self, Mark.bears, Spending.drawn, Option.some.injEq]
  split <;> split <;> omega

def movedNodes (moved : Member × List Stmt) : List Node := moved.1.kind.roots ++ ofStmts moved.2

theorem withoutInitializer_draws : (Spending.drawingPass id).holds (withoutInitializer member)
      (fun moved => tally id (movedNodes moved)) (tally id member.kind.roots) := by
  let spending := Spending.drawingPass id
  have kept : spending.holds (pure (member, [])) (fun moved => tally id (movedNodes moved))
      (tally id member.kind.roots) :=
    spending.pure (by simp [movedNodes])
  unfold withoutInitializer
  split
  · exact kept
  · split
    · next type name init isField =>
        have whole : tally id member.kind.roots = (expr init).count id := by
          simp [isField, MemberKind.roots]
        rw [whole]
        exact spending.one (moveInitializer_draws id) fun moved => by
          simp [movedNodes, MemberKind.roots]
    · next type name getter setter init isProperty =>
        have whole : tally id member.kind.roots = (expr init).count id +
            tally id (MemberKind.property type name getter setter none).roots := by
          simp [isProperty, MemberKind.roots]
          omega
        rw [whole]
        refine spending.bind _ (moveInitializer_draws id) fun moved => spending.pure ?_
        simp only [movedNodes, tally_append, ofStmts_cons, ofStmts_nil, tally_cons, tally_nil]
        omega
    · exact kept

@[simp] theorem memberRoots_cons {rest : List Member} :
    memberRoots (member :: rest) = member.kind.roots ++ memberRoots rest := rfl

@[simp] theorem memberRoots_append (left right : List Member) :
    memberRoots (left ++ right) = memberRoots left ++ memberRoots right := flatMap_append

theorem sum_movedNodes {moved : List (Member × List Stmt)} :
    (moved.map fun moved => tally id (movedNodes moved)).sum =
      tally id (memberRoots (moved.map (·.1))) + tally id (ofStmts (moved.flatMap (·.2))) := by
  induction moved with
  | nil => rfl
  | cons first rest ih =>
    rw [map_cons, sum_cons, ih]
    simp only [movedNodes, map_cons, memberRoots_cons, flatMap_cons, ofStmts_append, tally_append]
    omega

theorem sum_roots :
    (members.map fun member => tally id member.kind.roots).sum = tally id (memberRoots members) := by
  induction members with
  | nil => rfl
  | cons member rest ih =>
    rw [map_cons, sum_cons, ih, memberRoots_cons, tally_append]

/-! ### What is made for a declaration

It holds no nodes of the program.
-/

theorem tally_eq_zero {nodes : List Node} (none : ∀ node ∈ nodes, node.count id = 0) :
    tally id nodes = 0 := by
  induction nodes with
  | nil => rfl
  | cons node rest ih =>
    rw [tally_cons, none node mem_cons_self,
      ih fun other isIn => none other (mem_cons_of_mem _ isIn)]

theorem tally_exprs_map {α : Type} {make : α → Expr} (none : ∀ item, (expr (make item)).count id = 0)
    {items : List α} : tally id (ofExprs (items.map make)) = 0 :=
  tally_eq_zero id (by simpa [ofExprs] using fun item _ => none item)

theorem tally_stmts_map {α : Type} {make : α → Stmt} (none : ∀ item, (stmt (make item)).count id = 0)
    (items : List α) : tally id (ofStmts (items.map make)) = 0 :=
  tally_eq_zero id (by simpa [ofStmts] using fun item _ => none item)

theorem tally_memberRoots_eq_zero (none : ∀ member ∈ members, tally id member.kind.roots = 0) :
    tally id (memberRoots members) = 0 := by
  rw [← sum_roots, List.sum_eq_zero_iff_forall_eq_nat]
  simpa using none

theorem tally_members_map {α : Type} {make : α → Member}
    (none : ∀ item, tally id (make item).kind.roots = 0) (items : List α) :
    tally id (memberRoots (items.map make)) = 0 :=
  tally_memberRoots_eq_zero id (by simpa using fun item _ => none item)

theorem lowerPrimary_draws (leading : List Stmt) (decl : TypeDecl) :
    (Spending.drawingPass id).holds (lowerPrimary index leading decl)
      (fun result => tally id result.roots) (tally id decl.roots + tally id (ofStmts leading)) := by
  let spending := Spending.drawingPass id
  unfold lowerPrimary
  split
  · exact spending.pure (Nat.le_add_right _ _)
  · next params isPrimary =>
      have built (fields members : List Member) (body : List Stmt) :
          tally id (TypeDecl.roots { decl with
            members := fields ++ members ++ [⟨.ctor params
              (decl.baseArgs.map fun args => ⟨.base, args⟩) (.block (decl.span.block body)),
                [.isPublic], decl.span⟩]
            primary := none
            baseArgs := none }) =
          tally id (memberRoots fields) + tally id (memberRoots members) +
            (tally id decl.headerRoots + tally id (ofStmts body)) := by
        cases args : decl.baseArgs <;>
          simp [TypeDecl.roots, TypeDecl.headerRoots, isPrimary, args, memberRoots,
            MemberKind.roots, ofBody, Nat.add_assoc]
      refine drawing_free id get_grows fun state => ?_
      have moving := spending.mapM (withoutInitializer_draws id) decl.members
      rw [sum_roots] at moving
      refine spending.mono (spending.bind (tally id decl.headerRoots + tally id (ofStmts leading))
        moving fun moved => drawing_free id markChanged_grows fun _ => spending.pure ?_) ?_
      · refine Nat.le_trans (Nat.le_of_eq (built _ _ _)) ?_
        rw [tally_members_map id fun _ => rfl, ofStmts_append, ofStmts_append, tally_append,
          tally_append, tally_stmts_map id fun _ => by simp, sum_movedNodes]
        omega
      · simp only [TypeDecl.roots, tally_append]
        omega

section Records

variable {id} (shape : RecordShape)

@[simp] theorem RecordShape.count_ownMember :
    (expr (shape.ownMember name)).count id = 0 := by simp [ownMember]

@[simp] theorem RecordShape.count_objectCall {method : String} {args : List Expr} :
    (expr (shape.objectCall method args)).count id = tally id (ofExprs args) := by simp [objectCall]

@[simp] theorem RecordShape.count_isNull :
    (expr (shape.isNull value)).count id = (expr value).count id := by simp [isNull]

@[simp] theorem RecordShape.count_componentHash {param : Param} :
    (expr (shape.componentHash types param)).count id = 0 := by
  unfold componentHash
  dsimp only
  split <;> simp

@[simp] theorem RecordShape.tally_method {params : List Param} {ret : TypeSyntax}
    {body : List Stmt} {modifiers : List Modifier} :
    tally id (shape.method name params ret body modifiers).kind.roots =
      tally id (ofParams params) + tally id (ofStmts body) := by
  simp [method, MemberKind.roots, ofBody]

@[simp] theorem RecordShape.tally_operator {op : BinaryOp} {result : Expr} :
    tally id (shape.operator op result).kind.roots = (expr result).count id := by
  simp [operator, MemberKind.roots, ofBody, ofParams, Param.plain]

theorem RecordShape.tally_deconstruct : tally id shape.deconstruct.kind.roots = 0 := by
  have params : ofParams (shape.params.map fun param =>
      (⟨param.type, param.name, .out, none⟩ : Param)) = [] := by
    simp [ofParams]
  rw [deconstruct, tally_method, params, tally_stmts_map id fun _ => by simp, tally_nil]

theorem RecordShape.tally_equalsSelf : tally id shape.equalsSelf.kind.roots = 0 := by
  unfold equalsSelf
  simp only [tally_method, ofStmts_cons, ofStmts_nil, tally_cons, tally_nil, count_ret,
    count_conjunction, ofExprs_append, tally_append]
  rw [tally_exprs_map id fun _ => by simp]
  split <;> simp [ofParams, Param.plain]

theorem RecordShape.tally_hash : tally id (shape.hash types).kind.roots = 0 := by
  unfold hash
  simp only [tally_method, cons_append, ofStmts_cons, ofStmts_append, ofStmts_nil, tally_cons,
    tally_append, tally_nil]
  rw [tally_stmts_map id fun _ => by simp]
  simp [ofParams]

theorem RecordShape.tally_printMembers : tally id shape.printMembers.kind.roots = 0 := by
  unfold printMembers
  simp only [tally_method, ofStmts_cons, ofStmts_nil, tally_cons, tally_nil, count_ret]
  split
  · simp [ofParams]
  · next first rest isPieces =>
      have none : ∀ piece ∈ first :: rest, (expr piece).count id = 0 := by
        rw [← isPieces]
        intro piece isIn
        obtain ⟨⟨param, index⟩, _, isPiece⟩ := mem_flatMap.1 isIn
        simp only [mem_cons, not_mem_nil, or_false] at isPiece
        rcases isPiece with rfl | rfl <;> simp
      have others : tally id (ofExprs rest) = 0 := tally_eq_zero id (by
        simpa [ofExprs] using fun piece isIn => none piece (mem_cons_of_mem _ isIn))
      rw [count_foldl_binary, none first mem_cons_self, others]
      simp [ofParams]

end Records

theorem methods_tally (shape : RecordShape) (types : Universe) (written : List Member) :
    ∀ member ∈ shape.methods types written, tally id member.kind.roots = 0 := by
  have ifMissing {condition : Prop} [Decidable condition] {members : List Member}
      (all : ∀ member ∈ members, tally id member.kind.roots = 0) :
      ∀ member ∈ if condition then [] else members, tally id member.kind.roots = 0 := by
    split
    · simp
    · exact all
  have single {member : Member} (none : tally id member.kind.roots = 0) :
      ∀ other ∈ [member], tally id other.kind.roots = 0 :=
    forall_mem_singleton.2 none
  have emptyCtor : tally id shape.emptyCtor.kind.roots = 0 := by
    simp [RecordShape.emptyCtor, MemberKind.roots, ofParams, ofBody]
  have equalsObject : tally id shape.equalsObject.kind.roots = 0 := by
    simp [RecordShape.equalsObject, ofParams, Param.plain]
  have eqOperator : tally id shape.eqOperator.kind.roots = 0 := by
    unfold RecordShape.eqOperator
    dsimp only
    split <;> simp
  have neOperator : tally id shape.neOperator.kind.roots = 0 := by
    simp [RecordShape.neOperator]
  have toText : tally id shape.toText.kind.roots = 0 := by
    unfold RecordShape.toText
    dsimp only
    split <;> simp [ofParams]
  have clone : tally id shape.clone.kind.roots = 0 := by
    unfold RecordShape.clone
    dsimp only
    split <;> simp [ofParams]
  unfold RecordShape.methods
  simp only [forall_mem_append]
  exact ⟨⟨⟨⟨⟨⟨⟨⟨⟨ifMissing (ifMissing (single emptyCtor)),
    ifMissing (ifMissing (single shape.tally_deconstruct))⟩, ifMissing (single equalsObject)⟩,
    ifMissing (single shape.tally_equalsSelf)⟩, ifMissing (single shape.tally_hash)⟩,
    ifMissing (single eqOperator)⟩, ifMissing (single neOperator)⟩,
    ifMissing (single shape.tally_printMembers)⟩, ifMissing (single toText)⟩,
    ifMissing (single clone)⟩

theorem lowerRecord_draws (decl : TypeDecl) :
    (Spending.drawingPass id).holds (lowerRecord index decl)
      (fun result => tally id result.roots) (tally id decl.roots) := by
  let spending := Spending.drawingPass id
  have noProperties (shape : RecordShape) :
      tally id (memberRoots (shape.properties decl.members)) = 0 :=
    tally_members_map id (fun _ => rfl) _
  have noMethods (shape : RecordShape) (types : Universe) :=
    tally_memberRoots_eq_zero id (methods_tally id shape types decl.members)
  have noAssigns (shape : RecordShape) : tally id (ofStmts (shape.assigns decl.members)) = 0 :=
    tally_stmts_map id (fun _ => by simp) _
  refine drawing_free id markChanged_grows fun _ => drawing_free id types_grows fun types =>
    spending.mono (lowerPrimary_draws id index _ _) ?_
  simp only [TypeDecl.roots, TypeDecl.headerRoots, memberRoots_append, tally_append, noProperties,
    noMethods, noAssigns]
  omega

theorem desugarDecls_draws {decls : List TypeDecl} :
    (Spending.drawingPass id).holds (desugarDecls index decls)
      (fun results => tally id (results.flatMap TypeDecl.roots))
      (tally id (decls.flatMap TypeDecl.roots)) := by
  let spending := Spending.drawingPass id
  induction decls generalizing index with
  | nil => exact spending.pure (Nat.le_refl _)
  | cons decl rest ih =>
    rw [flatMap_cons, tally_append]
    unfold desugarDecls
    dsimp only
    split
    · exact spending.two (lowerRecord_draws id index decl) (ih (index + 1)) fun _ _ => by simp
    · exact spending.two (spending.mono (lowerPrimary_draws id index [] decl) (by simp))
        (ih (index + 1)) fun _ _ => by simp

/-! ## Passes -/

theorem blockMember_costs : Costs (blockMember member) (fun result => tally id result.kind.roots)
      (tally id member.kind.roots) := by
  have accessor (returns : Bool) (body : Option Body) :
      tally id (((body.map (Body.toBlock returns)).map ofBody).getD []) =
        tally id ((body.map ofBody).getD []) := by
    cases body with
    | none => rfl
    | some body => exact tally_toBlock id
  obtain ⟨kind, modifiers, span⟩ := member
  cases kind with
  | method name typeParams params ret body =>
    exact .free fun _ => .free fun _ => .pure (by simp [MemberKind.roots, tally_toBlock])
  | operator op params ret body =>
    exact .free fun _ => .pure (by simp [MemberKind.roots, tally_toBlock])
  | ctor params initializer body =>
    exact .free fun _ => .pure (by simp [MemberKind.roots, tally_toBlock])
  | property type name getter setter init =>
    refine .free fun _ => .pure ?_
    simp only [MemberKind.roots, tally_append, accessor]
    exact Nat.le_refl _
  | field type name init => exact .pure (Nat.le_refl _)

theorem blockDecl_costs (decl : TypeDecl) :
    Costs (blockDecl decl) (fun result => tally id result.roots) (tally id decl.roots) := by
  have blocks : Costs (decl.members.mapM blockMember) _ _ :=
    Spending.results.mapM (blockMember_costs id) decl.members
  rw [sum_roots] at blocks
  refine .bind blocks fun members within => .pure ?_
  rw [sum_roots] at within
  simp only [TypeDecl.roots, tally_append, TypeDecl.headerRoots]
  omega

theorem sum_declRoots (decls : List TypeDecl) :
    (decls.map fun decl => tally id decl.roots).sum = tally id (decls.flatMap TypeDecl.roots) := by
  induction decls with
  | nil => rfl
  | cons decl rest ih =>
    rw [map_cons, sum_cons, ih, flatMap_cons, tally_append]

section Runs

variable {env : PassEnv} {before after : PassState} {unit : CompilationUnit}

theorem rebuild_tally {rules : Rules Pass} (within : rules.Within .results id (Mark.bears id))
    (ran : env.unit.rebuild rules env before = .ok (unit, after)) :
    tally id unit.roots ≤ tally id env.unit.roots :=
  env.unit.rebuild_spends within env before unit after ran

theorem expressionBodies_tally (ran : expressionBodies env before = .ok (unit, after)) :
    tally id unit.roots ≤ tally id env.unit.roots := by
  obtain ⟨_, _, ⟨⟩, ran⟩ := bind_eq_ok ran
  obtain ⟨rebuilt, middle, ranRebuild, ran⟩ := bind_eq_ok ran
  obtain ⟨types, last, ranBlocks, ran⟩ := bind_eq_ok ran
  cases ran
  have blocks : Costs (rebuilt.types.mapM blockDecl) _ _ :=
    Spending.results.mapM (blockDecl_costs id) rebuilt.types
  have blocked := blocks env middle types after ranBlocks
  simp only [sum_declRoots] at blocked
  exact Nat.le_trans blocked (rebuild_tally id (blockRules_within id) ranRebuild)

theorem staticUsings_tally (ran : staticUsings env before = .ok (unit, after)) :
    tally id unit.roots ≤ tally id env.unit.roots := by
  obtain ⟨_, _, ⟨⟩, ran⟩ := bind_eq_ok ran
  obtain ⟨_, _, ⟨⟩, ran⟩ := bind_eq_ok ran
  obtain ⟨rebuilt, middle, ranRebuild, ran⟩ := bind_eq_ok ran
  have within := rebuild_tally id (qualifyRules_within id _) ranRebuild
  dsimp only at ran
  split at ran
  · obtain ⟨_, _, _, ran⟩ := bind_eq_ok ran
    cases ran
    exact within
  · cases ran
    exact within

/-- Only moved initializers draw identities, after everything else. -/
theorem desugar_tally (ran : desugar env before = .ok (unit, after)) : tally id unit.roots ≤
      tally id env.unit.roots + Spending.drawn id before.nextId after.nextId := by
  have lowered (start : PassState) (noFewer : before.nextId ≤ start.nextId)
      (ran : (do
        let unit ← env.unit.rebuild desugarRules
        return { unit with types := ← desugarDecls 0 unit.types } : Pass CompilationUnit)
        env start = .ok (unit, after)) :
      tally id unit.roots ≤
        tally id env.unit.roots + Spending.drawn id before.nextId after.nextId := by
    obtain ⟨rebuilt, middle, ranRebuild, ran⟩ := bind_eq_ok ran
    obtain ⟨types, last, ranDecls, ran⟩ := bind_eq_ok ran
    cases ran
    have kept := rebuild_tally id (desugarRules_within id) ranRebuild
    have grows := (env.unit.rebuild_grows desugarRules_grow env start rebuilt middle ranRebuild).nextId
    have drawn := (desugarDecls_draws id 0 env middle types after ranDecls).2
    rw [CompilationUnit.roots_eq] at kept ⊢
    dsimp only at drawn ⊢
    unfold Spending.drawn at *
    split at drawn <;> split <;> omega
  obtain ⟨_, _, ⟨⟩, ran⟩ := bind_eq_ok ran
  dsimp only at ran
  split at ran
  · obtain ⟨_, triggered, ranTrigger, ran⟩ := bind_eq_ok ran
    have noFewer : before.nextId ≤ triggered.nextId := by
      cases ranTrigger
      exact Nat.le_refl _
    exact lowered triggered noFewer ran
  · exact lowered _ (Nat.le_refl _) ran

end Runs

end Pass

variable {unit : CompilationUnit} {env : PassEnv}

/-- A pass counts an identity no more often than the unit it ran on, unless it drew
    it itself. -/
theorem PassKind.action_tally (id : Nat) (pass : PassKind) {before after : PassState}
    (ran : pass.action env before = .ok (unit, after)) :
    tally id unit.roots ≤
      tally id env.unit.roots + Spending.drawn id before.nextId after.nextId := by
  have ofKept (kept : tally id unit.roots ≤ tally id env.unit.roots) :=
    Nat.le_trans kept (Nat.le_add_right _ (Spending.drawn id before.nextId after.nextId))
  cases pass with
  | expressionBodies => exact ofKept (Pass.expressionBodies_tally id ran)
  | names => exact ofKept (Pass.rebuild_tally id (Pass.qualifyRules_within id _) ran)
  | deconstruction => exact ofKept (Pass.rebuild_tally id (Pass.deconstructionRules_within id) ran)
  | desugar => exact Pass.desugar_tally id ran
  | localFunctions => exact ofKept (Pass.rebuild_tally id (Pass.localFunctionRules_within id) ran)
  | chainedAssignment => exact ofKept (Pass.rebuild_tally id (Pass.chainRules_within id) ran)
  | staticUsings => exact ofKept (Pass.staticUsings_tally id ran)
  | patterns => exact ofKept (Pass.rebuild_tally id (Pass.patternRules_within id) ran)
  | switchLabels => exact ofKept (Pass.rebuild_tally id (Pass.switchRules_within id) ran)

def CompilationUnit.IdsBelow (unit : CompilationUnit) (bound : Nat) : Prop :=
  ∀ id ∈ unit.reachable.filterMap Node.id, id < bound

theorem CompilationUnit.idsBelow_iff {bound : Nat} :
    unit.IdsBelow bound ↔ ∀ id, bound ≤ id → tally id unit.roots = 0 := by
  simp only [IdsBelow, ← count_ids, count_eq_zero]
  exact forall_congr' fun id => ⟨fun below beyond isIn => absurd (below isIn) (by omega),
    fun none isIn => Decidable.byContradiction fun beyond => none (by omega) isIn⟩

theorem PassKind.action_proper (pass : PassKind) {before after : PassState}
    (proper : env.unit.Proper) (below : env.unit.IdsBelow before.nextId)
    (ran : pass.action env before = .ok (unit, after)) : unit.Proper := by
  rw [CompilationUnit.proper_iff] at proper ⊢
  intro id
  have spent := pass.action_tally id ran
  have once := proper id
  unfold Spending.drawn at spent
  split at spent
  · next drawn =>
      rw [CompilationUnit.idsBelow_iff.1 below id drawn.1] at spent
      exact spent
  · exact Nat.le_trans spent once

/-- A pass that succeeds built a unit and installed what it hoisted, or found
    nothing to change. -/
theorem Pass.run_ok {action : Pass CompilationUnit} {before : PassState}
    (ran : action.run env before = .ok result) :
    ∃ unit after, action env before = .ok (unit, after) ∧
      (result.unit = none ∨ result.unit = some (unit.install (.ofUnit env.unit) after.hoists)) := by
  unfold Pass.run at ran
  change (action env before >>= _) = _ at ran
  cases acted : action env before with
  | error error =>
    rw [acted] at ran
    cases ran
  | ok reached =>
    obtain ⟨unit, after⟩ := reached
    rw [acted] at ran
    refine ⟨unit, after, rfl, ?_⟩
    change (if (after.changed || !after.hoists.isEmpty) = true then _ else _) = _ at ran
    split at ran
    · cases ran
      exact .inr rfl
    · cases ran
      exact .inl rfl

theorem PassKind.run_proper (pass : PassKind) {start : PassState}
    (proper : env.unit.Proper) (below : env.unit.IdsBelow start.nextId)
    (ran : pass.action.run env start = .ok result) : (result.unit.getD env.unit).Proper := by
  obtain ⟨unit, after, acted, unchanged | rebuilt⟩ := Pass.run_ok ran
  · rw [unchanged]
    exact proper
  · rw [rebuilt]
    exact (pass.action_proper proper below acted).install _ _

theorem Tree.analyze_proper (tree : Tree) :
    tree.analyze.tree.unit.Proper ∧ tree.analyze.tree.unit.IdsBelow tree.analyze.nextId := by
  refine ⟨tree.unit.number_proper, CompilationUnit.idsBelow_iff.2 fun id beyond => ?_⟩
  have numbered : tally id tree.analyze.tree.unit.roots ≤
      if id < tree.analyze.nextId then 1 else 0 := tree.unit.tally_number id
  rw [if_neg (Nat.not_lt.2 beyond)] at numbered
  exact Nat.le_zero.1 numbered

end Unsugar
