import Unsugar.Proofs.Spans.Sugar
import Unsugar.Proofs.Lower.SugarFreedom
import Unsugar.Proofs.Spans.Tests

open List

namespace Unsugar

/-! # Where the spans of declarations come from

What is made for a record or a primary constructor carries the span of the type.  An
initializer that moves into a constructor becomes a statement with the span of its
value.
-/

open Node

variable (index : Nat)

namespace Pass

variable {source : Span → Prop} {span : Span}

/-! ## Expression bodies -/

theorem noteBodies_calm {bodies : List Body} : Calm source (noteBodies bodies) :=
  .ite markChanged_calm (.pure trivial)

theorem accessor_from {returns : Bool} {body : Option Body}
    (isFrom : AllFrom source ((body.map ofBody).getD [])) :
    AllFrom source (((body.map (Body.toBlock returns)).map ofBody).getD []) := by
  cases body with
  | none => exact allFrom_nil
  | some body => exact toBlock_from returns isFrom

theorem blockMember_sourced {member : Member} (isFrom : member.From source) :
    Sourced source (blockMember member) (Member.From source) := by
  obtain ⟨kind, modifiers, span⟩ := member
  obtain ⟨isSpan, areFrom⟩ := isFrom
  cases kind with
  | method name typeParams params ret body =>
    obtain ⟨areParams, isBody⟩ := allFrom_append.1 areFrom
    exact noteBodies_calm.after fun _ => isVoid_calm.afterPure fun _ =>
      ⟨isSpan, allFrom_append.2 ⟨areParams, toBlock_from _ isBody⟩⟩
  | operator op params ret body =>
    obtain ⟨areParams, isBody⟩ := allFrom_append.1 areFrom
    exact noteBodies_calm.afterPure fun _ =>
      ⟨isSpan, allFrom_append.2 ⟨areParams, toBlock_from true isBody⟩⟩
  | ctor params initializer body =>
    obtain ⟨areArgs, isBody⟩ := allFrom_append.1 areFrom
    exact noteBodies_calm.afterPure fun _ =>
      ⟨isSpan, allFrom_append.2 ⟨areArgs, toBlock_from false isBody⟩⟩
  | property type name getter setter init =>
    obtain ⟨areAccessors, isInit⟩ := allFrom_append.1 areFrom
    obtain ⟨isGetter, isSetter⟩ := allFrom_append.1 areAccessors
    exact noteBodies_calm.afterPure fun _ => ⟨isSpan, allFrom_append.2
      ⟨allFrom_append.2 ⟨accessor_from isGetter, accessor_from isSetter⟩, isInit⟩⟩
  | field type name init => exact .pure ⟨isSpan, areFrom⟩

variable {decl : TypeDecl}

theorem blockDecl_sourced (isFrom : decl.From source) :
    Sourced source (blockDecl decl) (TypeDecl.From source) := by
  obtain ⟨isSpan, isHeader, areMembers⟩ := isFrom
  exact (Sourced.mapM fun member isMember => blockMember_sourced (areMembers member isMember)).bind
    fun _ areBlocks => .pure ⟨isSpan, isHeader, areBlocks⟩

/-! ## Primary constructors -/

theorem moveInitializer_sourced {name : String} {value : Expr} (isFrom : (expr value).From source) :
    Sourced source (moveInitializer name value) fun result => (stmt result).From source := by
  have isSpan := isFrom.exprSpan
  have moved (id : Nat) : (stmt ⟨⟨value.span, some id⟩, .eval (value.span.assign
      (value.span.member value.span.self name) value)⟩).From source :=
    from_stmt.2 ⟨isSpan, allFrom_cons.2 ⟨by simp [isSpan, isFrom], allFrom_nil⟩⟩
  unfold moveInitializer
  refine freshId_calm.after fun id => ?_
  dsimp only
  split
  · next start _ =>
      have relocates : Calm source (modify fun state : PassState =>
          { state with hoists := state.hoists.relocate (.initializer start) (.stmt id) }) :=
        calm_of_ok fun _ _ => ⟨_, _, rfl, HoistQueue.From.relocate _ _⟩
      exact relocates.after fun _ => .pure (moved id)
  · exact .pure (moved id)

theorem withoutInitializer_sourced {member : Member} (isFrom : member.From source) :
    Sourced source (withoutInitializer member) fun result =>
      result.1.From source ∧ AllFrom source (ofStmts result.2) := by
  obtain ⟨isSpan, areFrom⟩ := isFrom
  have kept : Sourced source (pure (member, []) : Pass (Member × List Stmt)) fun result =>
      result.1.From source ∧ AllFrom source (ofStmts result.2) :=
    .pure ⟨⟨isSpan, areFrom⟩, allFrom_nil⟩
  refine .ite kept ?_
  split
  · next type name init isField =>
      rw [isField] at areFrom
      exact (moveInitializer_sourced (allFrom_cons.1 areFrom).1).bind fun _ isMoved =>
        .pure ⟨⟨isSpan, allFrom_nil⟩, allFrom_single isMoved⟩
  · next type name getter setter init isProperty =>
      rw [isProperty] at areFrom
      obtain ⟨areAccessors, isInit⟩ := allFrom_append.1 areFrom
      exact (moveInitializer_sourced (allFrom_cons.1 isInit).1).bind fun _ isMoved =>
        .pure ⟨⟨isSpan, allFrom_append.2 ⟨areAccessors, allFrom_nil⟩⟩, allFrom_single isMoved⟩
  · exact kept

theorem lowerPrimary_sourced {leading : List Stmt} (areLeading : AllFrom source (ofStmts leading))
    (isFrom : decl.From source) :
    Sourced source (lowerPrimary index leading decl) (TypeDecl.From source) := by
  unfold lowerPrimary
  split
  · exact .pure isFrom
  · next params isPrimary =>
      obtain ⟨isSpan, isHeader, areMembers⟩ := isFrom
      simp only [TypeDecl.headerRoots, isPrimary, Option.map_some, Option.getD_some,
        allFrom_append] at isHeader
      have areArgs : AllFrom source (((decl.baseArgs.map fun args =>
          (⟨.base, args⟩ : CtorInitializer)).map fun init => ofExprs init.args).getD []) := by
        cases isArgs : decl.baseArgs with
        | none => exact allFrom_nil
        | some args => simpa [isArgs] using isHeader.2
      refine get_calm.after fun state => ?_
      refine (Sourced.mapM fun member isMember =>
        withoutInitializer_sourced (areMembers member isMember)).bind fun moved areMoved => ?_
      refine markChanged_calm.afterPure fun _ => ⟨isSpan, allFrom_nil, ?_⟩
      simp only [forall_mem_append, forall_mem_singleton, forall_mem_map]
      refine ⟨⟨fun param _ => ⟨isSpan, allFrom_nil⟩, fun member isMember =>
        (areMoved member isMember).1⟩, isSpan, ?_⟩
      have areStmts : AllFrom source (ofStmts (moved.flatMap (·.2))) := by
        rw [allFrom_stmts]
        intro node isNode
        obtain ⟨member, isMember, isMoved⟩ := mem_flatMap.1 isNode
        exact allFrom_stmts.1 (areMoved member isMember).2 node isMoved
      simp only [MemberKind.roots, ofBody, allFrom_append, allFrom_cons, from_block, ofStmts_append]
      refine ⟨⟨isHeader.1, areArgs⟩, ⟨isSpan, ⟨areLeading, ?_⟩, areStmts⟩, allFrom_nil⟩
      exact allFrom_stmts_map fun _ _ => by simp [isSpan]

/-! ## Records -/

section Records

variable {shape : RecordShape} (isSpan : source shape.span) (types : Universe)

include isSpan

theorem RecordShape.ownMember_from {name : String} :
    (expr (shape.ownMember name)).From source := by simp [ownMember, isSpan]

theorem RecordShape.objectCall_from {method : String} {args : List Expr}
    (areArgs : AllFrom source (ofExprs args)) :
    (expr (shape.objectCall method args)).From source := by simp [objectCall, isSpan, areArgs]

theorem RecordShape.isNull_from {value : Expr} (isValue : (expr value).From source) :
    (expr (shape.isNull value)).From source :=
  objectCall_from isSpan (by simp [isSpan, isValue])

theorem RecordShape.method_from {name : String} {params : List Param} {ret : TypeSyntax}
    {body : List Stmt} {modifiers : List Modifier} (areParams : AllFrom source (ofParams params))
    (isBody : AllFrom source (ofStmts body)) :
    (shape.method name params ret body modifiers).From source :=
  ⟨isSpan, allFrom_append.2
    ⟨areParams, allFrom_cons.2 ⟨from_block.2 ⟨isSpan, isBody⟩, allFrom_nil⟩⟩⟩

theorem RecordShape.operator_from {op : BinaryOp} {result : Expr}
    (isResult : (expr result).From source) : (shape.operator op result).From source := by
  refine ⟨isSpan, ?_⟩
  simp [operator, MemberKind.roots, ofBody, ofParams, Param.plain, isSpan, isResult]

theorem RecordShape.componentHash_from {param : Param} :
    (expr (shape.componentHash types param)).From source := by
  unfold componentHash
  dsimp only
  split <;> simp [isSpan, ownMember_from isSpan]

theorem RecordShape.properties_from {members : List Member} :
    ∀ member ∈ shape.properties members, member.From source := by
  simp only [properties, forall_mem_map]
  exact fun _ _ => ⟨isSpan, by simp [MemberKind.roots, ofBody]⟩

theorem RecordShape.assigns_from {members : List Member} :
    AllFrom source (ofStmts (shape.assigns members)) :=
  allFrom_stmts_map fun _ _ => by simp [isSpan, ownMember_from isSpan]

theorem RecordShape.emptyCtor_from : shape.emptyCtor.From source :=
  ⟨isSpan, by simp [emptyCtor, MemberKind.roots, ofParams, ofBody, isSpan]⟩

theorem RecordShape.deconstruct_from : shape.deconstruct.From source := by
  refine method_from isSpan (by simp [ofParams, allFrom_flatMap]) (allFrom_stmts_map fun _ _ => ?_)
  simp [isSpan, ownMember_from isSpan]

theorem RecordShape.equalsObject_from : shape.equalsObject.From source :=
  method_from isSpan (by simp [ofParams, Param.plain]) (by simp [isSpan])

theorem RecordShape.equalsSelf_from : shape.equalsSelf.From source := by
  refine method_from isSpan (by simp [ofParams, Param.plain]) (allFrom_single
    (from_ret.2 ⟨isSpan, from_conjunction isSpan ?_⟩))
  rw [ofExprs_append, allFrom_append]
  constructor
  · split
    · exact allFrom_nil
    · simp [isSpan, isNull_from isSpan]
  · refine allFrom_exprs_map fun _ _ => objectCall_from isSpan ?_
    simp [isSpan, ownMember_from isSpan]

theorem RecordShape.hash_from : (shape.hash types).From source := by
  refine method_from isSpan (by simp [ofParams]) ?_
  simp only [cons_append, ofStmts_cons, ofStmts_append, allFrom_cons, allFrom_append]
  refine ⟨by simp [isSpan], allFrom_stmts_map fun _ _ => ?_, by simp [isSpan]⟩
  simp [isSpan, componentHash_from isSpan]

theorem RecordShape.eqOperator_from : shape.eqOperator.From source := by
  refine operator_from isSpan ?_
  split <;> simp [isSpan, isNull_from isSpan]

theorem RecordShape.neOperator_from : shape.neOperator.From source :=
  operator_from isSpan (by simp [isSpan])

theorem RecordShape.printMembers_from : shape.printMembers.From source := by
  refine method_from isSpan (by simp [ofParams]) (allFrom_single (from_ret.2 ⟨isSpan, ?_⟩))
  dsimp only
  split
  · exact from_strLit.2 isSpan
  · next first rest isPieces =>
      have arePieces : AllFrom source (ofExprs (first :: rest)) := by
        rw [← isPieces, allFrom_exprs]
        intro piece isPiece
        obtain ⟨⟨param, index⟩, _, isPiece⟩ := mem_flatMap.1 isPiece
        simp only [mem_cons, not_mem_nil, or_false] at isPiece
        rcases isPiece with rfl | rfl <;> simp [isSpan, ownMember_from isSpan]
      rw [ofExprs_cons, allFrom_cons] at arePieces
      exact from_foldl_binary isSpan arePieces.1 arePieces.2

theorem RecordShape.toText_from : shape.toText.From source := by
  refine method_from isSpan (by simp [ofParams]) (allFrom_single (from_ret.2 ⟨isSpan, ?_⟩))
  dsimp only
  split <;> simp [isSpan]

theorem RecordShape.clone_from : shape.clone.From source := by
  refine method_from isSpan (by simp [ofParams]) (allFrom_single (from_ret.2 ⟨isSpan, ?_⟩))
  split <;> simp [isSpan]

theorem RecordShape.methods_from {written : List Member} :
    ∀ member ∈ shape.methods types written, member.From source := by
  have ifMissing {condition : Prop} [Decidable condition] {members : List Member}
      (areFrom : ∀ member ∈ members, member.From source) :
      ∀ member ∈ if condition then [] else members, member.From source := by
    split
    · exact nofun
    · exact areFrom
  have single {member : Member} (isFrom : member.From source) :
      ∀ other ∈ [member], other.From source := forall_mem_singleton.2 isFrom
  unfold RecordShape.methods
  simp only [forall_mem_append]
  exact ⟨⟨⟨⟨⟨⟨⟨⟨⟨ifMissing (ifMissing (single (emptyCtor_from isSpan))),
    ifMissing (ifMissing (single (deconstruct_from isSpan)))⟩,
    ifMissing (single (equalsObject_from isSpan))⟩, ifMissing (single (equalsSelf_from isSpan))⟩,
    ifMissing (single (hash_from isSpan types))⟩, ifMissing (single (eqOperator_from isSpan))⟩,
    ifMissing (single (neOperator_from isSpan))⟩, ifMissing (single (printMembers_from isSpan))⟩,
    ifMissing (single (toText_from isSpan))⟩, ifMissing (single (clone_from isSpan))⟩

end Records

theorem lowerRecord_sourced (isFrom : decl.From source) :
    Sourced source (lowerRecord index decl) (TypeDecl.From source) := by
  obtain ⟨isSpan, isHeader, areMembers⟩ := isFrom
  refine markChanged_calm.after fun _ => types_calm.after fun types =>
    lowerPrimary_sourced index (RecordShape.assigns_from isSpan) ⟨isSpan, isHeader, ?_⟩
  simp only [forall_mem_append]
  exact ⟨⟨RecordShape.properties_from isSpan, areMembers⟩, RecordShape.methods_from isSpan types⟩

theorem desugarDecls_sourced {decls : List TypeDecl} (areFrom : ∀ decl ∈ decls, decl.From source) :
    Sourced source (desugarDecls index decls) fun results =>
      ∀ result ∈ results, result.From source := by
  induction decls generalizing index with
  | nil => exact .pure nofun
  | cons decl rest ih =>
    obtain ⟨isFirst, areRest⟩ := forall_mem_cons.1 areFrom
    have following (lowered : TypeDecl) (isLowered : lowered.From source) :
        Sourced source (do return lowered :: (← desugarDecls (index + 1) rest)) fun results =>
          ∀ result ∈ results, result.From source :=
      (ih (index + 1) areRest).bind fun _ areOthers =>
        .pure (forall_mem_cons.2 ⟨isLowered, areOthers⟩)
    unfold desugarDecls
    dsimp only
    split
    · exact (lowerRecord_sourced index isFirst).bind following
    · exact (lowerPrimary_sourced index allFrom_nil isFirst).bind following

end Pass

/-! ## Span provenance

Every span of a lowered tree, and every span of an error, was there before.  One pass
stays within the spans of the unit it runs on, so all passes together stay within
those of the first; the check for sugar reports a span of the last unit.
-/

open Node

variable {source : Span → Prop}

namespace Pass

/-! ## Passes -/

theorem rebuild_sourced {rules : Rules Pass} (traced : rules.Traced (.sourced source) source) :
    Sourced source (do (← read).unit.rebuild rules) (CompilationUnit.From source) :=
  read_sourced.bind fun _ => CompilationUnit.rebuild_traced traced

theorem expressionBodies_sourced :
    Sourced source expressionBodies (CompilationUnit.From source) := by
  refine read_sourced.bind fun _ isUnit => ?_
  refine Sourced.bind (CompilationUnit.rebuild_traced blockRules_traced isUnit)
    fun _ isRebuilt => ?_
  exact (Sourced.mapM fun decl isDecl => blockDecl_sourced (isRebuilt decl isDecl)).bind
    fun _ areBlocks => .pure areBlocks

theorem staticUsings_sourced : Sourced source staticUsings (CompilationUnit.From source) := by
  refine read_sourced.bind fun _ isUnit => types_calm.after fun _ => ?_
  refine Sourced.bind (CompilationUnit.rebuild_traced (qualifyRules_traced _) isUnit)
    fun _ isRebuilt => ?_
  exact .ite (markChanged_calm.after fun _ => .pure isRebuilt) (.pure isRebuilt)

theorem desugar_sourced : Sourced source desugar (CompilationUnit.From source) := by
  refine read_sourced.bind fun env isUnit => ?_
  have lowered : Sourced source (do
      let unit ← env.unit.rebuild desugarRules
      return { unit with types := ← desugarDecls 0 unit.types }) (CompilationUnit.From source) :=
    Sourced.bind (CompilationUnit.rebuild_traced desugarRules_traced isUnit) fun _ isRebuilt =>
      (desugarDecls_sourced 0 isRebuilt).bind fun _ areLowered => .pure areLowered
  exact .ite ((trigger_calm _).after fun _ => lowered) lowered

end Pass

/-- A pass brings no span of its own into a unit, a declaration or an error. -/
theorem PassKind.action_sourced (pass : PassKind) :
    Pass.Sourced source pass.action (CompilationUnit.From source) := by
  cases pass with
  | expressionBodies => exact Pass.expressionBodies_sourced
  | names => exact Pass.rebuild_sourced (Pass.qualifyRules_traced _)
  | deconstruction => exact Pass.rebuild_sourced Pass.deconstructionRules_traced
  | desugar => exact Pass.desugar_sourced
  | localFunctions => exact Pass.rebuild_sourced Pass.localFunctionRules_traced
  | chainedAssignment => exact Pass.rebuild_sourced Pass.chainRules_traced
  | staticUsings => exact Pass.staticUsings_sourced
  | patterns => exact Pass.rebuild_sourced Pass.patternRules_traced
  | switchLabels => exact Pass.rebuild_sourced Pass.switchRules_traced

/-! ## The check for sugar -/

theorem Node.From.span {node : Node} (isFrom : node.From source) : source node.span := by
  cases node with
  | expr node => exact isFrom.exprSpan
  | stmt node => exact isFrom.stmtSpan
  | pattern node => exact isFrom.patternSpan

theorem Node.From.outside {node below : Node} (isFrom : node.From source)
    (isBelow : below ∈ node.reachable false) : below.From source := by
  induction node using Node.childInduction with
  | step node ih =>
    rcases (Node.mem_outside_iff.1 isBelow).2 with rfl | ⟨child, isChild, isBelow⟩
    · exact isFrom
    · exact ih child isChild ((Node.from_iff.1 isFrom).2 child isChild) isBelow

theorem AllFrom.sugarIn {roots : List Node} (areFrom : AllFrom source roots) :
    ∀ found ∈ sugarIn roots, source found.2 := by
  intro found isFound
  obtain ⟨node, isNode, isSugar⟩ := mem_filterMap.1 isFound
  obtain ⟨root, isRoot, isBelow⟩ := mem_flatMap.1 isNode
  obtain ⟨what, _, rfl⟩ := Option.map_eq_some_iff.1 isSugar
  exact ((areFrom root isRoot).outside isBelow).span

theorem TypeDecl.From.sugar {decl : TypeDecl} (isFrom : decl.From source) :
    ∀ found ∈ decl.sugar, source found.2 := by
  obtain ⟨isSpan, isHeader, areMembers⟩ := isFrom
  simp only [TypeDecl.sugar, forall_mem_append, forall_mem_map]
  refine ⟨⟨fun _ _ => isSpan, isHeader.sugarIn⟩, fun found isFound => ?_⟩
  obtain ⟨member, isMember, isFound⟩ := mem_flatMap.1 isFound
  exact AllFrom.sugarIn (areMembers member isMember).2 found isFound

theorem CompilationUnit.From.validate {unit : CompilationUnit} {error : LowerError}
    (isFrom : unit.From source) (fails : unit.validate = .error error) : error.From source := by
  unfold CompilationUnit.validate at fails
  split at fails
  · cases fails
  · next what span rest isSugar =>
      have isFound : (what, span) ∈ unit.sugar := isSugar ▸ mem_cons_self
      obtain ⟨decl, isDecl, isFound⟩ := mem_flatMap.1 isFound
      have isSpan := (isFrom decl isDecl).sugar _ isFound
      cases fails
      simpa [LowerError.From, LowerError.spans] using isSpan

/-! ## Lowering -/

def Traces (source : Span → Prop) {α : Type} (wanted : α → Prop) : Except LowerError α → Prop
  | .ok result => wanted result
  | .error error => error.From source

namespace Lowering

/-- The tree between two passes and its analysis carry only these spans. -/
def From (source : Span → Prop) (lowering : Lowering) : Prop :=
  lowering.tree.unit.From source ∧ ∀ analyzed ∈ lowering.analyzed, analyzed.tree.unit.From source

variable {lowering : Lowering}

theorem analyze_from (isFrom : lowering.From source) :
    (lowering.analyze Tree.analyze).1.tree.unit.From source ∧
      (lowering.analyze Tree.analyze).2.From source := by
  obtain ⟨isTree, isAnalyzed⟩ := isFrom
  have isNumbered : lowering.tree.analyze.tree.unit.From source :=
    CompilationUnit.number_from isTree
  unfold analyze
  split
  · next analyzed isSome => exact ⟨isAnalyzed analyzed isSome, isTree, isAnalyzed⟩
  · exact ⟨isNumbered, isTree, by rintro _ ⟨⟩; exact isNumbered⟩

theorem runOn_error {analyzed : Analyzed} {pass : PassKind} {error : LowerError}
    (failed : runOn analyzed pass lowering = .error error) :
    pass.action (analyzed.env pass) (analyzed.start lowering.triggers) = .error error := by
  unfold runOn Pass.run at failed
  change ((pass.action (analyzed.env pass) (analyzed.start lowering.triggers) >>= _) >>= _) = _
    at failed
  cases acted : pass.action (analyzed.env pass) (analyzed.start lowering.triggers) with
  | error other =>
    rw [acted] at failed
    cases failed
    rfl
  | ok reached =>
    obtain ⟨unit, state⟩ := reached
    rw [acted] at failed
    change ((if (state.changed || !state.hoists.isEmpty) = true then _ else _) >>= _) = _
      at failed
    split at failed <;> cases failed

theorem runOn_from {analyzed : Analyzed} (pass : PassKind) (isUnit : analyzed.tree.unit.From source)
    (isFrom : lowering.From source) :
    Traces source (From source) (runOn analyzed pass lowering) := by
  obtain ⟨ends, fails⟩ := pass.action_sourced (analyzed.env pass)
    (analyzed.start lowering.triggers) isUnit nofun
  cases ran : runOn analyzed pass lowering with
  | ok next =>
    obtain ⟨unit, state, acted, _, ⟨_, rfl⟩ | ⟨isNone, isInstalled⟩⟩ := runOn_ok ran
    · exact isFrom
    · obtain ⟨isBuilt, areQueued⟩ := ends unit state acted
      refine ⟨?_, by rw [isNone]; exact nofun⟩
      rw [isInstalled]
      exact CompilationUnit.install_from _ areQueued isBuilt
  | error error => exact fails error (runOn_error ran)

theorem runAll_from (passes : List PassKind) (isFrom : lowering.From source) :
    Traces source (From source) (runAll Tree.analyze passes lowering).1 := by
  induction passes generalizing lowering with
  | nil => exact isFrom
  | cons pass rest ih =>
    obtain ⟨isUnit, isAnalyzed⟩ := analyze_from isFrom
    have isRun := runOn_from pass isUnit isAnalyzed
    unfold runAll
    dsimp only
    split
    · next error failed => rwa [failed] at isRun
    · next next ran =>
        rw [ran] at isRun
        exact ih isRun

end Lowering

theorem Tree.lower_from {tree : Tree} (isFrom : tree.unit.From source) :
    Traces source (fun lowered : Tree => lowered.unit.From source) tree.lower := by
  have isStanding := Lowering.runAll_from PassKind.always
    (show Lowering.From source { tree } from ⟨isFrom, nofun⟩)
  unfold Tree.lower Tree.lowerTraced Tree.lowerTracedWith
  split
  · next ran => rwa [ran] at isStanding
  · next middle _ ran =>
      rw [ran] at isStanding
      have isPlanned := Lowering.runAll_from middle.triggers.plan isStanding
      split
      · next ran => rwa [ran] at isPlanned
      · next final _ ran =>
          rw [ran] at isPlanned
          cases valid : final.tree.unit.validate with
          | ok _ => exact isPlanned.1
          | error error => exact CompilationUnit.From.validate isPlanned.1 valid

/-- Span provenance.  Whatever a tree is lowered to, each span on a type declaration,
    a member, a node or an arm of it is a span on one of these in the tree; and where
    lowering fails, so is each span of the error and of what caused it. -/
theorem Tree.lower_spans_from_input (tree : Tree) :
    match tree.lower with
    | .ok lowered => lowered.unit.sources ⊆ tree.unit.sources
    | .error error => error.spans ⊆ tree.unit.sources := by
  have isFrom : tree.unit.From (· ∈ tree.unit.sources) :=
    CompilationUnit.from_iff.2 fun _ isSource => isSource
  have isTraced := tree.lower_from isFrom
  cases ran : tree.lower with
  | ok lowered =>
    rw [ran] at isTraced
    exact CompilationUnit.from_iff.1 isTraced
  | error error =>
    rw [ran] at isTraced
    exact isTraced

end Unsugar
