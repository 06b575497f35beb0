import Unsugar.Proofs.Hoist.DesignatedTypes
import Unsugar.Proofs.Hoist.InstalledLoads

open List

namespace Unsugar

/-! # Names that a list declares twice

A pass queues a name once for each point, so one statement never gets two declarations
of it.  But the points of two statements in one list are different, and where both
declare a name, the list does so twice.
-/

open Node

/-! ## Passes leave tidy queues -/

variable {params : List Param} {body : List Stmt} {env : PassEnv}

namespace Pass

theorem lambdaBody_grows {span : Span} {name : String} {typeParams : List String} {body : Body} :
    Grows (lambdaBody span name typeParams params body) := by
  refine .ite unsupported_grows (.ite unsupported_grows ?_)
  cases body with
  | none => exact unsupported_grows
  | _ => exact .pure

theorem functionSyntax_grows {ret : TypeSyntax} : Grows (functionSyntax params ret) :=
  view_grows.bind fun _ => .ite .pure .pure

theorem sortFunctions_grows : Grows (sortFunctions body) := by
  induction body with
  | nil => exact .pure
  | cons node rest ih =>
    unfold sortFunctions
    split
    · next same => cases same
    · next same =>
        cases same
        exact lambdaBody_grows.bind fun _ => functionSyntax_grows.bind fun _ =>
          ih.bindPure
    · next same =>
        cases same
        exact ih.bindPure

theorem localFunctionRules_grow : localFunctionRules.Grow where
  expr _ _ _ := .pure
  stmt site node kind := by
    unfold localFunctionRules
    dsimp only
    split
    · exact .ite (sortFunctions_grows.bind fun _ => setStmt_grows) .pure
    · exact .pure
  pattern _ _ _ := .pure

theorem chainType_grows {targets : List Expr} {value : Expr} : Grows (chainType targets value) := by
  unfold chainType
  split
  · exact typeOf_grows.bind fun _ => .ite typeOf_grows .pure
  · exact typeOf_grows

theorem chainRules_grow : chainRules.Grow where
  expr _ _ _ := .pure
  stmt site node kind := by
    unfold chainRules
    dsimp only
    split
    · exact .ite (fresh_grows.bind fun _ => chainType_grows.bind fun _ =>
        localSyntax_grows.bind fun _ => splice_grows) .pure
    · exact .pure
  pattern _ _ _ := .pure

theorem staticUsings_grows : Grows staticUsings := by
  refine read_grows.bind fun env => types_grows.bind fun types => ?_
  refine (CompilationUnit.rebuild_grows (qualifyRules_grow _) _).bind fun unit => ?_
  exact .ite markChanged_grows.bindPure .pure

theorem desugar_grows : Grows desugar := by
  refine read_grows.bind fun env => ?_
  have rest : Grows (do
      let unit ← env.unit.rebuild desugarRules
      return { unit with types := ← desugarDecls 0 unit.types }) :=
    (CompilationUnit.rebuild_grows desugarRules_grow _).bind fun unit =>
      desugarDecls_grows.bindPure
  have called : Grows (trigger fun triggers => { triggers with staticUsings := true }) :=
    trigger_grows fun _ => ⟨id, id, fun _ => rfl, id, id⟩
  exact .ite (called.bind fun _ => rest) rest

end Pass

theorem PassKind.action_tidy (pass : PassKind) {before after : PassState}
    {unit : CompilationUnit} (acted : pass.action env before = .ok (unit, after))
    (tidy : before.hoists.Tidy) : after.hoists.Tidy := by
  cases pass with
  | expressionBodies =>
    have settles : Pass.Settles .change env _ _ _ := Pass.expressionBodies_settles env
    exact (settles.grows _ _ _ acted).hoists tidy
  | names => exact ((Pass.names_settles .anything env).grows _ _ _ acted).hoists tidy
  | deconstruction => exact ((Pass.deconstruction_settles .anything env).grows _ _ _ acted).hoists tidy
  | desugar => exact (Pass.desugar_grows _ _ _ _ acted).hoists tidy
  | localFunctions =>
    exact (CompilationUnit.rebuild_grows Pass.localFunctionRules_grow env.unit _ _ _ _ acted).hoists tidy
  | chainedAssignment =>
    exact (CompilationUnit.rebuild_grows Pass.chainRules_grow env.unit _ _ _ _ acted).hoists tidy
  | staticUsings => exact (Pass.staticUsings_grows _ _ _ _ acted).hoists tidy
  | patterns => exact (PassKind.action_queues (.inl rfl) _ _ _ acted).tidy tidy
  | switchLabels => exact (PassKind.action_queues (.inr rfl) _ _ _ acted).tidy tidy

/-! ## What installing repeats -/

section Install

variable {unit : CompilationUnit} {name : String}

theorem listLoad_nothing :
    ({} : Cover).listLoad [] name body = body.countP (Stmt.declaresName name) := by
  induction body with
  | nil => rfl
  | cons node rest ih =>
    rw [countP_cons, ← ih, Cover.listLoad, map_cons, sum_cons,
      Nat.add_comm]
    cases declares : node.declaresName name <;> cases isId : node.id <;>
      simp [Cover.itemLoad, Cover.listLoad, declares, isId]

theorem CompilationUnit.repeats_iff : unit.Repeats name ↔ unit.FillsList {} [] name := by
  unfold Repeats FillsList Node.FillsList
  simp [listLoad_nothing]

theorem CompilationUnit.FillsList.crowds {cover : Cover} {wrapped : List Nat}
    (fills : unit.FillsList cover wrapped name) : unit.Crowds cover wrapped name := by
  obtain ⟨node, isNode, load, isLoad, heavy⟩ := fills
  refine ⟨node, isNode, load, ?_, heavy⟩
  cases node with
  | stmt node => exact mem_cons_of_mem _ isLoad
  | _ => cases isLoad

variable (parents : ParentMap) (queue : HoistQueue)
  (distinct : ∀ entry ∈ queue.entries, (entry.2.map HoistedLocal.name).Nodup)

include distinct

/-- What is declared twice once everything is installed was going to be. -/
theorem CompilationUnit.crowds_of_install (proper : unit.Proper)
    (repeats : (unit.install parents queue).Repeats name) :
    unit.Crowds (coverOf parents name queue.entries unit) (wrappedOf parents queue.entries unit)
      name := by
  have crowds := (CompilationUnit.repeats_iff.1 repeats).crowds
  clear repeats
  obtain ⟨entries⟩ := queue
  unfold install at crowds
  induction entries generalizing unit with
  | nil => exact crowds
  | cons entry rest ih =>
    obtain ⟨isFirst, areRest⟩ := forall_mem_cons.1 distinct
    exact (proper.installs parents _ _ name entry).crowds isFirst
      (ih (proper.installAt parents entry) areRest crowds)

/-- A list that is going to declare a name twice does so once everything is installed. -/
theorem CompilationUnit.repeats_install (proper : unit.Proper)
    (fills : unit.FillsList (coverOf parents name queue.entries unit)
      (wrappedOf parents queue.entries unit) name) :
    (unit.install parents queue).Repeats name := by
  rw [CompilationUnit.repeats_iff]
  obtain ⟨entries⟩ := queue
  unfold install
  induction entries generalizing unit with
  | nil => exact fills
  | cons entry rest ih =>
    obtain ⟨isFirst, areRest⟩ := forall_mem_cons.1 distinct
    exact ih (proper.installAt parents entry) areRest
      ((proper.installs parents _ _ name entry).fillsList isFirst fills)

end Install

/-! ## What points declare -/

theorem HoistQueue.declares_iff_local? {queue : HoistQueue} {point : InstallPoint} {name : String} :
    declares (queue.at? point) name = true ↔ ∃ hoisted, queue.local? point name = some hoisted := by
  unfold local? declares
  rw [← Option.isSome_iff_exists, find?_isSome, any_eq_true]

theorem PassKind.declares_iff_hoists {pass : PassKind}
    (lowers : pass = .patterns ∨ pass = .switchLabels) {start after : PassState}
    {rewritten : CompilationUnit} (empty : start.hoists = {})
    (acted : pass.action env start = .ok (rewritten, after)) {name : String}
    (plain : ¬ IsTemporary name) (point : InstallPoint) :
    declares (after.hoists.at? point) name = true ↔ ∃ mark, env.Hoists pass point mark name := by
  have grown := PassKind.action_queues lowers _ _ _ acted
  rw [HoistQueue.declares_iff_local?]
  constructor
  · rintro ⟨hoisted, found⟩
    rcases grown.stands found with before | isTemporary | ⟨mark, hoists, -⟩
    · rw [empty] at before
      cases before
    · exact absurd isTemporary plain
    · exact ⟨mark, hoists⟩
  · rintro ⟨mark, hoists⟩
    exact grown.declared hoists

/-- A pass queues a name at most once for each point, and exactly the names of the
    variables that are hoisted to it.  A list of the rewritten unit whose items bring
    the name in twice, each by declaring it or by being a point of it, declares it
    twice in the unit that the pass leaves; where nothing is going to bring a name in
    twice, no list does. -/
theorem hoisting_repeats (pass : PassKind) {env : PassEnv} {start : PassState} {result : PassResult}
    {unit : CompilationUnit} (proper : env.unit.Proper) (below : env.unit.IdsBelow start.nextId)
    (empty : start.hoists = {}) (ran : pass.action.run env start = .ok result)
    (isUnit : result.unit = some unit) :
    ∃ rewritten after, pass.action env start = .ok (rewritten, after) ∧ after.hoists.Tidy ∧
      ∀ name,
        (unit.Repeats name → rewritten.Crowds
          (CompilationUnit.coverOf (.ofUnit env.unit) name after.hoists.entries rewritten)
          (CompilationUnit.wrappedOf (.ofUnit env.unit) after.hoists.entries rewritten) name) ∧
        (rewritten.FillsList
          (CompilationUnit.coverOf (.ofUnit env.unit) name after.hoists.entries rewritten)
          (CompilationUnit.wrappedOf (.ofUnit env.unit) after.hoists.entries rewritten) name →
            unit.Repeats name) ∧
        (pass = .patterns ∨ pass = .switchLabels → ¬ IsTemporary name → ∀ point,
          declares (after.hoists.at? point) name = true ↔
            ∃ mark, env.Hoists pass point mark name) := by
  obtain ⟨rewritten, after, acted, unchanged | rebuilt⟩ := Pass.run_ok ran
  · rw [unchanged] at isUnit
    cases isUnit
  · rw [rebuilt] at isUnit
    cases isUnit
    have tidy : after.hoists.Tidy :=
      pass.action_tidy acted (by rw [empty]; exact HoistQueue.tidy_empty)
    have isProper := pass.action_proper proper below acted
    refine ⟨rewritten, after, acted, tidy, fun name => ⟨fun repeats => ?_, fun fills => ?_,
      fun lowers plain => PassKind.declares_iff_hoists lowers empty acted plain⟩⟩
    · exact CompilationUnit.crowds_of_install _ _ tidy.names isProper repeats
    · exact CompilationUnit.repeats_install _ _ tidy.names isProper fills

instance (unit : CompilationUnit) (name : String) : Decidable (unit.Repeats name) :=
  inferInstanceAs (Decidable (∃ node ∈ unit.reachable, ∃ body ∈ node.itemLists,
    2 ≤ body.countP (Stmt.declaresName name)))

instance (cover : Cover) (wrapped : List Nat) (unit : CompilationUnit) (name : String) :
    Decidable (unit.FillsList cover wrapped name) :=
  inferInstanceAs (Decidable (∃ node ∈ unit.reachable,
    ∃ load ∈ node.itemLists.map (cover.listLoad wrapped name), 2 ≤ load))

def repeatedLoop : Tree :=
  let span : Span := default
  let loop := span.stmt (.whileLoop
    (span.expr (.isPattern (span.ident "x") ⟨span.mark, .declaration (.simple "int") "n"⟩))
    (span.evalStmt (span.assign (span.ident "x") (span.ident "n"))))
  classTree none
    [⟨.method "M" [] [.plain (.simple "object") "x"] (.simple "void") (.block (span.block
      [loop, loop])), [.isStatic], span⟩]

/-- Whether a list is going to declare the name twice, although none did. -/
def PassKind.repeatsNew (pass : PassKind) (name : String) (tree : Tree) : Bool :=
  match pass.action.run (tree.analyze.env pass) (tree.analyze.start {}),
      pass.action (tree.analyze.env pass) (tree.analyze.start {}) with
  | .ok ⟨some _, _, _, _⟩, .ok (rewritten, after) =>
    decide (¬ tree.analyze.tree.unit.Repeats name ∧ rewritten.FillsList
      (CompilationUnit.coverOf (.ofUnit (tree.analyze.env pass).unit) name after.hoists.entries
        rewritten)
      (CompilationUnit.wrappedOf (.ofUnit (tree.analyze.env pass).unit) after.hoists.entries
        rewritten) name)
  | _, _ => false

/-- Each loop has a variable of its own, and both are declared in the list that holds
    the loops. -/
theorem hoisting_repeats_repeatedLoop :
    ∃ result unit rewritten after,
      PassKind.patterns.action.run (repeatedLoop.analyze.env .patterns)
        (repeatedLoop.analyze.start {}) = .ok result ∧ result.unit = some unit ∧
      PassKind.patterns.action (repeatedLoop.analyze.env .patterns)
        (repeatedLoop.analyze.start {}) = .ok (rewritten, after) ∧ after.hoists.Tidy ∧
      ¬ repeatedLoop.analyze.tree.unit.Repeats "n" ∧ unit.Repeats "n" ∧
      ∀ point, declares (after.hoists.at? point) "n" = true ↔
        ∃ mark, (repeatedLoop.analyze.env .patterns).Hoists .patterns point mark "n" := by
  have repeats : PassKind.patterns.repeatsNew "n" repeatedLoop = true := by decide +kernel
  obtain ⟨proper, below⟩ := repeatedLoop.analyze_proper
  unfold PassKind.repeatsNew at repeats
  split at repeats
  · next unit _ _ _ rewritten after ran acted =>
      obtain ⟨none, fills⟩ := of_decide_eq_true repeats
      have start : (repeatedLoop.analyze.env .patterns).unit.IdsBelow
        (repeatedLoop.analyze.start {}).nextId := below
      obtain ⟨rewritten', after', acted', tidy, counts⟩ :=
        hoisting_repeats .patterns proper start rfl ran rfl
      cases acted.symm.trans acted'
      obtain ⟨-, twice, points⟩ := counts "n"
      exact ⟨_, unit, rewritten, after, ran, rfl, acted, tidy, none, twice fills,
        points (.inl rfl) (not_isTemporary (by decide))⟩
  · cases repeats

end Unsugar
