import Unsugar.Proofs.Lower.LoweredUnits

open List

namespace Unsugar

/-! # Lowering a lowered tree

A lowered tree has no sugar, no expression bodies and no static imports, so of
the standing passes only three can find something in it: a bare name that the
analysis of the new tree takes for a member, an assignment that takes apart or an
`out` variable, and what desugaring acts on.  If no node is of these kinds, a
second run leaves the tree as it is, and only then do the passes leave it alone.

Nodes of these kinds do remain.  Which passes follow desugaring is read off the
tree before desugaring, so the statements that desugaring makes, such as a chain
of assignments in an initializer that moved into a constructor, are seen by the
next run only.
-/

/-- A tree all of whose nodes stay.  Sites and facts are those of the analysis
    that the next run starts with. -/
structure Tree.Settled (tree : Tree) : Prop where
  receivers : ∀ site node, tree.analyze.tree.unit.Holds site node →
    HasReceiver (tree.analyze.env .names) site node
  whole : ∀ site node, tree.analyze.tree.unit.Holds site node → IsWhole site node
  plain : ∀ site node, tree.analyze.tree.unit.Holds site node →
    IsPlain (tree.analyze.env .desugar) site node

def Tree.resting (tree : Tree) : Lowering where
  tree
  analyzed := some tree.analyze
  history := [tree.unit]

/-- Whether a pass leaves a tree alone and calls for no other pass. -/
def PassKind.leaves (tree : Tree) (pass : PassKind) : Bool :=
  match Lowering.runOn tree.analyze pass tree.resting with
  | .ok next => next.analyzed.isSome && next.triggers == {}
  | .error _ => false

variable {tree : Tree}

theorem PassKind.runOn_of_leaves {pass : PassKind} (left : pass.leaves tree = true) :
    Lowering.runOn tree.analyze pass tree.resting = .ok tree.resting := by
  unfold leaves at left
  split at left
  · rename_i next ran
    obtain ⟨isAnalyzed, uncalled⟩ := Bool.and_eq_true_iff.1 left
    have uncalled : next.triggers = {} := eq_of_beq uncalled
    obtain ⟨unit, state, _, triggers, ⟨_, rfl⟩ | ⟨none, _⟩⟩ := Lowering.runOn_ok ran
    · rw [ran]
      rw [triggers] at uncalled
      rw [uncalled]
      rfl
    · rw [none] at isAnalyzed
      cases isAnalyzed
  · cases left

theorem PassKind.leaves_iff {pass : PassKind} {stays : Prop}
    (settles : Pass.Settles .anything (tree.analyze.env pass) stays pass.action
      tree.analyze.tree.unit) : pass.leaves tree = true ↔ stays := by
  constructor
  · intro left
    obtain ⟨unit, state, acted, triggers, ⟨unchanged, _⟩ | ⟨none, _⟩⟩ :=
      Lowering.runOn_ok (runOn_of_leaves left)
    · refine Classical.byContradiction fun moves => ?_
      rcases settles.notes moves _ _ _ acted with changed | called
      · exact Bool.noConfusion (unchanged.symm.trans changed)
      · exact called triggers.symm
    · cases none
  · intro stay
    have ran : Lowering.runOn tree.analyze pass tree.resting = .ok tree.resting := by
      unfold Lowering.runOn Pass.run
      change ((pass.action (tree.analyze.env pass) (tree.analyze.start {}) >>= _) >>= _) = _
      rw [settles.keeps stay]
      rfl
    unfold leaves
    rw [ran]
    rfl

theorem CompilationUnit.validate_form {unit : CompilationUnit} (valid : unit.validate = .ok ()) :
    ∀ decl ∈ unit.types, decl.kind.isRecord = false ∧ decl.primary = none := by
  intro decl isDecl
  have sugarFree : unit.sugar = [] := by
    unfold validate at valid
    split at valid
    · assumption
    · cases valid
  have plain : decl.sugar = [] := flatMap_eq_nil_iff.1 sugarFree decl isDecl
  have noForm : decl.sugar? = none := by
    cases form : decl.sugar? with
    | none => rfl
    | some what =>
      rw [TypeDecl.sugar, form] at plain
      simp at plain
  unfold TypeDecl.sugar? at noForm
  split at noForm
  · cases noForm
  · rename_i noRecord
    split at noForm
    · cases noForm
    · rename_i noPrimary
      exact ⟨Bool.of_not_eq_true noRecord, Option.not_isSome_iff_eq_none.1 noPrimary⟩

theorem CompilationUnit.number_plain {unit : CompilationUnit}
    (plain : ∀ decl ∈ unit.types, decl.kind.isRecord = false ∧ decl.primary = none) :
    ∀ decl ∈ unit.number.1.types, decl.kind.isRecord = false ∧ decl.primary = none := by
  intro decl isDecl
  have isForm : decl.form ∈ unit.types.map TypeDecl.form := by
    rw [← unit.number_form]
    exact mem_map_of_mem isDecl
  obtain ⟨other, isOther, same⟩ := mem_map.1 isForm
  obtain ⟨noRecord, noPrimary⟩ := plain other isOther
  have sameKind : other.kind = decl.kind := congrArg Prod.fst same
  have samePrimary : other.primary.isSome = decl.primary.isSome := congrArg Prod.snd same
  refine ⟨sameKind ▸ noRecord, ?_⟩
  rw [noPrimary] at samePrimary
  exact Option.not_isSome_iff_eq_none.1 (by rw [← samePrimary]; exact Bool.false_ne_true)

/-- A local function with an expression body is a local function. -/
theorem IsPlain.hasBlock {env : PassEnv} {site : Site} {node : Node}
    (plain : IsPlain env site node) : HasBlock node := by
  unfold HasBlock
  split
  · exact plain
  · trivial

theorem Tree.Settled.iff_leaves (valid : tree.unit.validate = .ok ())
    (noArrow : tree.unit.hasArrow = false) (noStatic : tree.unit.hasStatic = false) :
    tree.Settled ↔ ∀ pass ∈ PassKind.always, pass.leaves tree = true := by
  have shape := Lowering.analyze_shape tree
  have plain : ∀ decl ∈ (tree.analyze.env .desugar).unit.types,
      decl.kind.isRecord = false ∧ decl.primary = none :=
    CompilationUnit.number_plain (CompilationUnit.validate_form valid)
  have bodies := PassKind.leaves_iff (Pass.expressionBodies_settles
    (tree.analyze.env .expressionBodies))
  have names := PassKind.leaves_iff (Pass.names_settles _ (tree.analyze.env .names))
  have parts := PassKind.leaves_iff (Pass.deconstruction_settles _
    (tree.analyze.env .deconstruction))
  have rest := PassKind.leaves_iff (Pass.desugar_settles plain (shape.hasStatic noStatic))
  constructor
  · intro settled pass isStanding
    have blocks := fun site node held => (settled.plain site node held).hasBlock
    simp only [PassKind.always, mem_cons, not_mem_nil, or_false] at isStanding
    rcases isStanding with rfl | rfl | rfl | rfl
    · exact bodies.2 ⟨blocks, shape.1.trans noArrow⟩
    · exact names.2 settled.receivers
    · exact parts.2 settled.whole
    · exact rest.2 settled.plain
  · intro left
    exact ⟨names.1 (left .names (by decide)), parts.1 (left .deconstruction (by decide)),
      rest.1 (left .desugar (by decide))⟩

theorem Lowering.runAll_resting {passes : List PassKind}
    (left : ∀ pass ∈ passes, pass.leaves tree = true) :
    runAll Tree.analyze passes tree.resting = (.ok tree.resting, [tree.unit]) := by
  induction passes with
  | nil => rfl
  | cons pass rest ih =>
    have ran := PassKind.runOn_of_leaves (left pass mem_cons_self)
    have analyzed : tree.resting.analyze Tree.analyze = (tree.analyze, tree.resting) := rfl
    unfold runAll
    rw [analyzed]
    dsimp only
    rw [ran]
    exact ih fun other isOther => left other (mem_cons_of_mem _ isOther)

/-- A tree without sugar that the standing passes leave alone is its own lowered
    form. -/
theorem Tree.lower_of_leaves (valid : tree.unit.validate = .ok ())
    (left : ∀ pass ∈ PassKind.always, pass.leaves tree = true) : tree.lower = .ok tree := by
  have standing : Lowering.runAll Tree.analyze PassKind.always { tree } =
      (.ok tree.resting, [tree.unit]) := Lowering.runAll_resting left
  have planned : Lowering.runAll Tree.analyze tree.resting.triggers.plan tree.resting =
      (.ok tree.resting, [tree.unit]) := rfl
  unfold Tree.lower Tree.lowerTraced Tree.lowerTracedWith
  rw [standing]
  dsimp only
  rw [planned]
  change Except.map _ tree.unit.validate = _
  rw [valid]
  rfl

/-- A second run leaves a settled tree as it is, so its text does not change, and
    the standing passes leave no other tree alone. -/
theorem Tree.lower_again_of_settled {tree lowered : Tree} (first : tree.lower = .ok lowered) :
    (lowered.Settled → ∃ again, lowered.lower = .ok again ∧
      again.unit.text = lowered.unit.text) ∧
    (lowered.Settled ↔ ∀ pass ∈ PassKind.always, pass.leaves lowered = true) := by
  obtain ⟨valid, noArrow, noStatic⟩ := Tree.lower_shape first
  have settledIff := Tree.Settled.iff_leaves valid noArrow noStatic
  refine ⟨fun settled => ?_, settledIff⟩
  exact ⟨lowered, Tree.lower_of_leaves valid (settledIff.1 settled), rfl⟩

def arrowTest : Tree :=
  let span : Span := default
  let test := span.expr
    (.isPattern (span.ident "o") ⟨span.mark, .declaration (.simple "string") "s"⟩)
  classTree none [⟨.method "Name" [] [.plain (.simple "object") "o"] (.simple "string")
      (.expr (span.conditional test (span.ident "s") (span.strLit ""))), [], span⟩]

def movedChain : Tree :=
  let span : Span := default
  classTree (some [.plain (.simple "int") "p"]) [⟨.field (.simple "int") "a" none, [], span⟩,
      ⟨.field (.simple "int") "b" (some (span.assign (span.ident "a") (span.ident "p"))), [], span⟩]

/-- Whether the standing passes leave the lowered form of a tree alone. -/
def Tree.comesToRest (tree : Tree) : Bool :=
  match tree.lower with
  | .ok lowered => PassKind.always.all fun pass => pass.leaves lowered
  | .error _ => false

/-- Whether a second run prints another text. -/
def Tree.movesAgain (tree : Tree) : Bool :=
  match tree.lower with
  | .ok lowered =>
    match lowered.lower with
    | .ok again => again.unit.text != lowered.unit.text
    | .error _ => false
  | .error _ => false

/-- The lowered test is settled.  The chain of assignments, which moves into the
    constructor as it is, is not: the second run takes it apart. -/
theorem Tree.lower_again_arrowTest_movedChain :
    (∃ lowered again, arrowTest.lower = .ok lowered ∧ lowered.Settled ∧
      lowered.lower = .ok again ∧ again.unit.text = lowered.unit.text) ∧
    (∃ lowered again, movedChain.lower = .ok lowered ∧ ¬ lowered.Settled ∧
      lowered.lower = .ok again ∧ again.unit.text ≠ lowered.unit.text) := by
  constructor
  · have rests : arrowTest.comesToRest = true := by decide +kernel
    unfold comesToRest at rests
    split at rests
    · rename_i lowered first
      obtain ⟨keeps, settledIff⟩ := Tree.lower_again_of_settled first
      have settled : lowered.Settled := settledIff.2 (List.all_eq_true.1 rests)
      obtain ⟨again, second, same⟩ := keeps settled
      exact ⟨lowered, again, first, settled, second, same⟩
    · cases rests
  · have moves : movedChain.movesAgain = true := by decide +kernel
    unfold movesAgain at moves
    split at moves
    · rename_i lowered first
      split at moves
      · rename_i again second
        have differs : again.unit.text ≠ lowered.unit.text := bne_iff_ne.1 moves
        refine ⟨lowered, again, first, fun settled => ?_, second, differs⟩
        obtain ⟨other, repeated, same⟩ := (Tree.lower_again_of_settled first).1 settled
        rw [second] at repeated
        cases repeated
        exact differs same
      · cases moves
    · cases moves

end Unsugar
