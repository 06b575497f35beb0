import Unsugar.Proofs.Hoist.DesignatedTypes
import Unsugar.Proofs.Hoist.InstalledBindings
import Unsugar.Proofs.Hoist.RelatedPlaces
import Unsugar.Proofs.Hoist.SplicedTargets

open List

namespace Unsugar

/-! # Locals that stay visible

Inserted declarations hide a local only behind one of the same name.  But a
statement that is no item of a list moves into a block with the declarations that
are queued for it, and a local that it declares is not visible outside of the block.
-/

open Node

section Hidden

variable {cover : Cover} {wrapped : List Nat} {name : String} {mark : Mark} {id : Nat}

theorem Mark.binding_eq_user {mark : Mark} : mark.binding = .user id ↔ mark.id = some id := by
  unfold binding
  cases mark.id <;> simp

variable {binding : Binding}

theorem Stmt.rebinds_ne_moved (moves : id ∈ wrapped) {node : Stmt} (outer : binding ≠ .user id) :
    node.rebinds wrapped name binding ≠ .user id := by
  unfold rebinds
  split
  · next declares =>
      intro isUser
      have stays := (Bool.and_eq_true_iff.1 declares).2
      have isId : node.id = some id := Mark.binding_eq_user.1 isUser
      simp [isId, moves] at stays
  · exact outer

/-- A name never means the local of a statement that moves into a block. -/
theorem Node.not_finds_wrapped (moves : id ∈ wrapped) {node : Node} (outer : binding ≠ .user id) :
    ¬ node.Finds cover wrapped name mark (.user id) binding := by
  intro finds
  induction finds with
  | here => exact outer rfl
  | @through binding between node child isPlaced finds ih =>
    let elsewhere (binding _ : Binding) : Prop := binding ≠ .user id
    have made : elsewhere .made .made := nofun
    have rebinds (node : Stmt) (binding other : Binding) (outer : elsewhere binding other) :
        elsewhere (node.rebinds wrapped name binding) (node.rebinds wrapped name other) :=
      node.rebinds_ne_moved moves outer
    have related : Forall₂ (PlacedAlike elsewhere Eq)
        (node.placed cover wrapped name binding) (node.placed cover wrapped name binding) :=
      node.placed_alike made rebinds outer
    obtain ⟨_, _, inner, _⟩ := exists_right related isPlaced
    exact ih inner

/-- Where a name means a local whose statement does not move, it still does when
    other statements move. -/
theorem Node.finds_unwrapped (stays : id ∉ wrapped) {node : Node} {other : Binding}
    (same : binding = .user id → other = .user id)
    (finds : node.Finds cover [] name mark (.user id) binding) :
    node.Finds cover wrapped name mark (.user id) other := by
  induction finds generalizing other with
  | here =>
    obtain rfl := same rfl
    exact .here
  | @through binding between node child isPlaced finds ih =>
    let kept (binding other : Binding) : Prop := binding = .user id → other = .user id
    have made : kept .made .made := nofun
    have rebinds (node : Stmt) (binding other : Binding) (same : kept binding other) :
        kept (node.rebinds [] name binding) (node.rebinds wrapped name other) := by
      intro binds
      unfold Stmt.rebinds at binds ⊢
      cases declares : node.declaresName name with
      | false =>
        simp only [declares, Bool.false_and, Bool.false_eq_true, if_false] at binds ⊢
        exact same binds
      | true =>
        have unmoved : node.id.any ([] : List Nat).contains = false := by
          cases node.id <;> rfl
        simp only [declares, unmoved, Bool.not_false, Bool.and_true, if_true] at binds
        have isId : node.id = some id := Mark.binding_eq_user.1 binds
        simp [isId, stays, binds]
    have related : Forall₂ (PlacedAlike kept Eq)
        (node.placed cover [] name binding) (node.placed cover wrapped name other) :=
      node.placed_alike made rebinds same
    obtain ⟨⟨inner, _⟩, isInner, same, rfl⟩ := exists_right related isPlaced
    exact .through isInner (ih same)

end Hidden

theorem CompilationUnit.not_finds_wrapped {unit : CompilationUnit} {cover : Cover}
    {wrapped : List Nat} {name : String} {mark : Mark} {id : Nat} (moves : id ∈ wrapped) :
    ¬ unit.Finds cover wrapped name mark (.user id) := by
  rintro ⟨place, isPlace, finds⟩
  obtain ⟨root, isRoot, rfl⟩ := mem_map.1 isPlace
  have outer : Binding.free ≠ .user id := nofun
  exact Node.not_finds_wrapped moves outer finds

theorem CompilationUnit.finds_unwrapped {unit : CompilationUnit} {cover : Cover}
    {wrapped : List Nat} {name : String} {mark : Mark} {id : Nat} (stays : id ∉ wrapped)
    (finds : unit.Finds cover [] name mark (.user id)) :
    unit.Finds cover wrapped name mark (.user id) := by
  obtain ⟨place, isPlace, finds⟩ := finds
  obtain ⟨root, isRoot, rfl⟩ := mem_map.1 isPlace
  have same : Binding.free = .user id → Binding.free = .user id := nofun
  exact ⟨_, isPlace, Node.finds_unwrapped stays same finds⟩

theorem CompilationUnit.coverOf_unqueued {parents : ParentMap} {name : String}
    {entries : List (InstallPoint × List HoistedLocal)}
    (unqueued : ∀ entry ∈ entries, declares entry.2 name = false) (unit : CompilationUnit) :
    coverOf parents name entries unit = {} := by
  induction entries generalizing unit with
  | nil => rfl
  | cons entry rest ih =>
    obtain ⟨isFirst, areRest⟩ := forall_mem_cons.1 unqueued
    rw [coverOf, ih areRest, coverAt, isFirst, if_neg Bool.false_ne_true]
    rfl

/-- Insertion and splicing.  Whatever pass rewrites a proper unit, installing what it
    queued gives every occurrence of a name the meaning that the plan gives it in the
    rewritten unit.  So a local stays visible wherever it was, unless its own statement
    is wrapped because no list holds it, or a declaration of its name is queued; and a
    local whose statement is wrapped is visible nowhere any more.  The declared targets
    of a deconstruction are visible to what follows it in a list, but not to what
    follows it in the opening of a `for`. -/
theorem insertion_keeps_visible (env : PassEnv) :
    (∀ (pass : PassKind) (start : PassState) (result : PassResult)
      (unit : CompilationUnit), env.unit.Proper → env.unit.IdsBelow start.nextId →
      pass.action.run env start = .ok result → result.unit = some unit →
      ∃ rewritten after, pass.action env start = .ok (rewritten, after) ∧ ∀ name mark,
        (∀ found, unit.Finds {} [] name mark found ↔
          rewritten.Finds (CompilationUnit.coverOf (.ofUnit env.unit) name after.hoists.entries rewritten)
            (CompilationUnit.wrappedOf (.ofUnit env.unit) after.hoists.entries rewritten)
            name mark found) ∧
        (∀ id ∈ CompilationUnit.wrappedOf (.ofUnit env.unit) after.hoists.entries rewritten,
          ¬ unit.Finds {} [] name mark (.user id)) ∧
        ∀ id ∉ CompilationUnit.wrappedOf (.ofUnit env.unit) after.hoists.entries rewritten,
          (∀ entry ∈ after.hoists.entries, declares entry.2 name = false) →
          rewritten.Finds {} [] name mark (.user id) → unit.Finds {} [] name mark (.user id)) ∧
    ∀ (site : Site) (mark outer inner : Mark) (items : List Expr) (value : Expr)
      (before after : PassState) (statements : List Stmt),
      Stmt.rebuildMany Pass.deconstructionRules site
        ⟨mark, .eval ⟨outer, .assign none ⟨inner, .tuple items⟩ value⟩⟩ env before =
          .ok (statements, after) →
      ∀ name ∈ targetsOf items, ∀ binding rest,
        Cover.inOrder {} [] name true binding (statements ++ rest) =
          Cover.inOrder {} [] name true binding statements ++
            Cover.inOrder {} [] name true .made rest ∧
        Cover.afterAll {} [] name false binding
          (Stmt.gather ⟨mark, .eval ⟨outer, .assign none ⟨inner, .tuple items⟩ value⟩⟩ statements ::
            rest) = Cover.afterAll {} [] name false binding rest := by
  constructor
  · intro pass start result unit proper below ran isUnit
    obtain ⟨rewritten, after, acted, unchanged | rebuilt⟩ := Pass.run_ok ran
    · rw [unchanged] at isUnit
      cases isUnit
    · rw [rebuilt] at isUnit
      cases isUnit
      have finds (name : String) (mark : Mark) (found : Binding) :
          (rewritten.install (.ofUnit env.unit) after.hoists).Finds {} [] name mark found ↔ _ :=
        CompilationUnit.finds_install (.ofUnit env.unit) (pass.action_proper proper below acted)
          after.hoists name
      refine ⟨rewritten, after, acted, fun name mark =>
        ⟨finds name mark, fun id moves visible => ?_, fun id stays unqueued visible => ?_⟩⟩
      · exact CompilationUnit.not_finds_wrapped moves ((finds name mark _).1 visible)
      · refine (finds name mark _).2 ?_
        rw [CompilationUnit.coverOf_unqueued unqueued]
        exact CompilationUnit.finds_unwrapped stays visible
  · intro site mark outer inner items value before after statements ran name isTarget binding rest
    obtain ⟨type, temporary, init, others, rfl, made, declares⟩ := Pass.deconstruction_declares ran
    have declared := declares name isTarget
    constructor
    · rw [Cover.inOrder_append]
      exact congrArg (_ ++ Cover.inOrder {} [] name true · rest)
        (Pass.afterAll_made made declared true _)
    · obtain ⟨node, isNode, -⟩ := declared
      cases others with
      | nil => cases isNode
      | cons second others => rfl

def loopCounter : Tree :=
  let span : Span := default
  let number := span.expr (.isPattern (span.ident "x") ⟨span.mark, .declaration (.simple "int") "n"⟩)
  let count := span.declare (.simple "int") "i"
    (some (span.conditional number (span.ident "n") (span.intLit 0)))
  let next (name : String) (step : Expr) :=
    span.assign (span.ident name) (span.binary .add (span.ident name) step)
  classTree none
    [⟨.method "M" [] [.plain (.simple "object") "x"] (.simple "void") (.block (span.block
      [span.declare (.simple "int") "s" (some (span.intLit 0)),
       span.stmt (.forLoop [count] (some (span.binary .lt (span.ident "i") (span.intLit 5)))
         [next "i" (span.intLit 1)] (span.evalStmt (next "s" (span.ident "i"))))])), [.isStatic], span⟩]

/-- Whether an occurrence of `lost` no longer means a local, because the statement of
    the local moves, while one of `kept` means the same local as before. -/
def PassKind.separates (pass : PassKind) (lost kept : String) (tree : Tree) : Bool :=
  match pass.action.run (tree.analyze.env pass) (tree.analyze.start {}),
      pass.action (tree.analyze.env pass) (tree.analyze.start {}) with
  | .ok ⟨some unit, _, _, _⟩, .ok (rewritten, after) =>
    let moved := CompilationUnit.wrappedOf (.ofUnit (tree.analyze.env pass).unit)
      after.hoists.entries rewritten
    moved.any (fun id => (rewritten.findings {} [] lost).any fun finding =>
      finding.2 == .user id && (unit.findings {} [] lost).contains (finding.1, .free)) &&
    (after.hoists.entries.all fun entry => !declares entry.2 kept) &&
    (rewritten.findings {} [] kept).any fun finding =>
      match finding.2 with
      | .user place => !moved.contains place
      | _ => false
  | _, _ => false

def pairSplit : Stmt :=
  let span : Span := default
  let target (name : String) := span.expr (.declaration (.simple "int") name)
  span.evalStmt (span.assign (span.expr (.tuple [target "a", target "b"]))
    (span.expr (.tuple [span.intLit 1, span.intLit 2])))

/-- The counter of the loop moves into a block with the declaration of `n`, and what
    was read of it means nothing any more.  The sum in front of the loop stays.  What
    a pair is taken apart into is visible after it in a list only. -/
theorem insertion_keeps_visible_loopCounter :
    (∃ result unit rewritten after mark id other sum,
      PassKind.patterns.action.run (loopCounter.analyze.env .patterns)
        (loopCounter.analyze.start {}) = .ok result ∧ result.unit = some unit ∧
      PassKind.patterns.action (loopCounter.analyze.env .patterns)
        (loopCounter.analyze.start {}) = .ok (rewritten, after) ∧
      rewritten.Finds {} [] "i" mark (.user id) ∧ unit.Finds {} [] "i" mark .free ∧
      (¬ ∃ mark, unit.Finds {} [] "i" mark (.user id)) ∧
      rewritten.Finds {} [] "s" other (.user sum) ∧ unit.Finds {} [] "s" other (.user sum)) ∧
    ∃ before after statements,
      pairSplit.rebuildMany Pass.deconstructionRules ⟨.detached, []⟩
        (loopCounter.analyze.env .deconstruction) before = .ok (statements, after) ∧
      ∀ binding node,
        Cover.inOrder {} [] "b" true binding (statements ++ [node]) =
          Cover.inOrder {} [] "b" true binding statements ++ [(.made, stmt node)] ∧
        Cover.afterAll {} [] "b" false binding [pairSplit.gather statements] = binding := by
  have separates : PassKind.patterns.separates "i" "s" loopCounter = true := by decide +kernel
  have takesApart : (pairSplit.rebuildMany Pass.deconstructionRules ⟨.detached, []⟩
    (loopCounter.analyze.env .deconstruction) (loopCounter.analyze.start {})).isOk = true := by
      decide +kernel
  obtain ⟨proper, below⟩ := loopCounter.analyze_proper
  constructor
  · unfold PassKind.separates at separates
    split at separates
    · next unit _ _ _ rewritten after ran acted =>
        obtain ⟨rewritten', after', acted', means⟩ :=
          (insertion_keeps_visible _).1 .patterns _ _ unit proper below ran rfl
        cases acted.symm.trans acted'
        simp only [Bool.and_eq_true, List.any_eq_true] at separates
        obtain ⟨⟨⟨id, moves, ⟨mark, found⟩, isFound, isUser, isLost⟩, unqueued⟩,
          ⟨other, sum⟩, isSum, stays⟩ := separates
        obtain rfl : found = .user id := eq_of_beq isUser
        split at stays
        · next user isUser =>
            obtain rfl : sum = .user user := isUser
            refine ⟨_, unit, rewritten, after, mark, id, other, user, ran, rfl, acted,
              CompilationUnit.mem_findings.1 isFound,
              CompilationUnit.mem_findings.1 (List.contains_iff_mem.1 isLost),
              fun ⟨mark, visible⟩ => (means "i" mark).2.1 id moves visible,
              CompilationUnit.mem_findings.1 isSum,
              (means "s" other).2.2 user (by simpa using stays) (by simpa using unqueued)
                (CompilationUnit.mem_findings.1 isSum)⟩
        · cases stays
    · cases separates
  · cases ran : pairSplit.rebuildMany Pass.deconstructionRules ⟨.detached, []⟩
        (loopCounter.analyze.env .deconstruction) (loopCounter.analyze.start {}) with
    | error error =>
      rw [ran] at takesApart
      cases takesApart
    | ok answer =>
      have visible := (insertion_keeps_visible _).2 _ _ _ _ _ _ _ _ _ ran "b" (by decide)
      exact ⟨_, answer.2, answer.1, ran, fun binding node =>
        ⟨(visible binding [node]).1.trans (by simp [Cover.inOrder]), (visible binding []).2⟩⟩

end Unsugar
