import Unsugar.Proofs.Hoist.DesignatedTypes
import Unsugar.Proofs.Hoist.RelatedPlaces
import Unsugar.Proofs.Lower.SugarFreedom

open List

namespace Unsugar

/-! # Scopes of branches

The variable of `if (x is T name)` is declared in the branch of the `if` when the test
is lowered.  So in the branch the name means that variable, and around the branch what
it meant before.
-/

open Node

variable {no : Option Stmt} {between : Binding} {body : List Stmt}

def Expr.designates? (cond : Expr) : Option String :=
  (Pass.declarationTest? cond).map fun test => test.2.2.2

section Branches

variable (cover : Cover) (wrapped : List Nat) (name : String)

/-- What the name means in the branch of an `if`.  Declarations for the branch are
    inserted between the variable and the branch. -/
def Cover.inBranch (cond : Expr) (yes : Stmt) (binding : Binding) : Binding :=
  match cond.designates? with
  | none => binding
  | some designated => cover.ahead? true yes (if designated == name then .made else binding)

/-- The children of a node, each with what the name is going to mean there, once the
    variables of tests are declared in branches. -/
def Node.tested (binding : Binding) : Node → List (Binding × Node)
  | stmt ⟨mark, .ifElse cond yes no⟩ =>
    let here := cover.entered mark binding
    (here, expr cond) :: (cover.inBranch name cond yes here, stmt yes) ::
      (ofStmt? no).map (Prod.mk here)
  | node => node.placed cover wrapped name binding

/-- A node stands at a place of another one, where the name means `binding`, and at that
    place the name is going to mean `found`. -/
inductive Node.StandsIn (origin : Node) (found : Binding) : Binding → Node → Prop where
  | here : Node.StandsIn origin found found origin
  | through {binding between : Binding} {node child : Node}
      (isPlaced : (between, child) ∈ node.tested cover wrapped name binding)
      (stands : Node.StandsIn origin found between child) : Node.StandsIn origin found binding node

/-- A node stands at a place of a unit.  No local is declared around the declarations. -/
def Node.StandsInUnit (origin : Node) (found : Binding) (unit : CompilationUnit) : Prop :=
  ∃ root ∈ unit.roots, origin.StandsIn cover wrapped name found .free root

end Branches

variable {unit : CompilationUnit} {yes : Stmt}

section Places

variable {cover : Cover} {wrapped : List Nat} {name : String} {origin : Node}
  {found binding : Binding}
  {cond : Expr} {node : Node} {place : Binding × Node} {listed : Bool} {mark : Mark}

theorem Cover.inBranch_none (plain : cond.designates? = none) {yes : Stmt} :
    cover.inBranch name cond yes binding = binding := by
  unfold inBranch
  rw [plain]

theorem Node.tested_eq_placed
    (plain : ∀ mark cond yes no, node = stmt ⟨mark, .ifElse cond yes no⟩ → cond.designates? = none) :
    node.tested cover wrapped name binding = node.placed cover wrapped name binding := by
  unfold tested
  split
  · next mark cond yes no =>
      change [_, (cover.inBranch name cond yes _, _)] ++ _ = _
      rw [Cover.inBranch_none (plain mark cond yes no rfl)]
      rfl
  · rfl

theorem Node.tested_children :
    (node.tested cover wrapped name binding).map Prod.snd = node.children := by
  unfold tested
  split
  · simp [Node.children, StmtKind.children, Function.comp_def]
  · exact Node.placed_children

theorem Node.mem_children_of_tested (isPlaced : place ∈ node.tested cover wrapped name binding) :
    place.2 ∈ node.children := by
  rw [← Node.tested_children]
  exact mem_map_of_mem isPlaced

theorem Node.StandsIn.reachable (stands : origin.StandsIn cover wrapped name found binding node) :
    origin ∈ node.reachable true := by
  induction stands with
  | here => exact origin.mem_reachable_self
  | through isPlaced _ ih =>
    rw [Node.reachable_eq]
    exact mem_cons_of_mem _ (mem_flatMap.2 ⟨_, Node.mem_children_of_tested isPlaced, ih⟩)

/-! ## No declaration is taken away -/

theorem Mark.binding_ne_free (mark : Mark) : mark.binding ≠ .free := by
  unfold binding
  cases mark.id <;> exact nofun

theorem Cover.ahead?_ne_free {node : Stmt} (bound : binding ≠ .free) :
    cover.ahead? listed node binding ≠ .free := by
  unfold ahead?
  split
  · exact nofun
  · exact bound

theorem Cover.entered_ne_free (bound : binding ≠ .free) : cover.entered mark binding ≠ .free := by
  unfold entered
  split
  · exact nofun
  · exact bound

theorem Cover.inBranch_ne_free (bound : binding ≠ .free) :
    cover.inBranch name cond yes binding ≠ .free := by
  unfold inBranch
  split
  · exact bound
  · refine Cover.ahead?_ne_free ?_
    split
    · exact nofun
    · exact bound

theorem Cover.inBranch_designated (designates : cond.designates? = some name) :
    cover.inBranch name cond yes binding ≠ .free := by
  unfold inBranch
  rw [designates]
  exact Cover.ahead?_ne_free (by simp)

theorem Stmt.rebinds_ne_free {node : Stmt} (bound : binding ≠ .free) :
    node.rebinds wrapped name binding ≠ .free := by
  unfold rebinds
  split
  · exact node.mark.binding_ne_free
  · exact bound

theorem Node.placed_ne_free (bound : binding ≠ .free)
    (isPlaced : place ∈ node.placed cover wrapped name binding) : place.1 ≠ .free := by
  let stays (binding _ : Binding) : Prop := binding ≠ .free
  have made : stays .made .made := nofun
  have rebinds (node : Stmt) (left right : Binding) (bound : stays left right) :
      stays (node.rebinds wrapped name left) (node.rebinds wrapped name right) :=
    node.rebinds_ne_free bound
  have alike : Forall₂ (PlacedAlike stays Eq) (node.placed cover wrapped name binding)
      (node.placed cover wrapped name binding) := node.placed_alike made rebinds bound
  obtain ⟨_, _, inner, _⟩ := exists_right alike isPlaced
  exact inner

theorem Node.tested_ne_free (bound : binding ≠ .free)
    (isPlaced : place ∈ node.tested cover wrapped name binding) : place.1 ≠ .free := by
  unfold tested at isPlaced
  split at isPlaced
  · next mark _ _ _ =>
    have here : cover.entered mark binding ≠ .free := Cover.entered_ne_free bound
    rcases mem_cons.1 isPlaced with rfl | isPlaced
    · exact here
    rcases mem_cons.1 isPlaced with rfl | isPlaced
    · exact Cover.inBranch_ne_free here
    · obtain ⟨other, _, rfl⟩ := mem_map.1 isPlaced
      exact here
  · exact Node.placed_ne_free bound isPlaced

theorem Node.StandsIn.ne_free (bound : binding ≠ .free)
    (stands : origin.StandsIn cover wrapped name found binding node) : found ≠ .free := by
  induction stands with
  | here => exact bound
  | through isPlaced _ ih =>
    exact ih (Node.tested_ne_free bound isPlaced)

/-! ## The way into a branch -/

section Unique

variable {id : Nat}
  {node : Node}

theorem Node.count_pos {below : Node} (isBelow : below ∈ node.reachable true)
    (isId : below.mark.id = some id) : 0 < node.count id := by
  induction node using Node.childInduction with
  | step node ih =>
    rw [node.reachable_eq, mem_cons, mem_flatMap] at isBelow
    rw [node.count_eq]
    rcases isBelow with rfl | ⟨child, isChild, isBelow⟩
    · rw [Mark.bears, if_pos isId]
      omega
    · have inChild := ih child isChild isBelow
      have inChildren : child.count id ≤ tally id node.children := count_le_tally isChild
      omega

theorem Node.child_unique {first second left right : Node} (once : node.count id ≤ 1)
    (isFirst : first ∈ node.children) (isSecond : second ∈ node.children)
    (inFirst : left ∈ first.reachable true) (inSecond : right ∈ second.reachable true)
    (leftId : left.mark.id = some id) (rightId : right.mark.id = some id) : first = second := by
  by_contra differ
  have both : first.count id + second.count id ≤ tally id node.children :=
    count_add_le_tally isFirst isSecond differ
  have below : tally id node.children ≤ node.count id := node.tally_children_le
  have atFirst := Node.count_pos inFirst leftId
  have atSecond := Node.count_pos inSecond rightId
  omega

theorem Node.reachable_trans {middle below : Node} (isMiddle : middle ∈ node.reachable true)
    (isBelow : below ∈ middle.reachable true) : below ∈ node.reachable true := by
  induction node using Node.childInduction with
  | step node ih =>
    rw [node.reachable_eq, mem_cons, mem_flatMap] at isMiddle
    rcases isMiddle with rfl | ⟨child, isChild, isMiddle⟩
    · exact isBelow
    · rw [node.reachable_eq]
      exact mem_cons_of_mem _ (mem_flatMap.2 ⟨child, isChild, ih child isChild isMiddle⟩)

theorem Node.tested_branch {cond : Expr} (once : (stmt ⟨mark, .ifElse cond yes no⟩).count id ≤ 1)
    (inYes : origin ∈ (stmt yes).reachable true) (isId : origin.mark.id = some id)
    (isPlaced : (between, stmt yes) ∈
      (stmt ⟨mark, .ifElse cond yes no⟩).tested cover wrapped name binding) :
    between = cover.inBranch name cond yes (cover.entered mark binding) := by
  unfold tested at isPlaced
  rcases mem_cons.1 isPlaced with isCond | isPlaced
  · cases isCond
  rcases mem_cons.1 isPlaced with isYes | isPlaced
  · cases isYes
    rfl
  · obtain ⟨other, isOther, same⟩ := mem_map.1 isPlaced
    cases same
    -- the same statement would be the branch and the other branch
    have atYes := Node.count_pos inYes isId
    have atNo : (stmt yes).count id ≤ tally id (ofStmt? no) := count_le_tally isOther
    rw [count_stmt] at once
    change _ + tally id ([expr cond, stmt yes] ++ ofStmt? no) ≤ 1 at once
    rw [tally_append, tally_cons, tally_cons] at once
    omega

/-- Where an identity stands once, the way to its node leads through every branch that
    the node is in. -/
theorem Node.StandsIn.through_branch {cond : Expr} (once : node.count id ≤ 1)
    (isBranch : stmt ⟨mark, .ifElse cond yes no⟩ ∈ node.reachable true)
    (inYes : origin ∈ (stmt yes).reachable true) (isId : origin.mark.id = some id)
    (stands : origin.StandsIn cover wrapped name found binding node) :
    ∃ outer, origin.StandsIn cover wrapped name found (cover.inBranch name cond yes outer)
      (stmt yes) := by
  have isYes : stmt yes ∈ (stmt ⟨mark, .ifElse cond yes no⟩).children :=
    mem_cons_of_mem _ mem_cons_self
  induction stands with
  | here =>
    -- the node would stand below itself
    have atYes := Node.count_pos inYes isId
    have inBranch : (stmt yes).count id ≤ tally id (stmt ⟨mark, .ifElse cond yes no⟩).children :=
      count_le_tally isYes
    have below : _ ≤ tally id origin.children := Node.tally_children_mono isBranch
    rw [origin.count_eq, Mark.bears, if_pos isId] at once
    omega
  | @through binding between node child isPlaced stands ih =>
    have isChild : child ∈ node.children := Node.mem_children_of_tested isPlaced
    have inChild := stands.reachable
    rw [node.reachable_eq, mem_cons, mem_flatMap] at isBranch
    rcases isBranch with rfl | ⟨other, isOther, isBelow⟩
    · obtain rfl : child = stmt yes :=
        Node.child_unique once isChild isYes inChild inYes isId isId
      obtain rfl := Node.tested_branch once inYes isId isPlaced
      exact ⟨_, stands⟩
    · have inOther : origin ∈ other.reachable true :=
        Node.reachable_trans (Node.mem_reachable_of_child isBelow isYes) inYes
      obtain rfl : child = other :=
        Node.child_unique once isChild isOther inChild inOther isId isId
      have onceInChild : child.count id ≤ 1 :=
        calc child.count id
          _ ≤ tally id node.children := count_le_tally isChild
          _ ≤ node.count id := node.tally_children_le
          _ ≤ 1 := once
      exact ih onceInChild isBelow

end Unique

/-! ## Units -/

/-- A node stands in the branch of an `if` that declares a variable of this name there. -/
def CompilationUnit.InBranch (unit : CompilationUnit) (name : String) (origin : Node) : Prop :=
  ∃ mark cond yes no, stmt ⟨mark, .ifElse cond yes no⟩ ∈ unit.reachable ∧
    cond.designates? = some name ∧ origin ∈ (stmt yes).reachable true

theorem CompilationUnit.InBranch.reachable (inBranch : unit.InBranch name origin) :
    origin ∈ unit.reachable := by
  obtain ⟨mark, cond, yes, no, isBranch, _, inYes⟩ := inBranch
  have isYes : stmt yes ∈ (stmt ⟨mark, .ifElse cond yes no⟩).children :=
    mem_cons_of_mem _ mem_cons_self
  rw [unit.reachable_eq] at isBranch ⊢
  obtain ⟨root, isRoot, isBranch⟩ := mem_flatMap.1 isBranch
  exact mem_flatMap.2
    ⟨root, isRoot, Node.reachable_trans (Node.mem_reachable_of_child isBranch isYes) inYes⟩

theorem Node.StandsInUnit.ne_free (proper : unit.Proper) (hasId : origin.mark.id ≠ none)
    (inBranch : unit.InBranch name origin)
    (stands : origin.StandsInUnit cover wrapped name found unit) : found ≠ .free := by
  obtain ⟨id, isId⟩ := Option.ne_none_iff_exists'.1 hasId
  obtain ⟨mark, cond, yes, no, isBranch, designates, inYes⟩ := inBranch
  obtain ⟨root, isRoot, stands⟩ := stands
  rw [unit.reachable_eq] at isBranch
  obtain ⟨other, isOther, isBranch⟩ := mem_flatMap.1 isBranch
  have once : tally id unit.roots ≤ 1 := CompilationUnit.proper_iff.1 proper id
  have isYes : stmt yes ∈ (stmt ⟨mark, .ifElse cond yes no⟩).children :=
    mem_cons_of_mem _ mem_cons_self
  have inOther : origin ∈ other.reachable true :=
    Node.reachable_trans (Node.mem_reachable_of_child isBranch isYes) inYes
  obtain rfl : root = other := by
    by_contra differ
    have both : root.count id + other.count id ≤ tally id unit.roots :=
      count_add_le_tally isRoot isOther differ
    have atRoot := Node.count_pos stands.reachable isId
    have atOther := Node.count_pos inOther isId
    omega
  have onceInRoot : root.count id ≤ 1 := Nat.le_trans (count_le_tally isRoot) once
  obtain ⟨outer, inYes⟩ := stands.through_branch onceInRoot isBranch inYes isId
  exact inYes.ne_free (Cover.inBranch_designated designates)

/-! ## Nothing but branches declares -/

section Undeclared

def Node.Undeclared (name : String) (node : Node) : Prop :=
  ∀ below, stmt below ∈ node.reachable true → below.declaresName name = false

theorem Node.Undeclared.child {node child : Node} (undeclared : node.Undeclared name)
    (isChild : child ∈ node.children) : child.Undeclared name := by
  intro below isBelow
  refine undeclared below ?_
  rw [node.reachable_eq]
  exact mem_cons_of_mem _ (mem_flatMap.2 ⟨child, isChild, isBelow⟩)

theorem Stmt.rebinds_undeclared {node : Stmt} (undeclared : node.declaresName name = false) :
    node.rebinds wrapped name binding = binding := by
  simp [rebinds, undeclared]

theorem Cover.inOrder_undeclared (undeclared : ∀ node ∈ body, node.declaresName name = false) :
    ({} : Cover).inOrder wrapped name listed binding body = (ofStmts body).map (Prod.mk binding) := by
  induction body with
  | nil => rfl
  | cons node rest ih =>
    obtain ⟨isFirst, others⟩ := forall_mem_cons.1 undeclared
    rw [inOrder, Cover.ahead?_nothing, Stmt.rebinds_undeclared isFirst, ih others]
    rfl

theorem Cover.afterAll_undeclared (undeclared : ∀ node ∈ body, node.declaresName name = false) :
    ({} : Cover).afterAll wrapped name listed binding body = binding := by
  induction body with
  | nil => rfl
  | cons node rest ih =>
    obtain ⟨isFirst, others⟩ := forall_mem_cons.1 undeclared
    rw [afterAll, foldl_cons, Cover.ahead?_nothing, Stmt.rebinds_undeclared isFirst]
    exact ih others

theorem StmtKind.placed_undeclared {kind : StmtKind}
    (undeclared : ∀ below, stmt below ∈ kind.children → below.declaresName name = false) :
    kind.placed {} wrapped name binding = kind.children.map (Prod.mk binding) := by
  have inList {body : List Stmt} (areChildren : ∀ node ∈ ofStmts body, node ∈ kind.children)
      (node : Stmt) (isNode : node ∈ body) : node.declaresName name = false :=
    undeclared node (areChildren _ (mem_map_of_mem isNode))
  cases kind with
  | block body => exact Cover.inOrder_undeclared (inList fun _ => id)
  | forLoop init cond step body =>
    have areInits : ∀ node ∈ init, node.declaresName name = false :=
      inList fun node isInit => mem_append_left _ (mem_append_left _ (mem_append_left _ isInit))
    simp [placed, Cover.inOrder_undeclared areInits, Cover.afterAll_undeclared areInits, children]
  | switch subject sections =>
    refine congrArg ((binding, expr subject) :: ·) ?_
    rw [map_flatMap]
    refine congrArg List.flatten (map_congr_left fun sect isSection => ?_)
    have inSection : ∀ node ∈ ofStmts sect.body,
        node ∈ (StmtKind.switch subject sections).children := fun node isItem =>
      mem_cons_of_mem _ (mem_flatMap.2 ⟨sect, isSection, mem_append_right _ isItem⟩)
    rw [Cover.inOrder_undeclared (inList inSection), ofSection, map_append]
  | _ => rfl

theorem ExprKind.placed_nothing (kind : ExprKind) :
    kind.placed {} binding = kind.children.map (Prod.mk binding) := by
  cases kind with
  | lambda label params isAsync body =>
    cases label <;> simp [placed, children]
  | _ => rfl

variable {node : Node}

theorem Node.placed_undeclared (undeclared : node.Undeclared name) :
    node.placed {} wrapped name binding = node.children.map (Prod.mk binding) := by
  obtain ⟨mark, kind⟩ | ⟨mark, kind⟩ | ⟨mark, kind⟩ := node
  · exact kind.placed_nothing
  · rw [placed, Cover.entered_nothing]
    exact StmtKind.placed_undeclared fun below isChild =>
      undeclared.child isChild below (Node.mem_reachable_self _)
  · rfl

theorem Cover.inBranch_nothing {cond : Expr} {yes : Stmt} :
    ({} : Cover).inBranch name cond yes binding = binding ∨ cond.designates? = some name := by
  unfold inBranch
  split
  · exact .inl rfl
  · next designated isDesignated =>
      rw [Cover.ahead?_nothing, isDesignated]
      by_cases same : designated = name
      · exact .inr (congrArg some same)
      · exact .inl (if_neg (by simpa using same))

/-- The name means the same at every place of a node, but for the branch in which it is
    declared. -/
theorem Node.tested_undeclared {child : Node} (undeclared : node.Undeclared name)
    (isPlaced : (between, child) ∈ node.tested {} wrapped name binding) :
    between = binding ∨ ∃ mark cond yes no, node = stmt ⟨mark, .ifElse cond yes no⟩ ∧
      cond.designates? = some name ∧ child = stmt yes := by
  unfold tested at isPlaced
  split at isPlaced
  · next mark cond yes no =>
      rw [Cover.entered_nothing] at isPlaced
      rcases mem_cons.1 isPlaced with isCond | isPlaced
      · cases isCond
        exact .inl rfl
      rcases mem_cons.1 isPlaced with isYes | isPlaced
      · cases isYes
        rcases Cover.inBranch_nothing with same | designates
        · exact .inl same
        · exact .inr ⟨mark, cond, yes, no, rfl, designates, rfl⟩
      · obtain ⟨other, _, same⟩ := mem_map.1 isPlaced
        cases same
        exact .inl rfl
  · rw [Node.placed_undeclared undeclared] at isPlaced
    obtain ⟨other, _, same⟩ := mem_map.1 isPlaced
    cases same
    exact .inl rfl

theorem Node.StandsIn.in_branch (undeclared : node.Undeclared name) (unbound : binding = .free)
    (bound : found ≠ .free) (stands : origin.StandsIn {} wrapped name found binding node) :
    ∃ mark cond yes no, stmt ⟨mark, .ifElse cond yes no⟩ ∈ node.reachable true ∧
      cond.designates? = some name ∧ origin ∈ (stmt yes).reachable true := by
  induction stands with
  | here => exact absurd unbound bound
  | @through binding between node child isPlaced stands ih =>
    have isChild : child ∈ node.children := Node.mem_children_of_tested isPlaced
    rcases Node.tested_undeclared undeclared isPlaced with
      same | ⟨mark, cond, yes, no, rfl, designates, rfl⟩
    · obtain ⟨mark, cond, yes, no, isBranch, designates, inYes⟩ :=
        ih (undeclared.child isChild) (same.trans unbound)
      refine ⟨mark, cond, yes, no, ?_, designates, inYes⟩
      rw [node.reachable_eq]
      exact mem_cons_of_mem _ (mem_flatMap.2 ⟨child, isChild, isBranch⟩)
    · exact ⟨mark, cond, yes, no, Node.mem_reachable_self _, designates, stands.reachable⟩

theorem Node.StandsInUnit.inBranch
    (undeclared : ∀ node, stmt node ∈ unit.reachable → node.declaresName name = false)
    (bound : found ≠ .free) (stands : origin.StandsInUnit {} wrapped name found unit) :
    unit.InBranch name origin := by
  obtain ⟨root, isRoot, stands⟩ := stands
  have inUnit (below : Node) (isBelow : below ∈ root.reachable true) : below ∈ unit.reachable := by
    rw [unit.reachable_eq]
    exact mem_flatMap.2 ⟨root, isRoot, isBelow⟩
  have inRoot : root.Undeclared name := fun below isBelow => undeclared below (inUnit _ isBelow)
  obtain ⟨mark, cond, yes, no, isBranch, designates, inYes⟩ := stands.in_branch inRoot rfl bound
  exact ⟨mark, cond, yes, no, inUnit _ isBranch, designates, inYes⟩

theorem Node.StandsInUnit.reachable (stands : origin.StandsInUnit cover wrapped name found unit) :
    origin ∈ unit.reachable := by
  obtain ⟨root, isRoot, stands⟩ := stands
  rw [unit.reachable_eq]
  exact mem_flatMap.2 ⟨root, isRoot, stands.reachable⟩

end Undeclared

end Places

end Unsugar
