import Unsugar.Proofs.Hoist.Installing
import Unsugar.Proofs.Ownership.Counts

open List

namespace Unsugar

/-! # Identities and installed declarations

In a proper unit at most one list holds a given statement, and installing
declarations, which have no identity, keeps the unit proper.
-/

open Node

/-! ## Statements that list another -/

variable {kind : StmtKind} {body : List Stmt} {first second : Node} {name : String}
  {entry : InstallPoint × List HoistedLocal}

section Listing

variable {id : Nat}

def Node.lists (id : Nat) : Node → Bool
  | .stmt ⟨_, kind⟩ => kind.listed.any (Stmt.hasId id)
  | _ => false

theorem StmtKind.mem_children_of_listed {node : Stmt}
    (isListed : node ∈ kind.listed) : Node.stmt node ∈ kind.children := by
  cases kind with
  | block body => exact mem_map_of_mem isListed
  | switch subject sections =>
    obtain ⟨sect, isSection, inBody⟩ := mem_flatMap.1 isListed
    refine mem_cons_of_mem _ (mem_flatMap.2 ⟨sect, isSection, ?_⟩)
    exact mem_append_right _ (mem_map_of_mem inBody)
  | _ => cases isListed

theorem Stmt.bears_of_hasId {node : Stmt} (hasId : node.hasId id = true) : node.mark.bears id = 1 :=
  if_pos (beq_iff_eq.1 hasId)

theorem countP_le_tally :
    body.countP (Stmt.hasId id) ≤ tally id (ofStmts body) := by
  induction body with
  | nil => exact Nat.le_refl 0
  | cons node rest ih =>
    have here : (stmt node).count id = node.mark.bears id + _ := Node.count_eq _
    rw [ofStmts_cons, tally_cons, countP_cons]
    split
    · have bears := Stmt.bears_of_hasId ‹_›
      omega
    · omega

theorem StmtKind.countP_listed_le (kind : StmtKind) :
    kind.listed.countP (Stmt.hasId id) ≤ tally id kind.children := by
  cases kind with
  | block body => exact countP_le_tally
  | switch subject sections =>
    rw [listed, children, tally_cons]
    refine Nat.le_trans ?_ (Nat.le_add_left _ _)
    induction sections with
    | nil => exact Nat.le_refl 0
    | cons sect rest ih =>
      have inBody : sect.body.countP (Stmt.hasId id) ≤ _ := countP_le_tally
      rw [flatMap_cons, flatMap_cons, countP_append, tally_append, ofSection, tally_append]
      omega
  | _ => exact Nat.zero_le _

variable {node : Node}

theorem Node.lists_pos (lists : node.lists id = true) : 0 < tally id node.children := by
  cases node with
  | stmt node =>
    obtain ⟨mark, kind⟩ := node
    have some : 0 < kind.listed.countP (Stmt.hasId id) := by
      rwa [countP_pos_iff, ← any_eq_true]
    exact Nat.lt_of_lt_of_le some kind.countP_listed_le
  | expr | pattern => cases lists

theorem lists_unique_among {nodes : List Node} (once : tally id nodes ≤ 1)
    (each : ∀ node ∈ nodes, tally id node.children ≤ 1 →
      ∀ first ∈ node.reachable true, ∀ second ∈ node.reachable true,
        first.lists id = true → second.lists id = true → first = second)
    (isFirst : first ∈ nodes.flatMap (Node.reachable true))
    (isSecond : second ∈ nodes.flatMap (Node.reachable true)) (firstLists : first.lists id = true)
    (secondLists : second.lists id = true) : first = second := by
  obtain ⟨left, isLeft, belowLeft⟩ := mem_flatMap.1 isFirst
  obtain ⟨right, isRight, belowRight⟩ := mem_flatMap.1 isSecond
  have inside {root node : Node} (isBelow : node ∈ root.reachable true)
      (lists : node.lists id = true) : 0 < root.count id :=
    calc 0 < tally id node.children := Node.lists_pos lists
      _ ≤ tally id root.children := Node.tally_children_mono isBelow
      _ ≤ root.count id := root.tally_children_le
  have inLeft := inside belowLeft firstLists
  have inRight := inside belowRight secondLists
  by_cases same : left = right
  · subst same
    have onceInLeft : tally id left.children ≤ 1 :=
      Nat.le_trans left.tally_children_le (Nat.le_trans (count_le_tally isLeft) once)
    exact each left isLeft onceInLeft first belowLeft second belowRight firstLists secondLists
  · have both : left.count id + right.count id ≤ _ := count_add_le_tally isLeft isRight same
    omega

/-- A statement below which another occurs twice: once as an item of its own list
    and once further down. -/
theorem Node.tally_of_lists_twice {child below : Node} (lists : node.lists id = true)
    (isChild : child ∈ node.children) (isBelow : below ∈ child.reachable true)
    (listsBelow : below.lists id = true) : 2 ≤ tally id node.children := by
  have further : 0 < tally id child.children :=
    Nat.lt_of_lt_of_le (Node.lists_pos listsBelow) (Node.tally_children_mono isBelow)
  cases node with
  | stmt node =>
    obtain ⟨mark, kind⟩ := node
    obtain ⟨item, isItem, hasId⟩ := any_eq_true.1 lists
    have isItem : Node.stmt item ∈ kind.children := StmtKind.mem_children_of_listed isItem
    have itemCount : (Node.stmt item).count id = item.mark.bears id + _ := Node.count_eq _
    rw [Stmt.bears_of_hasId hasId] at itemCount
    by_cases same : Node.stmt item = child
    · subst same
      have atItem : (Node.stmt item).count id ≤ tally id kind.children := count_le_tally isItem
      change 2 ≤ tally id kind.children
      omega
    · have both : _ + _ ≤ tally id kind.children := count_add_le_tally isItem isChild same
      have inChild : tally id child.children ≤ child.count id := child.tally_children_le
      change 2 ≤ tally id kind.children
      omega
  | expr | pattern => cases lists

theorem Node.lists_unique (once : tally id node.children ≤ 1)
    (isFirst : first ∈ node.reachable true) (isSecond : second ∈ node.reachable true)
    (firstLists : first.lists id = true) (secondLists : second.lists id = true) :
    first = second := by
  induction node using Node.childInduction generalizing first second with
  | step node ih =>
    rw [node.reachable_eq, mem_cons] at isFirst isSecond
    rcases isFirst with rfl | isFirst <;> rcases isSecond with rfl | isSecond
    · rfl
    · obtain ⟨child, isChild, isBelow⟩ := mem_flatMap.1 isSecond
      have twice := Node.tally_of_lists_twice firstLists isChild isBelow secondLists
      omega
    · obtain ⟨child, isChild, isBelow⟩ := mem_flatMap.1 isFirst
      have twice := Node.tally_of_lists_twice secondLists isChild isBelow firstLists
      omega
    · exact lists_unique_among once (fun child isChild onceInChild _ isLeft _ isRight =>
        ih child isChild onceInChild isLeft isRight) isFirst isSecond firstLists secondLists

end Listing

theorem CompilationUnit.Proper.hosts {unit : CompilationUnit} (proper : unit.Proper) {parent id : Nat}
    (taken : unit.reachable.any (Node.takes parent id) = true) :
    ∀ node ∈ unit.reachable, node.Hosts parent id := by
  intro node isNode
  rw [unit.reachable_eq] at isNode taken
  have once : tally id unit.roots ≤ 1 := CompilationUnit.proper_iff.1 proper id
  cases node with
  | stmt node =>
    obtain ⟨mark, kind⟩ := node
    constructor
    · obtain ⟨root, isRoot, isBelow⟩ := mem_flatMap.1 isNode
      calc kind.listed.countP (Stmt.hasId id)
        _ ≤ tally id kind.children := kind.countP_listed_le
        _ ≤ tally id root.children := Node.tally_children_mono isBelow
        _ ≤ root.count id := root.tally_children_le
        _ ≤ tally id unit.roots := count_le_tally isRoot
        _ ≤ 1 := once
    · intro lists
      obtain ⟨taker, isTaker, takes⟩ := any_eq_true.1 taken
      cases taker with
      | stmt taker =>
        obtain ⟨takerMark, takerKind⟩ := taker
        obtain ⟨isParent, takerLists⟩ := Bool.and_eq_true_iff.1 takes
        have same := lists_unique_among once (fun _ _ onceInNode _ isFirst _ isSecond =>
            Node.lists_unique onceInNode isFirst isSecond) isNode isTaker lists takerLists
        cases same
        exact eq_of_beq isParent
      | expr | pattern => cases takes
  | expr | pattern => trivial

/-! ## Installing keeps identities -/

variable {rules : Rules Id} (point : Nat) (hoisted : List HoistedLocal)

section Installing

variable {id : Nat}

theorem Rules.Local.count_rebuilt {atExpr : Expr → Expr} {atStmt : Stmt → Stmt}
    (isLocal : rules.Local atExpr atStmt)
    (onExpr : ∀ (mark : Mark) (kind : ExprKind),
      (Node.expr (atExpr ⟨mark, kind⟩)).count id = (Node.expr ⟨mark, kind⟩).count id)
    (onStmt : ∀ (mark : Mark) (kind : StmtKind),
      (Node.stmt (atStmt ⟨mark, kind⟩)).count id = (Node.stmt ⟨mark, kind⟩).count id)
    (site : Site) (node : Node) : (node.rebuilt rules site).count id = node.count id := by
  induction node using Node.childInduction generalizing site with
  | step node ih =>
    have onChildren (site : Site) :
        tally id (node.children.map (Node.rebuilt rules site)) = tally id node.children :=
      tally_map fun child isChild => ih child isChild site
    cases node with
    | expr node =>
      obtain ⟨mark, kind⟩ := node
      rw [Node.rebuilt, isLocal.rebuilt_expr, onExpr, count_expr, count_expr,
        ExprKind.children_rebuild]
      exact congrArg _ (onChildren _)
    | stmt node =>
      obtain ⟨mark, kind⟩ := node
      rw [Node.rebuilt, isLocal.rebuilt_stmt, onStmt, Node.count_eq, Node.count_eq]
      refine congrArg _ ?_
      change tally id (StmtKind.children _) = _
      rw [isLocal.children_rebuild]
      exact onChildren _
    | pattern node =>
      obtain ⟨mark, kind⟩ := node
      rw [Node.rebuilt, isLocal.rebuilt_pattern, Node.count_eq, Node.count_eq]
      refine congrArg _ ?_
      change tally id (PatternKind.children _) = _
      rw [PatternKind.children_rebuild]
      exact onChildren _

theorem tally_hoisted : tally id (ofStmts (hoisted.map HoistedLocal.stmt)) = 0 := by
  induction hoisted with
  | nil => rfl
  | cons item rest ih =>
    rw [ofStmts, map_cons, map_cons, tally_cons]
    change _ + tally id (ofStmts (rest.map HoistedLocal.stmt)) = 0
    rw [ih]
    rfl

theorem Stmt.count_wrapped {mark : Mark} :
    (Node.stmt ⟨mark, .block (hoisted.map HoistedLocal.stmt ++ [mark.span.stmt kind])⟩).count id =
      (Node.stmt ⟨mark, kind⟩).count id := by
  simp [count_stmt, StmtKind.children, tally_hoisted]

theorem count_wrap (hoisted : List HoistedLocal) (site : Site) (node : Node) :
    (node.rebuilt (Rules.wrap point (hoisted.map HoistedLocal.stmt)) site).count id =
      node.count id := by
  refine (Rules.wrap_local point hoisted).count_rebuilt (fun _ _ => rfl) (fun mark kind => ?_)
    site node
  unfold Stmt.wrapped
  split
  · exact Stmt.count_wrapped hoisted
  · rfl

theorem LambdaBody.tally_install (returnsValue : Bool) (hoisted : List HoistedLocal)
    (body : LambdaBody) :
    tally id (ofLambdaBody (body.install returnsValue (hoisted.map HoistedLocal.stmt))) =
      tally id (ofLambdaBody body) := by
  cases body with
  | expr value =>
    have moved (kind : StmtKind) (onlyChild : kind.children = [Node.expr value]) :
        tally id (ofStmts [value.span.stmt kind]) = (Node.expr value).count id := by
      change tally id [Node.stmt (value.span.stmt kind)] = _
      rw [tally_cons, Node.count_eq]
      change (0 + tally id kind.children) + 0 = _
      rw [onlyChild, tally_cons, tally_nil]
      omega
    have last : tally id (ofStmts [if returnsValue then value.span.ret value
        else value.span.evalStmt value]) = (Node.expr value).count id := by
      cases returnsValue
      · exact moved (.eval value) rfl
      · exact moved (.ret (some value)) rfl
    rw [LambdaBody.install, ofLambdaBody, ofLambdaBody, tally_cons, tally_cons, Node.count_eq]
    change (0 + tally id (ofStmts _)) + _ = _
    rw [ofStmts_append, tally_append, tally_hoisted, last]
    omega
  | block body =>
    obtain ⟨mark, kind⟩ := body
    cases kind with
    | block body =>
      rw [LambdaBody.install, ofLambdaBody, ofLambdaBody, tally_cons, tally_cons, Node.count_eq,
        Node.count_eq]
      change (_ + tally id (ofStmts _)) + _ = _
      rw [ofStmts_append, tally_append, tally_hoisted, Nat.zero_add]
      rfl
    | _ =>
      rw [LambdaBody.install, ofLambdaBody, ofLambdaBody, tally_cons, tally_cons]
      · exact congrArg (· + 0) (Stmt.count_wrapped hoisted)
      · intro _ isBlock
        cases isBlock

theorem count_openLambda (returnsValue : Bool) (hoisted : List HoistedLocal) (site : Site)
    (node : Node) :
    (node.rebuilt (Rules.openLambda point returnsValue (hoisted.map HoistedLocal.stmt)) site).count
      id = node.count id := by
  refine (Rules.openLambda_local point returnsValue hoisted).count_rebuilt (fun mark kind => ?_)
    (fun _ _ => rfl) site node
  cases kind with
  | lambda label params isAsync body =>
    change (Node.expr (if label == some point then _ else _)).count id = _
    split
    · simp only [count_expr, ExprKind.children, tally_append, LambdaBody.tally_install]
    · rfl
  | _ => rfl

theorem tally_insertBefore {hoisted : List HoistedLocal} :
    tally id (ofStmts (insertBefore point (hoisted.map HoistedLocal.stmt) body)) =
      tally id (ofStmts body) := by
  induction body with
  | nil => rfl
  | cons node rest ih =>
    rw [insertBefore]
    split
    · rw [ofStmts_append, tally_append, tally_hoisted, Nat.zero_add]
    · rw [ofStmts, map_cons, tally_cons]
      change _ + tally id (ofStmts _) = _
      rw [ih]
      exact tally_cons.symm

theorem tally_insertInSections {hoisted : List HoistedLocal} {sections : List Section} :
    tally id ((insertInSections point (hoisted.map HoistedLocal.stmt) sections).flatMap ofSection) =
      tally id (sections.flatMap ofSection) := by
  induction sections with
  | nil => rfl
  | cons sect rest ih =>
    rw [insertInSections]
    split
    · rw [flatMap_cons, flatMap_cons, tally_append, tally_append, ofSection, ofSection,
        tally_append, tally_append, tally_insertBefore]
    · rw [flatMap_cons, flatMap_cons, tally_append, tally_append, ih]

theorem StmtKind.tally_insert {hoisted : List HoistedLocal} (kind : StmtKind) :
    tally id ((kind.insert? point (hoisted.map HoistedLocal.stmt)).getD kind).children =
      tally id kind.children := by
  cases kind with
  | block body =>
    rw [StmtKind.insert?]
    split
    · exact tally_insertBefore point
    · rfl
  | switch subject sections =>
    rw [StmtKind.insert?]
    split
    · change tally id (expr subject :: _) = tally id (expr subject :: _)
      rw [tally_cons, tally_cons, tally_insertInSections]
    · rfl
  | _ => rfl

theorem count_inserted (parent point : Nat) (hoisted : List HoistedLocal) (site : Site)
    (node : Node) :
    (node.rebuilt (Rules.inserted parent point hoisted) site).count id = node.count id := by
  refine (Rules.inserted_local parent point hoisted).count_rebuilt (fun _ _ => rfl)
    (fun mark kind => ?_) site node
  unfold Stmt.inserted
  split
  · rw [Node.count_eq, Node.count_eq]
    exact congrArg _ (StmtKind.tally_insert point kind)
  · rfl

end Installing

theorem CompilationUnit.tally_rebuild {id : Nat}
    (same : ∀ site (node : Node), (node.rebuilt rules site).count id = node.count id)
    (unit : CompilationUnit) :
    tally id (CompilationUnit.roots (unit.rebuild rules : Id CompilationUnit)) =
      tally id unit.roots := by
  have counted (places : List (Site × Node)) :
      tally id (places.map fun place => place.2.rebuilt rules place.1) =
        tally id (places.map Prod.snd) := by
    induction places with
    | nil => rfl
    | cons place rest ih =>
      rw [map_cons, map_cons, tally_cons, tally_cons, same, ih]
  rw [unit.roots_rebuild, counted, unit.places_roots]

/-! ## Scopes of hoisted names

Queued declarations are installed point by point.  Once all are, a name escapes
exactly if it escaped the places where its declarations were about to go.
-/

/-- Whether a list still holds a statement, under the statement that held it
    before the pass. -/
def CompilationUnit.keepsListed (unit : CompilationUnit) (parents : ParentMap) (id : Nat) : Bool :=
  match parents.parentOf (some id) with
  | .node (.stmt ⟨⟨_, some parent⟩, _⟩) => unit.reachable.any (Node.takes parent id)
  | _ => false

def CompilationUnit.coverAt (unit : CompilationUnit) (parents : ParentMap) (name : String)
    (entry : InstallPoint × List HoistedLocal) : Cover :=
  if declares entry.2 name then
    match entry.1 with
    | .stmt place =>
      if unit.keepsListed parents place then { before := [place] } else { around := [place] }
    | .lambda place _ => { inside := [place] }
    | .initializer _ => {}
  else {}

/-- Where queued declarations cover a name.  Whether a list takes the declarations
    of a point is decided when their turn comes. -/
def CompilationUnit.coverOf (parents : ParentMap) (name : String) :
    List (InstallPoint × List HoistedLocal) → CompilationUnit → Cover
  | [], _ => {}
  | entry :: rest, unit =>
    (coverOf parents name rest (unit.installAt parents entry)).append
      (unit.coverAt parents name entry)

theorem Cover.append_nil (cover : Cover) : cover.append {} = cover := by
  simp [Cover.append]

section Install

variable {unit : CompilationUnit} (parents : ParentMap)

theorem CompilationUnit.installBefore_eq (unit : CompilationUnit) {id : Nat}
    {hoisted : List HoistedLocal} :
    (∃ parent, unit.keepsListed parents id = true ∧
      unit.reachable.any (Node.takes parent id) = true ∧
      unit.installBefore parents id (hoisted.map HoistedLocal.stmt) =
        (unit.rebuild (Rules.inserted parent id hoisted) : Id CompilationUnit)) ∨
    (unit.keepsListed parents id = false ∧
      unit.installBefore parents id (hoisted.map HoistedLocal.stmt) =
        (unit.rebuild (Rules.wrap id (hoisted.map HoistedLocal.stmt)) : Id CompilationUnit)) := by
  by_cases isBelow : ∃ span parent kind,
      parents.parentOf (some id) = .node (.stmt ⟨⟨span, some parent⟩, kind⟩)
  · obtain ⟨span, parent, kind, found⟩ := isBelow
    simp only [keepsListed, installBefore, found, unit.rebuild_insertIn]
    cases taken : unit.reachable.any (Node.takes parent id) with
    | true => exact .inl ⟨parent, rfl, taken, rfl⟩
    | false => exact .inr ⟨rfl, rfl⟩
  · refine .inr ⟨?_, ?_⟩
    · unfold keepsListed
      split
      · next found => exact absurd ⟨_, _, _, found⟩ isBelow
      · rfl
    · unfold installBefore
      split
      · next found => exact absurd ⟨_, _, _, found⟩ isBelow
      · rfl

theorem CompilationUnit.tally_installAt {id : Nat} (unit : CompilationUnit) :
    tally id (unit.installAt parents entry).roots = tally id unit.roots := by
  obtain ⟨point, hoisted⟩ := entry
  cases point with
  | stmt place =>
    change tally id (unit.installBefore parents place (hoisted.map HoistedLocal.stmt)).roots = _
    rcases unit.installBefore_eq parents with ⟨parent, -, -, isUnit⟩ | ⟨-, isUnit⟩
    · rw [isUnit]
      exact unit.tally_rebuild (count_inserted parent place hoisted)
    · rw [isUnit]
      exact unit.tally_rebuild (count_wrap place hoisted)
  | lambda place returnsValue => exact unit.tally_rebuild (count_openLambda place returnsValue hoisted)
  | initializer place => rfl

theorem CompilationUnit.tally_install {id : Nat} (unit : CompilationUnit) (queue : HoistQueue) :
    tally id (unit.install parents queue).roots = tally id unit.roots := by
  obtain ⟨entries⟩ := queue
  unfold install
  induction entries generalizing unit with
  | nil => rfl
  | cons entry rest ih =>
    exact (ih _).trans (unit.tally_installAt parents)

theorem CompilationUnit.Proper.installAt (proper : unit.Proper)
    (entry : InstallPoint × List HoistedLocal) : (unit.installAt parents entry).Proper := by
  rw [proper_iff] at proper ⊢
  intro id
  rw [unit.tally_installAt]
  exact proper id

theorem CompilationUnit.Proper.install (proper : unit.Proper) (queue : HoistQueue) :
    (unit.install parents queue).Proper := by
  rw [proper_iff] at proper ⊢
  intro id
  rw [unit.tally_install]
  exact proper id

end Install

end Unsugar
