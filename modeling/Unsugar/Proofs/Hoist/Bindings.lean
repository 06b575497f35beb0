import Unsugar.Proofs.Ownership.ProperPasses

open List

namespace Unsugar

/-! # What names mean

A name means the last local of that name declared before it in a list around it, or
in the opening of a `for` around it.  A `Cover` adds the declarations that are about
to be installed, and a list of identities the statements that are about to move into
a block of their own, which hides what they declare.
-/

open Node

variable {unit : CompilationUnit} {kind : ExprKind} {listed : Bool} {body : List Stmt}
  {depth : Nat} {node : Node} {name : String}

def Node.isName (name : String) : Node → Bool
  | .expr ⟨_, .ident other⟩ => other == name
  | _ => false

theorem Node.isName_iff : node.isName name = true ↔ ∃ mark, node = .expr ⟨mark, .ident name⟩ := by
  constructor
  · intro isName
    unfold Node.isName at isName
    split at isName
    · next mark other =>
        obtain rfl := beq_iff_eq.1 isName
        exact ⟨mark, rfl⟩
    · cases isName
  · rintro ⟨mark, rfl⟩
    exact beq_self_eq_true name

/-- What a name means at some place. -/
inductive Binding where
  | free
  /-- A local without an identity, such as every local that a pass makes. -/
  | made
  /-- The local that is declared by this statement. -/
  | user (id : Nat)
  deriving DecidableEq, Repr, Inhabited

/-- The local that a statement with this mark declares. -/
def Mark.binding (mark : Mark) : Binding :=
  match mark.id with
  | none => .made
  | some id => .user id

def Stmt.declaresName (name : String) (node : Stmt) : Bool :=
  match node.kind with
  | .declare _ declared _ => declared == name
  | _ => false

section Places

variable (cover : Cover) (wrapped : List Nat) (name : String)

/-- What the name means where a statement starts.  Only before items of lists can
    declarations be inserted. -/
def Cover.ahead? (listed : Bool) (node : Stmt) (binding : Binding) : Binding :=
  if listed && node.id.any cover.before.contains then .made else binding

def Stmt.rebinds (node : Stmt) (binding : Binding) : Binding :=
  if node.declaresName name && !node.id.any wrapped.contains then node.mark.binding else binding

def Cover.inOrder (listed : Bool) (binding : Binding) : List Stmt → List (Binding × Node)
  | [] => []
  | node :: rest =>
    let here := cover.ahead? listed node binding
    (here, stmt node) :: inOrder listed (node.rebinds wrapped name here) rest

def Cover.afterAll (listed : Bool) (binding : Binding) (body : List Stmt) : Binding :=
  body.foldl (fun binding node => node.rebinds wrapped name (cover.ahead? listed node binding))
    binding

def ExprKind.placed (binding : Binding) : ExprKind → List (Binding × Node)
  | .lambda label params _ body =>
    (ofParams params).map (Prod.mk binding) ++ (ofLambdaBody body).map
      (Prod.mk (if label.any cover.inside.contains then .made else binding))
  | kind => kind.children.map (Prod.mk binding)

def StmtKind.placed (binding : Binding) : StmtKind → List (Binding × Node)
  | .block body => cover.inOrder wrapped name true binding body
  | .forLoop init cond step body =>
    cover.inOrder wrapped name false binding init ++ (ofExpr? cond ++ ofExprs step ++ [stmt body]).map
      (Prod.mk (cover.afterAll wrapped name false binding init))
  | .switch subject sections =>
    (binding, expr subject) :: sections.flatMap fun sect =>
      (sect.labels.flatMap ofLabel).map (Prod.mk binding) ++
        cover.inOrder wrapped name true binding sect.body
  | kind => kind.children.map (Prod.mk binding)

/-- What the name means in a statement, given what it means before it. -/
def Cover.entered (mark : Mark) (binding : Binding) : Binding :=
  if mark.id.any cover.around.contains then .made else binding

def Node.placed (binding : Binding) : Node → List (Binding × Node)
  | expr ⟨_, kind⟩ => kind.placed cover binding
  | stmt ⟨mark, kind⟩ => kind.placed cover wrapped name (cover.entered mark binding)
  | pattern ⟨_, kind⟩ => kind.children.map (Prod.mk binding)

/-- Below a node, where the name means `binding`, it occurs with this mark and means
    `found` there. -/
inductive Node.Finds (mark : Mark) (found : Binding) : Binding → Node → Prop where
  | here : Node.Finds mark found found (expr ⟨mark, .ident name⟩)
  | through {binding between : Binding} {node child : Node}
      (isPlaced : (between, child) ∈ node.placed cover wrapped name binding)
      (finds : Node.Finds mark found between child) : Node.Finds mark found binding node

def FindsIn (mark : Mark) (found : Binding) (places : List (Binding × Node)) : Prop :=
  ∃ place ∈ places, place.2.Finds cover wrapped name mark found place.1

/-- The name is found in a unit.  No local is declared around its declarations. -/
def CompilationUnit.Finds (unit : CompilationUnit) (mark : Mark) (found : Binding) : Prop :=
  FindsIn cover wrapped name mark found (unit.roots.map (Prod.mk .free))

end Places

section Finds

variable {cover : Cover} {wrapped : List Nat} {name : String} {mark : Mark} {found : Binding}

@[simp] theorem findsIn_nil : FindsIn cover wrapped name mark found [] ↔ False := by
  simp [FindsIn]

@[simp] theorem findsIn_cons {binding : Binding} {rest : List (Binding × Node)} :
    FindsIn cover wrapped name mark found ((binding, node) :: rest) ↔
      node.Finds cover wrapped name mark found binding ∨
        FindsIn cover wrapped name mark found rest := by
  simp [FindsIn]

@[simp] theorem findsIn_append {left right : List (Binding × Node)} :
    FindsIn cover wrapped name mark found (left ++ right) ↔
      FindsIn cover wrapped name mark found left ∨ FindsIn cover wrapped name mark found right := by
  simp [FindsIn, or_and_right, exists_or]

variable {other : Mark}

theorem Node.finds_expr {binding : Binding} :
    (expr ⟨other, kind⟩).Finds cover wrapped name mark found binding ↔
      (kind = .ident name ∧ other = mark ∧ binding = found) ∨
        FindsIn cover wrapped name mark found (kind.placed cover binding) := by
  constructor
  · intro finds
    cases finds with
    | here => exact .inl ⟨rfl, rfl, rfl⟩
    | through isPlaced finds => exact .inr ⟨_, isPlaced, finds⟩
  · rintro (⟨rfl, rfl, rfl⟩ | ⟨place, isPlaced, finds⟩)
    · exact .here
    · exact .through isPlaced finds

theorem Node.finds_stmt {kind : StmtKind} {binding : Binding} :
    (stmt ⟨other, kind⟩).Finds cover wrapped name mark found binding ↔
      FindsIn cover wrapped name mark found
        (kind.placed cover wrapped name (cover.entered other binding)) := by
  constructor
  · intro finds
    cases finds with
    | through isPlaced finds => exact ⟨_, isPlaced, finds⟩
  · rintro ⟨place, isPlaced, finds⟩
    exact .through isPlaced finds

theorem Node.finds_pattern {kind : PatternKind} {binding : Binding} :
    (pattern ⟨other, kind⟩).Finds cover wrapped name mark found binding ↔
      FindsIn cover wrapped name mark found (kind.children.map (Prod.mk binding)) := by
  constructor
  · intro finds
    cases finds with
    | through isPlaced finds => exact ⟨_, isPlaced, finds⟩
  · rintro ⟨place, isPlaced, finds⟩
    exact .through isPlaced finds

@[simp] theorem Cover.ahead?_nothing (listed : Bool) (node : Stmt) (binding : Binding) :
    ({} : Cover).ahead? listed node binding = binding := by
  unfold ahead?
  cases node.id <;> simp

theorem Stmt.rebinds_made {node : Stmt} (noId : node.id = none) (binding : Binding) :
    node.rebinds wrapped name binding = if node.declaresName name then .made else binding := by
  have isMade : node.mark.binding = .made := by
    unfold Stmt.id at noId
    rw [Mark.binding, noId]
  simp [rebinds, noId, isMade]

theorem Cover.inOrder_append {binding : Binding} {left right : List Stmt} :
    cover.inOrder wrapped name listed binding (left ++ right) =
      cover.inOrder wrapped name listed binding left ++
        cover.inOrder wrapped name listed (cover.afterAll wrapped name listed binding left) right := by
  induction left generalizing binding with
  | nil => rfl
  | cons node rest ih =>
    rw [cons_append, inOrder, ih]
    rfl

theorem ExprKind.placed_children {binding : Binding} :
    (kind.placed cover binding).map Prod.snd = kind.children := by
  cases kind with
  | lambda label params isAsync body => simp [placed, children, Function.comp_def]
  | _ => simp [placed, Function.comp_def]

theorem Cover.inOrder_stmts (listed : Bool) (binding : Binding) (body : List Stmt) :
    (cover.inOrder wrapped name listed binding body).map Prod.snd = ofStmts body := by
  induction body generalizing binding with
  | nil => rfl
  | cons node rest ih => exact congrArg (_ :: ·) (ih _)

theorem StmtKind.placed_children {kind : StmtKind} {binding : Binding} :
    (kind.placed cover wrapped name binding).map Prod.snd = kind.children := by
  cases kind with
  | block body => exact Cover.inOrder_stmts true binding body
  | forLoop init cond step body =>
    simp [placed, children, Cover.inOrder_stmts, Function.comp_def]
  | switch subject sections =>
    simp only [placed, children, map_cons, map_flatMap, map_append, map_map,
      Cover.inOrder_stmts, Function.comp_def, map_id']
    rfl
  | _ => simp [placed, Function.comp_def]

theorem Node.placed_children {binding : Binding} :
    (node.placed cover wrapped name binding).map Prod.snd = node.children := by
  obtain ⟨other, kind⟩ | ⟨other, kind⟩ | ⟨other, kind⟩ := node
  · exact ExprKind.placed_children
  · exact StmtKind.placed_children
  · simp [placed, Node.children, Function.comp_def]

end Finds

/-! ## Looking for occurrences -/

section Search

variable (cover : Cover) (wrapped : List Nat) (name : String)

/-- The occurrences of the name at most `depth` steps down, each with its meaning. -/
def Node.findings : (depth : Nat) → Binding → Node → List (Mark × Binding)
  | 0, _, _ => []
  | depth + 1, binding, node =>
    (if node.isName name then [(node.mark, binding)] else []) ++
      (node.placed cover wrapped name binding).flatMap fun place =>
        Node.findings depth place.1 place.2

def CompilationUnit.findings (unit : CompilationUnit) : List (Mark × Binding) :=
  unit.roots.flatMap (Node.findings cover wrapped name unit.reachable.length .free)

variable {cover wrapped name} {mark : Mark} {found : Binding}

theorem Node.Finds.of_findings {binding : Binding}
    (isFound : (mark, found) ∈ node.findings cover wrapped name depth binding) :
    node.Finds cover wrapped name mark found binding := by
  induction depth generalizing binding node with
  | zero => cases isFound
  | succ depth ih =>
    rcases mem_append.1 isFound with isHere | isBelow
    · split at isHere
      · next isName =>
          obtain ⟨other, rfl⟩ := Node.isName_iff.1 isName
          cases mem_singleton.1 isHere
          exact .here
      · cases isHere
    · obtain ⟨place, isPlace, isFound⟩ := mem_flatMap.1 isBelow
      exact .through isPlace (ih isFound)

theorem Node.Finds.mem_findings {binding : Binding}
    (finds : node.Finds cover wrapped name mark found binding)
    (enough : (node.reachable true).length ≤ depth) :
    (mark, found) ∈ node.findings cover wrapped name depth binding := by
  induction finds generalizing depth with
  | here =>
    cases depth with
    | zero => exact absurd enough (by rw [Node.reachable_eq]; simp)
    | succ depth => simp [Node.findings, Node.isName, Node.mark]
  | @through binding between node child isPlaced finds ih =>
    have isChild : child ∈ node.children := by
      rw [← Node.placed_children]
      exact mem_map_of_mem isPlaced
    have shorter := Node.length_reachable_lt isChild
    cases depth with
    | zero => omega
    | succ depth =>
      exact mem_append_right _ (mem_flatMap.2 ⟨(between, child), isPlaced, @ih depth (by omega)⟩)

theorem CompilationUnit.mem_findings : (mark, found) ∈ unit.findings cover wrapped name ↔
      unit.Finds cover wrapped name mark found := by
  constructor
  · intro isFound
    obtain ⟨root, isRoot, isFound⟩ := mem_flatMap.1 isFound
    exact ⟨(.free, root), mem_map_of_mem isRoot, .of_findings isFound⟩
  · rintro ⟨place, isPlace, finds⟩
    obtain ⟨root, isRoot, rfl⟩ := mem_map.1 isPlace
    have finds : root.Finds cover wrapped name mark found .free := finds
    refine mem_flatMap.2 ⟨root, isRoot, finds.mem_findings ?_⟩
    obtain ⟨before, after, areRoots⟩ := append_of_mem isRoot
    simp only [unit.reachable_eq, areRoots, flatMap_append, flatMap_cons, length_append]
    omega

end Search

/-! ## Rebuilding

What local rules do is said for one node at a time: under `after`, a rebuilt node
leads to its rebuilt children as the node did under `cover`.
-/

def Node.rebuiltAt (rules : Rules Id) (site : Site) (place : Binding × Node) : Binding × Node :=
  (place.1, place.2.rebuilt rules site)

theorem map_rebuiltAt (rules : Rules Id) (site : Site) (binding : Binding) (nodes : List Node) :
    (nodes.map (Prod.mk binding)).map (Node.rebuiltAt rules site) =
      (nodes.map (Node.rebuilt rules site)).map (Prod.mk binding) := by
  simp [Function.comp_def, Node.rebuiltAt]

theorem ExprKind.placed_rebuild (rules : Rules Id) (cover : Cover) (site : Site) (kind : ExprKind)
    (binding : Binding) :
    (kind.rebuild rules site : Id ExprKind).placed cover binding =
      (kind.placed cover binding).map (Node.rebuiltAt rules site) := by
  have children := kind.children_rebuild rules site
  cases kind with
  | lambda label params isAsync body =>
    change (ofParams (rebuildParams rules site params : Id (List Param))).map _ ++
      (ofLambdaBody (body.rebuild rules site : Id LambdaBody)).map _ = _
    rw [ofParams_rebuild, ofLambdaBody_rebuild, placed, map_append, map_rebuiltAt, map_rebuiltAt]
  | _ => exact (congrArg (List.map (Prod.mk binding)) children).trans (map_rebuiltAt ..).symm

namespace Rules.Local

variable {rules : Rules Id} {atExpr : Expr → Expr} {atStmt : Stmt → Stmt}
  (isLocal : rules.Local atExpr atStmt) {cover after : Cover} {wrapped moved : List Nat}
  {name : String}

include isLocal

theorem rebuildEachStmt_eq {site : Site} {nodes : List Stmt} :
    (rebuildEachStmt rules site nodes : Id (List Stmt)) = nodes.map (·.rebuilt rules site) := by
  induction nodes with
  | nil => rfl
  | cons node rest ih =>
    change node.gather (node.rebuildMany rules site : Id (List Stmt)) ::
      (rebuildEachStmt rules site rest : Id (List Stmt)) = _
    rw [ih, isLocal.gather_rebuildMany, map_cons]

section Order

variable (sameBefore : after.before = cover.before) (site : Site)
  (sameRebinds : ∀ (node : Stmt) (binding : Binding),
    (node.rebuilt rules site).rebinds moved name binding = node.rebinds wrapped name binding)

include sameBefore

theorem ahead?_rebuilt {node : Stmt} {binding : Binding} :
    after.ahead? listed (node.rebuilt rules site) binding = cover.ahead? listed node binding := by
  obtain ⟨mark, kind⟩ := node
  unfold Cover.ahead? Stmt.id
  rw [isLocal.rebuilt_stmt, isLocal.mark, sameBefore]

include sameRebinds

theorem inOrder_rebuilt {binding : Binding} :
    after.inOrder moved name listed binding (body.map (·.rebuilt rules site)) =
      (cover.inOrder wrapped name listed binding body).map (Node.rebuiltAt rules site) := by
  induction body generalizing binding with
  | nil => rfl
  | cons node rest ih =>
    rw [map_cons, Cover.inOrder, isLocal.ahead?_rebuilt sameBefore, sameRebinds, ih]
    rfl

theorem afterAll_rebuilt {binding : Binding} :
    after.afterAll moved name listed binding (body.map (·.rebuilt rules site)) =
      cover.afterAll wrapped name listed binding body := by
  unfold Cover.afterAll
  rw [foldl_map]
  congr 1
  funext binding node
  rw [isLocal.ahead?_rebuilt sameBefore, sameRebinds]

theorem placed_rebuild (kind : StmtKind) (binding : Binding) :
    (kind.rebuild rules site : Id StmtKind).placed after moved name binding =
      (kind.placed cover wrapped name binding).map (Node.rebuiltAt rules site) := by
  have children := isLocal.children_rebuild site kind
  cases kind with
  | block body =>
    change after.inOrder moved name true binding (rebuildStmts rules site body : Id (List Stmt)) = _
    rw [isLocal.rebuildStmts_eq]
    exact isLocal.inOrder_rebuilt sameBefore site sameRebinds
  | forLoop init cond step body =>
    change after.inOrder moved name false binding
        (rebuildEachStmt rules site init : Id (List Stmt)) ++
      (ofExpr? (rebuildExpr? rules site cond : Id (Option Expr)) ++
        ofExprs (rebuildExprs rules site step : Id (List Expr)) ++
        [Node.stmt (body.gather (body.rebuildMany rules site : Id (List Stmt)))]).map
        (Prod.mk (after.afterAll moved name false binding
          (rebuildEachStmt rules site init : Id (List Stmt)))) = _
    rw [isLocal.rebuildEachStmt_eq, isLocal.inOrder_rebuilt sameBefore site sameRebinds,
      isLocal.afterAll_rebuilt sameBefore site sameRebinds, isLocal.gather_rebuildMany,
      ofExpr?_rebuild, ofExprs_rebuild, StmtKind.placed]
    simp [Node.rebuiltAt, Node.rebuilt, Function.comp_def]
  | switch subject sections =>
    change (binding, Node.expr (subject.rebuilt rules site)) ::
      (rebuildSections rules site sections : Id (List Section)).flatMap _ = _
    rw [isLocal.rebuildSections_eq, StmtKind.placed, map_cons, map_flatMap, flatMap_map]
    congr 2
    funext sect
    rw [map_append, map_rebuiltAt, ← ofLabels_rebuild]
    exact congrArg _ (isLocal.inOrder_rebuilt sameBefore site sameRebinds)
  | _ => exact (congrArg (List.map (Prod.mk binding)) children).trans (map_rebuiltAt ..).symm

end Order

theorem finds_rebuilt {mark : Mark} {found : Binding} (fits : Node → Prop)
    (onExpr : ∀ (other : Mark) (kind : ExprKind) (binding : Binding),
      (Node.expr (atExpr ⟨other, kind⟩)).Finds after moved name mark found binding ↔
        (kind = .ident name ∧ other = mark ∧ binding = found) ∨
          FindsIn after moved name mark found (kind.placed cover binding))
    (onStmt : ∀ (site : Site) (other : Mark) (kind : StmtKind) (binding : Binding),
      fits (.stmt ⟨other, kind⟩) →
      ((Node.stmt (atStmt ⟨other, kind.rebuild rules site⟩)).Finds after moved name mark found
          binding ↔
        FindsIn after moved name mark found ((kind.placed cover wrapped name
          (cover.entered other binding)).map (Node.rebuiltAt rules site))))
    (node : Node) (fit : ∀ below ∈ node.reachable true, fits below) (site : Site)
    (binding : Binding) :
    (node.rebuilt rules site).Finds after moved name mark found binding ↔
      node.Finds cover wrapped name mark found binding := by
  induction node using Node.childInduction generalizing site binding with
  | step node ih =>
    rw [node.reachable_eq] at fit
    have here := fit node mem_cons_self
    have onPlaces (site : Site) (places : List (Binding × Node))
        (areChildren : ∀ child ∈ places.map Prod.snd, child ∈ node.children) :
        FindsIn after moved name mark found (places.map (Node.rebuiltAt rules site)) ↔
          FindsIn cover wrapped name mark found places := by
      induction places with
      | nil => simp
      | cons place rest onRest =>
        obtain ⟨between, child⟩ := place
        obtain ⟨isChild, areRest⟩ := forall_mem_cons.1 areChildren
        have onChild := ih child isChild (fun below isBelow => fit below (mem_cons_of_mem _
            (mem_flatMap.2 ⟨child, isChild, isBelow⟩))) site between
        rw [map_cons, Node.rebuiltAt, findsIn_cons, findsIn_cons, onChild, onRest areRest]
    cases node with
    | expr node =>
      obtain ⟨other, kind⟩ := node
      have areChildren : ∀ child ∈ (kind.placed cover binding).map Prod.snd,
          child ∈ kind.children := by simp [ExprKind.placed_children]
      rw [Node.rebuilt, isLocal.rebuilt_expr, onExpr, ExprKind.placed_rebuild,
        onPlaces _ _ areChildren, Node.finds_expr]
      exact or_congr_left (and_congr_left fun _ => kind.rebuild_ident rules _)
    | stmt node =>
      obtain ⟨other, kind⟩ := node
      have areChildren : ∀ child ∈ (kind.placed cover wrapped name
          (cover.entered other binding)).map Prod.snd, child ∈ kind.children := by
        simp [StmtKind.placed_children]
      rw [Node.rebuilt, isLocal.rebuilt_stmt, onStmt _ _ _ _ here, onPlaces _ _ areChildren,
        Node.finds_stmt]
    | pattern node =>
      obtain ⟨other, kind⟩ := node
      have areChildren : ∀ child ∈ (kind.children.map (Prod.mk binding)).map Prod.snd,
          child ∈ kind.children := by simp [Function.comp_def]
      rw [Node.rebuilt, isLocal.rebuilt_pattern, Node.finds_pattern,
        PatternKind.children_rebuild, ← map_rebuiltAt, onPlaces _ _ areChildren,
        Node.finds_pattern]

end Rules.Local

end Unsugar
