import Unsugar.Proofs.Hoist.Bindings

open List

namespace Unsugar

/-! # Names and installed declarations

Each way to install the declarations of a point gives a name, in the new unit, the
meaning that the plan gave it in the old one: a declared name means a made local
after the declarations, and a statement that moves into a block takes what it
declares with it.
-/

open Node

variable {binding : Binding} {listed : Bool} {kind : StmtKind} {other : Mark} {site : Site}
  {node : Node} {body : List Stmt}

def hoistedBinding (hoisted : List HoistedLocal) (name : String) (binding : Binding) : Binding :=
  if declares hoisted name then .made else binding

section Declarations

variable {cover : Cover} {wrapped : List Nat} {name : String} {mark : Mark} {found : Binding}

theorem HoistedLocal.not_finds (hoisted : HoistedLocal) :
    ¬ (Node.stmt hoisted.stmt).Finds cover wrapped name mark found binding := by
  intro finds
  have placed := Node.finds_stmt.1 finds
  exact findsIn_nil.1 placed

theorem HoistedLocal.ahead?_stmt (hoisted : HoistedLocal) :
    cover.ahead? listed hoisted.stmt binding = binding := by
  cases listed <;> rfl

theorem HoistedLocal.rebinds_stmt (hoisted : HoistedLocal) :
    hoisted.stmt.rebinds wrapped name binding =
      if hoisted.name = name then .made else binding := by
  simp [Stmt.rebinds, Stmt.declaresName, HoistedLocal.stmt, Span.declare, Span.stmt, Span.mark,
    Stmt.id, Mark.binding]

theorem findsIn_declared (listed : Bool) (hoisted : List HoistedLocal) (body : List Stmt)
    (binding : Binding) :
    FindsIn cover wrapped name mark found
        (cover.inOrder wrapped name listed binding (hoisted.map HoistedLocal.stmt ++ body)) ↔
      FindsIn cover wrapped name mark found
        (cover.inOrder wrapped name listed (hoistedBinding hoisted name binding) body) := by
  induction hoisted generalizing binding with
  | nil => rfl
  | cons item rest ih =>
    have following : hoistedBinding rest name (if item.name = name then .made else binding) =
        hoistedBinding (item :: rest) name binding := by
      by_cases isName : item.name = name <;> simp [hoistedBinding, declares, isName]
    rw [map_cons, cons_append, Cover.inOrder, findsIn_cons, item.ahead?_stmt,
      item.rebinds_stmt, ih, following]
    exact or_iff_right item.not_finds

theorem findsIn_moved {span : Span} : FindsIn cover wrapped name mark found
        (cover.inOrder wrapped name listed binding [span.stmt kind]) ↔
      FindsIn cover wrapped name mark found (kind.placed cover wrapped name binding) := by
  have unlisted : cover.ahead? listed (span.stmt kind) binding = binding := by
    cases listed <;> rfl
  rw [Cover.inOrder, findsIn_cons, unlisted, Cover.inOrder, findsIn_nil, or_false, Span.stmt,
    Node.finds_stmt]
  rfl

theorem Node.finds_wrapped {hoisted : List HoistedLocal} :
    (stmt ⟨other, .block (hoisted.map HoistedLocal.stmt ++ [other.span.stmt kind])⟩).Finds
        cover wrapped name mark found binding ↔
      FindsIn cover wrapped name mark found (kind.placed cover wrapped name
        (hoistedBinding hoisted name (cover.entered other binding))) := by
  rw [Node.finds_stmt, StmtKind.placed, findsIn_declared, findsIn_moved]

theorem Cover.entered_hoisted {hoisted : List HoistedLocal} :
    cover.entered other (hoistedBinding hoisted name binding) =
      hoistedBinding hoisted name (cover.entered other binding) := by
  unfold entered hoistedBinding
  split <;> split <;> rfl

theorem LambdaBody.finds_install (returnsValue : Bool) (hoisted : List HoistedLocal)
    (body : LambdaBody) (binding : Binding) :
    FindsIn cover wrapped name mark found ((ofLambdaBody
        (body.install returnsValue (hoisted.map HoistedLocal.stmt))).map (Prod.mk binding)) ↔
      FindsIn cover wrapped name mark found ((ofLambdaBody body).map
        (Prod.mk (hoistedBinding hoisted name binding))) := by
  have single (node : Node) (binding : Binding) :
      FindsIn cover wrapped name mark found ([node].map (Prod.mk binding)) ↔
        node.Finds cover wrapped name mark found binding := by simp
  cases body with
  | expr value =>
    have last (binding : Binding) : FindsIn cover wrapped name mark found
        (cover.inOrder wrapped name true binding
          [if returnsValue then value.span.ret value else value.span.evalStmt value]) ↔
          (Node.expr value).Finds cover wrapped name mark found binding := by
      cases returnsValue
      · exact findsIn_moved.trans (single _ _)
      · exact findsIn_moved.trans (single _ _)
    rw [LambdaBody.install, ofLambdaBody, ofLambdaBody, single, single, Span.block, Span.stmt,
      Node.finds_stmt, StmtKind.placed, findsIn_declared, last]
    rfl
  | block body =>
    obtain ⟨other, kind⟩ := body
    cases kind with
    | block body =>
      rw [LambdaBody.install, ofLambdaBody, ofLambdaBody, single, single, Node.finds_stmt,
        Node.finds_stmt, StmtKind.placed, StmtKind.placed, findsIn_declared,
        Cover.entered_hoisted]
    | _ =>
      rw [LambdaBody.install, ofLambdaBody, ofLambdaBody, single, single, Node.finds_wrapped,
        Node.finds_stmt, Cover.entered_hoisted]
      intro _ isBlock
      cases isBlock

end Declarations

/-! ## Around a statement -/

section Around

variable (id : Nat) (hoisted : List HoistedLocal) {after : Cover} {wrapped : List Nat}
  {name : String} {mark : Mark} {found : Binding}

theorem rebinds_wrapped (rules : Rules Id) (isLocal : rules.Local (fun node => node)
    (Stmt.wrapped id hoisted)) (site : Site) (node : Stmt) (binding : Binding) :
    (node.rebuilt rules site).rebinds wrapped name binding =
      node.rebinds (wrapped ++ [id]) name binding := by
  obtain ⟨other, kind⟩ := node
  rw [isLocal.rebuilt_stmt]
  unfold Stmt.wrapped Stmt.hasId Stmt.id Stmt.rebinds
  by_cases hasId : other.id = some id
  · simp [hasId, Stmt.declaresName, Stmt.id]
  · simp only [beq_iff_eq, hasId, if_false, any_contains_other hasId, Stmt.id]
    cases kind <;> rfl

theorem Cover.entered_around {cover after : Cover} {hoisted : List HoistedLocal} {id : Nat}
    {name : String} (around : cover.around = after.around ++ if declares hoisted name then [id] else []) :
    cover.entered other binding =
      if other.id == some id then hoistedBinding hoisted name (after.entered other binding)
      else after.entered other binding := by
  unfold entered
  rw [around, any_contains_append]
  unfold hoistedBinding
  cases other.id == some id <;> cases declares hoisted name <;> simp

theorem finds_wrap :
    (node.rebuilt (Rules.wrap id (hoisted.map HoistedLocal.stmt)) site).Finds after wrapped name
        mark found binding ↔
      node.Finds (after.append (if declares hoisted name then { around := [id] } else {}))
        (wrapped ++ [id]) name mark found binding := by
  rw [after.append_around]
  have isLocal := Rules.wrap_local id hoisted
  refine isLocal.finds_rebuilt (fun _ => True) (fun other kind binding => ?_)
    (fun site other kind binding _ => ?_) node (fun _ _ => trivial) site binding
  · exact Node.finds_expr
  · have before : after.before = ({ after with
        around := after.around ++ if declares hoisted name then [id] else [] } : Cover).before := rfl
    rw [Cover.entered_around rfl, ← isLocal.placed_rebuild before site
      (rebinds_wrapped id hoisted _ isLocal site)]
    generalize (kind.rebuild _ site : Id StmtKind) = kind
    change (Node.stmt (if other.id == some id then _ else _)).Finds after wrapped name _ _ _ ↔ _
    cases other.id == some id with
    | true =>
      rw [if_pos rfl, if_pos rfl]
      exact Node.finds_wrapped
    | false =>
      rw [if_neg Bool.false_ne_true, if_neg Bool.false_ne_true]
      exact Node.finds_stmt

end Around

/-! ## On top of a lambda -/

section Inside

variable (id : Nat) (returnsValue : Bool) (hoisted : List HoistedLocal) {after : Cover}
  {wrapped : List Nat} {name : String} {mark : Mark} {found : Binding}

theorem finds_openLambda :
    (node.rebuilt (Rules.openLambda id returnsValue (hoisted.map HoistedLocal.stmt)) site).Finds
        after wrapped name mark found binding ↔
      node.Finds (after.append (if declares hoisted name then { inside := [id] } else {})) wrapped
        name mark found binding := by
  rw [after.append_inside]
  have isLocal := Rules.openLambda_local id returnsValue hoisted
  refine isLocal.finds_rebuilt (fun _ => True) (fun other kind binding => ?_)
    (fun site other kind binding _ => ?_) node (fun _ _ => trivial) site binding
  · cases kind with
    | lambda label params isAsync body =>
      rw [ExprKind.placed, any_contains_append]
      change (Node.expr (if label == some id then _ else _)).Finds after wrapped name _ _ _ ↔ _
      cases hasId : label == some id with
      | true =>
        rw [if_pos rfl, Node.finds_expr, ExprKind.placed, findsIn_append, findsIn_append,
          body.finds_install]
        refine or_congr (by simp only [reduceCtorEq, false_and]) (or_congr Iff.rfl ?_)
        unfold hoistedBinding
        cases label.any after.inside.contains <;> cases declares hoisted name <;> simp
      | false =>
        rw [if_neg Bool.false_ne_true, Node.finds_expr, ExprKind.placed]
        simp
    | _ => exact Node.finds_expr
  · have rebinds (node : Stmt) (binding : Binding) :
        (node.rebuilt (Rules.openLambda id returnsValue (hoisted.map HoistedLocal.stmt)) site).rebinds
          wrapped name binding = node.rebinds wrapped name binding := by
      obtain ⟨other, kind⟩ := node
      rw [isLocal.rebuilt_stmt]
      cases kind <;> rfl
    have before : after.before = ({ after with
        inside := after.inside ++ if declares hoisted name then [id] else [] } : Cover).before := rfl
    rw [← isLocal.placed_rebuild before site rebinds, Node.finds_stmt]
    rfl

end Inside

/-! ## Before a statement of a list -/

section Before

variable {parent id : Nat} {hoisted : List HoistedLocal} {after : Cover} {wrapped : List Nat}
  {name : String} {mark : Mark} {found : Binding}

theorem ahead?_inserting (node : Stmt) (binding : Binding) :
    (after.inserting id (declares hoisted name)).ahead? true node binding =
      if node.hasId id then after.ahead? true node (hoistedBinding hoisted name binding)
      else after.ahead? true node binding := by
  unfold Cover.ahead? Stmt.hasId Cover.inserting hoistedBinding
  rw [any_contains_append]
  by_cases hasId : node.id = some id <;> cases declares hoisted name <;> simp [hasId]

theorem inOrder_absent (absent : body.any (Stmt.hasId id) = false) (binding : Binding) :
    (after.inserting id (declares hoisted name)).inOrder wrapped name true binding body =
      after.inOrder wrapped name true binding body := by
  induction body generalizing binding with
  | nil => rfl
  | cons node rest ih =>
    rw [any_cons, Bool.or_eq_false_iff] at absent
    rw [Cover.inOrder, Cover.inOrder, ahead?_inserting, absent.1,
      if_neg Bool.false_ne_true, ih absent.2]

theorem findsIn_insertBefore (once : body.countP (Stmt.hasId id) ≤ 1) (binding : Binding) :
    FindsIn after wrapped name mark found (after.inOrder wrapped name true binding
        (insertBefore id (hoisted.map HoistedLocal.stmt) body)) ↔
      FindsIn after wrapped name mark found
        ((after.inserting id (declares hoisted name)).inOrder wrapped name true binding body) := by
  induction body generalizing binding with
  | nil => rfl
  | cons node rest ih =>
    rw [countP_cons] at once
    rw [insertBefore]
    cases hasId : node.hasId id with
    | true =>
      have absent : rest.any (Stmt.hasId id) = false := by
        rw [hasId, if_pos rfl] at once
        rw [any_eq_false]
        exact countP_eq_zero.1 (by omega)
      rw [if_pos rfl, findsIn_declared, Cover.inOrder, Cover.inOrder, ahead?_inserting,
        if_pos hasId, inOrder_absent absent]
    | false =>
      rw [if_neg Bool.false_ne_true, Cover.inOrder, Cover.inOrder, ahead?_inserting,
        if_neg (by simp [hasId]), findsIn_cons, findsIn_cons]
      exact or_congr_right (ih (by omega) _)

theorem findsIn_inserted (once : kind.listed.countP (Stmt.hasId id) ≤ 1) (binding : Binding) :
    FindsIn after wrapped name mark found ((kind.mapLists
        (insertBefore id (hoisted.map HoistedLocal.stmt))).placed after wrapped name binding) ↔
      FindsIn after wrapped name mark found
        (kind.placed (after.inserting id (declares hoisted name)) wrapped name binding) := by
  have unlisted (binding : Binding) (body : List Stmt) :
      (after.inserting id (declares hoisted name)).inOrder wrapped name false binding body =
        after.inOrder wrapped name false binding body := by
    induction body generalizing binding with
    | nil => rfl
    | cons node rest ih => exact congrArg (_ :: ·) (ih _)
  cases kind with
  | block body => exact findsIn_insertBefore once binding
  | forLoop init cond step body =>
    exact iff_of_eq (congrArg (fun places => FindsIn after wrapped name mark found (places ++ _))
      (unlisted binding init).symm)
  | switch subject sections =>
    refine findsIn_cons.trans ((or_congr_right ?_).trans findsIn_cons.symm)
    change (sections.flatMap (·.body)).countP _ ≤ 1 at once
    induction sections with
    | nil => rfl
    | cons sect rest ih =>
      rw [flatMap_cons, countP_append] at once
      simp only [map_cons, flatMap_cons, findsIn_append] at ih ⊢
      rw [ih (by omega), findsIn_insertBefore (by omega)]
  | _ => rfl

theorem declaresName_insert? {decls : List Stmt} :
    Stmt.declaresName name ⟨other, (kind.insert? id decls).getD kind⟩ =
      Stmt.declaresName name ⟨other, kind⟩ := by
  cases kind with
  | block body =>
    rw [StmtKind.insert?]
    split <;> rfl
  | switch subject sections =>
    rw [StmtKind.insert?]
    split <;> rfl
  | _ => rfl

theorem finds_inserted (hosts : ∀ below ∈ node.reachable true, below.Hosts parent id) :
    (node.rebuilt (Rules.inserted parent id hoisted) site).Finds after wrapped name mark found
        binding ↔
      node.Finds (after.append (if declares hoisted name then { before := [id] } else {})) wrapped
        name mark found binding := by
  rw [after.append_before]
  have isLocal := Rules.inserted_local parent id hoisted
  refine isLocal.finds_rebuilt (Node.Hosts parent id)
    (fun other kind binding => ?_) (fun site other kind binding hosts => ?_) node hosts site binding
  · exact Node.finds_expr
  · have rebinds (node : Stmt) (binding : Binding) :
        (node.rebuilt (Rules.inserted parent id hoisted) site).rebinds wrapped name binding =
          node.rebinds wrapped name binding := by
      obtain ⟨other, kind⟩ := node
      rw [isLocal.rebuilt_stmt]
      have declared : Stmt.declaresName name (Stmt.inserted parent id hoisted
          ⟨other, kind.rebuild (Rules.inserted parent id hoisted)
            (site.below (.stmt ⟨other, kind⟩))⟩) = Stmt.declaresName name ⟨other, kind⟩ := by
        unfold Stmt.inserted
        split
        · rw [declaresName_insert?]
          cases kind <;> rfl
        · cases kind <;> rfl
      unfold Stmt.rebinds Stmt.id
      rw [declared, isLocal.mark]
    rw [← isLocal.placed_rebuild rfl site rebinds]
    have rebuilt := isLocal.hosts_rebuild parent id site hosts
    rw [Stmt.inserted_eq hoisted rebuilt, Node.finds_stmt, findsIn_inserted rebuilt.1]
    rfl

end Before

/-! ## Units -/

/-- The statement that moves into a block when the declarations of a point are
    installed. -/
def CompilationUnit.wrappedAt (unit : CompilationUnit) (parents : ParentMap)
    (entry : InstallPoint × List HoistedLocal) : List Nat :=
  match entry.1 with
  | .stmt place => if unit.keepsListed parents place then [] else [place]
  | _ => []

/-- The statements that move into blocks. -/
def CompilationUnit.wrappedOf (parents : ParentMap) :
    List (InstallPoint × List HoistedLocal) → CompilationUnit → List Nat
  | [], _ => []
  | entry :: rest, unit =>
    wrappedOf parents rest (unit.installAt parents entry) ++ unit.wrappedAt parents entry

section Install

variable {unit : CompilationUnit} (parents : ParentMap) {mark : Mark} {found : Binding}

theorem CompilationUnit.finds_rebuild {rules : Rules Id} {cover after : Cover}
    {wrapped moved : List Nat} {name : String}
    (same : ∀ site, ∀ node ∈ unit.roots, (node.rebuilt rules site).Finds after moved name mark found
      .free ↔ node.Finds cover wrapped name mark found .free) :
    (unit.rebuild rules : Id CompilationUnit).Finds after moved name mark found ↔
      unit.Finds cover wrapped name mark found := by
  have among (places : List (Site × Node)) (areRoots : ∀ place ∈ places, place.2 ∈ unit.roots) :
      FindsIn after moved name mark found
          ((places.map fun place => place.2.rebuilt rules place.1).map (Prod.mk .free)) ↔
        FindsIn cover wrapped name mark found ((places.map Prod.snd).map (Prod.mk .free)) := by
    induction places with
    | nil => simp
    | cons place rest ih =>
      simp only [map_cons, findsIn_cons]
      rw [same _ _ (areRoots place mem_cons_self),
        ih fun other isOther => areRoots other (mem_cons_of_mem _ isOther)]
  unfold CompilationUnit.Finds
  rw [unit.roots_rebuild, among, unit.places_roots]
  intro place isPlace
  rw [← unit.places_roots]
  exact mem_map_of_mem isPlace

/-- What installing the declarations of a point makes of a unit, and which plan it
    carries out. -/
inductive CompilationUnit.Installs (unit : CompilationUnit) (hoisted : List HoistedLocal)
    (after : Cover) (wrapped : List Nat) (name : String) :
    CompilationUnit → Cover → List Nat → Prop where
  | inserted {parent id : Nat}
      (hosts : ∀ node ∈ unit.roots, ∀ below ∈ node.reachable true, below.Hosts parent id) :
      Installs unit hoisted after wrapped name (unit.rebuild (Rules.inserted parent id hoisted) : Id _)
        (after.append (if declares hoisted name then { before := [id] } else {})) wrapped
  | moved {id : Nat} : Installs unit hoisted after wrapped name
        (unit.rebuild (Rules.wrap id (hoisted.map HoistedLocal.stmt)) : Id _)
        (after.append (if declares hoisted name then { around := [id] } else {})) (wrapped ++ [id])
  | opened {id : Nat} {returnsValue : Bool} : Installs unit hoisted after wrapped name
        (unit.rebuild (Rules.openLambda id returnsValue (hoisted.map HoistedLocal.stmt)) : Id _)
        (after.append (if declares hoisted name then { inside := [id] } else {})) wrapped
  | nothing : Installs unit hoisted after wrapped name unit after wrapped

theorem CompilationUnit.Proper.installs (proper : unit.Proper) (after : Cover) (wrapped : List Nat)
    (name : String) (entry : InstallPoint × List HoistedLocal) :
    unit.Installs entry.2 after wrapped name (unit.installAt parents entry)
      (after.append (unit.coverAt parents name entry)) (wrapped ++ unit.wrappedAt parents entry) := by
  obtain ⟨point, hoisted⟩ := entry
  cases point with
  | stmt id =>
    change unit.Installs _ _ _ _ (unit.installBefore parents id (hoisted.map HoistedLocal.stmt)) _ _
    unfold coverAt wrappedAt
    rcases unit.installBefore_eq parents with
      ⟨parent, listed, taken, isUnit⟩ | ⟨unlisted, isUnit⟩
    · rw [isUnit]
      simp only [listed, if_true, append_nil]
      refine .inserted fun node isRoot below isBelow => proper.hosts taken below ?_
      rw [unit.reachable_eq]
      exact mem_flatMap.2 ⟨node, isRoot, isBelow⟩
    · rw [isUnit]
      simp only [unlisted, Bool.false_eq_true, if_false]
      exact .moved
  | lambda id returnsValue =>
    unfold wrappedAt
    rw [append_nil]
    exact .opened
  | initializer id =>
    unfold coverAt wrappedAt
    rw [ite_self, Cover.append_nil, append_nil]
    exact .nothing

theorem CompilationUnit.Installs.finds {hoisted : List HoistedLocal} {after cover : Cover}
    {wrapped moved : List Nat} {name : String} {result : CompilationUnit}
    (installs : unit.Installs hoisted after wrapped name result cover moved) :
    result.Finds after wrapped name mark found ↔ unit.Finds cover moved name mark found := by
  cases installs with
  | inserted hosts =>
    exact CompilationUnit.finds_rebuild fun site node isRoot =>
      finds_inserted (hosts node isRoot)
  | moved => exact CompilationUnit.finds_rebuild fun site node _ => finds_wrap _ hoisted
  | opened =>
    exact CompilationUnit.finds_rebuild fun site node _ =>
      finds_openLambda _ _ hoisted
  | nothing => rfl

/-- After installing, every occurrence of a name means what the queued declarations
    and the moved statements let it mean before. -/
theorem CompilationUnit.finds_install (proper : unit.Proper) (queue : HoistQueue) (name : String) :
    (unit.install parents queue).Finds {} [] name mark found ↔
      unit.Finds (coverOf parents name queue.entries unit) (wrappedOf parents queue.entries unit)
        name mark found := by
  obtain ⟨entries⟩ := queue
  unfold install
  induction entries generalizing unit with
  | nil => exact Iff.rfl
  | cons entry rest ih =>
    exact (ih (proper.installAt parents entry)).trans (proper.installs parents _ _ name entry).finds

end Install

/-! ## Names that passes hoist

A pass queues declarations while it rewrites and installs them afterwards.  Where a
rule copies a subtree instead of moving it, the copy has no identities, and what is
queued for a lambda in it is not installed.
-/

/-- Whether a name means a local that is not one of the unit that a pass starts from. -/
def Binding.isHoisted (input : CompilationUnit) (name : String) : Binding → Bool
  | free => false
  | made => true
  | user label => input.reachable.all fun node =>
    match node with
    | .stmt node => !(node.hasId label && node.declaresName name)
    | _ => true

/-- Every occurrence of a name lies in the scope of a local that a pass has declared. -/
def CompilationUnit.InScope (unit input : CompilationUnit) (name : String) : Prop :=
  ∀ mark found, unit.Finds {} [] name mark found → found.isHoisted input name = true

instance (unit input : CompilationUnit) (name : String) : Decidable (unit.InScope input name) :=
  decidable_of_iff (∀ finding ∈ unit.findings {} [] name, finding.2.isHoisted input name = true)
    ⟨fun all mark found finds => all (mark, found) (CompilationUnit.mem_findings.2 finds),
      fun inScope _ isFound => inScope _ _ (CompilationUnit.mem_findings.1 isFound)⟩

/-- A pass that rewrites a proper unit leaves a name in scope exactly if every occurrence in
    the rewritten unit is covered: it stands behind a declaration that the pass has put there,
    or where one is queued. -/
theorem PassKind.hoisted_inScope_iff (pass : PassKind) {env : PassEnv} {start : PassState}
    {result : PassResult} {unit : CompilationUnit} (proper : env.unit.Proper)
    (below : env.unit.IdsBelow start.nextId) (ran : pass.action.run env start = .ok result)
    (isUnit : result.unit = some unit) :
    ∃ rewritten after, pass.action env start = .ok (rewritten, after) ∧
      ∀ name, unit.InScope env.unit name ↔ ∀ mark found, rewritten.Finds
        (CompilationUnit.coverOf (.ofUnit env.unit) name after.hoists.entries rewritten)
        (CompilationUnit.wrappedOf (.ofUnit env.unit) after.hoists.entries rewritten)
        name mark found → found.isHoisted env.unit name = true := by
  obtain ⟨rewritten, after, acted, unchanged | rebuilt⟩ := Pass.run_ok ran
  · rw [unchanged] at isUnit
    cases isUnit
  · rw [rebuilt] at isUnit
    cases isUnit
    refine ⟨rewritten, after, acted, fun name => ?_⟩
    unfold CompilationUnit.InScope
    simp only [CompilationUnit.finds_install _ (pass.action_proper proper below acted)]

def copiedLambda : Tree :=
  let span : Span := default
  let number := span.expr (.isPattern (span.ident "y") ⟨span.mark, .declaration (.simple "int") "n"⟩)
  let test := span.lambda [.plain (.simple "object") "y"] (.expr number)
  let call := span.methodCall (span.typeRef (.simple "C")) "M" [test]
  let bound := span.expr (.isPattern call ⟨span.mark, .var "r"⟩)
  classTree none [⟨.method "M" [] [.plain (.named "Func" [.simple "object", .simple "bool"]) "f"]
      (.simple "object") (.block (span.block [span.ret (span.ident "f")])), [.isStatic], span⟩,
    ⟨.method "K" [] [] (.simple "bool") (.block (span.block [span.ret bound])), [.isStatic], span⟩]

/-- Whether a pass leaves the first name in scope and the second not. -/
def PassKind.keepsOnly (pass : PassKind) (kept lost : String) (tree : Tree) : Bool :=
  match pass.action.run (tree.analyze.env pass) (tree.analyze.start {}) with
  | .ok ⟨some unit, _, _, _⟩ =>
    let input := (tree.analyze.env pass).unit
    decide (unit.InScope input kept ∧ ¬ unit.InScope input lost)
  | _ => false

/-- The call is read once, so the condition takes a copy of it, and the declaration
    of `n` that is queued for the lambda in it is lost.  That of `r` is installed. -/
theorem PassKind.hoisted_inScope_copiedLambda :
    let input := copiedLambda.analyze.tree.unit
    ∃ result unit rewritten after,
      PassKind.patterns.action.run (copiedLambda.analyze.env .patterns)
        (copiedLambda.analyze.start {}) = .ok result ∧ result.unit = some unit ∧
      PassKind.patterns.action (copiedLambda.analyze.env .patterns)
        (copiedLambda.analyze.start {}) = .ok (rewritten, after) ∧
      unit.InScope input "r" ∧ ¬ unit.InScope input "n" ∧
      ¬ ∀ mark found, rewritten.Finds
        (CompilationUnit.coverOf (.ofUnit input) "n" after.hoists.entries rewritten)
        (CompilationUnit.wrappedOf (.ofUnit input) after.hoists.entries rewritten) "n" mark found →
          found.isHoisted input "n" = true := by
  have split : PassKind.patterns.keepsOnly "r" "n" copiedLambda = true := by decide +kernel
  obtain ⟨proper, below⟩ := copiedLambda.analyze_proper
  unfold PassKind.keepsOnly at split
  split at split
  · next unit _ _ _ ran =>
      obtain ⟨kept, lost⟩ := of_decide_eq_true split
      have start : (copiedLambda.analyze.env .patterns).unit.IdsBelow
        (copiedLambda.analyze.start {}).nextId := below
      obtain ⟨rewritten, after, acted, inScope⟩ :=
        PassKind.hoisted_inScope_iff .patterns proper start ran rfl
      exact ⟨_, unit, rewritten, after, ran, rfl, acted, kept, lost,
        fun covered => lost ((inScope "n").2 covered)⟩
  · cases split

def swappedPair : Tree :=
  let span : Span := default
  let pair (left right : String) := span.expr (.tuple [span.ident left, span.ident right])
  classTree none [⟨.method "M" [] [.plain (.simple "int") "a", .plain (.simple "int") "b"]
    (.simple "void") (.block (span.block
      [span.evalStmt (span.assign (pair "a" "b") (pair "b" "a"))])), [.isStatic], span⟩]

/-! The temporary that a pair goes through is declared with its value. -/

example : PassKind.deconstruction.keepsOnly "__t0" "a" swappedPair = true := by decide +kernel

end Unsugar
