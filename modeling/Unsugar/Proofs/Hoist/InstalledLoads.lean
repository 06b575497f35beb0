import Unsugar.Proofs.Hoist.InstalledBindings
import Unsugar.Proofs.Hoist.ListLoads

open List

namespace Unsugar

/-! # Loads and installed declarations

Each way to install the declarations of a point leaves lists that declare a name as
often as the plan said, and adds none that declares it twice.
-/

open Node

variable {span : Span} {rules : Rules Id} {node : Stmt}

/-- How often an identity counts once another has been added, or not. -/
theorem count_added (ids : List Nat) (isAdded : Bool) (id : Nat) (label : Option Nat) :
    (label.elim 0 fun place => (ids ++ if isAdded then [id] else []).count place) =
      (label.elim 0 fun place => ids.count place) +
        if label == some id then isAdded.toNat else 0 := by
  cases label with
  | none => rfl
  | some label =>
    by_cases same : label = id
    · subst same
      cases isAdded <;> simp
    · cases isAdded <;> simp [same, count_cons, Ne.symm same]

/-! ## Around a statement -/

variable {body : List Stmt} {cover : Cover} {wrapped : List Nat} {kind : StmtKind}

theorem listLoad_declared {name : String} {hoisted : List HoistedLocal}
    (distinct : (hoisted.map HoistedLocal.name).Nodup) :
    cover.listLoad wrapped name (hoisted.map HoistedLocal.stmt) = (declares hoisted name).toNat := by
  induction hoisted with
  | nil => rfl
  | cons item rest ih =>
    obtain ⟨isNew, areNew⟩ := nodup_cons.1 distinct
    have item_load : cover.itemLoad wrapped name item.stmt = (item.name == name).toNat := by
      simp [Cover.itemLoad, Stmt.declaresName, HoistedLocal.stmt, Span.declare, Span.stmt,
        Span.mark, Stmt.id]
    rw [map_cons, Cover.listLoad, map_cons, sum_cons, item_load]
    rw [Cover.listLoad] at ih
    rw [ih areNew]
    unfold declares
    rw [any_cons]
    by_cases isName : item.name = name
    · subst isName
      have none : rest.any (fun other => other.name == item.name) = false := by
        rw [any_eq_false]
        intro other isOther same
        exact isNew (mem_map.2 ⟨other, isOther, beq_iff_eq.1 same⟩)
      simp [none]
    · rw [beq_eq_false_iff_ne.2 isName, Bool.false_or, Bool.toNat_false, Nat.zero_add]

theorem Cover.listLoad_append {name : String} {left right : List Stmt} :
    cover.listLoad wrapped name (left ++ right) =
      cover.listLoad wrapped name left + cover.listLoad wrapped name right := by
  rw [listLoad, map_append, sum_append]
  rfl

theorem Cover.listLoad_made {name : String} {kind : StmtKind} :
    cover.listLoad wrapped name [span.stmt kind] =
      (Stmt.declaresName name ⟨span.mark, kind⟩).toNat := by
  simp [Cover.listLoad, Cover.itemLoad, Span.stmt, Stmt.id, Span.mark]

section Declared

variable {cover : Cover} {wrapped : List Nat} {name : String}

theorem HoistedLocal.not_crowds (hoisted : HoistedLocal) :
    ¬ (Node.stmt hoisted.stmt).Meets (Node.Crowds cover wrapped name) := by
  rintro meets
  rcases Node.meets_iff.1 meets with ⟨load, isLoad, heavy⟩ | ⟨child, isChild, -⟩
  · obtain rfl := mem_singleton.1 isLoad
    have light : cover.blockLoad name hoisted.stmt ≤ 1 := by
      simp [Cover.blockLoad, HoistedLocal.stmt, Span.declare, Span.stmt, Span.mark, Stmt.id,
        Bool.toNat_le]
    omega
  · cases isChild

end Declared

section Around

variable (id : Nat) (hoisted : List HoistedLocal) {after : Cover} {wrapped : List Nat}
  {name : String}

theorem itemLoad_wrapped (isLocal : rules.Local (fun node => node)
    (Stmt.wrapped id hoisted)) {site : Site} :
    after.itemLoad wrapped name (node.rebuilt rules site) =
      after.itemLoad (wrapped ++ [id]) name node := by
  obtain ⟨other, kind⟩ := node
  rw [isLocal.rebuilt_stmt]
  unfold Stmt.wrapped Stmt.hasId Stmt.id Cover.itemLoad
  by_cases hasId : other.id = some id
  · simp [hasId, Stmt.declaresName, Stmt.id]
  · simp only [beq_iff_eq, hasId, if_false, any_contains_other hasId, Stmt.id]
    cases kind <;> rfl

variable {mark : Mark}

variable {id hoisted} in
theorem Stmt.wrapped_self (hasId : mark.id = some id) {kind : StmtKind} :
    Stmt.wrapped id hoisted ⟨mark, kind⟩ =
      ⟨mark, .block (hoisted.map HoistedLocal.stmt ++ [mark.span.stmt kind])⟩ :=
  if_pos (beq_iff_eq.2 hasId)

variable {id hoisted} in
theorem Stmt.wrapped_other (isOther : mark.id ≠ some id) {kind : StmtKind} :
    Stmt.wrapped id hoisted ⟨mark, kind⟩ = ⟨mark, kind⟩ :=
  if_neg (by simpa [Stmt.hasId, Stmt.id] using isOther)

variable (distinct : (hoisted.map HoistedLocal.name).Nodup)

include distinct

/-- A block that declarations are put on top of declares a name twice only if they and
    the rest of it do. -/
theorem crowds_declared
    (crowds : (Node.stmt ⟨mark, .block (hoisted.map HoistedLocal.stmt ++ body)⟩).Meets
      (Node.Crowds after wrapped name)) :
    2 ≤ (declares hoisted name).toNat + after.listLoad wrapped name body ∨
      ∃ item ∈ body, (Node.stmt item).Meets (Node.Crowds after wrapped name) := by
  rcases Node.meets_iff.1 crowds with ⟨load, isLoad, heavy⟩ | ⟨child, isChild, meets⟩
  · rcases mem_cons.1 isLoad with rfl | isLoad
    · have light := (mark.id.any after.around.contains).toNat_le
      change 2 ≤ (mark.id.any after.around.contains).toNat + 0 at heavy
      omega
    · obtain rfl := mem_singleton.1 isLoad
      rw [Cover.listLoad_append, listLoad_declared distinct] at heavy
      exact .inl heavy
  · obtain ⟨inner, isInner, rfl⟩ := mem_map.1 isChild
    rcases mem_append.1 isInner with isDeclared | isItem
    · obtain ⟨item, -, rfl⟩ := mem_map.1 isDeclared
      exact absurd meets item.not_crowds
    · exact .inr ⟨inner, isItem, meets⟩

theorem crowds_wrapped
    (crowds : (Node.stmt ⟨mark, .block (hoisted.map HoistedLocal.stmt ++ [mark.span.stmt kind])⟩).Meets
      (Node.Crowds after wrapped name)) :
    2 ≤ (declares hoisted name).toNat + (Stmt.declaresName name ⟨mark, kind⟩).toNat ∨
      (∃ load ∈ kind.itemLists.map (after.listLoad wrapped name), 2 ≤ load) ∨
      ∃ child ∈ kind.children, child.Meets (Node.Crowds after wrapped name) := by
  rcases crowds_declared hoisted distinct crowds with heavy | ⟨item, isItem, meets⟩
  · rw [Cover.listLoad_made] at heavy
    exact .inl heavy
  · obtain rfl := mem_singleton.1 isItem
    rcases Node.meets_iff.1 meets with ⟨load, isLoad, heavy⟩ | below
    · rcases mem_cons.1 isLoad with rfl | isLoad
      · have light := (Stmt.declaresName name (mark.span.stmt kind)).toNat_le
        change 2 ≤ 0 + (Stmt.declaresName name (mark.span.stmt kind)).toNat at heavy
        omega
      · exact .inr (.inl ⟨load, isLoad, heavy⟩)
    · exact .inr (.inr below)

theorem crowds_of_wrap {site : Site} {node : Node}
    (crowds : (node.rebuilt (Rules.wrap id (hoisted.map HoistedLocal.stmt)) site).Meets
      (Node.Crowds after wrapped name)) :
    node.Meets (Node.Crowds { after with
      around := after.around ++ if declares hoisted name then [id] else [] } (wrapped ++ [id]) name) := by
  let cover := { after with around := after.around ++ if declares hoisted name then [id] else [] }
  have isLocal := Rules.wrap_local id hoisted
  have sameItem (site : Site) (node : Stmt) : after.itemLoad wrapped name
      (node.rebuilt (Rules.wrap id (hoisted.map HoistedLocal.stmt)) site) =
        cover.itemLoad (wrapped ++ [id]) name node :=
    itemLoad_wrapped id hoisted isLocal
  refine isLocal.meets_of_rebuilt (fun _ => True) (fun site mark kind meets => ?_)
    (fun site mark kind _ meets => ?_) (fun node => nofun) node (fun _ _ => trivial) site crowds
  · rcases Node.meets_iff.1 meets with ⟨load, isLoad, heavy⟩ | below
    · rw [isLocal.loads_rebuild_expr sameItem rfl] at isLoad
      exact .inl ⟨load, isLoad, heavy⟩
    · exact .inr ((kind.exists_children_rebuild _ _ _).1 below)
  · have loads := isLocal.loads_rebuild_stmt sameItem site mark kind
    have sameLists := isLocal.listLoads_rebuild site (sameItem site) kind
    have fromBlock (heavy : 2 ≤ cover.blockLoad name ⟨mark, kind⟩) :
        Node.Crowds cover (wrapped ++ [id]) name (.stmt ⟨mark, kind⟩) :=
      ⟨_, mem_cons_self, heavy⟩
    have fromLists {load : Nat} (isLoad : load ∈ kind.itemLists.map
        (cover.listLoad (wrapped ++ [id]) name)) (heavy : 2 ≤ load) :
        Node.Crowds cover (wrapped ++ [id]) name (.stmt ⟨mark, kind⟩) :=
      ⟨_, mem_cons_of_mem _ isLoad, heavy⟩
    by_cases hasId : mark.id = some id
    · rw [Stmt.wrapped_self hasId] at meets
      rcases crowds_wrapped hoisted distinct meets with heavy | ⟨load, isLoad, heavy⟩ | below
      · refine .inl (fromBlock ?_)
        rw [Rules.Local.declaresName_rebuild] at heavy
        change 2 ≤ (Option.any (after.around ++ _).contains mark.id).toNat + _
        rw [any_contains_append, hasId]
        revert heavy
        cases declares hoisted name <;> cases (some id).any after.around.contains <;>
          (simp; try omega)
      · rw [sameLists] at isLoad
        exact .inl (fromLists isLoad heavy)
      · exact .inr ((isLocal.exists_children_rebuild _ _ _).1 below)
    · rw [Stmt.wrapped_other hasId] at meets
      rcases Node.meets_iff.1 meets with ⟨load, isLoad, heavy⟩ | below
      · rw [loads] at isLoad
        rcases mem_cons.1 isLoad with rfl | isLoad
        · refine .inl (fromBlock ?_)
          change 2 ≤ (Option.any (after.around ++ _).contains mark.id).toNat + _
          rwa [any_contains_append, beq_eq_false_iff_ne.2 hasId, Bool.false_and, Bool.or_false]
        · exact .inl (fromLists isLoad heavy)
      · exact .inr ((isLocal.exists_children_rebuild _ _ _).1 below)

omit distinct in
theorem fillsList_wrapped
    (fills : (Node.stmt ⟨mark, kind⟩).Meets (Node.FillsList after wrapped name)) :
    (Node.stmt ⟨mark, .block (hoisted.map HoistedLocal.stmt ++ [span.stmt kind])⟩).Meets
      (Node.FillsList after wrapped name) := by
  have last : (Node.stmt (span.stmt kind)).Meets (Node.FillsList after wrapped name) := by
    rw [Node.meets_iff] at fills ⊢
    exact fills
  refine Node.meets_iff.2 (.inr ⟨_, ?_, last⟩)
  exact mem_map_of_mem (mem_append_right _ mem_cons_self)

omit distinct in
theorem fillsList_wrap {site : Site} {node : Node} (before : cover.before = after.before)
    (fills : node.Meets (Node.FillsList cover (wrapped ++ [id]) name)) :
    (node.rebuilt (Rules.wrap id (hoisted.map HoistedLocal.stmt)) site).Meets
      (Node.FillsList after wrapped name) := by
  have isLocal := Rules.wrap_local id hoisted
  have sameItem (site : Site) (node : Stmt) : after.itemLoad wrapped name
      (node.rebuilt (Rules.wrap id (hoisted.map HoistedLocal.stmt)) site) =
        cover.itemLoad (wrapped ++ [id]) name node := by
    rw [itemLoad_wrapped id hoisted isLocal, Cover.itemLoad, Cover.itemLoad, before]
  refine isLocal.meets_rebuilt (fun _ => True) (fun site mark kind meets => ?_)
    (fun site mark kind _ meets => ?_) (fun node => nofun) node (fun _ _ => trivial) site fills
  · rcases meets with ⟨load, isLoad, -⟩ | below
    · cases isLoad
    · exact Node.meets_iff.2 (.inr ((kind.exists_children_rebuild _ _ _).2 below))
  · have unmoved : (Node.stmt ⟨mark, kind.rebuild (Rules.wrap id (hoisted.map HoistedLocal.stmt))
        site⟩).Meets (Node.FillsList after wrapped name) := by
      rcases meets with ⟨load, isLoad, heavy⟩ | below
      · refine Node.meets_iff.2 (.inl ⟨load, ?_, heavy⟩)
        exact (isLocal.listLoads_rebuild site (sameItem site) kind).symm ▸ isLoad
      · exact Node.meets_iff.2 (.inr ((isLocal.exists_children_rebuild _ _ _).2 below))
    revert unmoved
    generalize (kind.rebuild _ site : Id StmtKind) = kind
    intro unmoved
    unfold Stmt.wrapped
    split
    · exact fillsList_wrapped hoisted unmoved
    · exact unmoved

end Around

/-! ## On top of a lambda -/

section Inside

variable (id : Nat) (returnsValue : Bool) (hoisted : List HoistedLocal) {after : Cover}
  {wrapped : List Nat} {name : String} (distinct : (hoisted.map HoistedLocal.name).Nodup)
  (site : Site)

theorem itemLoad_opened {node : Stmt} : after.itemLoad wrapped name
    (node.rebuilt (Rules.openLambda id returnsValue (hoisted.map HoistedLocal.stmt)) site) =
      after.itemLoad wrapped name node := by
  obtain ⟨other, kind⟩ := node
  rw [(Rules.openLambda_local id returnsValue hoisted).rebuilt_stmt]
  cases kind <;> rfl

include distinct

/-- Declarations on top of a body add to its load, unless it is one that can still
    move. -/
theorem bodyLoad_install {body : LambdaBody} :
    after.bodyLoad wrapped name (body.install returnsValue (hoisted.map HoistedLocal.stmt)) ≤
      (declares hoisted name).toNat + after.bodyLoad wrapped name body := by
  have onTop (span : Span) (kind : StmtKind) : after.listLoad wrapped name
      (hoisted.map HoistedLocal.stmt ++ [span.stmt kind]) =
        (declares hoisted name).toNat + (Stmt.declaresName name ⟨span.mark, kind⟩).toNat := by
    rw [Cover.listLoad_append, listLoad_declared distinct, Cover.listLoad_made]
  cases body with
  | expr value =>
    cases returnsValue
    · exact Nat.le_of_eq (onTop _ _)
    · exact Nat.le_of_eq (onTop _ _)
  | block node =>
    obtain ⟨⟨span, label⟩, kind⟩ := node
    cases label with
    | some label => cases kind <;> exact Nat.le_add_left _ _
    | none =>
      cases kind with
      | block body =>
        change after.listLoad wrapped name (hoisted.map HoistedLocal.stmt ++ body) ≤
          _ + after.listLoad wrapped name body
        rw [Cover.listLoad_append, listLoad_declared distinct]
      | _ => exact Nat.le_of_eq (onTop _ _)

theorem crowds_install_expr {value : Expr} (crowds : ∃ child ∈ ofLambdaBody
      ((LambdaBody.expr value).install returnsValue (hoisted.map HoistedLocal.stmt)),
      child.Meets (Node.Crowds after wrapped name)) :
    (expr value).Meets (Node.Crowds after wrapped name) := by
  obtain ⟨child, isChild, meets⟩ := crowds
  obtain rfl := mem_singleton.1 isChild
  have single (kind : StmtKind) (only : kind.itemLists = []) (last : kind.children = [.expr value])
      (plain : Stmt.declaresName name ⟨value.span.mark, kind⟩ = false)
      (meets : (Node.stmt ⟨value.span.mark, .block (hoisted.map HoistedLocal.stmt ++
        [value.span.mark.span.stmt kind])⟩).Meets (Node.Crowds after wrapped name)) :
      (expr value).Meets (Node.Crowds after wrapped name) := by
    rcases crowds_wrapped hoisted distinct meets with heavy | ⟨load, isLoad, -⟩ | below
    · have isFew := (declares hoisted name).toNat_le
      rw [plain, Bool.toNat_false] at heavy
      omega
    · rw [only] at isLoad
      cases isLoad
    · simpa [last] using below
  cases returnsValue
  · exact single (.eval value) rfl rfl rfl meets
  · exact single (.ret (some value)) rfl rfl rfl meets

omit distinct in
theorem min_le_bodyLoad {mark : Mark} {own : Nat}
    (isOwn : after.bodyLoad wrapped name (.block ⟨mark, kind⟩) = if mark.id.isSome then 1 else own) :
    min own 1 ≤ after.bodyLoad wrapped name (.block ⟨mark, kind⟩) := by
  rw [isOwn]
  split <;> omega

theorem crowds_install_block (crowds : ∃ child ∈ ofLambdaBody
      ((LambdaBody.block node).install returnsValue (hoisted.map HoistedLocal.stmt)),
      child.Meets (Node.Crowds after wrapped name)) :
    2 ≤ (declares hoisted name).toNat + after.bodyLoad wrapped name (.block node) ∨
      (stmt node).Meets (Node.Crowds after wrapped name) := by
  obtain ⟨child, isChild, meets⟩ := crowds
  obtain ⟨mark, kind⟩ := node
  -- a statement that is no block goes into one, after the declarations
  have moved (meets : (Node.stmt ⟨mark, .block (hoisted.map HoistedLocal.stmt ++
        [mark.span.stmt kind])⟩).Meets (Node.Crowds after wrapped name))
      (counts : (Stmt.declaresName name ⟨mark, kind⟩).toNat ≤
        after.bodyLoad wrapped name (.block ⟨mark, kind⟩)) :
      2 ≤ (declares hoisted name).toNat + after.bodyLoad wrapped name (.block ⟨mark, kind⟩) ∨
        (stmt ⟨mark, kind⟩).Meets (Node.Crowds after wrapped name) := by
    rcases crowds_wrapped hoisted distinct meets with heavy | ⟨load, isLoad, heavy⟩ | below
    · exact .inl (by omega)
    · exact .inr (Node.meets_iff.2 (.inl ⟨load, mem_cons_of_mem _ isLoad, heavy⟩))
    · exact .inr (Node.meets_iff.2 (.inr below))
  cases kind with
  | block body =>
    obtain rfl := mem_singleton.1 isChild
    have counted : min (after.listLoad wrapped name body) 1 ≤
        after.bodyLoad wrapped name (.block ⟨mark, .block body⟩) := min_le_bodyLoad rfl
    rcases crowds_declared hoisted distinct meets with heavy | ⟨item, isItem, meets⟩
    · cases isDeclared : declares hoisted name with
      | true =>
        rw [isDeclared, Bool.toNat_true] at heavy
        exact .inl (by rw [Bool.toNat_true]; omega)
      | false =>
        rw [isDeclared, Bool.toNat_false, Nat.zero_add] at heavy
        exact .inr (Node.meets_iff.2 (.inl ⟨_, mem_cons_of_mem _ mem_cons_self, heavy⟩))
    · exact .inr (Node.meets_iff.2 (.inr ⟨_, mem_map_of_mem isItem, meets⟩))
  | declare type declared init =>
    have light := (Stmt.declaresName name ⟨mark, .declare type declared init⟩).toNat_le
    have counted : min _ 1 ≤ after.bodyLoad wrapped name (.block ⟨mark, .declare type declared init⟩) :=
      min_le_bodyLoad rfl
    obtain rfl := mem_singleton.1 isChild
    exact moved meets (by omega)
  | _ =>
    obtain rfl := mem_singleton.1 isChild
    exact moved meets (Nat.zero_le _)

theorem crowds_install {body : LambdaBody} (crowds : ∃ child ∈ ofLambdaBody
      (body.install returnsValue (hoisted.map HoistedLocal.stmt)),
      child.Meets (Node.Crowds after wrapped name)) :
    2 ≤ (declares hoisted name).toNat + after.bodyLoad wrapped name body ∨
      ∃ child ∈ ofLambdaBody body, child.Meets (Node.Crowds after wrapped name) := by
  cases body with
  | expr value =>
    exact .inr ⟨_, mem_singleton_self _, crowds_install_expr returnsValue hoisted distinct crowds⟩
  | block node =>
    exact (crowds_install_block returnsValue hoisted distinct crowds).imp_right
      fun meets => ⟨_, mem_singleton_self _, meets⟩

theorem crowds_opened {mark : Mark} {kind : ExprKind}
    (crowds : (Node.expr (Expr.opened id returnsValue hoisted ⟨mark, kind⟩)).Meets
      (Node.Crowds after wrapped name)) :
    Node.Crowds { after with inside := after.inside ++ if declares hoisted name then [id] else [] }
        wrapped name (.expr ⟨mark, kind⟩) ∨
      ∃ child ∈ kind.children, child.Meets (Node.Crowds after wrapped name) := by
  cases kind with
  | lambda label params isAsync body =>
    have inside := count_added after.inside (declares hoisted name) id label
    have fromLoad (heavy : 2 ≤ (label.elim 0 fun place =>
          (after.inside ++ if declares hoisted name then [id] else []).count place) +
        after.bodyLoad wrapped name body) :
        Node.Crowds { after with
          inside := after.inside ++ if declares hoisted name then [id] else [] } wrapped name
            (.expr ⟨mark, .lambda label params isAsync body⟩) :=
      ⟨_, mem_cons_self, heavy⟩
    change (Node.expr (if label == some id then _ else _)).Meets _ at crowds
    cases isOpened : label == some id with
    | false =>
      rw [isOpened, if_neg Bool.false_ne_true, Nat.add_zero] at inside
      rw [isOpened, if_neg Bool.false_ne_true] at crowds
      rcases Node.meets_iff.1 crowds with ⟨load, isLoad, heavy⟩ | below
      · obtain rfl := mem_singleton.1 isLoad
        exact .inl (fromLoad (by rwa [inside]))
      · exact .inr below
    | true =>
      rw [isOpened, if_pos rfl] at inside crowds
      rcases Node.meets_iff.1 crowds with ⟨load, isLoad, heavy⟩ | ⟨child, isChild, meets⟩
      · obtain rfl := mem_singleton.1 isLoad
        have more : after.bodyLoad wrapped name (body.install returnsValue _) ≤ _ :=
          bodyLoad_install returnsValue hoisted distinct
        change 2 ≤ _ + after.bodyLoad wrapped name _ at heavy
        exact .inl (fromLoad (by omega))
      · rcases mem_append.1 isChild with isParam | isBody
        · exact .inr ⟨child, mem_append_left _ isParam, meets⟩
        · rcases crowds_install returnsValue hoisted distinct ⟨child, isBody, meets⟩ with
            heavy | ⟨child, isBody, meets⟩
          · exact .inl (fromLoad (by omega))
          · exact .inr ⟨child, mem_append_right _ isBody, meets⟩
  | _ => exact Node.meets_iff.1 crowds

theorem crowds_of_openLambda {node : Node}
    (crowds : (node.rebuilt (Rules.openLambda id returnsValue (hoisted.map HoistedLocal.stmt))
      site).Meets (Node.Crowds after wrapped name)) :
    node.Meets (Node.Crowds { after with
      inside := after.inside ++ if declares hoisted name then [id] else [] } wrapped name) := by
  have isLocal := Rules.openLambda_local id returnsValue hoisted
  refine isLocal.meets_of_rebuilt (fun _ => True) (fun site mark kind meets => ?_)
    (fun site mark kind _ meets => ?_) (fun node => nofun) node (fun _ _ => trivial) site crowds
  · rcases crowds_opened id returnsValue hoisted distinct meets with ⟨load, isLoad, heavy⟩ | below
    · rw [isLocal.loads_rebuild_expr (itemLoad_opened id returnsValue hoisted) rfl] at isLoad
      exact .inl ⟨load, isLoad, heavy⟩
    · exact .inr ((kind.exists_children_rebuild _ _ _).1 below)
  · rcases Node.meets_iff.1 meets with ⟨load, isLoad, heavy⟩ | below
    · rw [isLocal.loads_rebuild_stmt (itemLoad_opened id returnsValue hoisted)] at isLoad
      exact .inl ⟨load, isLoad, heavy⟩
    · exact .inr ((isLocal.exists_children_rebuild _ _ _).1 below)

omit distinct in
theorem fillsList_install {body : LambdaBody} (fills : ∃ child ∈ ofLambdaBody body,
      child.Meets (Node.FillsList after wrapped name)) :
    ∃ child ∈ ofLambdaBody (body.install returnsValue (hoisted.map HoistedLocal.stmt)),
      child.Meets (Node.FillsList after wrapped name) := by
  obtain ⟨child, isChild, meets⟩ := fills
  have last (decls : List Stmt) (node : Stmt)
      (meets : (Node.stmt node).Meets (Node.FillsList after wrapped name)) (mark : Mark) :
      (Node.stmt ⟨mark, .block (decls ++ [node])⟩).Meets (Node.FillsList after wrapped name) :=
    Node.meets_iff.2 (.inr ⟨_, mem_map_of_mem (mem_append_right _ mem_cons_self), meets⟩)
  cases body with
  | expr value =>
    obtain rfl := mem_singleton.1 isChild
    refine ⟨_, mem_singleton_self _, last _ _ ?_ _⟩
    cases returnsValue
    · exact Node.meets_iff.2 (.inr ⟨_, mem_singleton_self _, meets⟩)
    · exact Node.meets_iff.2 (.inr ⟨_, mem_singleton_self _, meets⟩)
  | block node =>
    obtain ⟨mark, kind⟩ := node
    obtain rfl := mem_singleton.1 isChild
    cases kind with
    | block body =>
      rcases Node.meets_iff.1 meets with ⟨load, isLoad, heavy⟩ | ⟨child, isChild, meets⟩
      · obtain rfl := mem_singleton.1 isLoad
        refine ⟨_, mem_singleton_self _, Node.meets_iff.2 (.inl ⟨_, mem_singleton_self _, ?_⟩)⟩
        rw [Cover.listLoad_append]
        omega
      · obtain ⟨item, isItem, rfl⟩ := mem_map.1 isChild
        exact ⟨_, mem_singleton_self _, Node.meets_iff.2 (.inr
          ⟨_, mem_map_of_mem (mem_append_right _ isItem), meets⟩)⟩
    | _ => exact ⟨_, mem_singleton_self _, fillsList_wrapped hoisted meets⟩

omit distinct in
theorem fillsList_openLambda {node : Node} (before : cover.before = after.before)
    (fills : node.Meets (Node.FillsList cover wrapped name)) :
    (node.rebuilt (Rules.openLambda id returnsValue (hoisted.map HoistedLocal.stmt)) site).Meets
      (Node.FillsList after wrapped name) := by
  have isLocal := Rules.openLambda_local id returnsValue hoisted
  have sameItem (site : Site) (node : Stmt) : after.itemLoad wrapped name (node.rebuilt
      (Rules.openLambda id returnsValue (hoisted.map HoistedLocal.stmt)) site) =
        cover.itemLoad wrapped name node := by
    rw [itemLoad_opened id returnsValue hoisted, Cover.itemLoad, Cover.itemLoad, before]
  refine isLocal.meets_rebuilt (fun _ => True) (fun site mark kind meets => ?_)
    (fun site mark kind _ meets => ?_) (fun node => nofun) node (fun _ _ => trivial) site fills
  · rcases meets with ⟨load, isLoad, -⟩ | below
    · cases isLoad
    · rw [← kind.exists_children_rebuild _ _ (·.Meets (Node.FillsList after wrapped name))] at below
      revert below
      generalize (kind.rebuild _ site : Id ExprKind) = kind
      intro below
      refine Node.meets_iff.2 (.inr ?_)
      cases kind with
      | lambda label params isAsync body =>
        change ∃ child ∈ (Node.expr (if label == some id then _ else _)).children, _
        split
        · obtain ⟨child, isChild, meets⟩ := below
          rcases mem_append.1 isChild with isParam | isBody
          · exact ⟨child, mem_append_left _ isParam, meets⟩
          · obtain ⟨child, isBody, meets⟩ :=
              fillsList_install returnsValue hoisted ⟨child, isBody, meets⟩
            exact ⟨child, mem_append_right _ isBody, meets⟩
        · exact below
      | _ => exact below
  · rcases meets with ⟨load, isLoad, heavy⟩ | below
    · refine Node.meets_iff.2 (.inl ⟨load, ?_, heavy⟩)
      exact (isLocal.listLoads_rebuild site (sameItem site) kind).symm ▸ isLoad
    · exact Node.meets_iff.2 (.inr ((isLocal.exists_children_rebuild _ _ _).2 below))

end Inside

/-! ## Before a statement of a list -/

section Before

variable {id : Nat} {decls : List Stmt}

theorem mem_insertBefore (isItem : node ∈ insertBefore id decls body) :
    node ∈ body ∨ node ∈ decls := by
  induction body with
  | nil => cases isItem
  | cons first rest ih =>
    unfold insertBefore at isItem
    split at isItem
    · exact (mem_append.1 isItem).symm
    · rcases mem_cons.1 isItem with rfl | isLater
      · exact .inl mem_cons_self
      · exact (ih isLater).imp_left (mem_cons_of_mem _)

theorem mem_insertBefore_of_mem (isItem : node ∈ body) :
    node ∈ insertBefore id decls body := by
  induction body with
  | nil => cases isItem
  | cons first rest ih =>
    unfold insertBefore
    split
    · exact mem_append_right _ isItem
    · rcases mem_cons.1 isItem with rfl | isLater
      · exact mem_cons_self
      · exact mem_cons_of_mem _ (ih isLater)

variable {child : Node} {kind : StmtKind}

theorem StmtKind.mem_children_inserted
    (isChild : child ∈ (kind.mapLists (insertBefore id decls)).children) :
    child ∈ kind.children ∨ child ∈ ofStmts decls := by
  cases kind with
  | block body =>
    obtain ⟨item, isItem, rfl⟩ := mem_map.1 isChild
    exact (mem_insertBefore isItem).imp mem_map_of_mem mem_map_of_mem
  | switch subject sections =>
    rcases mem_cons.1 isChild with rfl | isChild
    · exact .inl mem_cons_self
    obtain ⟨_, isMapped, isChild⟩ := mem_flatMap.1 isChild
    obtain ⟨sect, isSection, rfl⟩ := mem_map.1 isMapped
    have inSection (isHere : child ∈ ofSection sect) :
        child ∈ (StmtKind.switch subject sections).children :=
      mem_cons_of_mem _ (mem_flatMap.2 ⟨sect, isSection, isHere⟩)
    rcases mem_append.1 isChild with isLabel | isListed
    · exact .inl (inSection (mem_append_left _ isLabel))
    · obtain ⟨item, isItem, rfl⟩ := mem_map.1 isListed
      exact (mem_insertBefore isItem).imp
        (fun isOld => inSection (mem_append_right _ (mem_map_of_mem isOld))) mem_map_of_mem
  | _ => exact .inl isChild

theorem StmtKind.mem_children_inserted_of_mem (isChild : child ∈ kind.children) :
    child ∈ (kind.mapLists (insertBefore id decls)).children := by
  cases kind with
  | block body =>
    obtain ⟨item, isItem, rfl⟩ := mem_map.1 isChild
    exact mem_map_of_mem (mem_insertBefore_of_mem isItem)
  | switch subject sections =>
    rcases mem_cons.1 isChild with rfl | isChild
    · exact mem_cons_self
    obtain ⟨sect, isSection, isChild⟩ := mem_flatMap.1 isChild
    refine mem_cons_of_mem _ (mem_flatMap.2 ⟨_, mem_map_of_mem isSection, ?_⟩)
    rcases mem_append.1 isChild with isLabel | isListed
    · exact mem_append_left _ isLabel
    · obtain ⟨item, isItem, rfl⟩ := mem_map.1 isListed
      exact mem_append_right _ (mem_map_of_mem (mem_insertBefore_of_mem isItem))
  | _ => exact isChild

end Before

section Inserted

variable {id : Nat} {hoisted : List HoistedLocal} {after : Cover} {wrapped : List Nat}
  {name : String} (distinct : (hoisted.map HoistedLocal.name).Nodup) (isDeclared : Bool)

theorem itemLoad_inserting : (after.inserting id isDeclared).itemLoad wrapped name node =
      after.itemLoad wrapped name node + if node.hasId id then isDeclared.toNat else 0 := by
  unfold Cover.itemLoad Stmt.hasId
  rw [Cover.inserting, count_added, Nat.add_assoc]

theorem listLoad_inserting {body : List Stmt} :
    (after.inserting id isDeclared).listLoad wrapped name body =
      after.listLoad wrapped name body + body.countP (Stmt.hasId id) * isDeclared.toNat := by
  induction body with
  | nil => simp [Cover.listLoad]
  | cons node rest ih =>
    have split (cover : Cover) : cover.listLoad wrapped name (node :: rest) =
      cover.itemLoad wrapped name node + cover.listLoad wrapped name rest := rfl
    rw [split, split, ih, itemLoad_inserting, countP_cons, Nat.add_mul]
    cases node.hasId id with
    | true => simp only [if_true, Nat.one_mul]; omega
    | false => simp only [Bool.false_eq_true, if_false, Nat.zero_mul]; omega

theorem listLoad_absent (absent : body.any (Stmt.hasId id) = false) :
    (after.inserting id isDeclared).listLoad wrapped name body = after.listLoad wrapped name body := by
  have none : body.countP (Stmt.hasId id) = 0 :=
    countP_eq_zero.2 (any_eq_false.1 absent)
  rw [listLoad_inserting, none, Nat.zero_mul, Nat.add_zero]

theorem bodyLoad_inserting {body : LambdaBody} :
    after.bodyLoad wrapped name body ≤ (after.inserting id isDeclared).bodyLoad wrapped name body := by
  cases body with
  | expr value => exact Nat.le_refl _
  | block node =>
    obtain ⟨⟨span, label⟩, kind⟩ := node
    cases label with
    | some label => exact Nat.le_refl _
    | none =>
      cases kind with
      | block body =>
        change _ ≤ (after.inserting id isDeclared).listLoad wrapped name body
        rw [listLoad_inserting]
        exact Nat.le_add_right _ _
      | _ => exact Nat.le_refl _

include distinct

theorem listLoad_insertBefore (once : body.countP (Stmt.hasId id) ≤ 1) :
    after.listLoad wrapped name (insertBefore id (hoisted.map HoistedLocal.stmt) body) =
      (after.inserting id (declares hoisted name)).listLoad wrapped name body := by
  induction body with
  | nil => rfl
  | cons node rest ih =>
    have split (cover : Cover) : cover.listLoad wrapped name (node :: rest) =
      cover.itemLoad wrapped name node + cover.listLoad wrapped name rest := rfl
    rw [countP_cons] at once
    rw [insertBefore, split, itemLoad_inserting]
    cases hasId : node.hasId id with
    | true =>
      have absent : rest.any (Stmt.hasId id) = false := by
        rw [hasId, if_pos rfl] at once
        rw [any_eq_false]
        exact countP_eq_zero.1 (by omega)
      rw [if_pos rfl, if_pos rfl, Cover.listLoad_append, listLoad_declared distinct, split,
        listLoad_absent _ absent]
      omega
    | false =>
      rw [if_neg Bool.false_ne_true, if_neg Bool.false_ne_true, Nat.add_zero,
        ← ih (by omega)]
      rfl

variable {kind : StmtKind} {parent : Nat}

theorem listLoads_inserted (once : kind.listed.countP (Stmt.hasId id) ≤ 1) :
    (kind.mapLists (insertBefore id (hoisted.map HoistedLocal.stmt))).itemLists.map
        (after.listLoad wrapped name) =
      kind.itemLists.map ((after.inserting id (declares hoisted name)).listLoad wrapped name) := by
  cases kind with
  | block body => exact congrArg (fun load => [load]) (listLoad_insertBefore distinct once)
  | switch subject sections =>
    simp only [StmtKind.mapLists, StmtKind.itemLists, map_map]
    refine map_congr_left fun sect isSection => listLoad_insertBefore distinct ?_
    refine Nat.le_trans (Sublist.countP_le ?_) once
    exact sublist_flatten_of_mem (mem_map_of_mem isSection)
  | _ => rfl

omit distinct in
theorem declaresName_inserted {parent : Nat} {mark : Mark} {kind : StmtKind} :
    Stmt.declaresName name (Stmt.inserted parent id hoisted ⟨mark, kind⟩) =
      Stmt.declaresName name ⟨mark, kind⟩ := by
  unfold Stmt.inserted
  split
  · exact declaresName_insert?
  · rfl

omit distinct in
theorem itemLoad_inserted {parent : Nat} {cover : Cover} {site : Site} :
    cover.itemLoad wrapped name (node.rebuilt (Rules.inserted parent id hoisted) site) =
      cover.itemLoad wrapped name node := by
  obtain ⟨other, kind⟩ := node
  have isLocal := Rules.inserted_local parent id hoisted
  unfold Cover.itemLoad Stmt.id
  rw [isLocal.rebuilt_stmt, declaresName_inserted, isLocal.mark, Rules.Local.declaresName_rebuild]

theorem loads_inserted {mark : Mark} (hosts : (Node.stmt ⟨mark, kind⟩).Hosts parent id)
    (site : Site) :
    (Node.stmt (Stmt.inserted parent id hoisted ⟨mark, kind.rebuild (Rules.inserted parent id hoisted)
        site⟩)).loads after wrapped name =
      (Node.stmt ⟨mark, kind⟩).loads (after.inserting id (declares hoisted name)) wrapped name := by
  have isLocal := Rules.inserted_local parent id hoisted
  have sameItem (node : Stmt) : (after.inserting id (declares hoisted name)).itemLoad wrapped name
      (node.rebuilt (Rules.inserted parent id hoisted) site) =
        (after.inserting id (declares hoisted name)).itemLoad wrapped name node :=
    itemLoad_inserted
  have rebuilt := isLocal.hosts_rebuild parent id site hosts
  have declared : Stmt.declaresName name (Stmt.inserted parent id hoisted ⟨mark, kind.rebuild
      (Rules.inserted parent id hoisted) site⟩) = Stmt.declaresName name ⟨mark, kind⟩ := by
    rw [declaresName_inserted, Rules.Local.declaresName_rebuild]
  rw [Stmt.inserted_eq hoisted rebuilt] at declared ⊢
  rw [Node.loads, Node.loads, listLoads_inserted distinct rebuilt.1,
    isLocal.listLoads_rebuild site sameItem, Cover.blockLoad, Cover.blockLoad, declared]
  rfl

theorem crowds_of_inserted {node : Node}
    (hosts : ∀ below ∈ node.reachable true, below.Hosts parent id) {site : Site}
    (crowds : (node.rebuilt (Rules.inserted parent id hoisted) site).Meets
      (Node.Crowds after wrapped name)) :
    node.Meets (Node.Crowds (after.inserting id (declares hoisted name)) wrapped name) := by
  have isLocal := Rules.inserted_local parent id hoisted
  refine isLocal.meets_of_rebuilt (Node.Hosts parent id) (fun site mark kind meets => ?_)
    (fun site mark kind fits meets => ?_) (fun node => nofun) node hosts site crowds
  · have sameItem (site : Site) (node : Stmt) : after.itemLoad wrapped name
        (node.rebuilt (Rules.inserted parent id hoisted) site) = after.itemLoad wrapped name node :=
      itemLoad_inserted
    rcases Node.meets_iff.1 meets with ⟨load, isLoad, heavy⟩ | below
    · rw [isLocal.loads_rebuild_expr sameItem rfl] at isLoad
      refine .inl ?_
      cases kind with
      | lambda label params isAsync body =>
        obtain rfl := mem_singleton.1 isLoad
        exact ⟨_, mem_singleton_self _,
          Nat.le_trans heavy (Nat.add_le_add_left (bodyLoad_inserting _) _)⟩
      | _ => cases isLoad
    · exact .inr ((kind.exists_children_rebuild _ _ _).1 below)
  · rcases Node.meets_iff.1 meets with ⟨load, isLoad, heavy⟩ | ⟨child, isChild, meets⟩
    · rw [loads_inserted distinct fits] at isLoad
      exact .inl ⟨load, isLoad, heavy⟩
    · refine .inr ((isLocal.exists_children_rebuild _ _ _).1 ⟨child, ?_, meets⟩)
      rw [Stmt.inserted_eq hoisted (isLocal.hosts_rebuild parent id site fits)] at isChild
      rcases StmtKind.mem_children_inserted isChild with isOld | isNew
      · exact isOld
      · obtain ⟨decl, isDecl, rfl⟩ := mem_map.1 isNew
        obtain ⟨item, -, rfl⟩ := mem_map.1 isDecl
        exact absurd meets item.not_crowds

theorem fillsList_inserted {node : Node}
    (hosts : ∀ below ∈ node.reachable true, below.Hosts parent id) {site : Site}
    (fills : node.Meets (Node.FillsList (after.inserting id (declares hoisted name)) wrapped name)) :
    (node.rebuilt (Rules.inserted parent id hoisted) site).Meets
      (Node.FillsList after wrapped name) := by
  have isLocal := Rules.inserted_local parent id hoisted
  refine isLocal.meets_rebuilt (Node.Hosts parent id) (fun site mark kind meets => ?_)
    (fun site mark kind fits meets => ?_) (fun node => nofun) node hosts site fills
  · rcases meets with ⟨load, isLoad, -⟩ | below
    · cases isLoad
    · exact Node.meets_iff.2 (.inr ((kind.exists_children_rebuild _ _ _).2 below))
  · have loads : _ = (Node.stmt ⟨mark, kind⟩).loads (after.inserting id (declares hoisted name))
        wrapped name := loads_inserted distinct fits site
    rcases meets with ⟨load, isLoad, heavy⟩ | below
    · refine Node.meets_iff.2 (.inl ⟨load, ?_, heavy⟩)
      rw [Node.itemLists, (List.cons.inj loads).2]
      exact isLoad
    · obtain ⟨child, isChild, meets⟩ := (isLocal.exists_children_rebuild _ _ _).2 below
      rw [Stmt.inserted_eq hoisted (isLocal.hosts_rebuild parent id site fits)]
      exact Node.meets_iff.2 (.inr ⟨child, StmtKind.mem_children_inserted_of_mem isChild, meets⟩)

end Inserted

/-! ## Units -/

section Install

variable {unit : CompilationUnit} {name : String} {test other : Node → Prop}

theorem CompilationUnit.meets_of_rebuild
    (same : ∀ site, ∀ node ∈ unit.roots, (node.rebuilt rules site).Meets test → node.Meets other)
    (meets : ∃ node ∈ (unit.rebuild rules : Id CompilationUnit).reachable, test node) :
    ∃ node ∈ unit.reachable, other node := by
  obtain ⟨place, isPlace, meets⟩ := CompilationUnit.meets_rebuild.1 meets
  have isRoot : place.2 ∈ unit.roots := by
    rw [← unit.places_roots]
    exact mem_map_of_mem isPlace
  exact CompilationUnit.meets_iff.2 ⟨place.2, isRoot, same _ _ isRoot meets⟩

theorem CompilationUnit.meets_rebuild_of
    (same : ∀ site, ∀ node ∈ unit.roots, node.Meets other → (node.rebuilt rules site).Meets test)
    (meets : ∃ node ∈ unit.reachable, other node) :
    ∃ node ∈ (unit.rebuild rules : Id CompilationUnit).reachable, test node := by
  obtain ⟨root, isRoot, meets⟩ := CompilationUnit.meets_iff.1 meets
  have isRoot' := isRoot
  rw [← unit.places_roots] at isRoot
  obtain ⟨place, isPlace, rfl⟩ := mem_map.1 isRoot
  exact CompilationUnit.meets_rebuild.2 ⟨place, isPlace, same _ _ isRoot' meets⟩

section Installs

variable {hoisted : List HoistedLocal} {after cover : Cover} {wrapped moved : List Nat}
  {result : CompilationUnit} (distinct : (hoisted.map HoistedLocal.name).Nodup)
  (installs : unit.Installs hoisted after wrapped name result cover moved)

include distinct installs

theorem CompilationUnit.Installs.crowds (crowds : result.Crowds after wrapped name) :
    unit.Crowds cover moved name := by
  cases installs with
  | @inserted parent id hosts =>
    rw [after.append_before]
    exact CompilationUnit.meets_of_rebuild (fun site node isRoot =>
      crowds_of_inserted distinct (hosts node isRoot)) crowds
  | @moved id =>
    rw [after.append_around]
    exact CompilationUnit.meets_of_rebuild
      (fun site node _ => crowds_of_wrap id hoisted distinct) crowds
  | @opened id returnsValue =>
    rw [after.append_inside]
    exact CompilationUnit.meets_of_rebuild
      (fun site node _ => crowds_of_openLambda id returnsValue hoisted distinct site) crowds
  | nothing => exact crowds

theorem CompilationUnit.Installs.fillsList (fills : unit.FillsList cover moved name) :
    result.FillsList after wrapped name := by
  cases installs with
  | @inserted parent id hosts =>
    rw [after.append_before] at fills
    exact CompilationUnit.meets_rebuild_of (fun site node isRoot =>
      fillsList_inserted distinct (hosts node isRoot)) fills
  | @moved id =>
    rw [after.append_around] at fills
    exact CompilationUnit.meets_rebuild_of (fun site node _ => fillsList_wrap id hoisted rfl) fills
  | @opened id returnsValue =>
    rw [after.append_inside] at fills
    exact CompilationUnit.meets_rebuild_of
      (fun site node _ => fillsList_openLambda id returnsValue hoisted site rfl) fills
  | nothing => exact fills

end Installs

end Install

end Unsugar
