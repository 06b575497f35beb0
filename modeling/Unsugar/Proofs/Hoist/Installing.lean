import Unsugar.Lower.Hoist
import Unsugar.Proofs.Syntax.Rebuilds

open List

namespace Unsugar

/-! # Installing declarations

The declarations of one point are installed in one of three ways: before a
statement of a list, in a block around a statement, or on top of a lambda.  A
`Cover` notes where declarations of one name are about to be installed.
-/

open Node

variable {node child : Node} {body : List Stmt} {isDeclared : Bool} {sections : List Section}

/-- Where declarations of one name are about to be installed. -/
structure Cover where
  before : List Nat := []
  around : List Nat := []
  /-- On top of the bodies of these lambdas. -/
  inside : List Nat := []

def Cover.append (left right : Cover) : Cover :=
  ⟨left.before ++ right.before, left.around ++ right.around, left.inside ++ right.inside⟩

variable {kind : StmtKind} (cover : Cover)

theorem ExprKind.rebuild_ident (rules : Rules Id) (site : Site) (kind : ExprKind) {name : String} :
    (kind.rebuild rules site : Id ExprKind) = .ident name ↔ kind = .ident name := by
  cases kind with
  | ident other => exact Iff.rfl
  | _ => exact ⟨nofun, nofun⟩

/-- Whether a name is among hoisted ones. -/
def declares (hoisted : List HoistedLocal) (name : String) : Bool :=
  hoisted.any fun item => item.name == name

theorem any_contains_append {label : Option Nat} {ids : List Nat} {id : Nat} :
    label.any (ids ++ if isDeclared then [id] else []).contains =
      (label.any ids.contains || (label == some id && isDeclared)) := by
  cases label with
  | none => rfl
  | some other => cases isDeclared <;> simp [Bool.beq_eq_decide_eq]

theorem any_contains_other {label : Option Nat} {ids : List Nat} {id : Nat}
    (isOther : label ≠ some id) : label.any (ids ++ [id]).contains = label.any ids.contains := by
  cases label with
  | none => rfl
  | some other => simp [mt (congrArg some) isOther]

def Cover.inserting (cover : Cover) (id : Nat) (isDeclared : Bool) : Cover :=
  { cover with before := cover.before ++ if isDeclared then [id] else [] }

theorem Cover.append_before {id : Nat} :
    cover.append (if isDeclared then { before := [id] } else {}) = cover.inserting id isDeclared := by
  cases isDeclared <;> simp [Cover.append, Cover.inserting]

theorem Cover.append_around {id : Nat} :
    cover.append (if isDeclared then { around := [id] } else {}) =
      { cover with around := cover.around ++ if isDeclared then [id] else [] } := by
  cases isDeclared <;> simp [Cover.append]

theorem Cover.append_inside {id : Nat} :
    cover.append (if isDeclared then { inside := [id] } else {}) =
      { cover with inside := cover.inside ++ if isDeclared then [id] else [] } := by
  cases isDeclared <;> simp [Cover.append]

/-! ## Around a statement -/

section Around

variable (id : Nat) (hoisted : List HoistedLocal)

def Stmt.wrapped (node : Stmt) : Stmt :=
  if node.hasId id then
    { node with kind := .block (hoisted.map HoistedLocal.stmt ++ [node.span.stmt node.kind]) }
  else node

theorem Rules.wrap_local : (Rules.wrap id (hoisted.map HoistedLocal.stmt)).Local (fun node => node)
      (Stmt.wrapped id hoisted) where
  expr _ _ _ := rfl
  stmt _ _ _ := rfl
  pattern _ _ _ := rfl
  mark node := by
    unfold Stmt.wrapped
    split <;> rfl
  anonymous node noId := by
    unfold Stmt.wrapped Stmt.hasId
    rw [noId]
    rfl

end Around

/-! ## On top of a lambda -/

section Inside

variable (id : Nat) (returnsValue : Bool) (hoisted : List HoistedLocal)

def Expr.opened : Expr → Expr
  | ⟨mark, .lambda label params isAsync body⟩ =>
    if label == some id then
      ⟨mark, .lambda label params isAsync
        (body.install returnsValue (hoisted.map HoistedLocal.stmt))⟩
    else ⟨mark, .lambda label params isAsync body⟩
  | node => node

theorem Rules.openLambda_local :
    (Rules.openLambda id returnsValue (hoisted.map HoistedLocal.stmt)).Local
      (Expr.opened id returnsValue hoisted) (fun node => node) where
  expr _ _ kind := by cases kind <;> rfl
  stmt _ _ _ := rfl
  pattern _ _ _ := rfl
  mark _ := rfl
  anonymous _ _ := rfl

end Inside

/-! ## Before a statement of a list -/

section Before

variable (parent id : Nat) (hoisted : List HoistedLocal)

def Stmt.inserted (node : Stmt) : Stmt :=
  if node.hasId parent then
    { node with kind := (node.kind.insert? id (hoisted.map HoistedLocal.stmt)).getD node.kind }
  else node

/-- Rules that insert declarations without noting whether they did. -/
def Rules.inserted : Rules Id :=
  { Rules.keep with stmt := fun _ node kind => pure [Stmt.inserted parent id hoisted ⟨node.mark, kind⟩] }

theorem Rules.inserted_local : (Rules.inserted parent id hoisted).Local (fun node => node)
      (Stmt.inserted parent id hoisted) where
  expr _ _ _ := rfl
  stmt _ _ _ := rfl
  pattern _ _ _ := rfl
  mark node := by
    unfold Stmt.inserted
    split <;> rfl
  anonymous node noId := by
    unfold Stmt.inserted Stmt.hasId
    rw [noId]
    rfl

def StmtKind.listed : StmtKind → List Stmt
  | .block body => body
  | .switch _ sections => sections.flatMap (·.body)
  | _ => []

theorem StmtKind.insert?_isSome {decls : List Stmt} (kind : StmtKind) :
    (kind.insert? id decls).isSome = kind.listed.any (Stmt.hasId id) := by
  have ite_isSome (test : Bool) (kind : StmtKind) :
      (if test then some kind else none).isSome = test := by cases test <;> rfl
  cases kind with
  | block body => exact ite_isSome _ _
  | switch subject sections =>
    rw [StmtKind.insert?, StmtKind.listed, any_flatMap]
    exact ite_isSome _ _
  | _ => rfl

namespace Rules.Local

variable {rules : Rules Id} {atExpr : Expr → Expr} {atStmt : Stmt → Stmt}
  (isLocal : rules.Local atExpr atStmt) (site : Site) (kind : StmtKind)

include isLocal

theorem listed_rebuild :
    (kind.rebuild rules site : Id StmtKind).listed = kind.listed.map (·.rebuilt rules site) := by
  cases kind with
  | block body => exact isLocal.rebuildStmts_eq site
  | switch subject sections =>
    change (rebuildSections rules site sections : Id (List Section)).flatMap _ = _
    rw [isLocal.rebuildSections_eq, flatMap_map, StmtKind.listed, map_flatMap]
  | _ => rfl

theorem hasId_rebuilt {id : Nat} {node : Stmt} :
    (node.rebuilt rules site).hasId id = node.hasId id := by
  obtain ⟨mark, kind⟩ := node
  rw [isLocal.rebuilt_stmt]
  unfold Stmt.hasId Stmt.id
  rw [isLocal.mark]

theorem countP_listed {id : Nat} :
    (kind.rebuild rules site : Id StmtKind).listed.countP (Stmt.hasId id) =
      kind.listed.countP (Stmt.hasId id) := by
  rw [isLocal.listed_rebuild, countP_map]
  congr 1
  funext node
  exact isLocal.hasId_rebuilt site

theorem any_listed {id : Nat} : (kind.rebuild rules site : Id StmtKind).listed.any (Stmt.hasId id) =
      kind.listed.any (Stmt.hasId id) := by
  rw [isLocal.listed_rebuild, any_map]
  congr 1
  funext node
  exact isLocal.hasId_rebuilt site

end Rules.Local

/-- A statement whose lists hold another at most once, and only if it is its
    parent. -/
def Node.Hosts : Node → Prop
  | .stmt ⟨mark, kind⟩ =>
    kind.listed.countP (Stmt.hasId id) ≤ 1 ∧
      (kind.listed.any (Stmt.hasId id) = true → mark.id = some parent)
  | _ => True

theorem Rules.Local.hosts_rebuild {rules : Rules Id} {atExpr : Expr → Expr} {atStmt : Stmt → Stmt}
    (isLocal : rules.Local atExpr atStmt) (site : Site) {mark : Mark}
    (hosts : (Node.stmt ⟨mark, kind⟩).Hosts parent id) :
    (Node.stmt ⟨mark, kind.rebuild rules site⟩).Hosts parent id := by
  change _ ≤ 1 ∧ (_ = true → _)
  rwa [isLocal.countP_listed, isLocal.any_listed]

/-! ### Lists with insertions

Where a list holds the statement once at most, so do the sections of a switch
together, and inserting into one of them is inserting into each.
-/

def StmtKind.mapLists (change : List Stmt → List Stmt) : StmtKind → StmtKind
  | .block body => .block (change body)
  | .switch subject sections =>
    .switch subject (sections.map fun sect => { sect with body := change sect.body })
  | kind => kind

section Lists

variable {parent id} {decls : List Stmt}

theorem insertBefore_absent (absent : body.any (Stmt.hasId id) = false) :
    insertBefore id decls body = body := by
  induction body with
  | nil => rfl
  | cons node rest ih =>
    rw [any_cons, Bool.or_eq_false_iff] at absent
    rw [insertBefore, absent.1, if_neg Bool.false_ne_true, ih absent.2]

theorem map_insertBefore (absent : (sections.flatMap (·.body)).any (Stmt.hasId id) = false) :
    (sections.map fun sect => { sect with body := insertBefore id decls sect.body }) = sections := by
  induction sections with
  | nil => rfl
  | cons sect rest ih =>
    obtain ⟨labels, body⟩ := sect
    rw [flatMap_cons, any_append, Bool.or_eq_false_iff] at absent
    rw [map_cons, ih absent.2, insertBefore_absent absent.1]

theorem insertInSections_eq (once : (sections.flatMap (·.body)).countP (Stmt.hasId id) ≤ 1) :
    insertInSections id decls sections =
      sections.map fun sect => { sect with body := insertBefore id decls sect.body } := by
  induction sections with
  | nil => rfl
  | cons sect rest ih =>
    obtain ⟨labels, body⟩ := sect
    rw [flatMap_cons, countP_append] at once
    change body.countP (Stmt.hasId id) + _ ≤ 1 at once
    rw [insertInSections, map_cons]
    cases holds : body.any (Stmt.hasId id) with
    | true =>
      have isOne : 0 < body.countP (Stmt.hasId id) := by
        rwa [countP_pos_iff, ← any_eq_true]
      have none : (rest.flatMap (·.body)).countP (Stmt.hasId id) = 0 := by omega
      rw [if_pos rfl, map_insertBefore (any_eq_false.2 (countP_eq_zero.1 none))]
    | false =>
      rw [if_neg Bool.false_ne_true, ih (by omega), insertBefore_absent holds]

theorem StmtKind.insert?_getD (once : kind.listed.countP (Stmt.hasId id) ≤ 1) :
    (kind.insert? id decls).getD kind = kind.mapLists (insertBefore id decls) := by
  cases kind with
  | block body =>
    rw [insert?]
    split
    · rfl
    · next absent =>
        exact congrArg StmtKind.block (insertBefore_absent (Bool.of_not_eq_true absent)).symm
  | switch subject sections =>
    rw [insert?]
    split
    · exact congrArg (StmtKind.switch subject) (insertInSections_eq once)
    · next absent =>
        rw [← any_flatMap] at absent
        exact congrArg (StmtKind.switch subject)
          (map_insertBefore (Bool.of_not_eq_true absent)).symm
  | _ => rfl

theorem Stmt.inserted_eq {mark : Mark} (hosts : (Node.stmt ⟨mark, kind⟩).Hosts parent id) :
    Stmt.inserted parent id hoisted ⟨mark, kind⟩ =
      ⟨mark, kind.mapLists (insertBefore id (hoisted.map HoistedLocal.stmt))⟩ := by
  rw [← StmtKind.insert?_getD hosts.1]
  unfold inserted
  split
  · rfl
  · next isOther =>
    have absent := Bool.of_not_eq_true fun holds => isOther (beq_iff_eq.2 (hosts.2 holds))
    rw [← kind.insert?_isSome id, Option.isSome_eq_false_iff,
      Option.isNone_iff_eq_none] at absent
    rw [absent]
    rfl

end Lists

end Before

/-! ## Whether a list takes declarations

Inserting before a statement notes whether a list held the statement.  The unit
it yields is the one that local rules yield, and the note says whether one of
the statements with the identity of the parent lists it.
-/

def Values.noting : Values (StateM Bool) where
  yields action value noted := ∀ seen, action seen = (value, seen || noted)
  pure value seen := congrArg (Prod.mk value) (Bool.or_false seen).symm
  bind {_ _ action next _ _ _ _} first rest seen := by
    change next (action seen).1 (action seen).2 = _
    rw [first, rest, Bool.or_assoc]

/-- Whether a node is a statement with one identity that lists another. -/
def Node.takes (parent id : Nat) : Node → Bool
  | .stmt ⟨mark, kind⟩ => mark.id == some parent && kind.listed.any (Stmt.hasId id)
  | _ => false

/-! ## Inserting -/

section Inserting

variable (parent id : Nat) (hoisted : List HoistedLocal)

theorem Rules.insertIn_follow :
    (Rules.insertIn parent id (hoisted.map HoistedLocal.stmt)).Follow .noting
      (Rules.inserted parent id hoisted) (Node.takes parent id) where
  expr _ _ _ _ := Values.noting.pure _
  pattern _ _ _ _ := Values.noting.pure _
  stmt site below mark kind := by
    have isLocal := Rules.inserted_local parent id hoisted
    rw [Node.takes, ← isLocal.any_listed below kind]
    generalize (kind.rebuild (Rules.inserted parent id hoisted) below : Id StmtKind) = rebuilt
    rw [← rebuilt.insert?_isSome id]
    change Values.noting.yields (if mark.id == some parent then _ else _)
      [if mark.id == some parent then _ else _] _
    cases mark.id == some parent with
    | false => exact Values.noting.pure _
    | true =>
      rw [if_pos rfl, if_pos rfl]
      cases rebuilt.insert? id (hoisted.map HoistedLocal.stmt) with
      | none => exact Values.noting.pure _
      | some kind => exact fun seen => congrArg (Prod.mk _) (Bool.or_true seen).symm

theorem CompilationUnit.rebuild_insertIn (unit : CompilationUnit) :
    (unit.rebuild (Rules.insertIn parent id (hoisted.map HoistedLocal.stmt))).run false =
      ((unit.rebuild (Rules.inserted parent id hoisted) : Id CompilationUnit),
        unit.reachable.any (Node.takes parent id)) :=
  unit.rebuild_follows (Rules.insertIn_follow parent id hoisted) false

end Inserting

end Unsugar
