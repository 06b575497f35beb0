import Unsugar.Proofs.Syntax.Rebuilds

open List

namespace Unsugar

/-! # What a rebuild hands on

A rebuild hands its rules every node of a unit together with the site it stands
at.  What is known of every single node is then known of the unit.
-/

/-! ## Where nodes stand -/

/-- `root.Holds site below node`: the subtree of `root`, which stands at `site`,
    has `node` at `below`. -/
inductive Node.Holds : Node → Site → Site → Node → Prop where
  | here (node : Node) (site : Site) : node.Holds site site node
  | child {root child node : Node} {site below : Site} (isChild : child ∈ root.children)
      (held : child.Holds (site.below root) below node) : root.Holds site below node

inductive CompilationUnit.Holds (unit : CompilationUnit) : Site → Node → Prop where
  | header {type : Nat} {decl : TypeDecl} {root node : Node} {site : Site}
      (isType : unit.types[type]? = some decl) (isRoot : root ∈ decl.headerRoots)
      (held : root.Holds ⟨.header type, []⟩ site node) : unit.Holds site node
  | member {type index : Nat} {decl : TypeDecl} {member : Member} {root node : Node} {site : Site}
      (isType : unit.types[type]? = some decl) (isMember : decl.members[index]? = some member)
      (isRoot : root ∈ member.kind.roots)
      (held : root.Holds ⟨.member type index, []⟩ site node) : unit.Holds site node

theorem Node.Holds.reachable {root node : Node} {site below : Site}
    (held : root.Holds site below node) : node ∈ root.reachable true := by
  induction held with
  | here node site =>
    rw [node.reachable_eq]
    exact mem_cons_self
  | child isChild _ ih =>
    rw [Node.reachable_eq]
    exact mem_cons_of_mem _ (mem_flatMap.2 ⟨_, isChild, ih⟩)

theorem CompilationUnit.Holds.reachable {unit : CompilationUnit} {site : Site} {node : Node}
    (held : unit.Holds site node) : node ∈ unit.reachable := by
  rw [unit.reachable_eq, mem_flatMap]
  cases held with
  | header isType isRoot held =>
    refine ⟨_, mem_flatMap.2 ⟨_, mem_of_getElem? isType, ?_⟩, held.reachable⟩
    exact mem_append_left _ isRoot
  | member isType isMember isRoot held =>
    refine ⟨_, mem_flatMap.2 ⟨_, mem_of_getElem? isType, ?_⟩, held.reachable⟩
    exact mem_append_right _ (mem_flatMap.2 ⟨_, mem_of_getElem? isMember, isRoot⟩)

theorem forall_places_cons {α : Type} {holds : Nat → α → Prop} {index : Nat} {head : α}
    {rest : List α} :
    (∀ place item, (head :: rest)[place]? = some item → holds (index + place) item) ↔
      holds index head ∧
        ∀ place item, rest[place]? = some item → holds (index + 1 + place) item := by
  constructor
  · intro all
    refine ⟨all 0 head rfl, fun place item isItem => ?_⟩
    have holds := all (place + 1) item isItem
    rwa [← Nat.add_assoc, Nat.add_right_comm] at holds
  · rintro ⟨first, others⟩ place item isItem
    cases place with
    | zero =>
      cases isItem
      exact first
    | succ place =>
      rw [← Nat.add_assoc, Nat.add_right_comm]
      exact others place item isItem

theorem mem_memberPlaces {type index : Nat} {members : List Member} {place : Site × Node} :
    place ∈ memberPlaces type index members ↔ ∃ offset member, members[offset]? = some member ∧
      place.1 = ⟨.member type (index + offset), []⟩ ∧ place.2 ∈ member.kind.roots := by
  induction members generalizing index with
  | nil => simp [memberPlaces]
  | cons member rest ih =>
    obtain ⟨site, node⟩ := place
    rw [memberPlaces, mem_append, ih, mem_map]
    constructor
    · rintro (⟨root, isRoot, same⟩ | ⟨offset, other, isOther, isSite, isRoot⟩)
      · cases same
        exact ⟨0, member, rfl, rfl, isRoot⟩
      · exact ⟨offset + 1, other, isOther, by rw [isSite, Nat.add_right_comm]; rfl, isRoot⟩
    · rintro ⟨offset, other, isOther, isSite, isRoot⟩
      cases offset with
      | zero =>
        cases isOther
        exact .inl ⟨node, isRoot, Prod.ext isSite.symm rfl⟩
      | succ offset =>
        exact .inr ⟨offset, other, isOther, by rw [isSite, Nat.add_right_comm]; rfl, isRoot⟩

theorem mem_typePlaces {index : Nat} {types : List TypeDecl} {place : Site × Node} :
    place ∈ typePlaces index types ↔ ∃ offset decl, types[offset]? = some decl ∧
      ((place.1 = ⟨.header (index + offset), []⟩ ∧ place.2 ∈ decl.headerRoots) ∨
        place ∈ memberPlaces (index + offset) 0 decl.members) := by
  induction types generalizing index with
  | nil => simp [typePlaces]
  | cons decl rest ih =>
    obtain ⟨site, node⟩ := place
    rw [typePlaces, mem_append, mem_append, ih, mem_map]
    constructor
    · rintro ((⟨root, isRoot, same⟩ | isMember) | ⟨offset, other, isOther, inside⟩)
      · cases same
        exact ⟨0, decl, rfl, .inl ⟨rfl, isRoot⟩⟩
      · exact ⟨0, decl, rfl, .inr isMember⟩
      · rw [Nat.add_right_comm] at inside
        exact ⟨offset + 1, other, isOther, inside⟩
    · rintro ⟨offset, other, isOther, inside⟩
      cases offset with
      | zero =>
        cases isOther
        refine .inl (inside.imp_left ?_)
        rintro ⟨isSite, isRoot⟩
        exact ⟨node, isRoot, Prod.ext isSite.symm rfl⟩
      | succ offset =>
        rw [← Nat.add_assoc, Nat.add_right_comm] at inside
        exact .inr ⟨offset, other, isOther, inside⟩

namespace CompilationUnit

variable {unit : CompilationUnit} {site : Site} {node : Node}

theorem holds_of_mem {start : Site × Node} (isPlace : start ∈ unit.places)
    (held : start.2.Holds start.1 site node) : unit.Holds site node := by
  obtain ⟨type, decl, isType, ⟨isSite, isRoot⟩ | isMember⟩ := mem_typePlaces.mp isPlace
  · rw [Nat.zero_add] at isSite
    exact .header isType isRoot (isSite ▸ held)
  · obtain ⟨index, member, isMember, isSite, isRoot⟩ := mem_memberPlaces.mp isMember
    rw [Nat.zero_add, Nat.zero_add] at isSite
    exact .member isType isMember isRoot (isSite ▸ held)

theorem Holds.start (held : unit.Holds site node) :
    ∃ start ∈ unit.places, start.2.Holds start.1 site node := by
  cases held with
  | @header type decl root _ _ isType isRoot held =>
    refine ⟨(⟨.header type, []⟩, root), mem_typePlaces.mpr ⟨type, decl, isType, .inl ?_⟩, held⟩
    exact ⟨by rw [Nat.zero_add], isRoot⟩
  | @member type index decl member root _ _ isType isMember isRoot held =>
    refine ⟨(⟨.member type index, []⟩, root), mem_typePlaces.mpr ⟨type, decl, isType, .inr ?_⟩,
      held⟩
    refine mem_memberPlaces.mpr ⟨index, member, isMember, ?_, isRoot⟩
    rw [Nat.zero_add, Nat.zero_add]

end CompilationUnit

section Everywhere

variable (stays : Site → Node → Prop)

def StaysIn (site : Site) (root : Node) : Prop :=
  ∀ below node, root.Holds site below node → stays below node

def StayAll (places : List (Site × Node)) : Prop :=
  ∀ place ∈ places, StaysIn stays place.1 place.2

variable {stays : Site → Node → Prop}

theorem stayAll_single {site : Site} {node : Node} : StayAll stays [(site, node)] ↔
      StayAll stays (node.children.map (Prod.mk (site.below node))) ∧ stays site node := by
  simp only [StayAll, mem_singleton, mem_map, forall_eq, forall_exists_index, and_imp,
    forall_apply_eq_imp_iff₂]
  constructor
  · intro all
    refine ⟨fun child isChild below found held => ?_, all site node (.here node site)⟩
    exact all below found (.child isChild held)
  · rintro ⟨children, here⟩ below found held
    cases held with
    | here => exact here
    | child isChild held => exact children _ isChild below found held

theorem stayAll_append {left right : List (Site × Node)} :
    StayAll stays (left ++ right) ↔ StayAll stays left ∧ StayAll stays right :=
  forall_mem_append

theorem stayAll_places {unit : CompilationUnit} :
    StayAll stays unit.places ↔ ∀ site node, unit.Holds site node → stays site node := by
  constructor
  · intro all site node held
    obtain ⟨start, isPlace, held⟩ := held.start
    exact all start isPlace site node held
  · exact fun all start isPlace site node held =>
      all site node (CompilationUnit.holds_of_mem isPlace held)

end Everywhere

/-! ## Traversals -/

section Traversals

variable {m : Type → Type} [Monad m]

/-- A property of actions that follows the nodes they rebuild.  `holds places
    action same` speaks of an action that rebuilds `same`; `places` says, for every
    index, that all its nodes stay. -/
structure Traversal (rules : Rules m) {ι : Type} (stays : ι → Site → Node → Prop) where
  holds {α : Type} : (ι → Prop) → m α → α → Prop
  congr {α : Type} {places others : ι → Prop} {action : m α} {same : α} :
    holds places action same → (∀ which, others which ↔ places which) → holds others action same
  pure {α : Type} (value : α) : holds (fun _ => True) (Pure.pure value) value
  /-- Two parts that do not depend on each other. -/
  bind {α β : Type} {places others : ι → Prop} {action : m α} {next : α → m β} {same : α}
    {whole : α → β} :
    holds places action same → (∀ value, holds others (next value) (whole value)) →
      holds (fun which => places which ∧ others which) (action >>= next) (whole same)
  /-- A rule comes after the children it is given. -/
  expr (site : Site) (node : Expr) {places : ι → Prop} :
    holds places (node.kind.rebuild rules (site.below (.expr node))) node.kind →
      holds (fun which => places which ∧ stays which site (.expr node))
        (node.kind.rebuild rules (site.below (.expr node)) >>= rules.expr site node) node
  stmt (site : Site) (node : Stmt) {places : ι → Prop} :
    holds places (node.kind.rebuild rules (site.below (.stmt node))) node.kind →
      holds (fun which => places which ∧ stays which site (.stmt node))
        (node.kind.rebuild rules (site.below (.stmt node)) >>= rules.stmt site node) [node]
  pattern (site : Site) (node : Pattern) {places : ι → Prop} :
    holds places (node.kind.rebuild rules (site.below (.pattern node))) node.kind →
      holds (fun which => places which ∧ stays which site (.pattern node))
        (node.kind.rebuild rules (site.below (.pattern node)) >>= rules.pattern site node) node

def Traversal.along [LawfulMonad m] {rules : Rules m} {ι : Type} {stays : ι → Site → Node → Prop}
    (walk : Traversal rules stays) : Rebuilding rules (Rules.keep : Rules Id) where
  holds view action _ same :=
    walk.holds (fun which => StayAll (stays which) (view same).places) action same
  pure {_ _ value} isBare := walk.congr (walk.pure value) fun _ => by simp [isBare, StayAll]
  both build isFirst isSecond splits := by
    refine walk.congr (walk.bind isFirst fun a => walk.bind isSecond fun b =>
      walk.pure (build a b)) fun which => ?_
    rw [splits, Parts.append_places, stayAll_append, and_true]
  expr site node isKind := walk.congr (walk.expr site node isKind) fun _ => stayAll_single
  stmt site node view inPlace isKind := by
    refine walk.congr (walk.stmt site node isKind) fun _ => ?_
    obtain rfl | rfl := inPlace <;> exact stayAll_single
  pattern site node isKind := walk.congr (walk.pattern site node isKind) fun _ => stayAll_single

theorem CompilationUnit.rebuild_walks [LawfulMonad m] {rules : Rules m} {ι : Type}
    {stays : ι → Site → Node → Prop} (walk : Traversal rules stays) (unit : CompilationUnit) :
    walk.holds (fun which => ∀ site node, unit.Holds site node → stays which site node)
      (unit.rebuild rules) unit :=
  walk.congr (unit.rebuild_along walk.along) fun _ => stayAll_places.symm

end Traversals

end Unsugar
