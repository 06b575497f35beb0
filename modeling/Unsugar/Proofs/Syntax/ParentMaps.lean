import Unsugar.Proofs.Ownership.Rebuilds
import Unsugar.Proofs.Syntax.Copies
import Unsugar.Proofs.Syntax.PostOrder

open List

namespace Unsugar

/-! # Parents of numbered trees

Where every node has an identity of its own, the parent map gives for a node what
holds it in the tree: its parent, or the declaration whose root it is.  Climbing
along it passes the ancestors of the node and ends at the declaration.
-/

open Node

variable {nodes : List Node} {entry : Nat × Parent} {place : Site × Node} {owner : Owner}

namespace CompilationUnit

variable {unit : CompilationUnit}

/-- Every node has an identity, and no two nodes have the same. -/
structure Identified (unit : CompilationUnit) : Prop where
  proper : unit.Proper
  named : ∀ node ∈ unit.reachable, node.id ≠ none

/-- The roots that a declaration holds. -/
def rootsOf (unit : CompilationUnit) : Owner → List Node
  | .detached => []
  | .header type => (unit.types[type]?.map TypeDecl.headerRoots).getD []
  | .member type index =>
    ((unit.types[type]?.bind (·.members[index]?)).map (·.kind.roots)).getD []

/-- What holds a node in the tree. -/
def Owns (unit : CompilationUnit) : Parent → Node → Prop
  | .none, node => node.id ∉ unit.reachable.map Node.id
  | .node parent, node => parent ∈ unit.reachable ∧ node.id ∈ parent.children.map Node.id
  | .owner owner, node => node.id ∈ (unit.rootsOf owner).map Node.id

end CompilationUnit

/-! ## Entries -/

variable {parent : Parent}

namespace ParentMap

theorem mem_entriesFor : entry ∈ entriesFor parent nodes ↔
      some entry.1 ∈ nodes.map Node.id ∧ entry.2 = parent := by
  obtain ⟨id, found⟩ := entry
  simp only [entriesFor, mem_filterMap, Option.map_eq_some_iff, Prod.mk.injEq, mem_map]
  grind

theorem entriesFor_keys {parent : Parent} :
    (entriesFor parent nodes).map Prod.fst = nodes.filterMap Node.id := by
  simp [entriesFor, map_filterMap, Function.comp_def]

/-- The entries of a root and of everything below it. -/
def entriesAt (place : Site × Node) : List (Nat × Parent) :=
  entriesFor (.owner place.1.owner) [place.2] ++ entriesBelow place.2

theorem entriesOf_perm (owner : Owner) (roots : List Node) :
    (entriesOf owner roots).Perm ((roots.map (Prod.mk ⟨owner, []⟩)).flatMap entriesAt) := by
  have each : entriesFor (.owner owner) roots =
      roots.flatMap fun root => entriesFor (.owner owner) [root] := by
    simp [entriesFor, filterMap_eq_flatMap_toList]
  rw [entriesOf, each, flatMap_map]
  exact flatMap_append_perm roots _ _

theorem ofMembers_perm (type index : Nat) (members : List Member) :
    (ofMembers type index members).Perm ((memberPlaces type index members).flatMap entriesAt) := by
  induction members generalizing index with
  | nil => exact .refl _
  | cons member rest ih =>
    rw [ofMembers, memberPlaces, flatMap_append]
    exact (entriesOf_perm _ _).append (ih _)

theorem ofTypes_perm (index : Nat) (types : List TypeDecl) :
    (ofTypes index types).Perm ((typePlaces index types).flatMap entriesAt) := by
  induction types generalizing index with
  | nil => exact .refl _
  | cons decl rest ih =>
    rw [ofTypes, typePlaces, flatMap_append, flatMap_append]
    exact ((entriesOf_perm _ _).append (ofMembers_perm _ _ _)).append (ih _)

variable (unit : CompilationUnit)

theorem entries_perm : (ofUnit unit).entries.Perm (unit.places.flatMap entriesAt) :=
  ofTypes_perm 0 unit.types

end ParentMap

/-- Every node below another is a child of one node of the subtree. -/
theorem Node.children_perm (node : Node) :
    (node :: (node.reachable true).flatMap Node.children).Perm (node.reachable true) := by
  induction node using Node.childInduction with
  | step node ih =>
    have split : (node.children ++ node.children.flatMap fun child =>
        (child.reachable true).flatMap Node.children).Perm
          (node.children.flatMap (Node.reachable true)) := by
      have alone : node.children = node.children.flatMap fun child => [child] := by simp
      nth_rewrite 1 [alone]
      exact (flatMap_append_perm _ _ _).trans (List.Perm.flatMap_left _ ih)
    rw [node.reachable_eq, flatMap_cons, flatMap_assoc]
    exact split.cons node

namespace ParentMap

variable {unit : CompilationUnit}

theorem entriesAt_keys :
    ((entriesAt place).map Prod.fst).Perm ((place.2.reachable true).filterMap Node.id) := by
  have below : (entriesBelow place.2).map Prod.fst =
      ((place.2.reachable true).flatMap Node.children).filterMap Node.id := by
    simp only [entriesBelow, map_flatMap, entriesFor_keys, filterMap_flatMap]
  rw [entriesAt, map_append, entriesFor_keys, below, ← filterMap_append]
  exact place.2.children_perm.filterMap _

/-- The map has one entry for every identity. -/
theorem entries_keys (unit : CompilationUnit) :
    ((ofUnit unit).entries.map Prod.fst).Perm (unit.reachable.filterMap Node.id) := by
  refine ((entries_perm unit).map _).trans ?_
  rw [map_flatMap, unit.reachable_eq, ← unit.places_roots, flatMap_map,
    filterMap_flatMap]
  exact List.Perm.flatMap_left _ fun place _ => entriesAt_keys

end ParentMap

/-! ## What the map gives -/

/-- In a list that has every key once, looking a key up finds exactly its entries. -/
theorem lookup_eq_some_iff_mem {α β : Type} [DecidableEq α] {entries : List (α × β)}
    (once : (entries.map Prod.fst).Nodup) {key : α} {value : β} :
    entries.lookup key = some value ↔ (key, value) ∈ entries := by
  rw [lookup_eq_some_iff]
  constructor
  · rintro ⟨before, after, rfl, -⟩
    exact mem_append_right _ mem_cons_self
  · intro isEntry
    obtain ⟨before, after, rfl⟩ := append_of_mem isEntry
    refine ⟨before, after, rfl, fun other isBefore => bne_iff_ne.mpr ?_⟩
    rw [map_append, map_cons] at once
    have apart := (nodup_append.mp once).2.2 _ (mem_map_of_mem isBefore) key mem_cons_self
    exact apart.symm

namespace CompilationUnit

variable {unit : CompilationUnit}

theorem mem_rootsOf {root : Node} :
    root ∈ unit.rootsOf owner ↔ (⟨owner, []⟩, root) ∈ unit.places := by
  rw [places, mem_typePlaces]
  cases owner with
  | detached => simp [rootsOf, mem_memberPlaces]
  | header type =>
    simp only [rootsOf, Nat.zero_add, mem_memberPlaces]
    cases isType : unit.types[type]? <;> simp [isType]
  | member type index =>
    simp only [rootsOf, Nat.zero_add, mem_memberPlaces]
    cases isType : unit.types[type]? with
    | none => simp [isType]
    | some decl => cases isMember : decl.members[index]? <;> simp [isType, isMember]

theorem places_bare (isPlace : place ∈ unit.places) :
    place.1 = ⟨place.1.owner, []⟩ := by
  obtain ⟨type, decl, -, ⟨isSite, -⟩ | isMember⟩ := mem_typePlaces.mp isPlace
  · rw [isSite]
  · obtain ⟨index, member, -, isSite, -⟩ := mem_memberPlaces.mp isMember
    rw [isSite]

end CompilationUnit

namespace ParentMap

variable {unit : CompilationUnit}

theorem mem_entriesBelow {root : Node} : entry ∈ entriesBelow root ↔ ∃ parent ∈ root.reachable true,
      some entry.1 ∈ parent.children.map Node.id ∧ entry.2 = .node parent := by
  simp only [entriesBelow, mem_flatMap, mem_entriesFor]

theorem mem_entries {id : Nat} : (id, parent) ∈ (ofUnit unit).entries ↔
      (∃ owner, some id ∈ (unit.rootsOf owner).map Node.id ∧ parent = .owner owner) ∨
        ∃ node ∈ unit.reachable, some id ∈ node.children.map Node.id ∧ parent = .node node := by
  rw [(entries_perm unit).mem_iff, mem_flatMap]
  simp only [entriesAt, mem_append, mem_entriesFor, mem_entriesBelow, map_cons,
    map_nil, mem_singleton]
  constructor
  · rintro ⟨place, isPlace, ⟨isId, isOwner⟩ | ⟨node, isNode, isChild, isParent⟩⟩
    · refine .inl ⟨place.1.owner, mem_map.mpr ⟨place.2, ?_, isId.symm⟩, isOwner⟩
      rw [CompilationUnit.mem_rootsOf, ← CompilationUnit.places_bare isPlace]
      exact isPlace
    · refine .inr ⟨node, ?_, isChild, isParent⟩
      rw [unit.reachable_eq, ← unit.places_roots]
      exact mem_flatMap.mpr ⟨place.2, mem_map_of_mem isPlace, isNode⟩
  · rintro (⟨owner, isRoot, isOwner⟩ | ⟨node, isNode, isChild, isParent⟩)
    · obtain ⟨root, isRoot, isId⟩ := mem_map.mp isRoot
      exact ⟨(⟨owner, []⟩, root), CompilationUnit.mem_rootsOf.mp isRoot, .inl ⟨isId.symm, isOwner⟩⟩
    · rw [unit.reachable_eq, ← unit.places_roots] at isNode
      obtain ⟨root, isRoot, isBelow⟩ := mem_flatMap.mp isNode
      obtain ⟨place, isPlace, rfl⟩ := mem_map.mp isRoot
      exact ⟨place, isPlace, .inr ⟨node, isBelow, isChild, isParent⟩⟩

end ParentMap

namespace CompilationUnit

variable {unit : CompilationUnit}

theorem child_reachable {parent child : Node} (isParent : parent ∈ unit.reachable)
    (isChild : child ∈ parent.children) : child ∈ unit.reachable := by
  rw [unit.reachable_eq] at isParent ⊢
  obtain ⟨root, isRoot, isBelow⟩ := mem_flatMap.mp isParent
  refine mem_flatMap.mpr ⟨root, isRoot, root.children_perm.mem_iff.mp ?_⟩
  exact mem_cons_of_mem _ (mem_flatMap.mpr ⟨parent, isBelow, isChild⟩)

theorem root_reachable {root : Node} (isRoot : root ∈ unit.rootsOf owner) : root ∈ unit.reachable :=
  (holds_of_mem (mem_rootsOf.mp isRoot) (.here _ _)).reachable

theorem owns_iff_entry {node : Node} {id : Nat} (isId : node.id = some id)
    (isHeld : parent ≠ .none) :
    unit.Owns parent node ↔ (id, parent) ∈ (ParentMap.ofUnit unit).entries := by
  rw [ParentMap.mem_entries, ← isId]
  cases parent with
  | none => exact absurd rfl isHeld
  | node parent => simp [Owns]
  | owner owner => simp [Owns]

end CompilationUnit

namespace CompilationUnit.Identified

variable {unit : CompilationUnit} (identified : unit.Identified)

include identified

theorem keys_once : ((ParentMap.ofUnit unit).entries.map Prod.fst).Nodup :=
  (ParentMap.entries_keys unit).nodup_iff.mpr identified.proper

/-- What has a parent or is a root has an identity. -/
theorem id_of_owns {node : Node} (owns : unit.Owns parent node) (isHeld : parent ≠ .none) :
    ∃ id, node.id = some id := by
  cases parent with
  | none => exact absurd rfl isHeld
  | node parent =>
    obtain ⟨child, isChild, sameId⟩ := mem_map.mp owns.2
    rw [← sameId]
    exact Option.ne_none_iff_exists'.mp (identified.named child (child_reachable owns.1 isChild))
  | owner owner =>
    obtain ⟨root, isRoot, sameId⟩ := mem_map.mp owns
    rw [← sameId]
    exact Option.ne_none_iff_exists'.mp (identified.named root (root_reachable isRoot))

theorem parentOf_eq_iff {id : Nat} (isHeld : parent ≠ .none) :
    (ParentMap.ofUnit unit).parentOf (some id) = parent ↔
      (id, parent) ∈ (ParentMap.ofUnit unit).entries := by
  rw [← lookup_eq_some_iff_mem identified.keys_once, ParentMap.parentOf]
  cases (ParentMap.ofUnit unit).entries.lookup id with
  | none => simpa using isHeld.symm
  | some found => simp

theorem parentOf_eq_none_iff {id : Nat} :
    (ParentMap.ofUnit unit).parentOf (some id) = .none ↔ some id ∉ unit.reachable.map Node.id := by
  have keys : some id ∈ unit.reachable.map Node.id ↔
      id ∈ (ParentMap.ofUnit unit).entries.map Prod.fst := by
    rw [(ParentMap.entries_keys unit).mem_iff, mem_filterMap, mem_map]
  rw [keys, mem_map]
  constructor
  · rintro isNone ⟨⟨_, parent⟩, isEntry, rfl⟩
    have isHeld : parent ≠ .none := by
      obtain ⟨owner, -, rfl⟩ | ⟨node, -, -, rfl⟩ := ParentMap.mem_entries.mp isEntry <;> nofun
    exact isHeld (((identified.parentOf_eq_iff isHeld).mpr isEntry).symm.trans isNone)
  · intro isNowhere
    by_contra isHeld
    exact isNowhere ⟨_, (identified.parentOf_eq_iff isHeld).mp rfl, rfl⟩

/-- A node that is held is found under its holder only. -/
theorem parent_eq_iff (node : Node) (parent : Parent) :
    (ParentMap.ofUnit unit).parent node = parent ↔ unit.Owns parent node := by
  rw [ParentMap.parent]
  by_cases isHeld : parent = .none
  · subst isHeld
    cases isId : node.id with
    | none =>
      refine iff_of_true rfl fun isReachable => ?_
      obtain ⟨other, isOther, isUnnamed⟩ := mem_map.mp isReachable
      exact identified.named other isOther (isUnnamed.trans isId)
    | some id => rw [identified.parentOf_eq_none_iff, CompilationUnit.Owns, isId]
  · cases isId : node.id with
    | none =>
      refine iff_of_false (fun isNone => isHeld isNone.symm) fun owns => ?_
      obtain ⟨id, isSome⟩ := identified.id_of_owns owns isHeld
      cases isId.symm.trans isSome
    | some id =>
      rw [identified.parentOf_eq_iff isHeld, owns_iff_entry isId isHeld]

end CompilationUnit.Identified

/-! ## Climbing -/

/-- A climb from a node that stops only at what is no node. -/
inductive ParentMap.Climbs (map : ParentMap) : Node → List Node → Parent → Prop where
  | top {node : Node} {owner : Parent} (isOwner : map.parent node = owner)
      (isTop : ∀ parent, owner ≠ .node parent) : map.Climbs node [] owner
  | up {node parent : Node} {passed : List Node} {owner : Parent}
      (isParent : map.parent node = .node parent) (rest : map.Climbs parent passed owner) :
      map.Climbs node (parent :: passed) owner

namespace ParentMap

variable {map : ParentMap} {node other : Node}

theorem Climbs.unique {passed others : List Node} {owner another : Parent}
    (climbs : map.Climbs node passed owner) (again : map.Climbs node others another) :
    passed = others ∧ owner = another := by
  induction climbs generalizing others with
  | top isOwner isTop =>
    cases again with
    | top isAnother _ => exact ⟨rfl, isOwner.symm.trans isAnother⟩
    | up isParent _ => exact absurd (isOwner.symm.trans isParent) (isTop _)
  | up isParent _ ih =>
    cases again with
    | top isAnother isTop => exact absurd (isAnother.symm.trans isParent) (isTop _)
    | up isOther rest =>
      cases isParent.symm.trans isOther
      exact (ih rest).imp_left (congrArg _)

/-- A climb that comes to no node was given steps enough. -/
theorem climbs_of_climb (steps : Nat) (node : Node)
    (enough : ∀ parent, (map.climb steps node).2 ≠ .node parent) :
    map.Climbs node (map.climb steps node).1 (map.climb steps node).2 := by
  induction steps generalizing node with
  | zero => exact .top rfl enough
  | succ steps ih =>
    rw [climb] at enough ⊢
    cases isParent : map.parent node with
    | none => exact .top isParent nofun
    | owner owner => exact .top isParent nofun
    | node parent =>
      rw [isParent] at enough
      exact .up isParent (ih parent enough)

theorem climb_congr (sameId : node.id = other.id) (steps : Nat) :
    map.climb steps node = map.climb steps other := by
  have sameParent : map.parent node = map.parent other := congrArg map.parentOf sameId
  cases steps with
  | zero => rw [climb, climb, sameParent]
  | succ steps => rw [climb, climb, sameParent]

end ParentMap

namespace Node.Holds

variable {root node : Node} {site below : Site}

/-- A node stands where its root does, or below its parent. -/
theorem last (held : root.Holds site below node) :
    (below = site ∧ node = root) ∨ ∃ above parent, root.Holds site above parent ∧
      node ∈ parent.children ∧ below = above.below parent := by
  induction held with
  | here node site => exact .inl ⟨rfl, rfl⟩
  | @child root child node site below isChild held ih =>
    obtain ⟨rfl, rfl⟩ | ⟨above, parent, isAbove, isNode, isBelow⟩ := ih
    · exact .inr ⟨site, root, .here root site, isChild, rfl⟩
    · exact .inr ⟨above, parent, .child isChild isAbove, isNode, isBelow⟩

theorem ancestors_lt (held : root.Holds site below node) :
    below.ancestors.length < site.ancestors.length + (root.reachable true).length := by
  induction held with
  | here node site =>
    rw [node.reachable_eq, length_cons]
    omega
  | @child root child node site below isChild held ih =>
    have smaller := Node.length_reachable_lt isChild
    have deeper : (site.below root).ancestors.length = site.ancestors.length + 1 := rfl
    omega

end Node.Holds

theorem Node.exists_holds {root node : Node} (isBelow : node ∈ root.reachable true) (site : Site) :
    ∃ below, root.Holds site below node := by
  induction root using Node.childInduction generalizing site with
  | step root ih =>
    rw [root.reachable_eq] at isBelow
    rcases mem_cons.mp isBelow with rfl | isDeeper
    · exact ⟨site, .here _ _⟩
    · obtain ⟨child, isChild, inChild⟩ := mem_flatMap.mp isDeeper
      obtain ⟨below, held⟩ := ih child isChild inChild (site.below root)
      exact ⟨below, .child isChild held⟩

namespace CompilationUnit

variable {unit : CompilationUnit} {site : Site} {node : Node}

theorem exists_holds (isReachable : node ∈ unit.reachable) : ∃ site, unit.Holds site node := by
  rw [unit.reachable_eq, ← unit.places_roots] at isReachable
  obtain ⟨root, isRoot, isBelow⟩ := mem_flatMap.mp isReachable
  obtain ⟨place, isPlace, rfl⟩ := mem_map.mp isRoot
  obtain ⟨site, held⟩ := Node.exists_holds isBelow place.1
  exact ⟨site, holds_of_mem isPlace held⟩

/-- A node of a unit is a root of its owner, or stands below its parent. -/
theorem Holds.last (held : unit.Holds site node) :
    (site.ancestors = [] ∧ node ∈ unit.rootsOf site.owner) ∨ ∃ above parent,
      unit.Holds above parent ∧ node ∈ parent.children ∧ site = above.below parent := by
  obtain ⟨place, isPlace, held⟩ := held.start
  obtain ⟨rfl, rfl⟩ | ⟨above, parent, isAbove, isChild, isBelow⟩ := held.last
  · have bare := places_bare isPlace
    refine .inl ⟨congrArg Site.ancestors bare, mem_rootsOf.mpr ?_⟩
    rw [← bare]
    exact isPlace
  · exact .inr ⟨above, parent, holds_of_mem isPlace isAbove, isChild, isBelow⟩

theorem Holds.ancestors_lt (held : unit.Holds site node) :
    site.ancestors.length < unit.reachable.length := by
  obtain ⟨place, isPlace, held⟩ := held.start
  have bare : place.1.ancestors = [] := congrArg Site.ancestors (places_bare isPlace)
  have inRoot := held.ancestors_lt
  rw [bare, length_nil, Nat.zero_add] at inRoot
  refine Nat.lt_of_lt_of_le inRoot ?_
  rw [unit.reachable_eq, ← unit.places_roots]
  obtain ⟨before, after, isSplit⟩ := append_of_mem (mem_map_of_mem isPlace)
  rw [isSplit, flatMap_append, flatMap_cons, length_append, length_append]
  omega

namespace Identified

variable (identified : unit.Identified)

include identified

theorem ids_eq : (unit.reachable.filterMap Node.id).map some = unit.reachable.map Node.id := by
  have named := identified.named
  generalize unit.reachable = nodes at named
  induction nodes with
  | nil => rfl
  | cons node rest ih =>
    obtain ⟨id, isId⟩ := Option.ne_none_iff_exists'.mp (named node mem_cons_self)
    rw [filterMap_cons_some isId, map_cons, map_cons, isId,
      ih fun other isOther => named other (mem_cons_of_mem _ isOther)]

theorem height_eq : (ParentMap.ofUnit unit).height = unit.reachable.length := by
  have keys := (ParentMap.entries_keys unit).length_eq
  have ids := congrArg List.length identified.ids_eq
  rw [length_map] at keys
  rw [length_map, length_map] at ids
  exact keys.trans ids

theorem climb_eq (held : unit.Holds site node) {steps : Nat} (enough : site.ancestors.length ≤ steps) :
    (ParentMap.ofUnit unit).climb steps node = (site.ancestors, .owner site.owner) := by
  induction steps generalizing site node with
  | zero =>
    obtain ⟨isBare, isRoot⟩ | ⟨above, parent, -, -, rfl⟩ := held.last
    · have isOwner := (identified.parent_eq_iff node (.owner site.owner)).mpr
        (mem_map_of_mem isRoot)
      rw [ParentMap.climb, isOwner, isBare]
    · cases enough
  | succ steps ih =>
    obtain ⟨isBare, isRoot⟩ | ⟨above, parent, isAbove, isChild, rfl⟩ := held.last
    · have isOwner := (identified.parent_eq_iff node (.owner site.owner)).mpr
        (mem_map_of_mem isRoot)
      rw [ParentMap.climb, isOwner, isBare]
    · have isParent := (identified.parent_eq_iff node (.node parent)).mpr
        ⟨isAbove.reachable, mem_map_of_mem isChild⟩
      rw [ParentMap.climb, isParent]
      dsimp only
      rw [ih isAbove (Nat.le_of_succ_le_succ enough)]
      rfl

theorem climb_height (held : unit.Holds site node) :
    (ParentMap.ofUnit unit).climb (ParentMap.ofUnit unit).height node =
      (site.ancestors, .owner site.owner) :=
  identified.climb_eq held (identified.height_eq ▸ Nat.le_of_lt held.ancestors_lt)

theorem climbs (node : Node) : (ParentMap.ofUnit unit).Climbs node
    ((ParentMap.ofUnit unit).ancestors node) ((ParentMap.ofUnit unit).rootOwner node) := by
  refine ParentMap.climbs_of_climb _ node fun parent isNode => ?_
  by_cases isReachable : node.id ∈ unit.reachable.map Node.id
  · obtain ⟨other, isOther, sameId⟩ := mem_map.mp isReachable
    obtain ⟨site, held⟩ := exists_holds isOther
    rw [← ParentMap.climb_congr sameId, identified.climb_height held] at isNode
    cases isNode
  · have isNowhere := (identified.parent_eq_iff node .none).mpr isReachable
    cases isHeight : (ParentMap.ofUnit unit).height with
    | zero =>
      rw [isHeight, ParentMap.climb, isNowhere] at isNode
      cases isNode
    | succ steps =>
      rw [isHeight, ParentMap.climb, isNowhere] at isNode
      cases isNode

theorem postOrder_once : unit.postOrder.Nodup := by
  have ids : (unit.reachable.map Node.id).Nodup := by
    rw [← identified.ids_eq]
    exact List.Pairwise.map some (fun _ _ differ same => differ (Option.some.inj same))
      identified.proper
  refine unit.postOrder_perm.nodup_iff.mpr ?_
  exact (pairwise_map.mp ids).imp fun differ same => differ (congrArg Node.id same)

theorem enclosingMember?_eq_some_iff {type index : Nat} :
    (ParentMap.ofUnit unit).enclosingMember? node = some (type, index) ↔
      ∃ passed, (ParentMap.ofUnit unit).Climbs node passed (.owner (.member type index)) := by
  have isTop : (ParentMap.ofUnit unit).enclosingMember? node = some (type, index) ↔
      (ParentMap.ofUnit unit).rootOwner node = .owner (.member type index) := by
    rw [ParentMap.enclosingMember?]
    split <;> simp_all
  rw [isTop]
  have climbs := identified.climbs node
  constructor
  · intro isMember
    exact ⟨_, isMember ▸ climbs⟩
  · rintro ⟨passed, again⟩
    exact (climbs.unique again).2

/-- The parent map of a unit whose nodes all have identities of their own gives what holds each
    node, a climb along it ends at the declaration that holds the node and passes its ancestors,
    and a rebuild comes to every node once and to its children before it. -/
theorem parents_exact :
    let map : ParentMap := .ofUnit unit
    (∀ node parent, map.parent node = parent ↔ unit.Owns parent node) ∧
    (∀ node, map.Climbs node (map.ancestors node) (map.rootOwner node)) ∧
    (∀ node type index, map.enclosingMember? node = some (type, index) ↔
      ∃ passed, map.Climbs node passed (.owner (.member type index))) ∧
    (∀ site node, unit.Holds site node →
      map.ancestors node = site.ancestors ∧ map.rootOwner node = .owner site.owner) ∧
    unit.postOrder.Perm unit.reachable ∧ unit.postOrder.Nodup ∧ ChildrenFirst unit.postOrder := by
  refine ⟨identified.parent_eq_iff, identified.climbs,
    fun _ _ _ => identified.enclosingMember?_eq_some_iff, fun site node held => ?_,
    unit.postOrder_perm, identified.postOrder_once, unit.childrenFirst_postOrder⟩
  have climbed := identified.climb_height held
  exact ⟨congrArg Prod.fst climbed, congrArg Prod.snd climbed⟩

end Identified

end CompilationUnit

/-- Numbering gives every node an identity of its own. -/
theorem CompilationUnit.number_identified (unit : CompilationUnit) : unit.number.1.Identified where
  proper := unit.number_proper
  named := fun node isReachable => by
    rw [CompilationUnit.reachable_eq] at isReachable
    obtain ⟨id, -, isId⟩ := unit.number_allocated.isBelow node isReachable
    exact Option.ne_none_iff_exists'.mpr ⟨id, isId⟩

/-! A class with a method that returns what another method does. -/

namespace Returning

def callee : Expr := ⟨⟨default, some 0⟩, .ident "Other"⟩

def called : Expr := ⟨⟨default, some 1⟩, .call callee []⟩

def answer : Stmt := ⟨⟨default, some 2⟩, .ret (some called)⟩

def body : Stmt := ⟨⟨default, some 3⟩, .block [answer]⟩

def unit : CompilationUnit where
  usings := []
  namespaceName := none
  types := [{
    name := "Type", kind := .classType, modifiers := [], typeParams := [], primary := none,
    bases := [], baseArgs := none, span := default
    members := [⟨.method "Method" [] [] (.simple "int") (.block body), [], default⟩] }]

end Returning

open Returning in
theorem CompilationUnit.parents_exact_returning :
    unit.Identified ∧
    (ParentMap.ofUnit unit).ancestors (.expr callee) = [.expr called, .stmt answer, .stmt body] ∧
    (ParentMap.ofUnit unit).enclosingMember? (.expr callee) = some (0, 0) ∧
    unit.postOrder = [.expr callee, .expr called, .stmt answer, .stmt body] := by
  have proper : unit.Proper := by
    rw [Proper]
    decide
  have identified : unit.Identified := ⟨proper, by decide⟩
  obtain ⟨-, climbs, encloses, held, -⟩ := identified.parents_exact
  have isHeld : unit.Holds ⟨.member 0 0, [.expr called, .stmt answer, .stmt body]⟩ (.expr callee) :=
    .member rfl rfl List.mem_cons_self
      (.child List.mem_cons_self (.child List.mem_cons_self (.child List.mem_cons_self (.here _ _))))
  obtain ⟨ancestors, owner⟩ := held _ _ isHeld
  refine ⟨identified, ancestors, (encloses _ _ _).mpr ⟨_, owner ▸ climbs _⟩, rfl⟩

end Unsugar
