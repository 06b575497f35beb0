import Unsugar.Proofs.Analysis.Resolutions
import Unsugar.Proofs.Switch.InstalledJumps

open List

namespace Unsugar

/-! # Paths

A path leads from a unit down to a node, child by child.  In two units whose nodes
correspond, the same path leads to nodes that do, whatever identities they have.
-/

open Infer Node

/-! ## What stands at the end of a path -/

/-- The number of arguments that an expression is called with, if it is what this node
    calls. -/
def Node.arity? : Node → Option Nat
  | .expr ⟨_, .call _ args⟩ => some args.length
  | _ => none

/-- How many of the first children of a node the analysis leaves out. -/
def Node.unmet : Node → Nat
  | .expr ⟨_, .lambda _ params _ _⟩ => (ofParams params).length
  | _ => 0

structure Place where
  site : Site
  node : Node
  /-- The number of arguments that the node is called with. -/
  arity : Option Nat := none
  /-- Whether the analysis comes along the path. -/
  isMet : Bool := true

namespace Place

def below (place : Place) (step : Nat) (child : Node) : Place where
  site := place.site.below place.node
  node := child
  arity := if step = 0 then place.node.arity? else none
  isMet := place.isMet && decide (place.node.unmet ≤ step)

/-- What stands at the end of a path; each step goes to the child with that number. -/
def follow? : Place → List Nat → Option Place
  | place, [] => some place
  | place, step :: rest =>
    place.node.children[step]?.bind fun child => (place.below step child).follow? rest

end Place

/-- What stands at the end of a path whose first step is to a root of a unit. -/
def CompilationUnit.at? (unit : CompilationUnit) : List Nat → Option Place
  | [] => none
  | step :: rest => unit.places[step]?.bind fun (site, node) => Place.follow? { site, node } rest

/-! ## Paths and sites -/

theorem Node.analyzed_eq (node : Node) : node.analyzed = node.children.drop node.unmet := by
  unfold analyzed unmet
  split
  · exact drop_left.symm
  · rename_i noLambda
    obtain ⟨mark, kind⟩ | node | node := node
    · cases kind with
      | lambda label params isAsync body => exact absurd rfl (noLambda mark label params isAsync body)
      | _ => rfl
    · rfl
    · rfl

theorem count_add_le_tally_of_ne (id : Nat) {nodes : List Node} {first second : Nat}
    {node other : Node} (differ : first ≠ second) (isNode : nodes[first]? = some node)
    (isOther : nodes[second]? = some other) : node.count id + other.count id ≤ tally id nodes := by
  induction nodes generalizing first second with
  | nil => cases isNode
  | cons head rest ih =>
    rw [tally_cons]
    cases first with
    | zero =>
      cases second with
      | zero => exact absurd rfl differ
      | succ second =>
        cases isNode
        have isRest : other ∈ rest := mem_of_getElem? isOther
        exact Nat.add_le_add_left (count_le_tally isRest) _
    | succ first =>
      cases second with
      | zero =>
        cases isOther
        have isRest : node ∈ rest := mem_of_getElem? isNode
        rw [Nat.add_comm]
        exact Nat.add_le_add_left (count_le_tally isRest) _
      | succ second =>
        exact Nat.le_trans (ih (fun same => differ (congrArg _ same)) isNode isOther)
          (Nat.le_add_left _ _)

namespace Place

variable {place target : Place} {step : Nat} {path : List Nat}

theorem follow?_cons (followed : place.follow? (step :: path) = some target) :
    ∃ child, place.node.children[step]? = some child ∧
      (place.below step child).follow? path = some target :=
  Option.bind_eq_some_iff.mp followed

theorem follow?_step {child : Node} (isChild : place.node.children[step]? = some child) :
    place.follow? (step :: path) = (place.below step child).follow? path := by
  rw [follow?, isChild]
  rfl

theorem follow?_holds (followed : place.follow? path = some target) :
    place.node.Holds place.site target.site target.node := by
  induction path generalizing place with
  | nil =>
    cases followed
    exact .here _ _
  | cons step rest ih =>
    obtain ⟨child, isChild, followed⟩ := follow?_cons followed
    exact .child (mem_of_getElem? isChild) (ih followed)

theorem follow?_meets (followed : place.follow? path = some target) (isMet : target.isMet = true) :
    place.isMet = true ∧ place.node.Visits place.site target.site target.node := by
  induction path generalizing place with
  | nil =>
    cases followed
    exact ⟨isMet, .here _ _⟩
  | cons step rest ih =>
    obtain ⟨child, isChild, followed⟩ := follow?_cons followed
    obtain ⟨comes, met⟩ := ih followed
    obtain ⟨comes, isAnalyzed⟩ := Bool.and_eq_true_iff.mp comes
    refine ⟨comes, .child ?_ met⟩
    rw [place.node.analyzed_eq]
    refine mem_of_getElem? (i := step - place.node.unmet) ?_
    rw [getElem?_drop, Nat.add_sub_cancel' (of_decide_eq_true isAnalyzed)]
    exact isChild

theorem exists_path {root node : Node} {site below : Site} (met : root.Visits site below node) :
    ∀ place : Place, place.site = site → place.node = root → place.isMet = true →
      ∃ path target, place.follow? path = some target ∧ target.site = below ∧
        target.node = node ∧ target.isMet = true := by
  induction met with
  | here node site => exact fun place isSite isNode isMet => ⟨[], place, rfl, isSite, isNode, isMet⟩
  | @child root child node site below isAnalyzed _ ih =>
    rintro place rfl rfl isMet
    rw [place.node.analyzed_eq] at isAnalyzed
    obtain ⟨index, isChild⟩ := mem_iff_getElem?.mp isAnalyzed
    rw [getElem?_drop] at isChild
    have comes : (place.below (place.node.unmet + index) child).isMet = true := by
      simp [Place.below, isMet]
    obtain ⟨path, target, followed, reached⟩ := ih _ rfl rfl comes
    exact ⟨_ :: path, target, (follow?_step isChild).trans followed, reached⟩

theorem exists_path_of_reachable {root node : Node} (isReachable : node ∈ root.reachable true) :
    ∀ place : Place, place.node = root →
      ∃ path target, place.follow? path = some target ∧ target.node = node := by
  induction root using Node.childInduction with
  | step root ih =>
    rw [root.reachable_eq, mem_cons, mem_flatMap] at isReachable
    rintro place rfl
    obtain rfl | ⟨child, isChild, isBelow⟩ := isReachable
    · exact ⟨[], place, rfl, rfl⟩
    · obtain ⟨step, isStep⟩ := mem_iff_getElem?.mp isChild
      obtain ⟨path, target, followed, reached⟩ :=
        ih child isChild isBelow (place.below step child) rfl
      exact ⟨step :: path, target, (follow?_step isStep).trans followed, reached⟩

/-! ## Single identities -/

theorem follow?_unique {id : Nat} {other : Place} {route : List Nat}
    (single : place.node.count id ≤ 1) (followed : place.follow? path = some target)
    (isId : target.node.id = some id) (followedOther : place.follow? route = some other)
    (isOther : other.node.id = some id) : route = path := by
  have below {place target : Place} {step : Nat} {path : List Nat}
      (followed : place.follow? (step :: path) = some target) (isId : target.node.id = some id) :
      0 < tally id place.node.children := by
    obtain ⟨child, isChild, followed⟩ := follow?_cons followed
    exact Nat.lt_of_lt_of_le ((follow?_holds followed).count_pos isId)
      (count_le_tally (mem_of_getElem? isChild))
  have here {place : Place} (isId : place.node.id = some id) :
      place.node.count id = 1 + tally id place.node.children := by
    rw [place.node.count_eq, Mark.bears, if_pos (show place.node.mark.id = some id from isId)]
  induction path generalizing place route with
  | nil =>
    cases followed
    cases route with
    | nil => rfl
    | cons step route =>
      have positive := below followedOther isOther
      rw [here isId] at single
      omega
  | cons step path ih =>
    cases route with
    | nil =>
      cases followedOther
      have positive := below followed isId
      rw [here isOther] at single
      omega
    | cons turn route =>
      obtain ⟨child, isChild, followed⟩ := follow?_cons followed
      obtain ⟨turned, isTurned, followedOther⟩ := follow?_cons followedOther
      have first := (follow?_holds followed).count_pos isId
      have second := (follow?_holds followedOther).count_pos isOther
      have within := Nat.le_trans place.node.tally_children_le single
      by_cases same : step = turn
      · cases same
        cases isChild.symm.trans isTurned
        have singleChild := Nat.le_trans (count_le_tally (mem_of_getElem? isChild)) within
        rw [ih singleChild followed followedOther]
      · have both := count_add_le_tally_of_ne id same isChild isTurned
        change 0 < child.count id at first
        change 0 < turned.count id at second
        omega

theorem arity_child {node child : Node} {site : Site} (single : ∀ id, node.count id ≤ 1)
    (isChild : node.children[step]? = some child) (isNumbered : child.id.isSome = true) :
    (if step = 0 then node.arity? else none) = (site.below node).arity? child.id := by
  obtain ⟨mark, kind⟩ | node | node := node
  · cases kind with
    | call callee args =>
      cases step with
      | zero =>
        cases isChild
        exact (if_pos rfl).symm
      | succ step =>
        refine (if_neg fun same => ?_).symm
        obtain ⟨id, isId⟩ := Option.isSome_iff_exists.mp isNumbered
        have first : 0 < (expr callee).count id :=
          (Holds.here (expr callee) site).count_pos (same.trans isId)
        have second := (Holds.here child site).count_pos isId
        have both := count_add_le_tally_of_ne id (Nat.zero_ne_add_one step)
          (show (expr callee :: ofExprs args)[0]? = some (expr callee) from rfl) isChild
        have within : tally id (expr callee :: ofExprs args) ≤ 1 :=
          Nat.le_trans (Node.tally_children_le (expr ⟨mark, .call callee args⟩)) (single id)
        omega
    | _ => exact ite_self none
  · exact ite_self none
  · exact ite_self none

theorem follow?_arity (single : ∀ id, place.node.count id ≤ 1)
    (areNumbered : ∀ below ∈ place.node.reachable true, below.id.isSome = true)
    (called : place.arity = place.site.arity? place.node.id)
    (followed : place.follow? path = some target) :
    target.arity = target.site.arity? target.node.id := by
  induction path generalizing place with
  | nil =>
    cases followed
    exact called
  | cons step rest ih =>
    obtain ⟨child, isChild, followed⟩ := follow?_cons followed
    have isIn := mem_of_getElem? isChild
    rw [place.node.reachable_eq] at areNumbered
    have areBelow := forall_mem_flatMap.mp (forall_mem_cons.mp areNumbered).2 child isIn
    refine ih (fun id => ?_) areBelow ?_ followed
    · exact Nat.le_trans (count_le_tally isIn) (Nat.le_trans place.node.tally_children_le (single id))
    · refine arity_child single isChild (areBelow child ?_)
      rw [child.reachable_eq]
      exact mem_cons_self

end Place

/-! ## Nodes that correspond -/

inductive Node.Mirrors (rel : Site → Node → Node → Prop) : Site → Node → Node → Prop where
  | alone {site : Site} {node result : Node} (isRelated : rel site node result)
      (isAlone : node.children = []) : Mirrors rel site node result
  | inner {site : Site} {node result : Node} (isRelated : rel site node result)
      (sameArity : result.arity? = node.arity?) (sameUnmet : result.unmet = node.unmet)
      (sameLength : node.children.length = result.children.length)
      (children : ∀ (step : Nat) (child other : Node), node.children[step]? = some child →
        result.children[step]? = some other → Mirrors rel (site.below node) child other) :
      Mirrors rel site node result

theorem Node.Mirrors.related {rel : Site → Node → Node → Prop} {site : Site} {node result : Node}
    (mirrors : Mirrors rel site node result) : rel site node result := by
  cases mirrors with
  | alone isRelated => exact isRelated
  | inner isRelated => exact isRelated

section Kinds

variable {rel : Site → Node → Node → Prop} {site : Site} {mark after : Mark}
  {kind : ExprKind}

theorem ExprKind.Related.sameHead {related : Node → Node → Prop} {result : ExprKind}
    (isRelated : kind.Related related result) : result.head = kind.head := by
  cases isRelated with
  | alone | lambda | test | paren => rfl
  | other _ _ sameHead => exact sameHead

theorem arity?_eq {mark : Mark} {kind : ExprKind} :
    (expr ⟨mark, kind⟩).arity? = match kind.head with
      | .call arity => some arity
      | _ => none := by
  cases kind <;> rfl

theorem unmet_of_isOther {mark : Mark} (isOther : kind.isOther = true) :
    (expr ⟨mark, kind⟩).unmet = 0 := by
  cases kind <;> first | rfl | cases isOther

theorem Node.Mirrors.ofChildren {node result : Node} (isRelated : rel site node result)
    (sameArity : result.arity? = node.arity?) (sameUnmet : result.unmet = node.unmet)
    (children : Forall₂ (Mirrors rel (site.below node)) node.children result.children) :
    Mirrors rel site node result := by
  refine .inner isRelated sameArity sameUnmet children.length_eq fun step child other isChild isOther => ?_
  obtain ⟨isIn, rfl⟩ := List.getElem?_eq_some_iff.mp isChild
  obtain ⟨isThere, rfl⟩ := List.getElem?_eq_some_iff.mp isOther
  exact children.get isIn isThere

theorem Node.Mirrors.ofExpr {result : ExprKind}
    (related : kind.Related (Mirrors rel (site.below (.expr ⟨mark, kind⟩))) result)
    (isRelated : rel site (.expr ⟨mark, kind⟩) (.expr ⟨after, result⟩)) :
    Mirrors rel site (.expr ⟨mark, kind⟩) (.expr ⟨after, result⟩) := by
  refine .ofChildren isRelated ?_ ?_ related.children
  · rw [arity?_eq, arity?_eq, related.sameHead]
  · cases related with
    | alone => cases kind <;> rfl
    | lambda areParams => exact areParams.length_eq.symm
    | test | paren => rfl
    | other isOther stays => rw [unmet_of_isOther isOther, unmet_of_isOther stays]

theorem Node.Mirrors.ofStmt {kind result : StmtKind}
    (related : kind.Related (Mirrors rel (site.below (.stmt ⟨mark, kind⟩))) result)
    (isRelated : rel site (.stmt ⟨mark, kind⟩) (.stmt ⟨after, result⟩)) :
    Mirrors rel site (.stmt ⟨mark, kind⟩) (.stmt ⟨after, result⟩) :=
  .ofChildren isRelated rfl rfl related.children

theorem Node.Mirrors.ofPattern {kind result : PatternKind}
    (related : kind.Related (Mirrors rel (site.below (.pattern ⟨mark, kind⟩))) result)
    (isRelated : rel site (.pattern ⟨mark, kind⟩) (.pattern ⟨after, result⟩)) :
    Mirrors rel site (.pattern ⟨mark, kind⟩) (.pattern ⟨after, result⟩) :=
  .ofChildren isRelated rfl rfl related.children

end Kinds

namespace Place

/-- Places that look alike to the analysis. -/
structure Alike (place other : Place) : Prop where
  owner : other.site.owner = place.site.owner
  arity : other.arity = place.arity
  isMet : other.isMet = place.isMet

variable {rel : Site → Node → Node → Prop} {place target other result : Place} {path : List Nat}

theorem Alike.below (alike : place.Alike other) (sameArity : other.node.arity? = place.node.arity?)
    (sameUnmet : other.node.unmet = place.node.unmet) (step : Nat) (child found : Node) :
    (place.below step child).Alike (other.below step found) where
  owner := alike.owner
  arity := by rw [Place.below, Place.below, sameArity]
  isMet := by rw [Place.below, Place.below, alike.isMet, sameUnmet]

theorem follow?_mirrored (mirrors : Mirrors rel place.site place.node other.node)
    (alike : place.Alike other) (followed : place.follow? path = some target) :
    ∃ result, other.follow? path = some result ∧ rel target.site target.node result.node ∧
      target.Alike result := by
  induction path generalizing place other with
  | nil =>
    cases followed
    exact ⟨other, rfl, mirrors.related, alike⟩
  | cons step rest ih =>
    obtain ⟨child, isChild, followed⟩ := follow?_cons followed
    cases mirrors with
    | alone _ isAlone =>
      rw [isAlone] at isChild
      cases isChild
    | inner _ sameArity sameUnmet sameLength children =>
      obtain ⟨isIn, _⟩ := List.getElem?_eq_some_iff.mp isChild
      have isOther := List.getElem?_eq_getElem (sameLength ▸ isIn)
      rw [follow?_step isOther]
      exact ih (children _ _ _ isChild isOther) (alike.below sameArity sameUnmet step _ _) followed

/-- What stands at the end of a path corresponds to what stood there, unless it is below
    what a node without children became. -/
theorem follow?_source {wanted : Node → Prop}
    (unwanted : ∀ site node result, rel site node result → node.children = [] →
      ∀ child ∈ result.children, ∀ start below found, child.Holds start below found → ¬ wanted found)
    (mirrors : Mirrors rel place.site place.node other.node)
    (alike : place.Alike other) (followed : other.follow? path = some result)
    (isWanted : wanted result.node) :
    ∃ target, place.follow? path = some target ∧ rel target.site target.node result.node ∧
      target.Alike result := by
  induction path generalizing place other with
  | nil =>
    cases followed
    exact ⟨place, rfl, mirrors.related, alike⟩
  | cons step rest ih =>
    obtain ⟨child, isChild, followed⟩ := follow?_cons followed
    cases mirrors with
    | alone isRelated isAlone =>
      exact absurd isWanted (unwanted _ _ _ isRelated isAlone child (mem_of_getElem? isChild)
        _ _ _ (follow?_holds followed))
    | inner _ sameArity sameUnmet sameLength children =>
      obtain ⟨isIn, _⟩ := List.getElem?_eq_some_iff.mp isChild
      have isSource := List.getElem?_eq_getElem (sameLength ▸ isIn)
      rw [follow?_step isSource]
      exact ih (children _ _ _ isSource isChild) (alike.below sameArity sameUnmet step _ _) followed

end Place

/-! ## Units -/

namespace CompilationUnit

variable {unit other : CompilationUnit} {path : List Nat} {place : Place}

theorem at?_cons {step : Nat} {rest : List Nat} (isPlace : unit.at? (step :: rest) = some place) :
    ∃ start, unit.places[step]? = some start ∧
      Place.follow? { site := start.1, node := start.2 } rest = some place :=
  Option.bind_eq_some_iff.mp isPlace

variable {node : Node} {site : Site}

theorem meets_of_mem {start : Site × Node} (isPlace : start ∈ unit.places)
    (met : start.2.Visits start.1 site node) : unit.Visits site node := by
  obtain ⟨type, decl, isType, ⟨isSite, isRoot⟩ | isMember⟩ := mem_typePlaces.mp isPlace
  · rw [Nat.zero_add] at isSite
    exact .header isType isRoot (isSite ▸ met)
  · obtain ⟨index, member, isMember, isSite, isRoot⟩ := mem_memberPlaces.mp isMember
    rw [Nat.zero_add, Nat.zero_add] at isSite
    exact .member isType isMember isRoot (isSite ▸ met)

theorem Visits.start (met : unit.Visits site node) :
    ∃ start ∈ unit.places, start.2.Visits start.1 site node := by
  cases met with
  | @header type decl root _ _ isType isRoot met =>
    refine ⟨(⟨.header type, []⟩, root), mem_typePlaces.mpr ⟨type, decl, isType, .inl ?_⟩, met⟩
    exact ⟨by rw [Nat.zero_add], isRoot⟩
  | @member type index decl member root _ _ isType isMember isRoot met =>
    refine ⟨(⟨.member type index, []⟩, root), mem_typePlaces.mpr ⟨type, decl, isType, .inr ?_⟩, met⟩
    exact mem_memberPlaces.mpr ⟨index, member, isMember, by rw [Nat.zero_add, Nat.zero_add], isRoot⟩

theorem at?_holds (isPlace : unit.at? path = some place) : unit.Holds place.site place.node := by
  cases path with
  | nil => cases isPlace
  | cons step rest =>
    obtain ⟨start, isStart, followed⟩ := at?_cons isPlace
    exact holds_of_mem (mem_of_getElem? isStart) (Place.follow?_holds followed)

theorem at?_meets (isPlace : unit.at? path = some place) (isMet : place.isMet = true) :
    unit.Visits place.site place.node := by
  cases path with
  | nil => cases isPlace
  | cons step rest =>
    obtain ⟨start, isStart, followed⟩ := at?_cons isPlace
    exact meets_of_mem (mem_of_getElem? isStart) (Place.follow?_meets followed isMet).2

theorem Visits.exists_path (met : unit.Visits site node) :
    ∃ path place, unit.at? path = some place ∧ place.site = site ∧ place.node = node ∧
      place.isMet = true := by
  obtain ⟨start, isStart, met⟩ := met.start
  obtain ⟨step, isStart⟩ := mem_iff_getElem?.mp isStart
  obtain ⟨path, place, followed, reached⟩ :=
    Place.exists_path met { site := start.1, node := start.2 } rfl rfl rfl
  refine ⟨step :: path, place, ?_, reached⟩
  rw [at?, isStart]
  exact followed

theorem exists_path_of_reachable (isReachable : node ∈ unit.reachable) :
    ∃ path place, unit.at? path = some place ∧ place.node = node := by
  rw [unit.reachable_eq] at isReachable
  obtain ⟨root, isRoot, isBelow⟩ := mem_flatMap.mp isReachable
  rw [← unit.places_roots] at isRoot
  obtain ⟨start, isStart, rfl⟩ := mem_map.mp isRoot
  obtain ⟨step, isStep⟩ := mem_iff_getElem?.mp isStart
  obtain ⟨path, place, followed, reached⟩ :=
    Place.exists_path_of_reachable isBelow { site := start.1, node := start.2 } rfl
  refine ⟨step :: path, place, ?_, reached⟩
  rw [at?, isStep]
  exact followed

theorem at?_unique {id : Nat} {route : List Nat} {found : Place} (single : tally id unit.roots ≤ 1)
    (isPlace : unit.at? path = some place) (isId : place.node.id = some id)
    (isFound : unit.at? route = some found) (isOther : found.node.id = some id) : route = path := by
  cases path with
  | nil => cases isPlace
  | cons step path =>
    cases route with
    | nil => cases isFound
    | cons turn route =>
      obtain ⟨start, isStart, followed⟩ := at?_cons isPlace
      obtain ⟨turned, isTurned, followedOther⟩ := at?_cons isFound
      have first : 0 < start.2.count id := (Place.follow?_holds followed).count_pos isId
      have second : 0 < turned.2.count id := (Place.follow?_holds followedOther).count_pos isOther
      rw [← unit.places_roots] at single
      by_cases same : step = turn
      · cases same
        cases isStart.symm.trans isTurned
        have isRoot := mem_map_of_mem (f := Prod.snd) (mem_of_getElem? isStart)
        have once := Nat.le_trans (count_le_tally isRoot) single
        rw [Place.follow?_unique once followed isId followedOther isOther]
      · have both := count_add_le_tally_of_ne id same
          (show (unit.places.map Prod.snd)[step]? = some start.2 by simp [isStart])
          (show (unit.places.map Prod.snd)[turn]? = some turned.2 by simp [isTurned])
        omega

theorem at?_arity (single : ∀ id, tally id unit.roots ≤ 1)
    (areNumbered : ∀ node ∈ unit.reachable, node.id.isSome = true)
    (isPlace : unit.at? path = some place) : place.arity = place.site.arity? place.node.id := by
  cases path with
  | nil => cases isPlace
  | cons step path =>
    obtain ⟨start, isStart, followed⟩ := at?_cons isPlace
    have isPlace := mem_of_getElem? isStart
    have isRoot : start.2 ∈ unit.roots := by
      rw [← unit.places_roots]
      exact mem_map_of_mem isPlace
    have bare : start.1.ancestors = [] := by
      obtain ⟨_, _, _, ⟨isSite, _⟩ | isMember⟩ := mem_typePlaces.mp isPlace
      · rw [isSite]
      · obtain ⟨_, _, _, isSite, _⟩ := mem_memberPlaces.mp isMember
        rw [isSite]
    refine Place.follow?_arity (fun id => Nat.le_trans (count_le_tally isRoot) (single id))
      (fun below isBelow => areNumbered below ?_) ?_ followed
    · rw [unit.reachable_eq]
      exact mem_flatMap.mpr ⟨start.2, isRoot, isBelow⟩
    · rw [Site.arity?, Site.parent?, bare]
      rfl

section Mirrored

variable {rel : Site → Node → Node → Prop}
  (mirrored : Forall₂ (Placed (Mirrors rel)) unit.places other.places)

include mirrored

theorem places_mirrored {step : Nat} {start found : Site × Node}
    (isStart : unit.places[step]? = some start) (isFound : other.places[step]? = some found) :
    Mirrors rel start.1 start.2 found.2 ∧ Place.Alike ⟨start.1, start.2, none, true⟩
      ⟨found.1, found.2, none, true⟩ := by
  obtain ⟨isIn, rfl⟩ := List.getElem?_eq_some_iff.mp isStart
  obtain ⟨isThere, rfl⟩ := List.getElem?_eq_some_iff.mp isFound
  obtain ⟨owner, isOwner, sameOwner, mirrors⟩ := mirrored.get isIn isThere
  rw [get_eq_getElem] at isOwner mirrors
  rw [get_eq_getElem] at sameOwner mirrors
  rw [← isOwner] at mirrors
  exact ⟨mirrors, ⟨congrArg Site.owner (sameOwner.trans isOwner.symm), rfl, rfl⟩⟩

theorem at?_mirrored (isPlace : unit.at? path = some place) :
    ∃ result, other.at? path = some result ∧ rel place.site place.node result.node ∧
      place.Alike result := by
  cases path with
  | nil => cases isPlace
  | cons step path =>
    obtain ⟨start, isStart, followed⟩ := at?_cons isPlace
    obtain ⟨isIn, _⟩ := List.getElem?_eq_some_iff.mp isStart
    have isOther := List.getElem?_eq_getElem (mirrored.length_eq ▸ isIn)
    obtain ⟨mirrors, alike⟩ := places_mirrored mirrored isStart isOther
    rw [at?, isOther]
    exact Place.follow?_mirrored mirrors alike followed

theorem at?_source {wanted : Node → Prop}
    (unwanted : ∀ site node result, rel site node result → node.children = [] →
      ∀ child ∈ result.children, ∀ start below found, child.Holds start below found → ¬ wanted found)
    {result : Place} (isResult : other.at? path = some result) (isWanted : wanted result.node) :
    ∃ place, unit.at? path = some place ∧ rel place.site place.node result.node ∧
      place.Alike result := by
  cases path with
  | nil => cases isResult
  | cons step path =>
    obtain ⟨start, isStart, followed⟩ := at?_cons isResult
    obtain ⟨isIn, _⟩ := List.getElem?_eq_some_iff.mp isStart
    have isSource := List.getElem?_eq_getElem (mirrored.length_eq ▸ isIn)
    obtain ⟨mirrors, alike⟩ := places_mirrored mirrored isSource isStart
    rw [at?, isSource]
    exact Place.follow?_source unwanted mirrors alike followed isWanted

end Mirrored

end CompilationUnit

end Unsugar
