import Unsugar.Proofs.Analysis.SettledNodes

open List

namespace Unsugar

/-! # What names resolve to

The analysis comes by a name once, looks it up in the scopes that stand around it,
and takes down what it finds.  What is known about the name in the end is what was
found there: nothing else that is analyzed belongs to the same node.
-/

open Infer Node

/-! ## Declarations -/

def CompilationUnit.declAt? (unit : CompilationUnit) : Owner → Option TypeDecl
  | .member type _ | .header type => unit.types[type]?
  | .detached => none

inductive CompilationUnit.Visits (unit : CompilationUnit) : Site → Node → Prop where
  | header {type : Nat} {decl : TypeDecl} {root node : Node} {site : Site}
      (isType : unit.types[type]? = some decl) (isRoot : root ∈ decl.headerRoots)
      (met : root.Visits ⟨.header type, []⟩ site node) : unit.Visits site node
  | member {type index : Nat} {decl : TypeDecl} {member : Member} {root node : Node} {site : Site}
      (isType : unit.types[type]? = some decl) (isMember : decl.members[index]? = some member)
      (isRoot : root ∈ member.kind.roots)
      (met : root.Visits ⟨.member type index, []⟩ site node) : unit.Visits site node

/-- What the analysis of a declaration looks names up in. -/
def InferEnv.within (env : InferEnv) (decl : TypeDecl) : InferEnv :=
  { env with currentType := some (declaredType env.types decl) }

def TypeDecl.allRoots (decl : TypeDecl) : List Node :=
  decl.headerRoots ++ memberRoots decl.members

section Declarations

variable {id : Nat} {owner : Owner}
  {finds : InferEnv → Site → Node → Resolution → Prop} {roots : List Node} {site : Site}

theorem Settles.inContext {α : Type} {action : Infer α} (context : LookupContext)
    (same : ∀ env : InferEnv, finds { env with context } = finds env)
    (within : Settles id finds site roots action) :
    Settles id finds site roots (inContext context action) :=
  within.withReader same

theorem Settles.isolated {α : Type} {action : Infer α} (within : Settles id finds site roots action) :
    Settles id finds site roots (Infer.isolated action) := fun env state _ => by
  have inside : AreLocal [[]] := by
    intro scope isScope
    obtain rfl := mem_singleton.1 isScope
    exact nofun
  have settled := within env { state with scopes := [[]] } inside
  exact { settled with locals := nofun }

theorem Settles.elsewhere {others : InferEnv → Site → Node → Resolution → Prop} {α : Type}
    {action : Infer α} (none : tally id roots = 0) (settles : Settles id finds site roots action) :
    Settles id others site [] action := fun env state locals =>
  let settled := settles env state locals
  { locals := settled.locals
    size := settled.size
    frame := fun _ => settled.frame none
    held := fun _ _ _ isRoot => by cases isRoot
    met := fun _ _ _ isRoot => by cases isRoot }

theorem finds_context (context : LookupContext) (env : InferEnv) :
    InferEnv.Finds { env with context } = env.Finds :=
  InferEnv.finds_congr { env with context } env rfl rfl rfl

theorem inferAccessor_settles {body : Option Body}
    (settling : ∀ node ∈ (body.map ofBody).getD [], node.Settling id) {result : Ty} :
    Settles id InferEnv.Finds ⟨owner, []⟩ ((body.map ofBody).getD [])
      (inferAccessor? body result) := by
  cases body with
  | none => exact (Idle.pure ()).settles
  | some body => exact (inferFunction_walks rfl settling).settles

theorem inferMember_settles {member : Member}
    (settling : ∀ node ∈ member.kind.roots, node.Settling id) :
    Settles id InferEnv.Finds ⟨owner, []⟩ member.kind.roots (inferMember member) := by
  have noCall : Site.arity? ⟨owner, []⟩ (some id) = none := rfl
  obtain ⟨kind, modifiers, span⟩ := member
  refine Settles.isolated ?_
  cases kind with
  | field type name init =>
    exact .ask (Idle.bindType type) fun bound =>
      (inferOption_walks noCall settling bound).settles.inContext _ (finds_context _)
  | property type name getter setter init =>
    obtain ⟨areAccessors, isInit⟩ := forall_mem_append.1 settling
    obtain ⟨isGetter, isSetter⟩ := forall_mem_append.1 areAccessors
    refine .ask (Idle.bindType type) fun bound => Settles.swap ?_
    refine ((inferOption_walks noCall isInit bound).settles.inContext _ (finds_context _)).bind fun _ =>
      (inferAccessor_settles isGetter).bind fun _ => Settles.inScope ?_
    exact .ask (Idle.declare "value" (.inr (.inl rfl)) bound) fun _ =>
      inferAccessor_settles isSetter
  | method name typeParams params ret body =>
    obtain ⟨areParams, isBody⟩ := forall_mem_append.1 settling
    exact ((inferParams_walks noCall areParams).bind fun _ =>
      .ask (Idle.bindType ret) fun result => inferFunction_walks noCall isBody).settles
  | operator op params ret body =>
    obtain ⟨areParams, isBody⟩ := forall_mem_append.1 settling
    exact ((inferParams_walks noCall areParams).bind fun _ =>
      .ask (Idle.bindType ret) fun result => inferFunction_walks noCall isBody).settles
  | ctor params initializer body =>
    obtain ⟨areOthers, isBody⟩ := forall_mem_append.1 settling
    obtain ⟨areParams, areArgs⟩ := forall_mem_append.1 areOthers
    have opened := (inferParams_walks noCall areParams).settles
    have returned : Settles id InferEnv.Finds ⟨owner, []⟩ (ofBody body)
      (body.inferFunction .void) := (inferFunction_walks noCall isBody).settles
    change Settles id _ _ ((_ ++ _) ++ _) _
    rw [append_assoc]
    cases initializer with
    | none => exact opened.bind fun _ => .ask (Idle.pure ()) fun _ => returned
    | some initializer =>
      have args := (inferEach_walks areArgs (fun _ _ _ => noCall) []).settles.inContext .initializer
        (finds_context _)
      exact opened.bind fun _ => args.bind fun _ => returned

theorem inferMembers_settles {members : List Member}
    (settling : ∀ node ∈ memberRoots members, node.Settling id) :
    Settles id InferEnv.Finds ⟨owner, []⟩ (memberRoots members) (members.forM inferMember) := by
  induction members with
  | nil => exact (Idle.pure ()).settles
  | cons member rest ih =>
    obtain ⟨isMember, areRest⟩ := forall_mem_append.1 settling
    exact (inferMember_settles isMember).bind fun _ => ih areRest

theorem inferDecl_settles {decl : TypeDecl} (settling : ∀ node ∈ decl.allRoots, node.Settling id) :
    Settles id (fun env => (env.within decl).Finds) ⟨owner, []⟩ decl.allRoots
      (inferDecl decl) := by
  have noCall : Site.arity? ⟨owner, []⟩ (some id) = none := rfl
  obtain ⟨areHeader, areMembers⟩ := forall_mem_append.1 settling
  obtain ⟨areParams, areArgs⟩ := forall_mem_append.1 areHeader
  have defaults : Settles id InferEnv.Finds ⟨owner, []⟩ ((decl.primary.map ofParams).getD [])
      (inferDefaults (decl.primary.getD [])) := by
    cases isPrimary : decl.primary with
    | none => exact (Idle.pure ()).settles
    | some params =>
      rw [isPrimary] at areParams
      change ∀ node ∈ ofParams params, _ at areParams
      clear isPrimary
      change Settles id _ _ (ofParams params) (params.forM _)
      induction params with
      | nil => exact (Idle.pure ()).settles
      | cons param rest ih =>
        obtain ⟨isDefault, areRest⟩ := forall_mem_append.1 areParams
        refine Settles.bind ?_ fun _ => ih areRest
        exact .ask (Idle.bindType param.type) fun _ =>
          (inferOption_walks noCall isDefault _).settles
  have args (expected : List Ty) : Settles id InferEnv.Finds ⟨owner, []⟩
      ((decl.baseArgs.map ofExprs).getD []) (inferEach (decl.baseArgs.getD []) expected) := by
    cases isArgs : decl.baseArgs with
    | none => exact (Idle.pure []).settles
    | some args =>
      rw [isArgs] at areArgs
      exact (inferEach_walks areArgs (fun _ _ _ => noCall) expected).settles
  intro env state locals
  have header := Settles.inContext .initializer (finds_context _) (Settles.inScope
    (defaults.bind fun _ => .ask (Idle.bindType (decl.bases.headD .absent)) fun base =>
      (args ((env.types.primaryParams base).map (·.2))).map fun _ => ()))
  exact (header.bind fun _ => inferMembers_settles areMembers) (env.within decl) state locals

end Declarations

/-! ## Units -/

def CompilationUnit.inferEnv (unit : CompilationUnit) (vocabulary : Vocabulary) : InferEnv where
  types := .ofUnit unit vocabulary
  imports := importedTypes (.ofUnit unit vocabulary) unit.usings
  constFields := constFields (.ofUnit unit vocabulary) unit.types

def View.resolutionOf (view : View) (id : Nat) : Resolution :=
  (view.facts.get (some id)).resolution

section Units

variable {unit : CompilationUnit} {count : Nat} {vocabulary : Vocabulary} {id : Nat}

theorem markNulls_resolution (nodes : List Node) :
    (markNulls (.empty count) nodes).nodes.size = count ∧
      ((markNulls (.empty count) nodes).get (some id)).resolution = {} := by
  suffices kept : ∀ facts : Facts, (markNulls facts nodes).nodes.size = facts.nodes.size ∧
      ((markNulls facts nodes).get (some id)).resolution = (facts.get (some id)).resolution by
    obtain ⟨size, unknown⟩ := kept (.empty count)
    refine ⟨size.trans Array.size_replicate, unknown.trans ?_⟩
    simp [Facts.empty, Facts.get, Array.getElem?_replicate]
    split <;> rfl
  induction nodes with
  | nil => exact fun _ => ⟨rfl, rfl⟩
  | cons node rest ih =>
    intro facts
    obtain ⟨size, unknown⟩ := ih _
    refine ⟨size.trans ?_, unknown.trans ?_⟩
    · dsimp only
      split
      · exact Facts.size_update ..
      · rfl
    · dsimp only
      split
      · rw [Facts.get_update]
        split <;> rfl
      · rfl

variable {types : List TypeDecl}

theorem TypeDecl.settling (single : tally id (types.flatMap allRoots) ≤ 1) {decl : TypeDecl}
    (isDecl : decl ∈ types) : ∀ node ∈ decl.allRoots, node.Settling id :=
  fun node isNode => node.settling
    (Nat.le_trans (count_le_tally (mem_flatMap.2 ⟨decl, isDecl, isNode⟩)) single)

theorem inferOthers_settles {finds : InferEnv → Site → Node → Resolution → Prop} {owner : Owner}
    (none : tally id (types.flatMap TypeDecl.allRoots) = 0) :
    Settles id finds ⟨owner, []⟩ [] (types.forM inferDecl) := by
  induction types with
  | nil => exact (Idle.pure ()).settles
  | cons decl rest ih =>
    have single : tally id ((decl :: rest).flatMap TypeDecl.allRoots) ≤ 1 := by omega
    have settling := TypeDecl.settling single mem_cons_self
    rw [flatMap_cons, tally_append] at none
    exact ((inferDecl_settles settling).elsewhere (by omega)).bind fun _ =>
      ih (by omega)

theorem inferTypes_settles {owner : Owner} {decl : TypeDecl} (isDecl : decl ∈ types)
    (single : tally id (types.flatMap TypeDecl.allRoots) ≤ 1) (stands : 0 < tally id decl.allRoots) :
    Settles id (fun env => (env.within decl).Finds) ⟨owner, []⟩ decl.allRoots
      (types.forM inferDecl) := by
  have here : Settles id (fun env => (env.within decl).Finds) ⟨owner, []⟩ decl.allRoots
      (inferDecl decl) := inferDecl_settles (TypeDecl.settling single isDecl)
  obtain ⟨before, after, rfl⟩ := append_of_mem isDecl
  rw [flatMap_append, flatMap_cons, tally_append, tally_append] at single
  have noneBefore : tally id (before.flatMap TypeDecl.allRoots) = 0 := by omega
  have noneAfter : tally id (after.flatMap TypeDecl.allRoots) = 0 := by omega
  have around := (inferOthers_settles noneBefore).bind fun _ =>
    here.bind fun _ => inferOthers_settles noneAfter
  rw [nil_append, append_nil] at around
  change Settles _ _ _ _ (forM (before ++ decl :: after) inferDecl)
  rw [forM_append]
  exact around

end Units

theorem Node.Holds.owner {root node : Node} {site below : Site} (held : root.Holds site below node) :
    below.owner = site.owner := by
  induction held with
  | here => rfl
  | child _ _ ih => exact ih

namespace CompilationUnit

variable {unit : CompilationUnit} {site : Site} {node : Node} {decl : TypeDecl}

theorem Holds.root (held : unit.Holds site node) (isDecl : unit.declAt? site.owner = some decl) :
    decl ∈ unit.types ∧ ∃ root ∈ decl.allRoots, root.Holds ⟨site.owner, []⟩ site node ∧
      (root.Visits ⟨site.owner, []⟩ site node → unit.Visits site node) := by
  cases held with
  | header isType isRoot held =>
    rw [held.owner] at isDecl ⊢
    obtain rfl := Option.some.inj (isType.symm.trans isDecl)
    exact ⟨mem_of_getElem? isType, _, mem_append_left _ isRoot, held, .header isType isRoot⟩
  | member isType isMember isRoot held =>
    rw [held.owner] at isDecl ⊢
    obtain rfl := Option.some.inj (isType.symm.trans isDecl)
    refine ⟨mem_of_getElem? isType, _, mem_append_right _ ?_, held, .member isType isMember isRoot⟩
    exact mem_flatMap.2 ⟨_, mem_of_getElem? isMember, isRoot⟩

theorem Visits.root (met : unit.Visits site node) (isDecl : unit.declAt? site.owner = some decl) :
    decl ∈ unit.types ∧ ∃ root ∈ decl.allRoots, root.Visits ⟨site.owner, []⟩ site node := by
  cases met with
  | header isType isRoot met =>
    rw [met.held.owner] at isDecl ⊢
    obtain rfl := Option.some.inj (isType.symm.trans isDecl)
    exact ⟨mem_of_getElem? isType, _, mem_append_left _ isRoot, met⟩
  | member isType isMember isRoot met =>
    rw [met.held.owner] at isDecl ⊢
    obtain rfl := Option.some.inj (isType.symm.trans isDecl)
    refine ⟨mem_of_getElem? isType, _, mem_append_right _ ?_, met⟩
    exact mem_flatMap.2 ⟨_, mem_of_getElem? isMember, isRoot⟩

section Found

variable {id count : Nat} {vocabulary : Vocabulary}

theorem tally_allRoots_le (isDecl : decl ∈ unit.types) :
    tally id decl.allRoots ≤ tally id unit.roots := by
  obtain ⟨before, after, split⟩ := append_of_mem isDecl
  change _ ≤ tally id (unit.types.flatMap TypeDecl.allRoots)
  rw [split, flatMap_append, flatMap_cons, tally_append, tally_append]
  omega

theorem analyze_settled (single : tally id unit.roots ≤ 1) (isDecl : decl ∈ unit.types)
    (stands : 0 < tally id decl.allRoots) (owner : Owner) :
    ∃ before after : InferState, before.facts.nodes.size = count ∧ before.resolution id = {} ∧
      after.resolution id = (unit.analyze count vocabulary).resolutionOf id ∧
      before.Settled id ((unit.inferEnv vocabulary).within decl).Finds ⟨owner, []⟩ decl.allRoots
        after := by
  obtain ⟨size, unknown⟩ := @markNulls_resolution count id unit.reachable
  exact ⟨{ facts := markNulls (.empty count) unit.reachable }, _, size, unknown, rfl,
    inferTypes_settles isDecl single stands (unit.inferEnv vocabulary) _ nofun⟩

variable (single : tally id unit.roots ≤ 1) (isDecl : unit.declAt? site.owner = some decl)
  (isId : node.id = some id)

include single isDecl isId

theorem resolution_held (held : unit.Holds site node) :
    (unit.analyze count vocabulary).resolutionOf id = {} ∨
      (unit.Visits site node ∧ ((unit.inferEnv vocabulary).within decl).Finds site node
        ((unit.analyze count vocabulary).resolutionOf id)) := by
  obtain ⟨isIn, root, isRoot, held, meets⟩ := held.root isDecl
  obtain ⟨before, after, _, unknown, same, settled⟩ := @analyze_settled unit decl id count
    vocabulary single isIn (InferState.tally_pos isRoot held isId) site.owner
  rw [← same]
  exact (settled.held (Nat.le_trans (tally_allRoots_le isIn) single) unknown root isRoot site node
    held isId).imp_right (And.imp_left meets)

theorem resolution_met (met : unit.Visits site node) (isKnown : id < count) :
    ((unit.inferEnv vocabulary).within decl).Finds site node
      ((unit.analyze count vocabulary).resolutionOf id) := by
  obtain ⟨isIn, root, isRoot, met⟩ := met.root isDecl
  obtain ⟨before, after, size, _, same, settled⟩ := @analyze_settled unit decl id count
    vocabulary single isIn (InferState.tally_pos isRoot met.held isId) site.owner
  rw [← same]
  exact settled.met (Nat.le_trans (tally_allRoots_le isIn) single) (size ▸ isKnown) root isRoot site
    node met isId

end Found

end CompilationUnit

end Unsugar
