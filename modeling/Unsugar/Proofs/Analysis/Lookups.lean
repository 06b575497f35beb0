import Unsugar.Analysis.View
import Unsugar.Proofs.Ownership.Counts
import Unsugar.Proofs.Lower.Traversals

open List

namespace Unsugar

/-! # What types depend on

The type of a node depends on the scopes around it and on nothing else that was found
before, but for one thing: whether what stands before a dot is a type shows in what it
resolves to.  So the analysis of nodes finds the same in all states with the same scopes
in which the same is known about these nodes, and it leaves the other nodes alone.
-/

open Infer Node

namespace Facts

theorem size_update (facts : Facts) {id : Option Nat} (change : NodeFacts → NodeFacts) :
    (facts.update id change).nodes.size = facts.nodes.size := by
  cases id with
  | none => rfl
  | some id => exact Array.size_modify

theorem get_update (facts : Facts) {id : Option Nat} (change : NodeFacts → NodeFacts)
    {other : Nat} :
    (facts.update id change).get (some other) =
      if id = some other ∧ other < facts.nodes.size then change (facts.get (some other))
      else facts.get (some other) := by
  cases id with
  | none => rfl
  | some id =>
    simp only [update, get, Array.getElem?_modify, Option.some.injEq]
    by_cases isSame : id = other
    · by_cases isIn : other < facts.nodes.size
      · simp [isSame, isIn]
      · simp [isSame, isIn]
    · simp [isSame]

end Facts

theorem Node.count_pos_of_id {node : Node} {id : Nat} (isId : node.id = some id) :
    0 < tally id [node] := by
  have counted : tally id [node] = node.mark.bears id + tally id node.children := node.count_eq
  rw [counted, Mark.bears, if_pos (show node.mark.id = some id from isId)]
  exact Nat.lt_of_lt_of_le Nat.one_pos (Nat.le_add_right 1 _)

theorem tail_addToScope {reference : Reference} {scopes : List (List (String × Reference))} :
    (addToScope reference scopes).tail = scopes.tail := by
  cases scopes <;> rfl

def InferState.resolution (state : InferState) (id : Nat) : Resolution :=
  (state.facts.get (some id)).resolution

/-- States that do not differ in what types depend on: the scopes and what some names
    resolve to, and what a function was seen to return where that counts. -/
structure InferState.Agrees (own : Nat → Prop) (seen : Prop) (left right : InferState) : Prop where
  scopes : left.scopes = right.scopes
  size : left.facts.nodes.size = right.facts.nodes.size
  resolution (id : Nat) (isOwn : own id) : left.resolution id = right.resolution id
  observed (isSeen : seen) : left.observed = right.observed

theorem InferState.Agrees.refl (own : Nat → Prop) (seen : Prop) (state : InferState) :
    state.Agrees own seen state :=
  ⟨rfl, rfl, fun _ _ => rfl, fun _ => rfl⟩

/-- An action that touches, of all that types depend on, only the innermost scope and what
    the names among some nodes resolve to, and finds the same in states that agree there. -/
structure Steady (roots : List Node) {α : Type} (action : Infer α) : Prop where
  outer (env : InferEnv) (state : InferState) : (action env state).2.scopes.tail = state.scopes.tail
  size (env : InferEnv) (state : InferState) :
    (action env state).2.facts.nodes.size = state.facts.nodes.size
  others (env : InferEnv) (state : InferState) (id : Nat) (none : tally id roots = 0) :
    (action env state).2.resolution id = state.resolution id
  value {own : Nat → Prop} (isOwn : ∀ id, 0 < tally id roots → own id) {seen : Prop}
    (env : InferEnv) {left right : InferState} (agree : left.Agrees own seen right) :
    (action env left).1 = (action env right).1
  agrees {own : Nat → Prop} (isOwn : ∀ id, 0 < tally id roots → own id) {seen : Prop}
    (env : InferEnv) {left right : InferState} (agree : left.Agrees own seen right) :
    (action env left).2.Agrees own seen (action env right).2

variable {scopes : List (List (String × Reference))} {body : Infer Ty} (type : Ty) (mark : Mark)

namespace Steady

variable {α β : Type} {action : Infer α} {next : α → Infer β} {roots left right : List Node}

theorem bind (first : Steady left action) (rest : ∀ value, Steady right (next value)) :
    Steady (left ++ right) (action >>= next) := by
  have pos (id : Nat) : 0 < tally id (left ++ right) ↔ 0 < tally id left + tally id right := by
    rw [tally_append]
  refine {
    outer := fun env state => ((rest _).outer env _).trans (first.outer env state)
    size := fun env state => ((rest _).size env _).trans (first.size env state)
    others := fun env state id none => ?_
    value := fun isOwn _ env _ other agree => ?_
    agrees := fun isOwn _ env _ other agree => ?_ }
  · rw [tally_append] at none
    exact ((rest _).others env _ id (by omega)).trans (first.others env state id (by omega))
  · have isLeft := fun id isIn => isOwn id ((pos id).2 (Nat.add_pos_left isIn _))
    have isRight := fun id isIn => isOwn id ((pos id).2 (Nat.add_pos_right _ isIn))
    have answer := first.value isLeft env agree
    exact ((rest _).value isRight env (first.agrees isLeft env agree)).trans
      (congrArg (fun value => (next value env (action env other).2).1) answer)
  · have isLeft := fun id isIn => isOwn id ((pos id).2 (Nat.add_pos_left isIn _))
    have isRight := fun id isIn => isOwn id ((pos id).2 (Nat.add_pos_right _ isIn))
    have answer := first.value isLeft env agree
    have after := congrArg (fun value => (next value env (action env other).2).2) answer
    exact after ▸ (rest _).agrees isRight env (first.agrees isLeft env agree)

theorem widen (steady : Steady left action)
    (within : ∀ id, tally id right = 0 → tally id left = 0) : Steady right action := by
  have isOwn {own : Nat → Prop} (isOwn : ∀ id, 0 < tally id right → own id) :
      ∀ id, 0 < tally id left → own id := fun id isIn =>
    isOwn id (Nat.pos_of_ne_zero fun none => Nat.ne_of_gt isIn (within id none))
  exact {
    outer := steady.outer
    size := steady.size
    others := fun env state id none => steady.others env state id (within id none)
    value := fun owns => steady.value (isOwn owns)
    agrees := fun owns => steady.agrees (isOwn owns) }

theorem ask (asks : ∀ env state, (action env state).2 = state)
    (answers : ∀ env left right, (action env left).1 = (action env right).1) : Steady [] action where
  outer env state := by rw [asks]
  size env state := by rw [asks]
  others env state id _ := by rw [asks]
  value _ _ env left right _ := answers env left right
  agrees _ _ env left right agree := by rwa [asks, asks]

theorem pure (value : α) : Steady [] (Pure.pure value : Infer α) :=
  .ask (fun _ _ => rfl) fun _ _ _ => rfl

theorem inScope_scopes (steady : Steady roots action) {env : InferEnv} {state : InferState} :
    (inScope action env state).2.scopes = state.scopes :=
  steady.outer env { state with scopes := [] :: state.scopes }

theorem inScope (within : Steady roots action) : Steady roots (inScope action) := by
  have inside {own : Nat → Prop} {seen : Prop} {left right : InferState}
      (agree : left.Agrees own seen right) : ({ left with scopes := [] :: left.scopes } :
        InferState).Agrees own seen { right with scopes := [] :: right.scopes } :=
    { agree with scopes := congrArg ([] :: ·) agree.scopes }
  refine {
    outer := fun env state => congrArg _ within.inScope_scopes
    size := fun env state => within.size env _
    others := fun env state => within.others env _
    value := fun isOwn _ env _ _ agree => within.value isOwn env (inside agree)
    agrees := fun isOwn _ env _ _ agree => ?_ }
  have after := within.agrees isOwn env (inside agree)
  exact { after with scopes := congrArg List.tail after.scopes }

theorem withReader {change : InferEnv → InferEnv} (within : Steady roots action) :
    Steady roots (withReader change action) where
  outer env := within.outer (change env)
  size env := within.size (change env)
  others env := within.others (change env)
  value isOwn _ env := within.value isOwn (change env)
  agrees isOwn _ env := within.agrees isOwn (change env)

theorem inFunction (result : Ty)
    (outer : ∀ env state, (body env state).2.scopes.tail = state.scopes.tail)
    (size : ∀ env state, (body env state).2.facts.nodes.size = state.facts.nodes.size)
    (others : ∀ env state id, tally id roots = 0 →
      (body env state).2.resolution id = state.resolution id)
    (inside : ∀ {own : Nat → Prop}, (∀ id, 0 < tally id roots → own id) → ∀ env {left right},
      left.Agrees own True right → (body env left).1 = (body env right).1 ∧
        (body env left).2.Agrees own True (body env right).2) :
    Steady roots (inFunction result body) := by
  have within {own : Nat → Prop} (isOwn : ∀ id, 0 < tally id roots → own id) {seen : Prop}
      (env : InferEnv) {left right : InferState} (agree : left.Agrees own seen right) :=
    @inside own isOwn { env with result } { left with observed := none }
      { right with observed := none } { agree with observed := fun _ => rfl }
  refine {
    outer := fun env state => outer { env with result } _
    size := fun env state => size { env with result } _
    others := fun env state => others { env with result } _
    value := fun isOwn _ env _ _ agree => ?_
    agrees := fun isOwn _ env _ _ agree => ?_ }
  · exact congrArg (fun seen => if result = .unknown then seen else result)
      (within isOwn env agree).1
  · exact { (within isOwn env agree).2 with observed := agree.observed }

theorem name {node : Node} {α : Type} {action : Infer α}
    (resolves : InferEnv → List (List (String × Reference)) → Resolution)
    (answer : Resolution → α)
    (takes : ∀ env state, action env state = (answer (resolves env state.scopes), { state with
      facts := state.facts.update node.id fun known =>
        { known with resolution := resolves env state.scopes } })) : Steady [node] action where
  outer env state := by rw [takes]
  size env state := by rw [takes, Facts.size_update]
  others env state id none := by
    rw [takes, InferState.resolution, Facts.get_update, if_neg]
    · rfl
    · rintro ⟨isId, -⟩
      exact absurd none (Nat.ne_of_gt (Node.count_pos_of_id isId))
  value _ _ env left right agree := by rw [takes, takes, agree.scopes]
  agrees _ _ env left right agree := by
    rw [takes, takes, agree.scopes]
    refine {
      scopes := rfl
      size := by rw [Facts.size_update, Facts.size_update, agree.size]
      resolution := fun id isOwn => ?_
      observed := agree.observed }
    rw [InferState.resolution, InferState.resolution, Facts.get_update, Facts.get_update, agree.size]
    split
    · rfl
    · exact agree.resolution id isOwn

theorem known {node : Expr} {α : Type} {next : InferState → Infer α}
    (steady : ∀ state, Steady [] (next state))
    (same : ∀ left right, (left.facts.get node.id).resolution = (right.facts.get node.id).resolution →
      next left = next right) : Steady [expr node] (get >>= next) := by
  have equal {own : Nat → Prop} (isOwn : ∀ id, 0 < tally id [expr node] → own id) {seen : Prop}
      {left right : InferState} (agree : left.Agrees own seen right) : next left = next right := by
    refine same left right ?_
    cases isId : node.id with
    | none => rfl
    | some id => exact agree.resolution id (isOwn id (Node.count_pos_of_id isId))
  have noOwn {own : Nat → Prop} (id : Nat) (isIn : 0 < tally id []) : own id :=
    absurd isIn (Nat.lt_irrefl 0)
  refine {
    outer := fun env state => (steady state).outer env state
    size := fun env state => (steady state).size env state
    others := fun env state id _ => (steady state).others env state id rfl
    value := fun isOwn _ env left right agree => ?_
    agrees := fun isOwn _ env left right agree => ?_ }
  · have answer := (steady left).value noOwn env agree
    exact answer.trans (congrArg (fun next => (next env right).1) (equal isOwn agree))
  · have after := (steady left).agrees noOwn env agree
    have moved := congrArg (fun next => (next env right).2) (equal isOwn agree)
    exact moved ▸ after

end Steady

theorem memberAt_steady (kind : ExprKind) (type : Ty) (name : String) (arity : Option Nat)
    (staticOnly : Bool) : Steady [expr ⟨mark, kind⟩] (memberAt mark type name arity staticOnly) :=
  .name (fun env _ => if type.isUnknown then {} else env.memberOn type name arity staticOnly)
    (·.unique?) fun _ _ => rfl

theorem isTypeReceiver_steady (node : Expr) : Steady [expr node] (isTypeReceiver node) := by
  unfold isTypeReceiver
  split
  · exact (Steady.pure true).widen fun _ _ => rfl
  · refine .known (fun state => ?_) fun left right same => ?_
    · split <;> exact Steady.pure _
    · rw [same]

/-! ## Lookups of the analysis

The analysis takes down for every name what it resolves to.  Most of its steps look up
no name, and what they do leaves alone what is taken down; those that do change what is
known of one node only.
-/

open Infer Node

/-! ## What is found -/

/-- The number of arguments that a name with this identity is called with. -/
def Site.arity? (site : Site) (id : Option Nat) : Option Nat :=
  match site.parent? with
  | some (.expr ⟨_, .call callee args⟩) => if callee.id = id then some args.length else none
  | _ => none

structure Reference.IsLocal (reference : Reference) : Prop where
  kind : reference.kind = .localVariable ∨ reference.kind = .parameter ∨
    reference.kind = .localFunction
  container : reference.container = none

def AreLocal (scopes : List (List (String × Reference))) : Prop :=
  ∀ scope ∈ scopes, ∀ entry ∈ scope, entry.2.IsLocal

def InferEnv.membersOf (env : InferEnv) (type : Ty) (name : String) (arity : Option Nat)
    (staticOnly : Bool) : Resolution :=
  if type.isUnknown then {} else env.memberOn type name arity staticOnly

/-- What the analysis finds for a node that names something: a bare name by way of the
    scopes around it, a member of a written type among the static ones of that type. -/
def InferEnv.Finds (env : InferEnv) (site : Site) : Node → Resolution → Prop
  | .expr ⟨mark, .ident name⟩, resolution => ∃ scopes context, AreLocal scopes ∧
      resolution = { env with context }.resolveName scopes name (site.arity? mark.id)
  | .expr ⟨mark, .member ⟨_, .typeRef type⟩ name⟩, resolution =>
    resolution = env.membersOf (env.types.names.bind type) name (site.arity? mark.id) true
  | _, _ => True

/-- What is found does not depend on what surrounding code promises and receives. -/
theorem InferEnv.finds_congr (env other : InferEnv) (types : env.types = other.types)
    (current : env.currentType = other.currentType) (imports : env.imports = other.imports) :
    env.Finds = other.Finds := by
  obtain ⟨types, currentType, context, result, receivers, imports, constFields⟩ := env
  cases types
  cases current
  cases imports
  funext site node resolution
  unfold InferEnv.Finds
  split <;> rfl

/-! ## Where the analysis comes -/

/-- The children that the analysis comes to; it leaves out what the parameters of a
    lambda default to. -/
def Node.analyzed : Node → List Node
  | .expr ⟨_, .lambda _ _ _ body⟩ => ofLambdaBody body
  | node => node.children

/-- `root.Visits site below node`: the analysis of `root`, which stands at `site`, comes
    to `node` at `below`. -/
inductive Node.Visits : Node → Site → Site → Node → Prop where
  | here (node : Node) (site : Site) : node.Visits site site node
  | child {root child node : Node} {site below : Site} (isAnalyzed : child ∈ root.analyzed)
      (met : child.Visits (site.below root) below node) : root.Visits site below node

theorem Node.mem_children_of_analyzed {node child : Node} (isAnalyzed : child ∈ node.analyzed) :
    child ∈ node.children := by
  unfold analyzed at isAnalyzed
  split at isAnalyzed
  · exact mem_append_right _ isAnalyzed
  · exact isAnalyzed

theorem Node.tally_analyzed_le {id : Nat} (node : Node) :
    tally id node.analyzed ≤ tally id node.children := by
  unfold analyzed
  split
  · rw [Node.children, ExprKind.children, tally_append]
    exact Nat.le_add_left _ _
  · exact Nat.le_refl _

theorem Node.Visits.held {root node : Node} {site below : Site} (met : root.Visits site below node) :
    root.Holds site below node := by
  induction met with
  | here node site => exact .here node site
  | child isAnalyzed _ ih =>
    exact .child (mem_children_of_analyzed isAnalyzed) ih

theorem Node.Holds.count_pos {root node : Node} {site below : Site} {id : Nat}
    (held : root.Holds site below node) (isId : node.id = some id) : 0 < root.count id := by
  induction held with
  | here node site =>
    exact Node.count_pos_of_id isId
  | @child root child node site below isChild _ ih =>
    exact Nat.lt_of_lt_of_le (ih isId)
      (Nat.le_trans (count_le_tally isChild) root.tally_children_le)

/-! ## Steps of the analysis -/

namespace InferState

/-- A later state, in which nothing new is known about what names resolve to. -/
structure Keeps (before after : InferState) : Prop where
  locals : AreLocal after.scopes
  size : after.facts.nodes.size = before.facts.nodes.size
  resolution (id : Nat) : after.resolution id = before.resolution id

/-- The state after nodes with all below them were analyzed, as far as it concerns what
    one identity resolves to. -/
structure Settled (id : Nat) (finds : Site → Node → Resolution → Prop) (site : Site)
    (roots : List Node) (before after : InferState) : Prop where
  locals : AreLocal after.scopes
  size : after.facts.nodes.size = before.facts.nodes.size
  frame : tally id roots = 0 → after.resolution id = before.resolution id
  held : tally id roots ≤ 1 → before.resolution id = {} → ∀ root ∈ roots, ∀ below node,
    root.Holds site below node → node.id = some id → after.resolution id = {} ∨
        (root.Visits site below node ∧ finds below node (after.resolution id))
  met : tally id roots ≤ 1 → id < before.facts.nodes.size → ∀ root ∈ roots, ∀ below node,
    root.Visits site below node → node.id = some id → finds below node (after.resolution id)

end InferState

structure Idle {α : Type} (action : Infer α) : Prop where
  keeps (env : InferEnv) (state : InferState) (locals : AreLocal state.scopes) :
    state.Keeps (action env state).2
  steady : Steady [] action

def Settles (id : Nat) (finds : InferEnv → Site → Node → Resolution → Prop) (site : Site)
    (roots : List Node) {α : Type} (action : Infer α) : Prop :=
  ∀ (env : InferEnv) (state : InferState), AreLocal state.scopes →
    state.Settled id (finds env) site roots (action env state).2

/-- An action that analyzes nodes with all below them in the scopes that it is run in. -/
structure Walks (id : Nat) (site : Site) (roots : List Node) {α : Type} (action : Infer α) :
    Prop where
  settles : Settles id InferEnv.Finds site roots action
  steady : Steady roots action

namespace InferState

variable {id : Nat} {finds : Site → Node → Resolution → Prop} {site : Site}
  {roots left right : List Node} {before middle after : InferState}

theorem Keeps.settled (keeps : before.Keeps after) : before.Settled id finds site [] after where
  locals := keeps.locals
  size := keeps.size
  frame _ := keeps.resolution id
  held _ _ _ isRoot := by cases isRoot
  met _ _ _ isRoot := by cases isRoot

theorem Keeps.trans (first : before.Keeps middle) (second : middle.Keeps after) :
    before.Keeps after where
  locals := second.locals
  size := second.size.trans first.size
  resolution id := (second.resolution id).trans (first.resolution id)

theorem tally_pos {root node : Node} {below : Site} (isRoot : root ∈ roots)
    (held : root.Holds site below node) (isId : node.id = some id) : 0 < tally id roots :=
  Nat.lt_of_lt_of_le (held.count_pos isId) (count_le_tally isRoot)

theorem Settled.trans (first : before.Settled id finds site left middle)
    (second : middle.Settled id finds site right after) :
    before.Settled id finds site (left ++ right) after where
  locals := second.locals
  size := second.size.trans first.size
  frame none := by
    rw [tally_append] at none
    exact (second.frame (by omega)).trans (first.frame (by omega))
  held single unknown root isRoot below node held isId := by
    rw [tally_append] at single
    rcases mem_append.1 isRoot with isLeft | isRight
    · have positive := tally_pos isLeft held isId
      rw [second.frame (by omega)]
      exact first.held (by omega) unknown root isLeft below node held isId
    · have positive := tally_pos isRight held isId
      have stillUnknown := (first.frame (by omega)).trans unknown
      exact second.held (by omega) stillUnknown root isRight below node held isId
  met single isIn root isRoot below node met isId := by
    rw [tally_append] at single
    rcases mem_append.1 isRoot with isLeft | isRight
    · have positive := tally_pos isLeft met.held isId
      rw [second.frame (by omega)]
      exact first.met (by omega) isIn root isLeft below node met isId
    · have positive := tally_pos isRight met.held isId
      exact second.met (by omega) (by rwa [first.size]) root isRight below node met isId

end InferState

namespace Idle

variable {α β : Type} {action : Infer α} {next : α → Infer β}

theorem ask (asks : ∀ env state, (action env state).2 = state)
    (answers : ∀ env left right, (action env left).1 = (action env right).1) : Idle action where
  keeps env state locals := by
    rw [asks]
    exact ⟨locals, rfl, fun _ => rfl⟩
  steady := .ask asks answers

theorem pure (value : α) : Idle (Pure.pure value : Infer α) :=
  .ask (fun _ _ => rfl) fun _ _ _ => rfl

theorem bind (first : Idle action) (rest : ∀ value, Idle (next value)) : Idle (action >>= next) where
  keeps env state locals :=
    (first.keeps env state locals).trans ((rest _).keeps env _ (first.keeps env state locals).locals)
  steady := first.steady.bind fun value => (rest value).steady

theorem ite {condition : Prop} [Decidable condition] {yes no : Infer α} (isYes : Idle yes)
    (isNo : Idle no) : Idle (if condition then yes else no) := by
  split
  · exact isYes
  · exact isNo

theorem mapM {γ : Type} (items : List γ) (action : γ → Infer α) (each : ∀ item, Idle (action item)) :
    Idle (items.mapM action) := by
  induction items with
  | nil =>
    rw [mapM_nil]
    exact .pure []
  | cons item rest ih =>
    rw [mapM_cons]
    exact (each item).bind fun _ => ih.bind fun _ => .pure _

theorem types : Idle Infer.types :=
  .ask (fun _ _ => rfl) fun _ _ _ => rfl

theorem read : Idle (MonadReader.read : Infer InferEnv) :=
  .ask (fun _ _ => rfl) fun _ _ _ => rfl

theorem bindType (type : TypeSyntax) : Idle (Infer.bind type) :=
  .ask (fun _ _ => rfl) fun _ _ _ => rfl

theorem bindOr (type : TypeSyntax) (fallback : Ty) : Idle (Infer.bindOr type fallback) := by
  cases type with
  | absent | var => exact .pure _
  | _ => exact .bindType _

theorem named (name : String) : Idle (Infer.named name) :=
  .ask (fun _ _ => rfl) fun _ _ _ => rfl

theorem receiver : Idle Infer.receiver :=
  .ask (fun _ _ => rfl) fun _ _ _ => rfl

theorem memberType (name : String) : Idle (Infer.memberType type name) :=
  .ask (fun _ _ => rfl) fun _ _ _ => rfl

theorem componentsOf : Idle (Infer.componentsOf type) := by
  refine types.bind fun _ => ?_
  cases type <;> exact .pure _

theorem signatureOf : Idle (Infer.signatureOf type) :=
  types.bind fun _ => .ite (.pure _) (.pure _)

theorem calleeSignature (callee : Option Reference) (arity : Nat) :
    Idle (Infer.calleeSignature callee arity) := by
  cases callee with
  | none => exact .pure _
  | some reference =>
    have params : Idle (Infer.methodParams reference arity) := by
      unfold Infer.methodParams
      split
      · exact .pure _
      · exact types.bind fun _ => .pure _
    exact .ite (params.bind fun _ => .pure _) (signatureOf _)

theorem ctorParams (arity : Nat) : Idle (Infer.ctorParams type arity) :=
  types.bind fun _ => .ite (.pure _) (.pure _)

theorem functionType (params : List Ty) (result : Ty) : Idle (Infer.functionType params result) :=
  types.bind fun _ => .ite (.pure _) (.pure _)

theorem elementAccess (receiver : Ty) (args : List Ty) : Idle (Infer.elementAccess receiver args) :=
  (named "Range").bind fun _ => .ite (.pure _) (types.bind fun _ => .pure _)

theorem commonType (left right : Ty) : Idle (Infer.commonType left right) :=
  types.bind fun _ => .ite (.pure _) (.ite (.pure _) (.ite (.pure _) (.ite (.pure _)
    (.ite (.pure _) (.ite (.pure _) (.ite (.pure _) (.pure _)))))))

theorem addArm (seen : ArmTypes) (type : Ty) : Idle (seen.add type) := by
  refine .ite (.pure _) (.ite (.pure _) ?_)
  split
  · exact .pure _
  · exact (commonType _ type).bind fun _ => .ite (.pure _) (.pure _)

theorem armResult (seen : ArmTypes) (expected : Ty) : Idle (seen.result expected) := by
  unfold ArmTypes.result
  split
  · exact .pure _
  · exact .ite (.pure _) (.ite (types.bind fun _ => .pure _) (.pure _))

theorem observe : Idle (Infer.observe type) := by
  have facts (env : InferEnv) (state : InferState) :
      (Infer.observe type env state).2.facts = state.facts := by
    change (if _ then { state with observed := _ } else state : InferState).facts = _
    split <;> rfl
  have scopes (env : InferEnv) (state : InferState) :
      (Infer.observe type env state).2.scopes = state.scopes := by
    change (if _ then { state with observed := _ } else state : InferState).scopes = _
    split <;> rfl
  have resolution (env : InferEnv) (state : InferState) (id : Nat) :
      (Infer.observe type env state).2.resolution id = state.resolution id := by
    rw [InferState.resolution, facts]
    rfl
  have observed (env : InferEnv) (state : InferState) : (Infer.observe type env state).2.observed =
      if state.observed.isNone && type != .null then some type else state.observed := by
    change (if _ then { state with observed := _ } else state : InferState).observed = _
    split <;> rfl
  refine {
    keeps := fun env state locals =>
      ⟨(scopes env state).symm ▸ locals, by rw [facts], resolution env state⟩
    steady := {
      outer := fun env state => by rw [scopes]
      size := fun env state => by rw [facts]
      others := fun env state id _ => resolution env state id
      value := fun _ _ _ _ _ _ => rfl
      agrees := fun _ _ env left right agree => ?_ } }
  exact {
    scopes := by rw [scopes, scopes, agree.scopes]
    size := by rw [facts, facts, agree.size]
    resolution := fun id isOwn => by rw [resolution, resolution, agree.resolution id isOwn]
    observed := fun isSeen => by rw [observed, observed, agree.observed isSeen] }

end Idle

/-! ## Taking down -/

theorem AreLocal.add (locals : AreLocal scopes) {reference : Reference}
    (isLocal : reference.IsLocal) : AreLocal (addToScope reference scopes) := by
  cases scopes with
  | nil =>
    intro scope isScope entry isEntry
    obtain rfl := mem_singleton.1 isScope
    obtain rfl := mem_singleton.1 isEntry
    exact isLocal
  | cons innermost rest =>
    intro scope isScope entry isEntry
    rcases mem_cons.1 isScope with rfl | isOuter
    · rcases mem_cons.1 isEntry with rfl | isOld
      · exact isLocal
      · exact locals _ mem_cons_self entry isOld
    · exact locals scope (mem_cons_of_mem _ isOuter) entry isEntry

theorem AreLocal.lookup (locals : AreLocal scopes) {name : String} {reference : Reference}
    (found : lookupScopes? name scopes = some reference) : reference.IsLocal := by
  induction scopes with
  | nil => cases found
  | cons scope rest ih =>
    rw [lookupScopes?, Option.or_eq_some_iff] at found
    rcases found with isHere | ⟨-, isOuter⟩
    · have isEntry : (name, reference) ∈ scope := by
        obtain ⟨before, after, rfl, -⟩ := lookup_eq_some_iff.1 isHere
        exact mem_append_right _ mem_cons_self
      exact locals scope mem_cons_self _ isEntry
    · exact ih (fun scope isScope => locals scope (mem_cons_of_mem _ isScope)) isOuter

namespace Idle

end Idle

structure Silent {α : Type} (action : Infer α) : Prop where
  scopes (env : InferEnv) (state : InferState) : (action env state).2.scopes = state.scopes
  size (env : InferEnv) (state : InferState) :
    (action env state).2.facts.nodes.size = state.facts.nodes.size
  resolution (env : InferEnv) (state : InferState) (id : Nat) :
    (action env state).2.resolution id = state.resolution id
  observed (env : InferEnv) (state : InferState) : (action env state).2.observed = state.observed

namespace Silent

variable {α β : Type} {action : Infer α} {next : α → Infer β}

theorem ask (asks : ∀ env state, (action env state).2 = state) : Silent action where
  scopes env state := by rw [asks]
  size env state := by rw [asks]
  resolution env state id := by rw [asks]
  observed env state := by rw [asks]

theorem bind (first : Silent action) (rest : ∀ value, Silent (next value)) :
    Silent (action >>= next) where
  scopes env state := ((rest _).scopes env _).trans (first.scopes env state)
  size env state := ((rest _).size env _).trans (first.size env state)
  resolution env state id := ((rest _).resolution env _ id).trans (first.resolution env state id)
  observed env state := ((rest _).observed env _).trans (first.observed env state)

theorem update {mark : Mark} {change : NodeFacts → NodeFacts}
    (keeps : ∀ facts, (change facts).resolution = facts.resolution) :
    Silent (Infer.update mark change) where
  scopes _ _ := rfl
  size _ state := state.facts.size_update ..
  resolution _ state id := by
    change ((state.facts.update mark.id change).get (some id)).resolution = _
    rw [Facts.get_update]
    split
    · exact keeps _
    · rfl
  observed _ _ := rfl

theorem idle {action : Infer Unit} (silent : Silent action) : Idle action where
  keeps env state locals :=
    ⟨(silent.scopes env state).symm ▸ locals, silent.size env state, silent.resolution env state⟩
  steady := {
    outer := fun env state => by rw [silent.scopes]
    size := silent.size
    others := fun env state id _ => silent.resolution env state id
    value := fun _ _ _ _ _ _ => rfl
    agrees := fun _ _ env left right agree =>
      { scopes := by rw [silent.scopes, silent.scopes, agree.scopes]
        size := by rw [silent.size, silent.size, agree.size]
        resolution := fun id isOwn => by
          rw [silent.resolution, silent.resolution, agree.resolution id isOwn]
        observed := fun isSeen => by
          rw [silent.observed, silent.observed, agree.observed isSeen] } }

end Silent

namespace Idle

theorem update {mark : Mark} {change : NodeFacts → NodeFacts}
    (keeps : ∀ facts, (change facts).resolution = facts.resolution) :
    Idle (Infer.update mark change) :=
  (Silent.update keeps).idle

theorem record (type expected : Ty) : Idle (Infer.record mark type expected) :=
  types.bind fun _ => update fun _ => rfl

theorem recordConstant (node : Expr) : Idle (Infer.recordConstant node) := by
  refine Silent.idle ?_
  unfold Infer.recordConstant
  refine .bind (.ask fun _ _ => rfl) fun state => ?_
  dsimp only
  split
  · refine .bind (.ask fun _ _ => rfl) fun _ => .bind (.ask fun _ _ => rfl) fun value => ?_
    split
    · exact .update fun _ => rfl
    · exact .ask fun _ _ => rfl
  · refine .bind (.ask fun _ _ => rfl) fun _ => .bind (.ask fun _ _ => rfl) fun value => ?_
    split
    · exact .update fun _ => rfl
    · exact .ask fun _ _ => rfl
  · refine .bind (.ask fun _ _ => rfl) fun value => ?_
    split
    · exact .update fun _ => rfl
    · exact .ask fun _ _ => rfl

theorem finish (node : Expr) (type expected : Ty) : Idle (Infer.finish node type expected) :=
  (record node.mark type expected).bind fun _ => (recordConstant node).bind fun _ => .pure type

theorem declare (name : String) {kind : SymbolKind}
    (isKind : kind = .localVariable ∨ kind = .parameter ∨ kind = .localFunction) (type : Ty) :
    Idle (Infer.declare name kind type) where
  keeps _ _ locals :=
    { locals := locals.add ⟨isKind, rfl⟩
      size := rfl
      resolution := fun _ => rfl }
  steady := {
    outer := fun _ _ => tail_addToScope
    size := fun _ _ => rfl
    others := fun _ _ _ _ => rfl
    value := fun _ _ _ _ _ _ => rfl
    agrees := fun _ _ _ _ _ agree => { agree with scopes := congrArg (addToScope _) agree.scopes } }

theorem declareAt (name : String) {kind : SymbolKind}
    (isKind : kind = .localVariable ∨ kind = .parameter ∨ kind = .localFunction) (type : Ty) :
    Idle (Infer.declareAt mark name kind type) :=
  (declare name isKind type).bind fun _ => update fun _ => rfl

theorem designate (name : String) (type : Ty) : Idle (Infer.designate mark name type) :=
  .ite (.pure _) (declareAt mark name (.inl rfl) type)

theorem declareLocalFunction (node : Stmt) : Idle (Infer.declareLocalFunction node) := by
  unfold Infer.declareLocalFunction
  split
  · refine (bindType _).bind fun result => .bind (mapM _ _ fun param => ?_) fun params =>
      (functionType params result).bind fun type => declareAt _ _ (.inr (.inr rfl)) type
    exact (bindType param.type).bind fun _ => .pure _
  · exact .pure _

end Idle

namespace InferState.Settled

variable {id : Nat} {finds : Site → Node → Resolution → Prop} {site : Site}
  {before middle after : InferState}

theorem name {node : Node} {resolution : Resolution}
    (children : before.Settled id finds (site.below node) node.children middle)
    (isAnalyzed : node.analyzed = node.children)
    (isFound : node.id = some id → finds site node resolution)
    (scopes : after.scopes = middle.scopes)
    (facts : after.facts = middle.facts.update node.id fun known => { known with resolution }) :
    before.Settled id finds site [node] after := by
  have taken : after.resolution id =
      if node.id = some id ∧ id < middle.facts.nodes.size then resolution
      else middle.resolution id := by
    rw [InferState.resolution, facts, Facts.get_update]
    split <;> rfl
  have size : after.facts.nodes.size = middle.facts.nodes.size := by
    rw [facts, Facts.size_update]
  have counted : tally id [node] = node.mark.bears id + tally id node.children := node.count_eq
  have bears (isId : node.id = some id) : node.mark.bears id = 1 := if_pos isId
  have other {child found : Node} {below : Site} (isChild : child ∈ node.children)
      (held : child.Holds (site.below node) below found) (isId : found.id = some id)
      (single : tally id [node] ≤ 1) : after.resolution id = middle.resolution id := by
    have positive := tally_pos isChild held isId
    refine taken.trans (if_neg fun isHere => ?_)
    have own := bears isHere.1
    omega
  refine {
    locals := scopes ▸ children.locals
    size := size.trans children.size
    frame := fun none => ?_
    held := fun single unknown root isRoot below found held isId => ?_
    met := fun single isIn root isRoot below found met isId => ?_ }
  · refine (taken.trans (if_neg fun isHere => ?_)).trans (children.frame (by omega))
    have own := bears isHere.1
    omega
  · obtain rfl := mem_singleton.1 isRoot
    cases held with
    | here =>
      have own := bears isId
      rw [taken]
      split
      · exact .inr ⟨.here _ _, isFound isId⟩
      · exact .inl ((children.frame (by omega)).trans unknown)
    | child isChild held =>
      rw [other isChild held isId single]
      refine (children.held (by omega) unknown _ isChild _ _ held isId).imp_right ?_
      exact And.imp_left fun met => .child (isAnalyzed ▸ isChild) met
  · obtain rfl := mem_singleton.1 isRoot
    cases met with
    | here =>
      rw [taken, if_pos ⟨isId, children.size ▸ isIn⟩]
      exact isFound isId
    | child isChild met =>
      rw [isAnalyzed] at isChild
      rw [other isChild met.held isId single]
      exact children.met (by omega) isIn _ isChild _ _ met isId

end InferState.Settled

/-! ## Nodes with all below them -/

section Combining

variable {id : Nat} {finds : InferEnv → Site → Node → Resolution → Prop} {site : Site}
  {left right roots : List Node} {α β : Type} {action : Infer α} {next : α → Infer β}

theorem Idle.settles (idle : Idle action) : Settles id finds site [] action :=
  fun env state locals => (idle.keeps env state locals).settled

theorem Idle.walks (idle : Idle action) : Walks id site [] action :=
  ⟨idle.settles, idle.steady⟩

namespace Settles

theorem bind (first : Settles id finds site left action)
    (rest : ∀ value, Settles id finds site right (next value)) :
    Settles id finds site (left ++ right) (action >>= next) := fun env state locals =>
  (first env state locals).trans (rest _ env _ (first env state locals).locals)

theorem ask (first : Idle action) (rest : ∀ value, Settles id finds site roots (next value)) :
    Settles id finds site roots (action >>= next) :=
  first.settles.bind rest

theorem andThen (first : Settles id finds site roots action) (rest : ∀ value, Idle (next value)) :
    Settles id finds site roots (action >>= next) := by
  have both := first.bind fun value => (rest value).settles
  rwa [append_nil] at both

theorem map (first : Settles id finds site roots action) (build : α → β) :
    Settles id finds site roots (action >>= fun value => Pure.pure (build value)) :=
  first.andThen fun value => .pure (build value)

theorem swap (settles : Settles id finds site (left ++ right) action) :
    Settles id finds site (right ++ left) action := fun env state locals => by
  have settled := settles env state locals
  have same : tally id (right ++ left) = tally id (left ++ right) := by
    rw [tally_append, tally_append, Nat.add_comm]
  have isIn {root : Node} (isRoot : root ∈ right ++ left) : root ∈ left ++ right :=
    mem_append.2 (mem_append.1 isRoot).symm
  refine { settled with frame := ?_, held := ?_, met := ?_ } <;> rw [same]
  · exact settled.frame
  · exact fun single unknown root isRoot => settled.held single unknown root (isIn isRoot)
  · exact fun single known root isRoot => settled.met single known root (isIn isRoot)

theorem inScope (within : Settles id finds site roots action) :
    Settles id finds site roots (inScope action) := fun env state locals => by
  have inside : AreLocal ([] :: state.scopes) := by
    intro scope isScope
    rcases mem_cons.1 isScope with rfl | isOuter
    · exact nofun
    · exact locals scope isOuter
  have settled := within env { state with scopes := [] :: state.scopes } inside
  exact { settled with
    locals := fun scope isScope => settled.locals scope (mem_of_mem_tail isScope) }

theorem inFunction (result : Ty) (same : ∀ env : InferEnv, finds { env with result } = finds env)
    (within : Settles id finds site roots body) :
    Settles id finds site roots (inFunction result body) := fun env state locals => by
  have settled := within { env with result } { state with observed := none } locals
  rw [same] at settled
  exact { settled with }

theorem withReader {change : InferEnv → InferEnv} (same : ∀ env, finds (change env) = finds env)
    (within : Settles id finds site roots action) :
    Settles id finds site roots (withReader change action) := fun env state locals => by
  have settled := within (change env) state locals
  rwa [same] at settled

theorem around {node : Node} (unnamed : ∀ env site resolution, finds env site node resolution)
    (apart : ∀ child ∈ node.children, child ∉ node.analyzed →
      tally id node.analyzed + child.count id ≤ tally id node.children)
    (settles : Settles id finds (site.below node) node.analyzed action) :
    Settles id finds site [node] action := fun env state locals => by
  have settled := settles env state locals
  have within : tally id node.children ≤ tally id [node] := node.tally_children_le
  have fewer : tally id node.analyzed ≤ tally id node.children :=
    node.tally_analyzed_le
  refine { settled with
    frame := fun none => settled.frame (by omega)
    held := fun single unknown root isRoot below found held isId => ?_
    met := fun single isIn root isRoot below found met isId => ?_ }
  · obtain rfl := mem_singleton.1 isRoot
    cases held with
    | here => exact .inr ⟨.here _ _, unnamed ..⟩
    | @child _ child _ _ _ isChild held =>
      by_cases isAnalyzed : child ∈ root.analyzed
      · refine (settled.held (by omega) unknown _ isAnalyzed _ _ held isId).imp_right ?_
        exact fun ⟨met, isFound⟩ => ⟨.child isAnalyzed met, isFound⟩
      · have positive := held.count_pos isId
        have elsewhere := apart child isChild isAnalyzed
        exact .inl ((settled.frame (by omega)).trans unknown)
  · obtain rfl := mem_singleton.1 isRoot
    cases met with
    | here => exact unnamed ..
    | child isAnalyzed met => exact settled.met (by omega) isIn _ isAnalyzed _ _ met isId

end Settles

namespace Walks

variable {action : Infer α} {next : α → Infer β}

theorem bind (first : Walks id site left action) (rest : ∀ value, Walks id site right (next value)) :
    Walks id site (left ++ right) (action >>= next) where
  settles := first.settles.bind fun value => (rest value).settles
  steady := first.steady.bind fun value => (rest value).steady

theorem ask (first : Idle action) (rest : ∀ value, Walks id site roots (next value)) :
    Walks id site roots (action >>= next) :=
  first.walks.bind rest

theorem andThen (first : Walks id site roots action) (rest : ∀ value, Idle (next value)) :
    Walks id site roots (action >>= next) := by
  have both := first.bind fun value => (rest value).walks
  rwa [append_nil] at both

theorem map (first : Walks id site roots action) (build : α → β) :
    Walks id site roots (action >>= fun value => Pure.pure (build value)) :=
  first.andThen fun value => .pure (build value)

theorem swap (walks : Walks id site (left ++ right) action) : Walks id site (right ++ left) action where
  settles := walks.settles.swap
  steady := walks.steady.widen fun id none => by
    rw [tally_append] at none ⊢
    omega

theorem ite {condition : Prop} [Decidable condition] {yes no : Infer α}
    (isYes : Walks id site roots yes) (isNo : Walks id site roots no) :
    Walks id site roots (if condition then yes else no) := by
  split
  · exact isYes
  · exact isNo

theorem inScope (within : Walks id site roots action) : Walks id site roots (inScope action) :=
  ⟨within.settles.inScope, within.steady.inScope⟩

theorem inFunction (result : Ty) (within : Walks id site roots body) :
    Walks id site roots (inFunction result body) where
  settles := within.settles.inFunction result fun env =>
    InferEnv.finds_congr { env with result } env rfl rfl rfl
  steady := .inFunction result within.steady.outer within.steady.size within.steady.others
    fun isOwn env _ _ agree => ⟨within.steady.value isOwn env agree, within.steady.agrees isOwn env agree⟩

theorem receiving (within : Walks id site roots action) : Walks id site roots
      (withReader (fun env => { env with receivers := type :: env.receivers }) action) where
  settles := within.settles.withReader fun env =>
    InferEnv.finds_congr { env with receivers := type :: env.receivers } env rfl rfl rfl
  steady := within.steady.withReader

theorem around {node : Node}
    (unnamed : ∀ (env : InferEnv) site resolution, env.Finds site node resolution)
    (apart : ∀ child ∈ node.children, child ∉ node.analyzed →
      tally id node.analyzed + child.count id ≤ tally id node.children)
    (walks : Walks id (site.below node) node.analyzed action) : Walks id site [node] action where
  settles := .around unnamed apart walks.settles
  steady := walks.steady.widen fun id none => by
    have within : tally id node.children ≤ tally id [node] := node.tally_children_le
    have fewer : tally id node.analyzed ≤ tally id node.children := node.tally_analyzed_le
    omega

theorem node {node : Node}
    (unnamed : ∀ (env : InferEnv) site resolution, env.Finds site node resolution)
    (isAnalyzed : node.analyzed = node.children)
    (walks : Walks id (site.below node) node.children action) : Walks id site [node] action :=
  .around unnamed (fun _ isChild notIn => absurd (isAnalyzed ▸ isChild) notIn) (by rwa [isAnalyzed])

end Walks

end Combining

end Unsugar
