import Unsugar.Proofs.Lower.StandingPasses

open List

namespace Unsugar

/-! # What lowered units look like

The first pass leaves no member with an expression body, and a unit with static
imports calls for the pass that drops them.  No other pass brings either back,
so a lowered unit has neither.
-/

/-! ## Rebuilds keep the shape of declarations -/

/-- A contract that asks nothing but what comes out of an action. -/
structure Outcomes (m : Type → Type) [Monad m] extends Contract m where
  any {α : Type} (action : m α) : holds action fun _ => True

namespace Outcomes

def pureValue : Outcomes Id where
  toContract := .pureValue
  any _ := trivial

def stateValue (σ : Type) : Outcomes (StateM σ) where
  toContract := .stateValue σ
  any _ _ := trivial

def passResult (env : PassEnv) : Outcomes Pass where
  holds action post := ∀ before result after, action env before = .ok (result, after) → post result
  any _ _ _ _ _ := trivial
  pure isPost before result after ran := by
    cases ran
    exact isPost
  bind first rest before result after ran := by
    obtain ⟨value, middle, ranFirst, ranRest⟩ := Pass.bind_eq_ok ran
    exact rest _ (first _ _ _ ranFirst) _ _ _ ranRest

variable {m : Type → Type} [Monad m] (outcomes : Outcomes m)

theorem after {α β : Type} {post : β → Prop} (action : m α) {next : α → m β}
    (rest : ∀ value, outcomes.holds (next value) post) : outcomes.holds (action >>= next) post :=
  outcomes.bind (outcomes.any action) fun value _ => rest value

variable {α β γ : Type} {isFirst : α → Prop} {isSecond : β → Prop} {post : γ → Prop}
  {first : m α} {second : m β}

theorem map₂ {build : α → β → γ} (given : outcomes.holds first isFirst)
    (next : outcomes.holds second isSecond)
    (built : ∀ left right, isFirst left → isSecond right → post (build left right)) :
    outcomes.holds (first >>= fun left => second >>= fun right => Pure.pure (build left right))
      post :=
  outcomes.bind given fun left isLeft => outcomes.map next fun right => built left right isLeft

end Outcomes

/-- Whether a unit imports static members. -/
def CompilationUnit.hasStatic (unit : CompilationUnit) : Bool := unit.usings.any (·.isStatic)

section Shape

variable {m : Type → Type} [Monad m] (outcomes : Outcomes m) (rules : Rules m) (site : Site)

theorem Body.rebuild_isExpr (body : Body) :
    outcomes.holds (body.rebuild rules site) fun result => result.isExpr = body.isExpr := by
  cases body with
  | none => exact outcomes.pure rfl
  | expr value => exact outcomes.after _ fun _ => outcomes.pure rfl
  | block body => exact outcomes.after _ fun _ => outcomes.pure rfl

theorem rebuildBody?_isExpr {body : Option Body} :
    outcomes.holds (rebuildBody? rules site body) fun result =>
      result.toList.any Body.isExpr = body.toList.any Body.isExpr := by
  cases body with
  | none => exact outcomes.pure rfl
  | some body =>
    refine outcomes.bind (Body.rebuild_isExpr outcomes rules site body) fun result same => ?_
    exact outcomes.pure (by simp [same])

theorem MemberKind.rebuild_hasArrow (kind : MemberKind) :
    outcomes.holds (kind.rebuild rules site) fun result => result.hasArrow = kind.hasArrow := by
  cases kind with
  | field type name init => exact outcomes.after _ fun _ => outcomes.pure rfl
  | property type name getter setter init =>
    refine outcomes.bind (rebuildBody?_isExpr outcomes rules site) fun newGetter sameGetter => ?_
    refine outcomes.bind (rebuildBody?_isExpr outcomes rules site) fun newSetter sameSetter => ?_
    refine outcomes.after _ fun _ => outcomes.pure ?_
    simp only [hasArrow, bodies, any_append, sameGetter, sameSetter]
  | method name typeParams params ret body =>
    refine outcomes.after _ fun _ =>
      outcomes.bind (body.rebuild_isExpr outcomes rules site) fun result same => ?_
    exact outcomes.pure (by simp [hasArrow, bodies, same])
  | operator op params ret body =>
    refine outcomes.after _ fun _ =>
      outcomes.bind (body.rebuild_isExpr outcomes rules site) fun result same => ?_
    exact outcomes.pure (by simp [hasArrow, bodies, same])
  | ctor params initializer body =>
    cases initializer with
    | none =>
      refine outcomes.after _ fun _ =>
        outcomes.bind (body.rebuild_isExpr outcomes rules site) fun result same => ?_
      exact outcomes.pure (by simp [hasArrow, bodies, same])
    | some initializer =>
      refine outcomes.after _ fun _ => outcomes.after _ fun _ =>
        outcomes.bind (body.rebuild_isExpr outcomes rules site) fun result same => ?_
      exact outcomes.pure (by simp [hasArrow, bodies, same])

theorem rebuildMembers_hasArrow (type index : Nat) (members : List Member) :
    outcomes.holds (rebuildMembers rules type index members) fun result =>
      result.any (·.kind.hasArrow) = members.any (·.kind.hasArrow) := by
  induction members generalizing index with
  | nil => exact outcomes.pure rfl
  | cons member rest ih =>
    refine outcomes.bind (member.kind.rebuild_hasArrow outcomes rules _) fun kind same => ?_
    refine outcomes.bind (ih (index + 1)) fun others sameOthers => ?_
    exact outcomes.pure (by simp [same, sameOthers])

theorem rebuildTypes_hasArrow (index : Nat) (types : List TypeDecl) :
    outcomes.holds (rebuildTypes rules index types) fun result =>
      (result.any fun decl => decl.members.any (·.kind.hasArrow)) =
        types.any fun decl => decl.members.any (·.kind.hasArrow) := by
  induction types generalizing index with
  | nil => exact outcomes.pure rfl
  | cons decl rest ih =>
    have rebuilt : outcomes.holds (decl.rebuild rules index) fun result =>
        result.members.any (·.kind.hasArrow) = decl.members.any (·.kind.hasArrow) := by
      rw [TypeDecl.rebuild_eq]
      refine outcomes.after _ fun _ => outcomes.after _ fun _ =>
        outcomes.bind (rebuildMembers_hasArrow outcomes rules index 0 decl.members) fun _ same => ?_
      exact outcomes.pure same
    refine outcomes.bind rebuilt fun result same => ?_
    refine outcomes.bind (ih (index + 1)) fun others sameOthers => ?_
    exact outcomes.pure (by rw [any_cons, any_cons, same, sameOthers])

theorem CompilationUnit.rebuild_shape (unit : CompilationUnit) :
    outcomes.holds (unit.rebuild rules) fun result =>
      result.hasArrow = unit.hasArrow ∧ result.usings = unit.usings :=
  outcomes.map (rebuildTypes_hasArrow outcomes rules 0 unit.types) fun _ same => ⟨same, rfl⟩

/-- What makes a declaration sugar: whether it is a record, and whether it has a
    primary constructor. -/
def TypeDecl.form (decl : TypeDecl) : TypeDeclKind × Bool := (decl.kind, decl.primary.isSome)

theorem rebuildTypes_form [LawfulMonad m] (index : Nat) (types : List TypeDecl) :
    outcomes.holds (rebuildTypes rules index types) fun result =>
      result.map TypeDecl.form = types.map TypeDecl.form := by
  induction types generalizing index with
  | nil => exact outcomes.pure rfl
  | cons decl rest ih =>
    have optional : outcomes.holds
        (rebuildOption (rebuildParams rules ⟨.header index, []⟩) decl.primary) fun result =>
          result.isSome = decl.primary.isSome := by
      cases decl.primary with
      | none => exact outcomes.pure rfl
      | some params =>
        rw [rebuildOption, map_eq_pure_bind]
        exact outcomes.after _ fun _ => outcomes.pure rfl
    have rebuilt : outcomes.holds (decl.rebuild rules index) (·.form = decl.form) := by
      rw [TypeDecl.rebuild_eq]
      refine outcomes.bind optional fun primary same => ?_
      refine outcomes.after _ fun _ => outcomes.after _ fun _ => outcomes.pure ?_
      exact Prod.ext rfl same
    refine outcomes.bind rebuilt fun result same => ?_
    refine outcomes.bind (ih (index + 1)) fun others sameOthers => ?_
    exact outcomes.pure (by rw [map_cons, map_cons, same, sameOthers])

end Shape

/-- Two units with the same imports and the same sorts of bodies. -/
def CompilationUnit.SameShape (left right : CompilationUnit) : Prop :=
  left.hasArrow = right.hasArrow ∧ left.usings = right.usings

theorem CompilationUnit.SameShape.trans {left middle right : CompilationUnit}
    (first : left.SameShape middle) (second : middle.SameShape right) : left.SameShape right :=
  ⟨first.1.trans second.1, first.2.trans second.2⟩

theorem CompilationUnit.SameShape.hasStatic {left right : CompilationUnit}
    (same : left.SameShape right) (none : right.hasStatic = false) : left.hasStatic = false := by
  rw [← none, CompilationUnit.hasStatic, CompilationUnit.hasStatic, same.2]

variable (unit : CompilationUnit) (parents : ParentMap)

theorem CompilationUnit.number_shape : unit.number.1.SameShape unit :=
  unit.rebuild_shape (.stateValue Nat) Rules.number 0

theorem CompilationUnit.number_form :
    unit.number.1.types.map TypeDecl.form = unit.types.map TypeDecl.form :=
  rebuildTypes_form (.stateValue Nat) Rules.number 0 unit.types 0

theorem CompilationUnit.wrapStmt_shape {id : Nat} {decls : List Stmt} :
    (unit.wrapStmt id decls).SameShape unit :=
  unit.rebuild_shape .pureValue (Rules.wrap id decls)

theorem CompilationUnit.installBefore_shape {id : Nat} {decls : List Stmt} :
    (unit.installBefore parents id decls).SameShape unit := by
  unfold installBefore
  split
  · rename_i parent _ _
    change (if ((unit.rebuild (Rules.insertIn parent id decls)).run false).2 = true
      then ((unit.rebuild (Rules.insertIn parent id decls)).run false).1
      else unit.wrapStmt id decls).SameShape unit
    split
    · exact unit.rebuild_shape (.stateValue Bool) (Rules.insertIn parent id decls) false
    · exact unit.wrapStmt_shape
  · exact unit.wrapStmt_shape

theorem CompilationUnit.installAt_shape {entry : InstallPoint × List HoistedLocal} :
    (unit.installAt parents entry).SameShape unit := by
  obtain ⟨point, hoisted⟩ := entry
  cases point with
  | stmt id => exact unit.installBefore_shape parents
  | lambda id returnsValue => exact unit.rebuild_shape .pureValue _
  | initializer id => exact ⟨rfl, rfl⟩

theorem CompilationUnit.install_shape (queue : HoistQueue) :
    (unit.install parents queue).SameShape unit := by
  obtain ⟨entries⟩ := queue
  unfold install
  induction entries generalizing unit with
  | nil => exact ⟨rfl, rfl⟩
  | cons entry rest ih =>
    exact (ih _).trans (unit.installAt_shape parents)

/-! ## What the passes do to it -/

namespace Pass

variable (env : PassEnv) (index : Nat)

theorem read_outcome : (Outcomes.passResult env).holds read (· = env) := by
  rintro before result after ⟨⟩
  rfl

theorem rebuild_shape (rules : Rules Pass) :
    (Outcomes.passResult env).holds (do (← read).unit.rebuild rules) (·.SameShape env.unit) :=
  (Outcomes.passResult env).bind (read_outcome env) fun other same => by
    subst same
    exact other.unit.rebuild_shape (.passResult other) rules

theorem blockMember_hasArrow {member : Member} :
    (Outcomes.passResult env).holds (blockMember member) (·.kind.hasArrow = false) := by
  have accessor (body : Option Body) (returns : Bool) :
      (body.map (Body.toBlock returns)).toList.any Body.isExpr = false := by
    cases body with
    | none => rfl
    | some body => simp [Body.toBlock_isExpr]
  obtain ⟨kind, modifiers, span⟩ := member
  let outcomes := Outcomes.passResult env
  cases kind with
  | field type name init => exact outcomes.pure rfl
  | method name typeParams params ret body =>
    refine outcomes.after _ fun _ => outcomes.after _ fun _ => outcomes.pure ?_
    simp [MemberKind.hasArrow, MemberKind.bodies, Body.toBlock_isExpr]
  | operator op params ret body =>
    refine outcomes.after _ fun _ => outcomes.pure ?_
    simp [MemberKind.hasArrow, MemberKind.bodies, Body.toBlock_isExpr]
  | ctor params initializer body =>
    refine outcomes.after _ fun _ => outcomes.pure ?_
    simp [MemberKind.hasArrow, MemberKind.bodies, Body.toBlock_isExpr]
  | property type name getter setter init =>
    refine outcomes.after _ fun _ => outcomes.pure ?_
    simp only [MemberKind.hasArrow, MemberKind.bodies, any_append, accessor, Bool.or_self]

theorem mapM_outcome {α β : Type} {action : α → Pass β} {post : β → Prop}
    {values : List α} (each : ∀ value ∈ values, (Outcomes.passResult env).holds (action value) post) :
    (Outcomes.passResult env).holds (values.mapM action) fun results =>
      ∀ result ∈ results, post result := by
  let outcomes := Outcomes.passResult env
  induction values with
  | nil =>
    rw [mapM_nil]
    exact outcomes.pure (by simp)
  | cons value rest ih =>
    have others := ih fun other isIn => each other (mem_cons_of_mem _ isIn)
    rw [mapM_cons]
    refine outcomes.bind (each value mem_cons_self) fun first isFirst => ?_
    refine outcomes.bind others fun results areOthers => ?_
    exact outcomes.pure (by simpa using ⟨isFirst, areOthers⟩)

theorem expressionBodies_shape : (Outcomes.passResult env).holds expressionBodies fun unit =>
      unit.hasArrow = false ∧ unit.usings = env.unit.usings := by
  let outcomes := Outcomes.passResult env
  have blocked (decl : TypeDecl) : outcomes.holds (blockDecl decl) fun result =>
      ∀ member ∈ result.members, member.kind.hasArrow = false :=
    outcomes.map (mapM_outcome env fun member _ => blockMember_hasArrow env) fun _ all => all
  refine outcomes.bind (read_outcome env) fun other same => ?_
  subst same
  refine outcomes.bind (other.unit.rebuild_shape outcomes blockRules) fun rebuilt shape => ?_
  refine outcomes.bind (mapM_outcome other fun decl _ => blocked decl) fun types all => ?_
  exact outcomes.pure ⟨by simpa [CompilationUnit.hasArrow] using all, shape.2⟩

theorem staticUsings_shape : (Outcomes.passResult env).holds staticUsings fun unit =>
      unit.hasArrow = env.unit.hasArrow ∧ unit.hasStatic = false := by
  let outcomes := Outcomes.passResult env
  refine outcomes.bind (read_outcome env) fun other same => ?_
  subst same
  refine outcomes.after _ fun _ =>
    outcomes.bind (other.unit.rebuild_shape outcomes _) fun rebuilt shape => ?_
  have dropped : outcomes.holds (pure { rebuilt with
      usings := rebuilt.usings.filter fun directive => !directive.isStatic } : Pass CompilationUnit)
      fun unit => unit.hasArrow = other.unit.hasArrow ∧ unit.hasStatic = false :=
    outcomes.pure ⟨shape.1, by simp [CompilationUnit.hasStatic]⟩
  split
  · exact outcomes.after _ fun _ => dropped
  · exact dropped

theorem withoutInitializer_hasArrow {member : Member} :
    (Outcomes.passResult env).holds (withoutInitializer member) fun result =>
      result.1.kind.hasArrow = member.kind.hasArrow := by
  let outcomes := Outcomes.passResult env
  unfold withoutInitializer
  split
  · exact outcomes.pure rfl
  · split
    · rename_i isField
      exact outcomes.after _ fun _ => outcomes.pure (by rw [isField]; rfl)
    · rename_i isProperty
      exact outcomes.after _ fun _ => outcomes.pure (by rw [isProperty]; rfl)
    · exact outcomes.pure rfl

theorem lowerPrimary_hasArrow {leading : List Stmt} {decl : TypeDecl}
    (noArrow : ∀ member ∈ decl.members, member.kind.hasArrow = false) :
    (Outcomes.passResult env).holds (lowerPrimary index leading decl) fun result =>
      ∀ member ∈ result.members, member.kind.hasArrow = false := by
  let outcomes := Outcomes.passResult env
  unfold lowerPrimary
  split
  · exact outcomes.pure noArrow
  · have moved : outcomes.holds (decl.members.mapM withoutInitializer) fun results =>
        ∀ result ∈ results, result.1.kind.hasArrow = false := by
      refine mapM_outcome env fun member isIn => ?_
      intro before result after ran
      rw [withoutInitializer_hasArrow env before result after ran]
      exact noArrow member isIn
    refine outcomes.after _ fun _ => outcomes.bind moved fun results all => ?_
    refine outcomes.after _ fun _ => outcomes.pure fun member isIn => ?_
    rcases mem_append.1 isIn with isOther | isCtor
    · rcases mem_append.1 isOther with isField | isMoved
      · obtain ⟨param, _, rfl⟩ := mem_map.1 isField
        rfl
      · obtain ⟨result, isResult, rfl⟩ := mem_map.1 isMoved
        exact all result isResult
    · obtain rfl := mem_singleton.1 isCtor
      rfl

theorem methods_hasArrow {shape : RecordShape} {types : Universe} {written : List Member} :
    ∀ member ∈ shape.methods types written, member.kind.hasArrow = false := by
  have ifMissing {condition : Prop} [Decidable condition] {members : List Member}
      (all : ∀ member ∈ members, member.kind.hasArrow = false) :
      ∀ member ∈ if condition then [] else members, member.kind.hasArrow = false := by
    split
    · simp
    · exact all
  have single {member : Member} (block : member.kind.hasArrow = false) :
      ∀ other ∈ [member], other.kind.hasArrow = false :=
    forall_mem_singleton.2 block
  unfold RecordShape.methods
  simp only [forall_mem_append]
  exact ⟨⟨⟨⟨⟨⟨⟨⟨⟨ifMissing (ifMissing (single rfl)), ifMissing (ifMissing (single rfl))⟩,
    ifMissing (single rfl)⟩, ifMissing (single rfl)⟩, ifMissing (single rfl)⟩, ifMissing (single rfl)⟩, ifMissing (single rfl)⟩,
    ifMissing (single rfl)⟩, ifMissing (single rfl)⟩, ifMissing (single rfl)⟩

theorem lowerRecord_hasArrow {decl : TypeDecl}
    (noArrow : ∀ member ∈ decl.members, member.kind.hasArrow = false) :
    (Outcomes.passResult env).holds (lowerRecord index decl) fun result =>
      ∀ member ∈ result.members, member.kind.hasArrow = false := by
  let outcomes := Outcomes.passResult env
  refine outcomes.after _ fun _ => outcomes.after _ fun types => lowerPrimary_hasArrow env _ ?_
  intro member isIn
  rcases mem_append.1 isIn with isOwn | isMethod
  · rcases mem_append.1 isOwn with isProperty | isOwn
    · obtain ⟨param, _, rfl⟩ := mem_map.1 isProperty
      rfl
    · exact noArrow member isOwn
  · exact methods_hasArrow member isMethod

theorem desugarDecls_hasArrow {decls : List TypeDecl}
    (noArrow : ∀ decl ∈ decls, ∀ member ∈ decl.members, member.kind.hasArrow = false) :
    (Outcomes.passResult env).holds (desugarDecls index decls) fun results =>
      ∀ decl ∈ results, ∀ member ∈ decl.members, member.kind.hasArrow = false := by
  let outcomes := Outcomes.passResult env
  induction decls generalizing index with
  | nil => exact outcomes.pure (by simp)
  | cons decl rest ih =>
    have others := ih (index + 1) fun other isIn => noArrow other (mem_cons_of_mem _ isIn)
    have own := noArrow decl mem_cons_self
    have following (lowered : TypeDecl)
        (isFirst : ∀ member ∈ lowered.members, member.kind.hasArrow = false) :
        outcomes.holds (do return lowered :: (← desugarDecls (index + 1) rest)) fun results =>
          ∀ decl ∈ results, ∀ member ∈ decl.members, member.kind.hasArrow = false :=
      outcomes.map others fun results areOthers => forall_mem_cons.2 ⟨isFirst, areOthers⟩
    unfold desugarDecls
    dsimp only
    split
    · exact outcomes.bind (lowerRecord_hasArrow env index own) following
    · exact outcomes.bind (lowerPrimary_hasArrow env index own) following

theorem desugar_shape : (Outcomes.passResult env).holds desugar fun unit =>
      (env.unit.hasArrow = false → unit.hasArrow = false) ∧ unit.usings = env.unit.usings := by
  let outcomes := Outcomes.passResult env
  refine outcomes.bind (read_outcome env) fun other same => ?_
  subst same
  have lowered : outcomes.holds (do
      let unit ← other.unit.rebuild desugarRules
      return { unit with types := ← desugarDecls 0 unit.types }) fun unit =>
        (other.unit.hasArrow = false → unit.hasArrow = false) ∧ unit.usings = other.unit.usings := by
    refine outcomes.bind (other.unit.rebuild_shape outcomes desugarRules) fun rebuilt shape => ?_
    by_cases noArrow : other.unit.hasArrow = false
    · have none : ∀ decl ∈ rebuilt.types, ∀ member ∈ decl.members, member.kind.hasArrow = false := by
        simpa [CompilationUnit.hasArrow] using shape.1.trans noArrow
      refine outcomes.map (desugarDecls_hasArrow other 0 none) fun types all => ?_
      exact ⟨fun _ => by simpa [CompilationUnit.hasArrow] using all, shape.2⟩
    · exact outcomes.after _ fun _ => outcomes.pure ⟨fun none => absurd none noArrow, shape.2⟩
  dsimp only
  split
  · exact outcomes.after _ fun _ => lowered
  · exact lowered

end Pass

/-- No pass brings expression bodies or static imports back. -/
theorem PassKind.action_shape {env : PassEnv} (pass : PassKind) :
    (Outcomes.passResult env).holds pass.action fun unit =>
      (env.unit.hasArrow = false → unit.hasArrow = false) ∧
        (env.unit.hasStatic = false → unit.hasStatic = false) := by
  have noStatic {unit : CompilationUnit} (usings : unit.usings = env.unit.usings)
      (none : env.unit.hasStatic = false) : unit.hasStatic = false := by
    rw [← none, CompilationUnit.hasStatic, CompilationUnit.hasStatic, usings]
  have ofSame {action : Pass CompilationUnit}
      (same : (Outcomes.passResult env).holds action (·.SameShape env.unit)) :
      (Outcomes.passResult env).holds action fun unit =>
        (env.unit.hasArrow = false → unit.hasArrow = false) ∧
          (env.unit.hasStatic = false → unit.hasStatic = false) := by
    intro before unit after ran
    obtain ⟨arrows, usings⟩ := same before unit after ran
    exact ⟨fun none => arrows.trans none, noStatic usings⟩
  cases pass with
  | expressionBodies =>
    intro before unit after ran
    obtain ⟨noArrow, usings⟩ := Pass.expressionBodies_shape env before unit after ran
    exact ⟨fun _ => noArrow, noStatic usings⟩
  | desugar =>
    intro before unit after ran
    obtain ⟨arrows, usings⟩ := Pass.desugar_shape env before unit after ran
    exact ⟨arrows, noStatic usings⟩
  | staticUsings =>
    intro before unit after ran
    obtain ⟨arrows, none⟩ := Pass.staticUsings_shape env before unit after ran
    exact ⟨fun noArrow => arrows.trans noArrow, fun _ => none⟩
  | names => exact ofSame (Pass.rebuild_shape env _)
  | deconstruction => exact ofSame (Pass.rebuild_shape env _)
  | localFunctions => exact ofSame (Pass.rebuild_shape env _)
  | chainedAssignment => exact ofSame (Pass.rebuild_shape env _)
  | patterns => exact ofSame (Pass.rebuild_shape env _)
  | switchLabels => exact ofSame (Pass.rebuild_shape env _)

/-! ## Runs of passes -/

def Analyzed.env (analyzed : Analyzed) (pass : PassKind) : PassEnv where
  pass := pass.name
  unit := analyzed.tree.unit
  view := analyzed.view
  hoistsInitializers := pass == .desugar

def Analyzed.start (analyzed : Analyzed) (triggers : Triggers) : PassState where
  nextName := analyzed.tree.nextName
  nextId := analyzed.nextId
  triggers := triggers

namespace Lowering

variable {pass : PassKind} {passes : List PassKind} {analyzed : Analyzed}
  {lowering next final : Lowering}

/-- A pass that succeeds leaves the tree alone, or hands on the tree it built with
    everything it hoisted. -/
theorem runOn_ok (ran : runOn analyzed pass lowering = .ok next) :
    ∃ unit state, pass.action (analyzed.env pass) (analyzed.start lowering.triggers) =
        .ok (unit, state) ∧ next.triggers = state.triggers ∧
      ((state.changed = false ∧ next = { lowering with triggers := state.triggers }) ∨
        (next.analyzed = none ∧ next.tree.unit =
          unit.install (.ofUnit analyzed.tree.unit) state.hoists)) := by
  unfold runOn Pass.run at ran
  change ((pass.action (analyzed.env pass) (analyzed.start lowering.triggers) >>= _) >>= _) = _
    at ran
  cases acted : pass.action (analyzed.env pass) (analyzed.start lowering.triggers) with
  | error error =>
    rw [acted] at ran
    cases ran
  | ok reached =>
    obtain ⟨unit, state⟩ := reached
    rw [acted] at ran
    refine ⟨unit, state, rfl, ?_⟩
    change ((if (state.changed || !state.hoists.isEmpty) = true then _ else _) >>= _) = _ at ran
    split at ran
    · cases ran
      exact ⟨rfl, .inr ⟨rfl, rfl⟩⟩
    · rename_i unnoted
      cases ran
      have unchanged : state.changed = false := by
        cases changed : state.changed with
        | false => rfl
        | true => simp [changed] at unnoted
      exact ⟨rfl, .inl ⟨unchanged, rfl⟩⟩

def Coherent (lowering : Lowering) : Prop :=
  ∀ analyzed, lowering.analyzed = some analyzed → analyzed = lowering.tree.analyze

theorem analyze_eq (coherent : lowering.Coherent) : lowering.analyze Tree.analyze =
      (lowering.tree.analyze, { lowering with
        analyzed := some lowering.tree.analyze
        history := (lowering.analyze Tree.analyze).2.history }) := by
  obtain ⟨tree, analyzed, triggers, history⟩ := lowering
  cases analyzed with
  | none => rfl
  | some analyzed =>
    have isCurrent : analyzed = tree.analyze := coherent analyzed rfl
    subst isCurrent
    rfl

theorem runOn_coherent (coherent : lowering.Coherent)
    (ran : runOn analyzed pass lowering = .ok next) : next.Coherent := by
  obtain ⟨unit, state, _, _, ⟨_, rfl⟩ | ⟨none, _⟩⟩ := runOn_ok ran
  · exact coherent
  · intro other isSome
    rw [none] at isSome
    cases isSome

theorem runAll_cons (coherent : lowering.Coherent)
    (ran : (runAll Tree.analyze (pass :: passes) lowering).1 = .ok final) :
    ∃ start next, start.tree = lowering.tree ∧ start.triggers = lowering.triggers ∧
      runOn lowering.tree.analyze pass start = .ok next ∧ next.Coherent ∧
        (runAll Tree.analyze passes next).1 = .ok final := by
  unfold runAll at ran
  rw [analyze_eq coherent] at ran
  dsimp only at ran
  split at ran
  · cases ran
  · rename_i next ranFirst
    exact ⟨{ lowering with analyzed := some lowering.tree.analyze, history := _ }, next, rfl, rfl,
      ranFirst, runOn_coherent (fun other isOther => (Option.some.inj isOther).symm) ranFirst, ran⟩

theorem runAll_keeps (kept : CompilationUnit → Prop)
    (step : ∀ {pass : PassKind} {start next : Lowering},
      runOn start.tree.analyze pass start = .ok next → kept start.tree.unit → kept next.tree.unit)
    (coherent : lowering.Coherent) (isKept : kept lowering.tree.unit)
    (ran : (runAll Tree.analyze passes lowering).1 = .ok final) :
    kept final.tree.unit := by
  induction passes generalizing lowering with
  | nil =>
    cases ran
    exact isKept
  | cons pass rest ih =>
    obtain ⟨start, next, sameTree, _, ranFirst, nextCoherent, ranRest⟩ := runAll_cons coherent ran
    rw [← sameTree] at ranFirst isKept
    exact ih nextCoherent (step ranFirst isKept) ranRest

/-! ### Expression bodies and static imports -/

theorem analyze_shape (tree : Tree) : tree.analyze.tree.unit.SameShape tree.unit :=
  tree.unit.number_shape

theorem runOn_shape (ran : runOn lowering.tree.analyze pass lowering = .ok next) :
    (lowering.tree.unit.hasArrow = false → next.tree.unit.hasArrow = false) ∧
      (lowering.tree.unit.hasStatic = false → next.tree.unit.hasStatic = false) := by
  obtain ⟨unit, state, acted, _, ⟨_, rfl⟩ | ⟨_, rebuilt⟩⟩ := runOn_ok ran
  · exact ⟨id, id⟩
  · obtain ⟨arrows, statics⟩ := PassKind.action_shape pass _ _ _ acted
    have before := analyze_shape lowering.tree
    have after := unit.install_shape (.ofUnit lowering.tree.analyze.tree.unit) state.hoists
    rw [← rebuilt] at after
    exact ⟨fun none => after.1.trans (arrows (before.1.trans none)),
      fun none => after.hasStatic (statics (before.hasStatic none))⟩

theorem runOn_expressionBodies
    (ran : runOn lowering.tree.analyze .expressionBodies lowering = .ok next) :
    next.tree.unit.hasArrow = false := by
  obtain ⟨unit, state, acted, _, ⟨unchanged, rfl⟩ | ⟨_, rebuilt⟩⟩ := runOn_ok ran
  · -- a pass that changes nothing found nothing to change
    have settles : Pass.Settles .change _ _ Pass.expressionBodies _ :=
      Pass.expressionBodies_settles (lowering.tree.analyze.env .expressionBodies)
    refine Decidable.byContradiction fun arrow => ?_
    have changed := settles.notes
      (fun stays => arrow ((analyze_shape lowering.tree).1.symm.trans stays.2)) _ _ _ acted
    exact Bool.noConfusion (unchanged.symm.trans changed)
  · have blocked := (Pass.expressionBodies_shape _ _ _ _ acted).1
    have after := unit.install_shape (.ofUnit lowering.tree.analyze.tree.unit) state.hoists
    rw [rebuilt]
    exact after.1.trans blocked

theorem desugar_calls {env : PassEnv} {before after : PassState} {unit : CompilationUnit}
    (ran : Pass.desugar env before = .ok (unit, after)) (isStatic : env.unit.hasStatic = true) :
    after.triggers.staticUsings = true := by
  obtain ⟨other, start, asked, ran⟩ := Pass.bind_eq_ok ran
  cases asked
  dsimp only at ran
  have called : env.unit.usings.any (·.isStatic) = true := isStatic
  rw [if_pos called] at ran
  obtain ⟨_, middle, triggered, ran⟩ := Pass.bind_eq_ok ran
  cases triggered
  have grows : Pass.Grows (do
      let unit ← env.unit.rebuild Pass.desugarRules
      return { unit with types := ← Pass.desugarDecls 0 unit.types }) :=
    (env.unit.rebuild_grows Pass.desugarRules_grow).bind fun unit =>
      (Pass.desugarDecls_grows).bindPure
  exact (grows _ _ _ _ ran).triggers.staticUsings rfl

theorem runOn_desugar (ran : runOn lowering.tree.analyze .desugar lowering = .ok next)
    (isStatic : lowering.tree.unit.hasStatic = true) : next.triggers.staticUsings = true := by
  obtain ⟨unit, state, acted, triggers, _⟩ := runOn_ok ran
  have numbered : lowering.tree.analyze.tree.unit.hasStatic = true := by
    rw [← isStatic, CompilationUnit.hasStatic, CompilationUnit.hasStatic,
      (analyze_shape lowering.tree).2]
  rw [triggers]
  exact desugar_calls acted numbered

theorem staticUsings_changes {env : PassEnv} {before after : PassState} {unit : CompilationUnit}
    (ran : Pass.staticUsings env before = .ok (unit, after))
    (isStatic : env.unit.hasStatic = true) : after.changed = true := by
  obtain ⟨other, start, asked, ran⟩ := Pass.bind_eq_ok ran
  cases asked
  obtain ⟨types, middle, asked, ran⟩ := Pass.bind_eq_ok ran
  cases asked
  obtain ⟨rebuilt, last, ranRebuild, ran⟩ := Pass.bind_eq_ok ran
  have shape := env.unit.rebuild_shape (.passResult env) _ _ _ _ ranRebuild
  have called : rebuilt.usings.any (·.isStatic) = true := by
    rw [shape.2]
    exact isStatic
  rw [if_pos called] at ran
  cases ran
  rfl

theorem runOn_staticUsings (ran : runOn lowering.tree.analyze .staticUsings lowering = .ok next) :
    next.tree.unit.hasStatic = false := by
  obtain ⟨unit, state, acted, _, ⟨unchanged, rfl⟩ | ⟨_, rebuilt⟩⟩ := runOn_ok ran
  · refine Decidable.byContradiction fun isStatic => ?_
    have numbered : lowering.tree.analyze.tree.unit.hasStatic = true := by
      rw [CompilationUnit.hasStatic, (analyze_shape lowering.tree).2]
      exact Bool.of_not_eq_false isStatic
    exact Bool.noConfusion (unchanged.symm.trans (staticUsings_changes acted numbered))
  · have dropped := (Pass.staticUsings_shape _ _ _ _ acted).2
    have after := unit.install_shape (.ofUnit lowering.tree.analyze.tree.unit) state.hoists
    rw [rebuilt]
    exact after.hasStatic dropped

theorem runAll_drops (coherent : lowering.Coherent)
    (ran : (runAll Tree.analyze passes lowering).1 = .ok final)
    (planned : PassKind.staticUsings ∈ passes ∨ lowering.tree.unit.hasStatic = false) :
    final.tree.unit.hasStatic = false := by
  induction passes generalizing lowering with
  | nil =>
    cases ran
    exact planned.resolve_left not_mem_nil
  | cons pass rest ih =>
    obtain ⟨start, next, sameTree, _, ranFirst, nextCoherent, ranRest⟩ := runAll_cons coherent ran
    rw [← sameTree] at ranFirst planned
    refine ih nextCoherent ranRest ?_
    rcases planned with isPlanned | none
    · rcases mem_cons.1 isPlanned with rfl | isLater
      · exact .inr (runOn_staticUsings ranFirst)
      · exact .inl isLater
    · exact .inr ((runOn_shape ranFirst).2 none)

end Lowering

variable {tree : Tree}

/-- A run that succeeds consists of the standing passes, the passes they call for,
    and the check for sugar. -/
theorem Tree.lower_ok {lowered : Tree} (ran : tree.lower = .ok lowered) : ∃ middle final : Lowering,
      (Lowering.runAll Tree.analyze PassKind.always { tree }).1 = .ok middle ∧
        (Lowering.runAll Tree.analyze middle.triggers.plan middle).1 = .ok final ∧
          final.tree.unit.validate = .ok () ∧ final.tree = lowered := by
  unfold Tree.lower Tree.lowerTraced Tree.lowerTracedWith at ran
  split at ran
  · cases ran
  · rename_i middle _ ranStanding
    split at ran
    · cases ran
    · rename_i final _ ranPlanned
      refine ⟨middle, final, by rw [ranStanding], by rw [ranPlanned], ?_⟩
      cases valid : final.tree.unit.validate with
      | error error =>
        rw [valid] at ran
        cases ran
      | ok _ =>
        rw [valid] at ran
        cases ran
        exact ⟨rfl, rfl⟩

/-- The standing passes leave no expression body, and where they leave static
    imports they call for the pass that drops them. -/
theorem Lowering.runStanding_shape {final : Lowering}
    (ran : (runAll Tree.analyze PassKind.always { tree }).1 = .ok final) :
    final.Coherent ∧ final.tree.unit.hasArrow = false ∧
      (final.tree.unit.hasStatic = true → final.triggers.staticUsings = true) := by
  have fresh : Coherent { tree } := by
    rintro analyzed ⟨⟩
  obtain ⟨start, bodies, sameTree, _, ranBodies, coherent, ran⟩ := runAll_cons fresh ran
  rw [← sameTree] at ranBodies
  have noArrow := runOn_expressionBodies ranBodies
  obtain ⟨start, names, sameTree, _, ranNames, coherent, ran⟩ := runAll_cons coherent ran
  rw [← sameTree] at ranNames noArrow
  have noArrow := (runOn_shape ranNames).1 noArrow
  obtain ⟨start, parts, sameTree, _, ranParts, coherent, ran⟩ := runAll_cons coherent ran
  rw [← sameTree] at ranParts noArrow
  have noArrow := (runOn_shape ranParts).1 noArrow
  obtain ⟨start, plain, sameTree, _, ranPlain, coherent, ran⟩ := runAll_cons coherent ran
  rw [← sameTree] at ranPlain noArrow
  cases ran
  refine ⟨coherent, (runOn_shape ranPlain).1 noArrow, fun isStatic => runOn_desugar ranPlain ?_⟩
  refine Decidable.byContradiction fun none => ?_
  have stillNone := (runOn_shape ranPlain).2 (Bool.of_not_eq_true none)
  exact Bool.noConfusion (stillNone.symm.trans isStatic)

theorem Triggers.mem_plan {triggers : Triggers} (called : triggers.staticUsings = true) :
    PassKind.staticUsings ∈ triggers.plan := by
  simp [Triggers.plan, called]

/-- What a run leaves: no sugar, no expression bodies and no static imports. -/
theorem Tree.lower_shape {lowered : Tree} (ran : tree.lower = .ok lowered) :
    lowered.unit.validate = .ok () ∧ lowered.unit.hasArrow = false ∧
      lowered.unit.hasStatic = false := by
  obtain ⟨middle, final, ranStanding, ranPlanned, valid, rfl⟩ := Tree.lower_ok ran
  obtain ⟨coherent, noArrow, called⟩ := Lowering.runStanding_shape ranStanding
  refine ⟨valid, ?_, Lowering.runAll_drops coherent ranPlanned ?_⟩
  · exact Lowering.runAll_keeps (·.hasArrow = false)
      (fun ran none => (Lowering.runOn_shape ran).1 none) coherent noArrow ranPlanned
  · cases isStatic : middle.tree.unit.hasStatic with
    | true => exact .inl (Triggers.mem_plan (called isStatic))
    | false => exact .inr rfl

def classTree (primary : Option (List Param)) (members : List Member) : Tree where
  unit :=
    { usings := []
      namespaceName := none
      types :=
        [{ name := "C"
           kind := .classType
           modifiers := []
           typeParams := []
           primary
           bases := []
           baseArgs := none
           members
           span := default }] }

/-- Whether a tree can be lowered, and the unit it becomes passes a check. -/
def Tree.lowersTo (tree : Tree) (holds : CompilationUnit → Bool) : Bool :=
  match tree.lower with
  | .ok lowered => holds lowered.unit
  | .error _ => false

theorem Tree.lower_of_lowersTo {holds : CompilationUnit → Bool}
    (lowers : tree.lowersTo holds = true) :
    ∃ lowered, tree.lower = .ok lowered ∧ holds lowered.unit = true := by
  unfold lowersTo at lowers
  split at lowers
  case h_1 lowered ran => exact ⟨lowered, ran, lowers⟩
  case h_2 => cases lowers

end Unsugar
