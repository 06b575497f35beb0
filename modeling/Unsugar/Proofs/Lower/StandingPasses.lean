import Unsugar.Proofs.Lower.Settling

open List

namespace Unsugar

/-! # What the standing passes act on

For each pass that runs on every unit, the nodes that it leaves as they are, said
without the pass: what kind of node it is, where it stands, and what the view
knows about it.
-/

/-! ## Expression bodies -/

def MemberKind.bodies : MemberKind → List Body
  | .field .. => []
  | .property _ _ getter setter _ => getter.toList ++ setter.toList
  | .method _ _ _ _ body | .ctor _ _ body | .operator _ _ _ body => [body]

def MemberKind.hasArrow (kind : MemberKind) : Bool := kind.bodies.any Body.isExpr

def CompilationUnit.hasArrow (unit : CompilationUnit) : Bool :=
  unit.types.any fun decl => decl.members.any fun member => member.kind.hasArrow

def HasBlock : Node → Prop
  | .stmt ⟨_, .localFunction _ _ _ _ (.expr _)⟩ => False
  | _ => True

theorem Body.toBlock_of_not_isExpr {body : Body} (block : body.isExpr = false) {returns : Bool} :
    body.toBlock returns = body := by
  cases body with
  | expr value => cases block
  | none => rfl
  | block body => rfl

theorem Body.toBlock_isExpr (body : Body) {returns : Bool} :
    (body.toBlock returns).isExpr = false := by
  cases body <;> rfl

variable (env : PassEnv)

namespace Pass

variable {notice : Notice}

theorem isVoid_ok {type : TypeSyntax} {state : PassState} :
    isVoid type env state = .ok (env.view.bind type == .void, state) := rfl

theorem noteBodies_notes {bodies : List Body} (arrow : bodies.any Body.isExpr = true) :
    Notes notice (noteBodies bodies) := by
  unfold noteBodies
  rw [if_pos arrow]
  exact markChanged_notes

theorem noteBodies_grows {bodies : List Body} : Grows (noteBodies bodies) :=
  .ite markChanged_grows .pure

theorem noteBodies_ok {bodies : List Body} (block : bodies.any Body.isExpr = false)
    (env : PassEnv) (state : PassState) : noteBodies bodies env state = .ok ((), state) := by
  unfold noteBodies
  rw [if_neg (by simp [block])]
  rfl

theorem noteBodies_settles {bodies : List Body} {rest : Unit → Pass Member} {member : Member}
    (grows : Grows (rest ()))
    (keeps : (∀ body ∈ bodies, body.isExpr = false) →
      ∀ state, rest () env state = .ok (member, state)) :
    Settles notice env (bodies.any Body.isExpr = false) (noteBodies bodies >>= rest) member := by
  cases arrow : bodies.any Body.isExpr with
  | true =>
    exact (Settles.never ((noteBodies_notes arrow).first fun _ => grows)
      (noteBodies_grows.bind fun _ => grows)).congr (by simp)
  | false =>
    have blocks : ∀ body ∈ bodies, body.isExpr = false := by simpa using arrow
    exact (Settles.ask (noteBodies_ok arrow env) (.always (keeps blocks))).congr (by simp)

theorem blockMember_settles (member : Member) :
    Settles notice env (member.kind.hasArrow = false) (blockMember member) member := by
  obtain ⟨kind, modifiers, span⟩ := member
  cases kind with
  | field type name init => exact .still rfl
  | method name typeParams params ret body =>
    refine noteBodies_settles env isVoid_grows.bindPure fun blocks state => ?_
    rw [bind_ok (isVoid_ok env), Body.toBlock_of_not_isExpr (blocks body (mem_singleton_self body))]
    rfl
  | operator op params ret body =>
    refine noteBodies_settles env .pure fun blocks state => ?_
    rw [Body.toBlock_of_not_isExpr (blocks body (mem_singleton_self body))]
    rfl
  | ctor params initializer body =>
    refine noteBodies_settles env .pure fun blocks state => ?_
    rw [Body.toBlock_of_not_isExpr (blocks body (mem_singleton_self body))]
    rfl
  | property type name getter setter init =>
    refine noteBodies_settles env .pure fun blocks state => ?_
    have same (accessor : Option Body) (returns : Bool)
        (isPart : ∀ body ∈ accessor.toList, body ∈ getter.toList ++ setter.toList) :
        accessor.map (Body.toBlock returns) = accessor := by
      cases accessor with
      | none => rfl
      | some body =>
        have block := blocks body (isPart body (mem_singleton_self body))
        rw [Option.map_some, Body.toBlock_of_not_isExpr block]
    rw [same getter true fun _ => mem_append_left _, same setter false fun _ => mem_append_right _]
    rfl

theorem Settles.mapM {α : Type} {env : PassEnv} {stays : α → Prop} {action : α → Pass α}
    (settles : ∀ value, Settles notice env (stays value) (action value) value) :
    (values : List α) →
      Settles notice env (∀ value ∈ values, stays value) (values.mapM action) values
  | [] => by
    rw [mapM_nil]
    exact .still (by simp)
  | value :: rest => by
    rw [mapM_cons]
    exact ((settles value).bind fun _ => (Settles.mapM settles rest).map _).congr (by simp)

theorem blockRules_grow : blockRules.Grow where
  expr _ _ _ := .pure
  stmt site node kind := by
    unfold blockRules
    dsimp only
    split
    · exact isVoid_grows.bind fun _ => setStmt_grows
    · exact .pure
  pattern _ _ _ := .pure

theorem blockRules_settle : blockRules.Settle notice env fun _ node => HasBlock node where
  grow := blockRules_grow
  expr site node := by
    obtain ⟨mark, kind⟩ := node
    exact .pure
  stmt site node := by
    obtain ⟨mark, kind⟩ := node
    cases kind with
    | localFunction name typeParams params ret body =>
      cases body with
      | expr value =>
        exact .never (.last fun _ => setStmt_notes) (isVoid_grows.bind fun _ => setStmt_grows)
      | none => exact .pure
      | block body => exact .pure
    | _ => exact .pure
  pattern site node := by
    obtain ⟨mark, kind⟩ := node
    exact .pure

theorem expressionBodies_settles : Settles notice env
      ((∀ site node, env.unit.Holds site node → HasBlock node) ∧ env.unit.hasArrow = false)
      expressionBodies env.unit := by
  have settlesDecl (decl : TypeDecl) :
      Settles notice env (∀ member ∈ decl.members, member.kind.hasArrow = false) (blockDecl decl)
        decl :=
    (Settles.mapM (blockMember_settles env) decl.members).map _
  have settlesTypes (unit : CompilationUnit) :
      Settles notice env (unit.hasArrow = false) (do
        return { unit with types := ← unit.types.mapM blockDecl }) unit :=
    ((Settles.mapM settlesDecl unit.types).map _).congr (by simp [CompilationUnit.hasArrow])
  refine .ask (read_ok env) ?_
  exact (env.unit.rebuild_settles (blockRules_settle env)).rule (settlesTypes env.unit)
    fun unit => (settlesTypes unit).grows

end Pass

/-! ## Written-out receivers -/

def PassEnv.enclosing? (env : PassEnv) (owner : Owner) : Option Ty :=
  match owner with
  | .member type _ | .header type =>
    env.unit.types[type]?.bind fun decl => env.view.types.names.lookup? decl.name
  | .detached => none

namespace PassEnv

variable (env : PassEnv)

/-- Whether a type is found along the bases of the type that a site belongs to. -/
def reaches (owner : Owner) (container : Ty) : Bool :=
  match env.enclosing? owner with
  | some type => Pass.inBaseChain env.view.types type container
  | none => false

def receiver (span : Span) (isStatic : Bool) (container : Ty) : Expr :=
  if isStatic then span.typeRef (env.view.types.names.syntaxOf container) else span.self

/-- What a name is written after if it means a member that is wanted. -/
def receiver? (wanted : Reference → Ty → Bool → Bool) (site : Site) (mark : Mark) : Option Expr :=
  (Pass.memberReference? (env.view.facts.get mark.id).resolution).bind fun reference =>
    reference.container.bind fun container =>
      if wanted reference container (env.reaches site.owner container) then
        some (env.receiver mark.span reference.isStatic container)
      else none

end PassEnv

/-- Whether a bare name means a member of the type it is written in, or of a base
    of that type. -/
def PassEnv.namesOwnMember (env : PassEnv) (owner : Owner) (node : Expr) : Bool :=
  match (Pass.memberReference? (env.view.resolution node)).bind (·.container),
    env.enclosing? owner with
  | some container, some type => Pass.inBaseChain env.view.types type container
  | _, _ => false

def HasReceiver (env : PassEnv) (site : Site) : Node → Prop
  | .expr ⟨mark, .ident name⟩ => env.namesOwnMember site.owner ⟨mark, .ident name⟩ = false
  | _ => True

namespace Pass

variable {notice : Notice}

theorem enclosingType_ok (owner : Owner) (state : PassState) :
    enclosingType owner env state = .ok (env.enclosing? owner, state) := by
  cases owner <;> rfl

theorem qualifyRules_ident (wanted : Reference → Ty → Bool → Bool) {site : Site} {mark : Mark}
    {name : String} :
    Settles notice env (env.receiver? wanted site mark = none)
      ((qualifyRules wanted).expr site ⟨mark, .ident name⟩ (.ident name)) ⟨mark, .ident name⟩ := by
  refine .ask (view_ok env) ?_
  unfold PassEnv.receiver?
  have sameResolution : env.view.resolution ⟨mark, .ident name⟩ =
      (env.view.facts.get mark.id).resolution := rfl
  rw [sameResolution]
  cases memberReference? (env.view.facts.get mark.id).resolution with
  | none => exact .still (by simp)
  | some reference =>
    rw [Option.bind_some]
    dsimp only
    cases reference.container with
    | none => exact .still (by simp)
    | some container =>
      rw [Option.bind_some]
      refine .ask (enclosingType_ok env site.owner) ?_
      change Settles notice env _ (if wanted reference container
        (env.reaches site.owner container) = true then _ else _) _
      refine .ite (fun isWanted => ?_) fun unwanted => ?_
      · exact (Settles.never qualify_notes qualify_grows).congr (by simp [isWanted])
      · exact .still (by simp [unwanted])

def StaysBare (env : PassEnv) (wanted : Reference → Ty → Bool → Bool) (site : Site) : Node → Prop
  | .expr ⟨mark, .ident _⟩ => env.receiver? wanted site mark = none
  | _ => True

theorem qualifyRules_grow (wanted : Reference → Ty → Bool → Bool) : (qualifyRules wanted).Grow where
  expr site node kind := by
    cases kind with
    | ident name =>
      refine view_grows.bind fun view => ?_
      split
      · split
        · exact enclosingType_grows.bind fun _ => .ite qualify_grows .pure
        · exact .pure
      · exact .pure
    | _ => exact .pure
  stmt _ _ _ := .pure
  pattern _ _ _ := .pure

theorem qualifyRules_settle (wanted : Reference → Ty → Bool → Bool) :
    (qualifyRules wanted).Settle notice env (StaysBare env wanted) where
  grow := qualifyRules_grow _
  expr site node := by
    obtain ⟨mark, kind⟩ := node
    cases kind with
    | ident name => exact qualifyRules_ident env wanted
    | _ => exact .pure
  stmt site node := by
    obtain ⟨mark, kind⟩ := node
    exact .pure
  pattern site node := by
    obtain ⟨mark, kind⟩ := node
    exact .pure

theorem hasReceiver_iff {site : Site} {node : Node} :
    HasReceiver env site node ↔ StaysBare env (fun _ _ inReach => inReach) site node := by
  unfold HasReceiver StaysBare
  split
  · rename_i mark name
    unfold PassEnv.namesOwnMember PassEnv.receiver? PassEnv.reaches
    change (match (memberReference? (env.view.facts.get mark.id).resolution).bind (·.container),
      env.enclosing? site.owner with
        | some container, some type => inBaseChain env.view.types type container
        | _, _ => false) = false ↔ _
    generalize memberReference? (env.view.facts.get mark.id).resolution = taken
    cases taken with
    | none => simp
    | some reference =>
      rw [Option.bind_some, Option.bind_some]
      cases reference.container with
      | none => simp
      | some container => cases env.enclosing? site.owner <;> simp
  · exact Iff.rfl

theorem names_settle :
    (qualifyRules fun _ _ inReach => inReach).Settle notice env (HasReceiver env) := by
  have same : HasReceiver env = StaysBare env fun _ _ inReach => inReach :=
    funext fun site => funext fun node => propext (hasReceiver_iff env)
  rw [same]
  exact qualifyRules_settle env _

end Pass

/-! ## Deconstruction -/

/-- Whether an `out` argument introduces a variable. -/
def Expr.isOutVariable (inner : Expr) : Bool :=
  match inner.kind with
  | .declaration .. | .discard => true
  | _ => false

def Expr.isTakenApart (target : Expr) : Bool :=
  match target.kind with
  | .discard | .tuple _ => true
  | _ => false

/-- Nodes that neither take a value apart nor introduce a variable in an `out`
    argument.  The whole of a statement is left to the statement. -/
def IsWhole (site : Site) : Node → Prop
  | .expr ⟨_, .out input⟩ => input.isOutVariable = false
  | .expr ⟨mark, .assign none target value⟩ =>
    Pass.isWholeStatement site ⟨mark, .assign none target value⟩ = true ∨
      target.isTakenApart = false
  | .stmt ⟨_, .eval ⟨_, .assign none target _⟩⟩ => target.isTakenApart = false
  | _ => True

namespace Pass

variable {notice : Notice}
  {input : Expr}

theorem outVariable?_plain (plain : input.isOutVariable = false) (state : PassState) :
    outVariable? input env state = .ok (none, state) := by
  obtain ⟨mark, kind⟩ := input
  cases kind with
  | declaration => cases plain
  | discard => cases plain
  | _ => rfl

theorem outVariable?_introduces (introduces : input.isOutVariable = true) :
    Returns (outVariable? input) fun found => found.isSome = true := by
  obtain ⟨mark, kind⟩ := input
  cases kind with
  | declaration type name =>
    refine .last fun view => ?_
    dsimp only
    split
    · exact .last fun _ => .pure rfl
    · exact .pure rfl
  | discard => exact .last fun _ => .last fun _ => .last fun _ => .pure rfl
  | _ => cases introduces

theorem outArgument_notes (introduces : input.isOutVariable = true) {site : Site}
    {node inner : Expr} : Notes notice (outArgument site node input inner) := by
  intro env before result after ran
  obtain ⟨found, middle, ranFirst, ran⟩ := bind_eq_ok ran
  have isSome := outVariable?_introduces introduces _ _ _ _ ranFirst
  obtain ⟨⟨name, type⟩, rfl⟩ := Option.isSome_iff_exists.1 isSome
  have notes : Notes notice (do
      let point ← installPoint site node node.span
      hoist point name type node.span
      return { node with kind := .out (← setKind inner (.ident name)) }) :=
    .last fun _ => .last fun _ => setKind_notes.first fun _ => .pure
  exact notes _ _ _ _ ran

theorem outArgument_settles {site : Site} {mark : Mark} {input : Expr} :
    Settles notice env (input.isOutVariable = false) (outArgument site ⟨mark, .out input⟩ input input)
      ⟨mark, .out input⟩ := by
  cases introduces : input.isOutVariable with
  | false =>
    refine .congr (.ask (outVariable?_plain env introduces) ?_) (iff_true_intro rfl)
    exact .pure
  | true =>
    exact (Settles.never (outArgument_notes introduces) outArgument_grows).congr (by simp)

theorem deconstructionRules_grow : deconstructionRules.Grow where
  expr site node kind := by
    unfold deconstructionRules
    dsimp only
    split
    · exact outArgument_grows
    · refine .ite .pure ?_
      split
      · exact replace_grows
      · exact unsupported_grows
      · exact .pure
    · exact .pure
  stmt site node kind := by
    unfold deconstructionRules
    dsimp only
    split
    · split
      · exact setStmt_grows
      · exact deconstruct_grows
      · exact .pure
    · exact .pure
  pattern _ _ _ := .pure

theorem deconstruction_settle : deconstructionRules.Settle notice env IsWhole where
  grow := deconstructionRules_grow
  expr site node := by
    obtain ⟨mark, kind⟩ := node
    cases kind with
    | out input => exact outArgument_settles env
    | assign op target value =>
      cases op with
      | none =>
        refine .ite (fun whole => .still (.inl whole)) fun inner => ?_
        obtain ⟨targetMark, targetKind⟩ := target
        cases targetKind with
        | discard =>
          exact (Settles.never replace_notes replace_grows).congr
            (by simp [IsWhole, inner, Expr.isTakenApart])
        | tuple items =>
          exact (Settles.never .unsupported unsupported_grows).congr
            (by simp [IsWhole, inner, Expr.isTakenApart])
        | _ => exact .still (.inr rfl)
      | some op => exact .pure
    | _ => exact .pure
  stmt site node := by
    obtain ⟨mark, kind⟩ := node
    cases kind with
    | eval value =>
      obtain ⟨valueMark, valueKind⟩ := value
      cases valueKind with
      | assign op target value =>
        cases op with
        | none =>
          obtain ⟨targetMark, targetKind⟩ := target
          cases targetKind with
          | discard =>
            exact (Settles.never setStmt_notes setStmt_grows).congr
              (by simp [IsWhole, Expr.isTakenApart])
          | tuple items =>
            exact (Settles.never deconstruct_notes
              deconstruct_grows).congr (by simp [IsWhole, Expr.isTakenApart])
          | _ => exact .still rfl
        | some op => exact .pure
      | _ => exact .pure
    | _ => exact .pure
  pattern site node := by
    obtain ⟨mark, kind⟩ := node
    exact .pure

end Pass

/-! ## Desugaring -/

def PassEnv.isVoidAccess (env : PassEnv) (node : Expr) : Bool :=
  match node.kind with
  | .conditionalAccess .. => env.view.typeOf node == .void
  | _ => false

/-- Whether the arguments of a subscript are one that counts from the end or
    takes a range. -/
def PassEnv.isSlicing (env : PassEnv) (args : List Expr) : Bool :=
  match args with
  | [arg] =>
    match arg.kind with
    | .fromEnd _ | .range .. => true
    | _ =>
      let type := env.view.typeOf arg
      env.view.types.isNamed type "Index" || env.view.types.isNamed type "Range"
  | _ => false

/-- Whether a value that is a whole statement assigns more than one target. -/
def Expr.isChain : Expr → Bool
  | ⟨_, .assign none _ value⟩ => Pass.isPlainAssign value
  | _ => false

/-- Nodes without sugar that desugaring lowers or leaves to a later pass. -/
def IsPlain (env : PassEnv) (site : Site) : Node → Prop
  | .expr ⟨mark, kind⟩ =>
    match kind with
    | .isPattern .. | .switch .. | .copyWith .. | .interpolated _ => False
    | .index receiver args => Pass.isBindingRooted receiver = true ∨ env.isSlicing args = false
    | .fromEnd _ | .range .. => Pass.inSubscript ⟨mark, kind⟩ site.ancestors = true
    | .conditionalAccess .. =>
      Pass.continuesChain site ⟨mark, kind⟩ = true ∨
        (Pass.parentTakesIf site ⟨mark, kind⟩ && env.isVoidAccess ⟨mark, kind⟩) = true
    | .collection items => items.any Pass.isSpread = false
    | .lambda _ _ _ (.expr value) => env.isVoidAccess value = false
    | _ => True
  | .stmt ⟨_, kind⟩ =>
    match kind with
    | .localFunction .. => False
    | .eval value => value.isChain = false ∧ env.isVoidAccess value = false
    | .switch _ sections => allConstant sections = true
    | _ => True
  | .pattern _ => True

namespace Pass

theorem isVoidAccess_ok (env : PassEnv) (node : Expr) (state : PassState) :
    isVoidAccess node env state = .ok (env.isVoidAccess node, state) := by
  obtain ⟨mark, kind⟩ := node
  cases kind <;> rfl

theorem subscriptValue_ok {env : PassEnv} {arg : Expr} :
    ∃ found, (∀ state, (do
        let types ← types
        let type ← typeOf arg
        if types.isNamed type "Index" then return some (SubscriptArg.indexValue arg)
        else if types.isNamed type "Range" then return some (.rangeValue arg)
        else return none : Pass (Option SubscriptArg)) env state = .ok (found, state)) ∧
      found.isSome = (env.view.types.isNamed (env.view.typeOf arg) "Index" ||
        env.view.types.isNamed (env.view.typeOf arg) "Range") := by
  by_cases isIndex : env.view.types.isNamed (env.view.typeOf arg) "Index" = true
  · refine ⟨some (.indexValue arg), fun state => ?_, by simp [isIndex]⟩
    rw [bind_ok (types_ok env state), bind_ok (typeOf_ok env arg state), if_pos isIndex]
    rfl
  · by_cases isRange : env.view.types.isNamed (env.view.typeOf arg) "Range" = true
    · refine ⟨some (.rangeValue arg), fun state => ?_, by simp [isRange]⟩
      rw [bind_ok (types_ok env state), bind_ok (typeOf_ok env arg state), if_neg isIndex,
        if_pos isRange]
      rfl
    · refine ⟨none, fun state => ?_, by simp [isIndex, isRange]⟩
      rw [bind_ok (types_ok env state), bind_ok (typeOf_ok env arg state), if_neg isIndex,
        if_neg isRange]
      rfl

/-- Whether a subscript has an argument to be lowered is read off the view. -/
theorem subscriptArg_ok {env : PassEnv} {args : List Expr} :
    ∃ found, (∀ state, SubscriptArg.ofArgs? args env state = .ok (found, state)) ∧
      found.isSome = env.isSlicing args := by
  rcases args with _ | ⟨⟨mark, kind⟩, _ | ⟨second, others⟩⟩
  · exact ⟨none, fun _ => rfl, rfl⟩
  · cases kind with
    | fromEnd value => exact ⟨some (.fromEnd value), fun _ => rfl, rfl⟩
    | range start stop => exact ⟨some (.range start stop), fun _ => rfl, rfl⟩
    | _ => exact subscriptValue_ok
  · exact ⟨none, fun _ => rfl, rfl⟩

variable {env : PassEnv}

theorem primaryParamsAt_none (noPrimary : ∀ decl ∈ env.unit.types, decl.primary = none)
    (owner : Owner) (state : PassState) : primaryParamsAt owner env state = .ok ([], state) := by
  cases owner with
  | member type index =>
    have none : (env.unit.types[type]?.bind (·.primary)).getD [] = [] := by
      cases isType : env.unit.types[type]? with
      | none => rfl
      | some decl =>
        have isNone := noPrimary decl (mem_of_getElem? isType)
        simp [isNone]
    change Except.ok (((env.unit.types[type]?.bind (·.primary)).getD []).map (·.name), state) = _
    rw [none]
    rfl
  | detached => rfl
  | header type => rfl

theorem inInstanceBody_ok (env : PassEnv) (site : Site) :
    ∃ answer, ∀ state, inInstanceBody site env state = .ok (answer, state) := by
  obtain ⟨owner, ancestors⟩ := site
  cases owner with
  | member type index =>
    cases last : ancestors.getLast? with
    | none =>
      refine ⟨false, fun state => ?_⟩
      simp only [inInstanceBody, last]
      rfl
    | some node =>
      simp only [inInstanceBody, last]
      cases node with
      | stmt node =>
        cases found : env.unit.types[type]?.bind fun decl => decl.members[index]? with
        | none =>
          refine ⟨false, fun state => (bind_ok (read_ok env state)).trans ?_⟩
          rw [found]
          rfl
        | some member =>
          refine ⟨!member.isStatic, fun state => (bind_ok (read_ok env state)).trans ?_⟩
          rw [found]
          rfl
      | expr node => exact ⟨false, fun _ => rfl⟩
      | pattern node => exact ⟨false, fun _ => rfl⟩
  | header type => exact ⟨false, fun _ => rfl⟩
  | detached => exact ⟨false, fun _ => rfl⟩

theorem lowerName_settles (noPrimary : ∀ decl ∈ env.unit.types, decl.primary = none) (site : Site)
    (mark : Mark) (name : String) :
    Settles .anything env True (lowerName site ⟨mark, .ident name⟩ name) ⟨mark, .ident name⟩ := by
  obtain ⟨inBody, asked⟩ := inInstanceBody_ok env site
  refine .ask (view_ok env) (.ask (primaryParamsAt_none noPrimary site.owner) (.ask asked ?_))
  rw [contains_nil, Bool.and_false, Bool.false_and]
  exact .pure

theorem lowerIndex_settles {env : PassEnv} {site : Site} {mark : Mark} {receiver : Expr}
    {args : List Expr} :
    Settles .anything env (isBindingRooted receiver = true ∨ env.isSlicing args = false)
      (lowerIndex site ⟨mark, .index receiver args⟩ receiver args)
      ⟨mark, .index receiver args⟩ := by
  refine .ite (fun waits => .still (.inl waits)) fun known => ?_
  obtain ⟨found, asked, slices⟩ := subscriptArg_ok
  refine .ask asked ?_
  cases found with
  | none => exact .still (.inr slices.symm)
  | some arg =>
    refine (Settles.never (.last fun _ => replace_notes)
      (subscriptOn_grows.bind fun _ => replace_grows)).congr ?_
    exact iff_false_intro (by simpa [← slices] using known)

theorem lowerConditionalAccess_settles {env : PassEnv} {site : Site} {mark : Mark}
    {kind : ExprKind} :
    Settles .anything env (continuesChain site ⟨mark, kind⟩ = true ∨
        (parentTakesIf site ⟨mark, kind⟩ && env.isVoidAccess ⟨mark, kind⟩) = true)
      (lowerConditionalAccess site ⟨mark, kind⟩ kind) ⟨mark, kind⟩ := by
  refine .ite (fun inner => ?_) fun outermost =>
    .ask (isVoidAccess_ok env ⟨mark, kind⟩) (.ite (fun left => ?_) fun taken => ?_)
  · exact .still (Or.inl inner)
  · exact .still (Or.inr left)
  · refine (Settles.never (.last fun _ => .last fun _ => .last fun _ => replace_notes)
      (guardAccess_grows.bind fun _ => typeOf_grows.bind fun _ =>
        conditionalValue_grows.bind fun _ => replace_grows)).congr ?_
    exact iff_false_intro (not_or_intro outermost taken)

theorem lowerCollection_settles {env : PassEnv} {mark : Mark} {items : List Expr} :
    Settles .anything env (items.any isSpread = false) (lowerCollection ⟨mark, .collection items⟩ items)
      ⟨mark, .collection items⟩ := by
  have grows := @lowerCollection_grows items ⟨mark, .collection items⟩
  unfold lowerCollection at grows ⊢
  cases spreads : items.any isSpread with
  | false =>
    simp only [spreads, Bool.not_false, if_true]
    exact .still (by simp)
  | true =>
    simp only [spreads, Bool.not_true, Bool.false_eq_true, if_false] at grows ⊢
    refine (Settles.never ?_ grows).congr (by simp)
    refine .last fun _ => .last fun _ => .last fun _ => .last fun _ => .last fun _ => ?_
    split
    · exact .last fun _ => replace_notes
    · exact .last fun _ => replace_notes

theorem lowerInterpolated_notes {notice : Notice} {node : Expr} {parts : List Part} :
    Notes notice (lowerInterpolated node parts) := by
  unfold lowerInterpolated
  dsimp only
  split
  · exact .last fun _ => replace_notes
  · exact replace_notes

theorem lowerCopyWith_notes {notice : Notice} {node receiver : Expr} {inits : List FieldInit} :
    Notes notice (lowerCopyWith node receiver inits) := by
  refine .last fun _ => ?_
  dsimp only
  split
  · exact .last fun _ => .last fun _ => .last fun _ => .last fun _ => replace_notes
  · exact .last fun _ => .last fun _ => .last fun _ => .last fun _ => replace_notes

/-! ### Statements -/

theorem observe_localFunction {name : String} {typeParams : List String} {params : List Param}
    {ret : TypeSyntax} {body : Body} :
    Notes .anything (observe (.localFunction name typeParams params ret body)) := by
  rintro env before result after ⟨⟩
  exact .inr fun none => Bool.noConfusion (congrArg Triggers.localFunctions none)

theorem observe_eval {env : PassEnv} {value : Expr} :
    Settles .anything env (value.isChain = false) (observe (.eval value)) () := by
  obtain ⟨mark, kind⟩ := value
  cases kind with
  | assign op target value =>
    cases op with
    | none =>
      refine .ite (fun chained => ?_) fun single => ?_
      · have notes : Notes .anything (trigger fun triggers =>
            { triggers with chainedAssignment := true }) := by
          rintro env before result after ⟨⟩
          exact .inr fun none => Bool.noConfusion (congrArg Triggers.chainedAssignment none)
        exact (Settles.never notes (trigger_grows fun _ => ⟨id, fun _ => rfl, id, id, id⟩)).congr
          (iff_false_intro (by simpa [Expr.isChain] using chained))
      · exact .still (by simpa [Expr.isChain] using single)
    | some op => exact .still rfl
  | _ => exact .still rfl

theorem observe_switch {env : PassEnv} {subject : Expr} {sections : List Section} :
    Settles .anything env (allConstant sections = true) (observe (.switch subject sections)) () := by
  refine .ite (fun constant => ?_) fun tests => ?_
  · exact .still constant
  · have notes : Notes .anything (trigger fun triggers => { triggers with switchLabels := true }) := by
      rintro env before result after ⟨⟩
      exact .inr fun none => Bool.noConfusion (congrArg Triggers.switchLabels none)
    exact (Settles.never notes (trigger_grows fun _ => ⟨id, id, id, id, fun _ => rfl⟩)).congr
      (iff_false_intro tests)

theorem desugarStmt_settles {env : PassEnv} {site : Site} {mark : Mark} {kind : StmtKind} :
    Settles .anything env (IsPlain env site (.stmt ⟨mark, kind⟩)) (desugarRules.stmt site ⟨mark, kind⟩ kind)
      [⟨mark, kind⟩] := by
  cases kind with
  | localFunction name typeParams params ret body =>
    exact .never (observe_localFunction.first fun _ => .pure) observe_grows.bindPure
  | eval value =>
    refine observe_eval.rule ?_ fun _ => ?_
    · refine .ask (isVoidAccess_ok env value) (.ite (fun isVoid => ?_) fun hasValue => ?_)
      · exact (Settles.never (.last fun _ => setStmt_notes)
          lowerVoidStatement_grows).congr (iff_false_intro (by simp [isVoid]))
      · exact .still (by simpa using hasValue)
    · have grows : Grows (do
          if ← isVoidAccess value then lowerVoidStatement site ⟨mark, .eval value⟩ value
          else return [(⟨mark, .eval value⟩ : Stmt)]) :=
        isVoidAccess_grows.bind fun _ => .ite lowerVoidStatement_grows .pure
      exact grows env
  | switch subject sections => exact observe_switch.map _
  | _ => exact .always fun _ => rfl

theorem desugarRules_grow : desugarRules.Grow where
  expr site node kind := by
    cases kind with
    | ident name => exact lowerName_grows
    | isPattern subject tested => exact tests_grows.bindPure
    | switch subject arms =>
      exact lowerSwitchExpression_grows.bind fun _ => tests_grows.bindPure
    | index receiver args => exact lowerIndex_grows
    | fromEnd value => exact lowerFromEnd_grows
    | range start stop => exact lowerRange_grows
    | conditionalAccess receiver access => exact lowerConditionalAccess_grows
    | collection items => exact lowerCollection_grows
    | interpolated parts => exact lowerInterpolated_grows
    | copyWith receiver inits => exact lowerCopyWith_grows
    | lambda id params isAsync body =>
      cases body with
      | expr value =>
        exact isVoidAccess_grows.bind fun _ => .ite lowerVoidLambda_grows .pure
      | block body => exact .pure
    | _ => exact .pure
  stmt site node kind := by
    refine observe_grows.bind fun _ => ?_
    split
    · exact isVoidAccess_grows.bind fun _ => .ite lowerVoidStatement_grows .pure
    · exact .pure
  pattern _ _ _ := .pure

theorem desugar_settle (noPrimary : ∀ decl ∈ env.unit.types, decl.primary = none) :
    desugarRules.Settle .anything env (IsPlain env) where
  grow := desugarRules_grow
  expr site node := by
    obtain ⟨mark, kind⟩ := node
    cases kind with
    | ident name => exact lowerName_settles noPrimary site mark name
    | isPattern subject tested =>
      exact .never (tests_notes.first fun _ => .pure) tests_grows.bindPure
    | switch subject arms =>
      exact .never (.last fun _ => tests_notes.first fun _ => .pure)
        (lowerSwitchExpression_grows.bind fun _ => tests_grows.bindPure)
    | index receiver args => exact lowerIndex_settles
    | fromEnd value =>
      refine .ite (fun inside => .still inside) fun outside => ?_
      exact (Settles.never replace_notes replace_grows).congr (iff_false_intro outside)
    | range start stop =>
      refine .ite (fun inside => .still inside) fun outside => ?_
      refine (Settles.never (.last fun _ => .last fun _ => replace_notes)
        (rangeBound_grows.bind fun _ => rangeBound_grows.bind fun _ =>
          replace_grows)).congr (iff_false_intro outside)
    | conditionalAccess receiver access => exact lowerConditionalAccess_settles
    | collection items => exact lowerCollection_settles
    | interpolated parts =>
      exact .never lowerInterpolated_notes lowerInterpolated_grows
    | copyWith receiver inits =>
      exact .never lowerCopyWith_notes lowerCopyWith_grows
    | lambda id params isAsync body =>
      cases body with
      | expr value =>
        refine .ask (isVoidAccess_ok env value) (.ite (fun isVoid => ?_) fun hasValue => ?_)
        · exact (Settles.never (.last fun _ => setKind_notes)
            lowerVoidLambda_grows).congr (by simp [IsPlain, isVoid])
        · exact .still (by simpa [IsPlain] using hasValue)
      | block body => exact .pure
    | _ => exact .pure
  stmt site node := by
    obtain ⟨mark, kind⟩ := node
    exact desugarStmt_settles
  pattern site node := by
    obtain ⟨mark, kind⟩ := node
    exact .pure

/-! ## The passes as a whole -/

theorem names_settles (notice : Notice) (env : PassEnv) :
    Settles notice env (∀ site node, env.unit.Holds site node → HasReceiver env site node) names
      env.unit :=
  .ask (read_ok env) (env.unit.rebuild_settles (names_settle env))

theorem deconstruction_settles (notice : Notice) (env : PassEnv) :
    Settles notice env (∀ site node, env.unit.Holds site node → IsWhole site node) deconstruction
      env.unit :=
  .ask (read_ok env) (env.unit.rebuild_settles (deconstruction_settle env))

theorem desugarDecls_ok (env : PassEnv) (state : PassState) (index : Nat) :
    (decls : List TypeDecl) → (∀ decl ∈ decls, decl.kind.isRecord = false ∧ decl.primary = none) →
        desugarDecls index decls env state = .ok (decls, state)
  | [], _ => rfl
  | decl :: rest, plain => by
    obtain ⟨noRecord, noPrimary⟩ := plain decl mem_cons_self
    have kept : lowerPrimary index [] decl env state = .ok (decl, state) := by
      unfold lowerPrimary
      rw [noPrimary]
      rfl
    have others := desugarDecls_ok env state (index + 1) rest
      fun other isIn => plain other (mem_cons_of_mem _ isIn)
    unfold desugarDecls
    rw [if_neg (by simp [noRecord]), bind_ok kept]
    exact bind_ok others

theorem desugar_settles
    (plain : ∀ decl ∈ env.unit.types, decl.kind.isRecord = false ∧ decl.primary = none)
    (noStatic : env.unit.usings.any (·.isStatic) = false) :
    Settles .anything env (∀ site node, env.unit.Holds site node → IsPlain env site node) desugar
      env.unit := by
  refine .ask (read_ok env) ?_
  dsimp only
  rw [if_neg (by simp [noStatic])]
  have settles := env.unit.rebuild_settles (desugar_settle fun decl isIn => (plain decl isIn).2)
  refine (settles.rule (.always fun state => ?_) fun unit => ?_).congr (and_true _).symm.to_iff
  · rw [bind_ok (desugarDecls_ok env state 0 env.unit.types plain)]
    rfl
  · exact desugarDecls_grows.bindPure env

end Pass

end Unsugar
