import Unsugar.Proofs.Expressions.LoweredSubscripts

namespace Unsugar

/-! # Subscripts

An index from the end, an `Index`, a range or a `Range` selects the same from a text or a
sequence as the offsets do that it stands for, and throws where they are out of range.
It makes no difference whether a range is written inside of the subscript or first made
a value.
-/

open Pass

variable {name : String}

section Written

variable {program : Program} {scope : Nat} {frame : Frame} {reads : Set String}
  {machine : Machine} {held : Value} {indexed : Indexed} {env : PassEnv} {before after : PassState}
  {site : Site} {node lowered : Expr} {point : InstallPoint} {mark : Mark}
  {offset missing start stop : Offset} {selection : Selection} {meant : Meant}

/-! ## Variables -/

/-- Whether a name is no parameter of a primary constructor. -/
def View.isLocal (view : View) (node : Expr) : Bool :=
  match (view.resolution node).found with
  | some reference => reference.kind != .primaryParameter
  | none => true

theorem lowerName_ok {site : Site} (isLocal : env.view.isLocal node = true) {state : PassState} :
    lowerName site node name env state = .ok ({ node with kind := .ident name }, state) := by
  obtain ⟨params, areParams⟩ : ∃ params, primaryParamsAt site.owner env state = .ok (params, state) := by
    cases site.owner <;> exact ⟨_, rfl⟩
  obtain ⟨inBody, isBody⟩ := inInstanceBody_ok env site
  unfold lowerName
  rw [bind_ok (view_ok env state), bind_ok areParams, bind_ok (isBody state)]
  unfold View.isLocal at isLocal
  cases found : (env.view.resolution node).found with
  | none => rfl
  | some reference =>
    rw [found] at isLocal
    have notPrimary : reference.kind ≠ .primaryParameter := by simpa using isLocal
    simp only [decide_eq_false notPrimary]
    rfl

namespace Operand

theorem literal (number : Int) :
    Operand program scope frame env reads machine site ⟨mark, .literal (.int number)⟩
      (.plain (.int number)) := by
  have yields : Yields program scope frame reads machine (mark.span.intLit number)
      (.plain (.int number)) := .intLit number
  refine fun before => ⟨⟨mark, .literal (.int number)⟩, before, ?_, nofun, yields.of_kind rfl⟩
  rw [Expr.rebuild, ExprKind.rebuild]
  rfl

theorem «variable» {value : Value} (isLocal : env.view.isLocal ⟨mark, .ident name⟩ = true)
    (found : machine.valueOf? scope name = some value)
    (isHeld : meant.HeldAs program machine value) (isRead : name ∈ reads) :
    Operand program scope frame env reads machine site ⟨mark, .ident name⟩ meant := by
  have yields : Yields program scope frame reads machine (mark.span.ident name) meant :=
    .ident found isHeld isRead
  refine fun before => ⟨⟨mark, .ident name⟩, before, ?_, nofun, yields.of_kind rfl⟩
  rw [Expr.rebuild, ExprKind.rebuild]
  exact lowerName_ok isLocal

theorem fromEnd {inner : Expr} {value : Int32} (undeclared : program.find? "Index" = none)
    (outside : inSubscript ⟨mark, .fromEnd inner⟩ site.ancestors = false)
    (isNumber : Operand program scope frame env reads machine
      (site.below (.expr ⟨mark, .fromEnd inner⟩)) inner (.plain (.int value.toInt))) :
    Operand program scope frame env reads machine site ⟨mark, .fromEnd inner⟩
      (.index ⟨value, true⟩) := by
  intro before
  obtain ⟨lowered, middle, ran, _, yields⟩ := isNumber before
  have made : Yields program scope frame reads machine (newIndex mark.span lowered true)
      (.index ⟨value, true⟩) := .newIndex undeclared yields
  refine ⟨Expr.replaceBy ⟨mark, .fromEnd inner⟩ (newIndex mark.span lowered true),
    { middle with changed := true }, ?_, nofun, made.of_kind rfl⟩
  rw [Expr.rebuild, ExprKind.rebuild]
  refine (bind_ok (bind_ok ran)).trans ?_
  change lowerFromEnd site ⟨mark, .fromEnd inner⟩ lowered env middle = _
  unfold lowerFromEnd
  rw [outside]
  rfl

end Operand

/-! ## Bounds and arguments -/

theorem View.isNamed_rebuilt (view : View)
    (ran : node.rebuild desugarRules site env before = .ok (lowered, after))
    (isNamed : view.types.isNamed (view.typeOf node) name = true) :
    view.types.isNamed (view.typeOf lowered) name = true := by
  rw [view.typeOf_rebuilt ran]
  exact isNamed

theorem rebuild_fromEnd {inner : Expr} {value : Int32}
    (inside : inSubscript ⟨mark, .fromEnd inner⟩ site.ancestors = true)
    (isNumber : Operand program scope frame env reads machine
      (site.below (.expr ⟨mark, .fromEnd inner⟩)) inner (.plain (.int value.toInt)))
    {before : PassState} :
    ∃ made after, Expr.rebuild desugarRules site ⟨mark, .fromEnd inner⟩ env before =
      .ok (⟨mark, .fromEnd made⟩, after) ∧
      ∀ below, Ready program scope frame reads machine below made (.plain (.int value.toInt)) := by
  obtain ⟨made, after, ran, ready⟩ := isNumber before
  refine ⟨made, after, ?_, fun _ => ready⟩
  rw [Expr.rebuild, ExprKind.rebuild]
  refine (bind_ok (bind_ok ran)).trans ?_
  change lowerFromEnd site ⟨mark, .fromEnd inner⟩ made env after = _
  unfold lowerFromEnd
  rw [inside]
  rfl

theorem BoundAs.rebuild {bound : Option Expr} (inside : ∀ node, inSubscript node site.ancestors = true)
    (isBound : BoundAs env.view (Operand program scope frame env reads machine) site missing bound
      offset) (before : PassState) :
    ∃ made after, rebuildExpr? desugarRules site bound env before = .ok (made, after) ∧
      ∀ below, BoundAs env.view (Ready program scope frame reads machine) below missing made
        offset := by
  cases isBound with
  | absent => exact ⟨none, before, rfl, fun _ => .absent⟩
  | @number node value isInt notOffset isNumber =>
    obtain ⟨made, after, ran, ready⟩ := isNumber before
    refine ⟨some made, after, (bind_ok ran).trans rfl, fun _ => .number ?_ ready.2.not_offset ready⟩
    rw [env.view.typeOf_rebuilt ran]
    exact isInt
  | @fromEnd mark inner value isNumber =>
    obtain ⟨made, after, ran, ready⟩ := rebuild_fromEnd (inside _) isNumber
    exact ⟨_, after, (bind_ok ran).trans rfl, fun _ => .fromEnd (ready _)⟩
  | @index node offset isNamed isIndex =>
    obtain ⟨made, after, ran, ready⟩ := isIndex before
    exact ⟨some made, after, (bind_ok ran).trans rfl,
      fun _ => .index (env.view.isNamed_rebuilt ran isNamed) ready⟩

theorem ExprKind.rebuild_range {first last madeFirst madeLast : Option Expr} {middle : PassState}
    (ranFirst : rebuildExpr? desugarRules site first env before = .ok (madeFirst, middle))
    (ranLast : rebuildExpr? desugarRules site last env middle = .ok (madeLast, after)) :
    (ExprKind.range first last).rebuild desugarRules site env before =
      .ok (.range madeFirst madeLast, after) := by
  rw [ExprKind.rebuild]
  exact (bind_ok ranFirst).trans ((bind_ok ranLast).trans rfl)

theorem SubscriptAs.rebuild {arg : Expr} (inside : inSubscript arg site.ancestors = true)
    (selects : SubscriptAs env.view (Operand program scope frame env reads machine) site arg
      selection) (before : PassState) :
    ∃ made after, arg.rebuild desugarRules site env before = .ok (made, after) ∧
      SubscriptAs env.view (Ready program scope frame reads machine) site made selection := by
  cases selects with
  | fromEnd isNumber =>
    obtain ⟨made, after, ran, ready⟩ := rebuild_fromEnd inside isNumber
    exact ⟨_, after, ran, .fromEnd (ready _)⟩
  | index isNamed isIndex =>
    obtain ⟨made, after, ran, ready⟩ := isIndex before
    exact ⟨made, after, ran, .index (env.view.isNamed_rebuilt ran isNamed) ready⟩
  | @range mark first last start stop bounds =>
    have onward (node : Expr) : inSubscript node
        (site.below (.expr ⟨mark, .range first last⟩)).ancestors = true := inside
    obtain ⟨madeFirst, middle, ranFirst, isFirst⟩ := bounds.1.rebuild onward before
    obtain ⟨madeLast, after, ranLast, isLast⟩ := bounds.2.rebuild onward middle
    refine ⟨⟨mark, .range madeFirst madeLast⟩, after, ?_, .range ⟨isFirst _, isLast _⟩⟩
    rw [Expr.rebuild]
    refine (bind_ok (ExprKind.rebuild_range ranFirst ranLast)).trans ?_
    change lowerRange site ⟨mark, .range first last⟩ madeFirst madeLast env after = _
    unfold lowerRange
    rw [inside]
    rfl
  | rangeValue isNamed isRange =>
    obtain ⟨made, after, ran, ready⟩ := isRange before
    exact ⟨made, after, ran, .rangeValue (env.view.isNamed_rebuilt ran isNamed) ready⟩

/-! ## Values of `Range` -/

variable {isEnd : Bool} {span : Span}

theorem rangeBound_kept {input value : Expr} (isIndex : (∃ inner, input.kind = .fromEnd inner) ∨
      env.view.types.isNamed (env.view.typeOf value) "Index" = true) (state : PassState) :
    rangeBound span isEnd (some input) (some value) env state = .ok (value, state) := by
  unfold rangeBound
  dsimp only
  rw [bind_ok (types_ok env state), bind_ok (typeOf_ok env value state)]
  rcases isIndex with ⟨inner, isFromEnd⟩ | isNamed
  · rw [isFromEnd]
    rfl
  · rw [isNamed, Bool.or_true]
    rfl

theorem rangeBound_made {input value : Expr} (notOffset : input.kind.isOffset = false)
    (notIndex : env.view.types.isNamed (env.view.typeOf value) "Index" = false) (state : PassState) :
    rangeBound span isEnd (some input) (some value) env state =
      .ok (newIndex span value false, state) := by
  unfold rangeBound
  dsimp only
  rw [bind_ok (types_ok env state), bind_ok (typeOf_ok env value state), notIndex]
  obtain ⟨mark, kind⟩ := input
  cases kind with
  | fromEnd inner => cases notOffset
  | _ => rfl

theorem BoundAs.makes {bound : Option Expr} (undeclared : program.find? "Index" = none)
    (outside : ∀ node, inSubscript node site.ancestors = false)
    (isBound : BoundAs env.view (Operand program scope frame env reads machine) site ⟨0, isEnd⟩ bound
      offset) (before : PassState) :
    ∃ rebuilt after made, rebuildExpr? desugarRules site bound env before = .ok (rebuilt, after) ∧
      (∀ state, rangeBound span isEnd bound rebuilt env state = .ok (made, state)) ∧
      Yields program scope frame reads machine made (.index offset) := by
  cases isBound with
  | absent =>
    have isZero : Yields program scope frame reads machine (span.intLit 0)
        (.plain (.int (0 : Int32).toInt)) := .intLit 0
    exact ⟨none, before, _, rfl, fun _ => rfl, .newIndex undeclared isZero⟩
  | @number node value isInt notOffset isNumber =>
    obtain ⟨rebuilt, after, ran, ready⟩ := isNumber before
    refine ⟨some rebuilt, after, newIndex span rebuilt false, (bind_ok ran).trans rfl,
      rangeBound_made notOffset ?_, .newIndex undeclared ready.2⟩
    rw [env.view.typeOf_rebuilt ran, isInt, not_isNamed_int]
  | @fromEnd mark inner value isNumber =>
    obtain ⟨rebuilt, after, ran, ready⟩ :=
      Operand.fromEnd undeclared (outside _) isNumber before
    exact ⟨some rebuilt, after, rebuilt, (bind_ok ran).trans rfl,
      rangeBound_kept (.inl ⟨inner, rfl⟩), ready.2⟩
  | @index node offset isNamed isIndex =>
    obtain ⟨rebuilt, after, ran, ready⟩ := isIndex before
    exact ⟨some rebuilt, after, rebuilt, (bind_ok ran).trans rfl,
      rangeBound_kept (.inr (env.view.isNamed_rebuilt ran isNamed)), ready.2⟩

theorem Operand.range {first last : Option Expr} (noIndex : program.find? "Index" = none)
    (noRange : program.find? "Range" = none)
    (outside : inSubscript ⟨mark, .range first last⟩ site.ancestors = false)
    (bounds : BoundsAs env.view (Operand program scope frame env reads machine)
      (site.below (.expr ⟨mark, .range first last⟩)) first last start stop) :
    Operand program scope frame env reads machine site ⟨mark, .range first last⟩
      (.range start stop) := by
  intro before
  have onward (node : Expr) : inSubscript node
      (site.below (.expr ⟨mark, .range first last⟩)).ancestors = false := outside
  obtain ⟨rebuiltFirst, middle, madeFirst, ranFirst, boundFirst, isStart⟩ :=
    bounds.1.makes noIndex onward before
  obtain ⟨rebuiltLast, after, madeLast, ranLast, boundLast, isStop⟩ :=
    bounds.2.makes noIndex onward middle
  have made : Yields program scope frame reads machine
      (mark.span.create (.simple "Range") [madeFirst, madeLast]) (.range start stop) :=
    .newRange noRange isStart isStop
  refine ⟨Expr.replaceBy ⟨mark, .range first last⟩
    (mark.span.create (.simple "Range") [madeFirst, madeLast]), { after with changed := true }, ?_,
    nofun, made.of_kind rfl⟩
  rw [Expr.rebuild]
  refine (bind_ok (ExprKind.rebuild_range ranFirst ranLast)).trans ?_
  change lowerRange site ⟨mark, .range first last⟩ rebuiltFirst rebuiltLast env after = _
  unfold lowerRange
  rw [outside]
  refine (bind_ok (boundFirst after)).trans ((bind_ok (boundLast after)).trans rfl)

end Written

/-! ## Selecting -/

section Subscripts

variable (program : Program) (scope : Nat) (frame : Frame) (env : PassEnv)

/-- A subscript on an operand that holds a text or a sequence. -/
structure Indexing (reads : Set String) (machine : Machine) (site : Site) (node receiver : Expr)
    (held : Value) (indexed : Indexed) : Prop where
  isAccess : isBindingRooted receiver = false
  indexes : (env.view.typeOf receiver).Indexes machine held indexed
  isReceiver : Operand program scope frame env reads machine (site.below (.expr node)) receiver
    (.plain held)

/-- An expression can be lowered where declarations have a place.  Wherever it is lowered,
    it gives what is selected, or throws where nothing is, if the variables are declared
    that are hoisted for it.  Only temporaries are assigned. -/
def LowersTo (machine : Machine) (site : Site) (node : Expr) (selection : Selection)
    (indexed : Indexed) : Prop :=
  ((∃ point, env.PointOf site node point) → ∀ before, ∃ lowered after,
    node.rebuild desugarRules site env before = .ok (lowered, after)) ∧
  ∀ before lowered after, node.rebuild desugarRules site env before = .ok (lowered, after) →
    HoistsDeclared env site node scope after machine →
    Gives program scope frame { name | IsDrawn name } selection.exception lowered machine
      (selection.of indexed)

end Subscripts

variable {program : Program} {scope : Nat} {frame : Frame} {env : PassEnv} {reads : Set String}

namespace Indexing

variable {machine : Machine} {site : Site} {mark : Mark} {receiver arg : Expr} {held : Value}
  {indexed : Indexed} {selection : Selection}

theorem rebuild_eq
    (indexing : Indexing program scope frame env reads machine site ⟨mark, .index receiver [arg]⟩
      receiver held indexed)
    (selects : SubscriptAs env.view (Operand program scope frame env reads machine)
      (site.below (.expr ⟨mark, .index receiver [arg]⟩)) arg selection) (before : PassState) :
    ∃ made form middle below,
      Expr.rebuild desugarRules site ⟨mark, .index receiver [arg]⟩ env before =
        (subscriptOn site ⟨mark, .index receiver [arg]⟩ mark.span made form >>=
          replace ⟨mark, .index receiver [arg]⟩) env middle ∧
      (env.view.typeOf made).Indexes machine held indexed ∧
      Ready program scope frame reads machine below made (.plain held) ∧
      SubscriptArg.Means program scope frame env.view reads machine below form selection := by
  have inside : inSubscript arg (site.below (.expr ⟨mark, .index receiver [arg]⟩)).ancestors = true := by
    simp [inSubscript, Site.below]
  obtain ⟨made, first, ranReceiver, isReceiver⟩ := indexing.isReceiver before
  obtain ⟨madeArg, second, ranArg, madeSelects⟩ := selects.rebuild inside first
  obtain ⟨form, below, isForm, means⟩ := ofArgs?_means madeSelects
  have indexes := indexing.indexes
  rw [← env.view.typeOf_rebuilt ranReceiver] at indexes
  refine ⟨made, form, second, below, ?_, indexes, isReceiver, means⟩
  rw [Expr.rebuild, ExprKind.rebuild]
  have ranArgs : rebuildExprs desugarRules (site.below (.expr ⟨mark, .index receiver [arg]⟩)) [arg]
      env first = .ok ([madeArg], second) := (bind_ok ranArg).trans rfl
  refine (bind_ok ((bind_ok ranReceiver).trans ((bind_ok ranArgs).trans rfl))).trans ?_
  change lowerIndex site ⟨mark, .index receiver [arg]⟩ made [madeArg] env second = _
  unfold lowerIndex
  rw [if_neg (by simp [indexing.isAccess])]
  exact bind_ok (isForm second)

theorem lowersTo (unreserved : ∀ name ∈ reads, ¬ IsDrawn name)
    (indexing : Indexing program scope frame env reads machine site ⟨mark, .index receiver [arg]⟩
      receiver held indexed)
    (selects : SubscriptAs env.view (Operand program scope frame env reads machine)
      (site.below (.expr ⟨mark, .index receiver [arg]⟩)) arg selection) :
    LowersTo program scope frame env machine site ⟨mark, .index receiver [arg]⟩ selection
      indexed := by
  refine ⟨fun ⟨point, placed⟩ before => ?_, fun before lowered after ran declared => ?_⟩
  · obtain ⟨made, form, middle, _, isRebuilt, _⟩ := indexing.rebuild_eq selects before
    obtain ⟨lowered, after, ran, _⟩ := subscriptOn_succeeds placed middle
    exact ⟨_, _, isRebuilt.trans ((bind_ok ran).trans rfl)⟩
  · obtain ⟨made, form, middle, below, isRebuilt, indexes, isReceiver, means⟩ :=
      indexing.rebuild_eq selects before
    obtain ⟨part, _, ranPart, replaced⟩ := bind_eq_ok (isRebuilt.symm.trans ran)
    cases replaced
    have gives := subscriptOn_gives indexes means isReceiver unreserved ranPart declared
    exact gives.of_kind rfl

end Indexing

/-- Subscripts with `^number`, an `Index`, a range or a `Range` are lowered to what gives the
    item or the part that the offsets select, or throws where these are out of range.
    Numbers and variables are operands of theirs.  Where a range is made a value first, and a
    variable that holds it is the subscript, the same is selected. -/
theorem subscript_selects (unreserved : ∀ name ∈ reads, ¬ IsDrawn name) :
    (∀ {machine site mark number},
      Operand program scope frame env reads machine site ⟨mark, .literal (.int number)⟩
        (.plain (.int number))) ∧
    (∀ {machine site mark name value meant}, env.view.isLocal ⟨mark, .ident name⟩ = true →
      machine.valueOf? scope name = some value → meant.HeldAs program machine value → name ∈ reads →
      Operand program scope frame env reads machine site ⟨mark, .ident name⟩ meant) ∧
    (∀ {machine site mark receiver arg held indexed selection},
      let node : Expr := ⟨mark, .index receiver [arg]⟩
      Indexing program scope frame env reads machine site node receiver held indexed →
      SubscriptAs env.view (Operand program scope frame env reads machine)
        (site.below (.expr node)) arg selection →
      LowersTo program scope frame env machine site node selection indexed) ∧
    ∀ {machine site mark first last start stop},
      let range : Expr := ⟨mark, .range first last⟩
      program.find? "Index" = none → program.find? "Range" = none →
      inSubscript range site.ancestors = false →
      BoundsAs env.view (Operand program scope frame env reads machine)
        (site.below (.expr range)) first last start stop →
      ∀ before, ∃ made after value middle,
        range.rebuild desugarRules site env before = .ok (made, after) ∧
        Evaluates program scope frame made machine value middle ∧
        Enlarges scope ∅ machine middle ∧
        ∀ {later written name mark argMark site receiver held indexed},
          let arg : Expr := ⟨argMark, .ident name⟩
          let node : Expr := ⟨mark, .index receiver [arg]⟩
          Enlarges scope written middle later → later.valueOf? scope name = some value →
          name ∈ reads → env.view.isLocal arg = true →
          env.view.types.isNamed (env.view.typeOf arg) "Range" = true →
          Indexing program scope frame env reads later site node receiver held indexed →
          LowersTo program scope frame env later site node (.part start stop) indexed := by
  refine ⟨.literal _, .variable, fun indexing selects => indexing.lowersTo unreserved selects,
    ?_⟩
  intro machine site mark first last start stop range noIndex noRange outside bounds before
  obtain ⟨made, after, ran, -, yields⟩ := Operand.range noIndex noRange outside bounds before
  obtain ⟨value, middle, evaluated, isHeld, kept⟩ := yields machine (.refl machine)
  refine ⟨made, after, value, middle, ran, evaluated, kept, ?_⟩
  intro later written name mark argMark site receiver held indexed arg node enlarges found
    isRead isLocal isNamed indexing
  exact indexing.lowersTo unreserved
    (.rangeValue isNamed (.variable isLocal found (isHeld.mono enlarges) isRead))

/-! ## A suffix -/

theorem not_isDrawn (unreserved : name.toList.head? ≠ some '_') : ¬ IsDrawn name := by
  rintro ⟨hint, number, -, rfl⟩
  refine unreserved ?_
  simp [freshName, String.toList_append]

def suffixRange : Expr :=
  ⟨.numbered 2, .range (some ⟨.numbered 1, .fromEnd ⟨.numbered 0, .literal (.int 3)⟩⟩) none⟩

def suffix (name : String) : Expr :=
  ⟨.numbered 4, .index ⟨.numbered 3, .ident name⟩ [suffixRange]⟩

def returned (value : Expr) : Stmt := ⟨.numbered 5, .ret (some value)⟩

def returnSite (value : Expr) : Site := ⟨.member 0 0, [.stmt (returned value)]⟩

def returnUnit (others : List TypeDecl) (params : List Param) (type : String) (value : Expr) :
    CompilationUnit :=
  let body : Stmt := ⟨.numbered 6, .block [returned value]⟩
  ⟨[], none, ⟨"C", .classType, [], [], none, [], none,
    [⟨.method "M" [] params (.simple type) (.block body), [], ⟨0, 0⟩⟩], ⟨0, 0⟩⟩ :: others⟩

def unitEnv (unit : CompilationUnit) : PassEnv :=
  { pass := "desugar", unit, view := unit.analyze 7 unit.vocabulary }

def suffixEnv (name : String) : PassEnv :=
  unitEnv (returnUnit [] [.plain (.simple "string") name] "string" (suffix name))

def suffixMachine : Machine :=
  { scopes := #[⟨[("text", .str "hello"), ("__i0", .int 0)], none⟩] }

set_option maxRecDepth 8000 in
theorem suffix_lowered : ∃ lowered after,
    (suffix "text").rebuild desugarRules (returnSite (suffix "text")) (suffixEnv "text")
      { nextName := 0, nextId := 7 } = .ok (lowered, after) ∧
    after.hoists.names (.stmt 5) = ["__i0"] :=
  ⟨_, _, rfl, rfl⟩

set_option maxRecDepth 8000 in
/-- The last three characters of `hello`. -/
theorem subscript_selects_suffix :
    (∀ name ∈ ({"text"} : Set String), ¬ IsDrawn name) ∧
    ∃ lowered after finish,
      (suffix "text").rebuild desugarRules (returnSite (suffix "text")) (suffixEnv "text")
        { nextName := 0, nextId := 7 } = .ok (lowered, after) ∧
      Evaluates ⟨[]⟩ 0 ⟨.null, none⟩ lowered suffixMachine (.str "llo") finish := by
  have unreserved : ∀ name ∈ ({"text"} : Set String), ¬ IsDrawn name := by
    rintro name rfl
    exact not_isDrawn (by decide)
  refine ⟨unreserved, ?_⟩
  obtain ⟨isLiteral, isVariable, selects, -⟩ :=
    @subscript_selects ⟨[]⟩ 0 ⟨.null, none⟩ (suffixEnv "text") {"text"} unreserved
  have indexes : ((suffixEnv "text").view.typeOf ⟨.numbered 3, .ident "text"⟩).Indexes suffixMachine
      (.str "hello") (.ofText "hello") :=
    ⟨iff_of_true rfl ⟨_, rfl⟩, rfl, by decide⟩
  have lowersTo : LowersTo ⟨[]⟩ 0 ⟨.null, none⟩ (suffixEnv "text") suffixMachine (returnSite (suffix "text"))
      (suffix "text") (.part ⟨3, true⟩ .last) (.ofText "hello") :=
    selects ⟨rfl, indexes, isVariable rfl rfl ⟨rfl, rfl⟩ rfl⟩ (.range ⟨.fromEnd isLiteral, .absent⟩)
  obtain ⟨lowered, after, ran, names⟩ := suffix_lowered
  have isPoint (point : InstallPoint)
      (placed : (suffixEnv "text").PointOf (returnSite (suffix "text")) (suffix "text") point) :
      point = .stmt 5 := by
    have asked := placed { nextName := 0, nextId := 7 }
    cases asked
    rfl
  obtain ⟨outcome, finish, ends, selected, -⟩ := lowersTo.2 _ _ _ ran fun point placed name isIn => by
    rw [isPoint point placed, names] at isIn
    obtain rfl := List.mem_singleton.1 isIn
    rfl
  have isSuffix : (Selection.part ⟨3, true⟩ .last).of (.ofText "hello") =
      some (.value (.str "llo")) := rfl
  rw [isSuffix] at selected
  cases outcome with
  | error exit => cases selected
  | ok value =>
    obtain rfl : value = .str "llo" := selected
    exact ⟨lowered, after, finish, ran, ends⟩

/-! ## Names of others -/

/-- A text that the variable `__i0` holds, and inside its scope the variable that is hoisted
    for its suffix. -/
def reservedMachine : Machine :=
  { scopes := #[⟨[("__i0", .str "hello")], none⟩, ⟨[("__i0", .int 0)], some 0⟩] }

def ownIndex : TypeDecl := ⟨"Index", .classType, [], [], none, [], none, [], ⟨0, 0⟩⟩

def ownIndexUnit : CompilationUnit := returnUnit [ownIndex] [] "Range" suffixRange

set_option maxRecDepth 8000 in
/-- A text in a variable with the name of a temporary is hidden by it: the suffix that the
    offsets select is not found.  With a class `Index` of the program's own, no range can be
    made a value. -/
theorem subscript_selects_reserved :
    (Selection.part ⟨3, true⟩ .last).of (.ofText "hello") = some (.value (.str "llo")) ∧
    (reservedMachine.valueOf? 0 "__i0" = some (.str "hello") ∧
      ∃ lowered after,
        (suffix "__i0").rebuild desugarRules (returnSite (suffix "__i0")) (suffixEnv "__i0")
          { nextName := 0, nextId := 7 } = .ok (lowered, after) ∧
        after.hoists.names (.stmt 5) = ["__i0"] ∧
        EndsWith ⟨[]⟩ 1 ⟨.null, none⟩ lowered reservedMachine
          (.error (.fault (.unsupported "no such member on this value"))) reservedMachine) ∧
    ∃ made after last,
      suffixRange.rebuild desugarRules (returnSite suffixRange) (unitEnv ownIndexUnit)
        { nextName := 0, nextId := 7 } = .ok (made, after) ∧
      EndsWith ⟨ownIndexUnit.types⟩ 0 ⟨.null, none⟩ made suffixMachine
        (.error (.fault (.noConstructor "Index" 2))) last := by
  refine ⟨rfl, ⟨rfl, _, _, rfl, rfl, 20, fun fuel bound => ?_⟩, _, _,
    { suffixMachine with objects := #[⟨"Index", [], false⟩] }, rfl, 20, fun fuel bound => ?_⟩
  · obtain ⟨rest, rfl⟩ : ∃ rest, fuel = rest + 20 := ⟨fuel - 20, by omega⟩
    rfl
  · obtain ⟨rest, rfl⟩ : ∃ rest, fuel = rest + 20 := ⟨fuel - 20, by omega⟩
    rfl

end Unsugar
