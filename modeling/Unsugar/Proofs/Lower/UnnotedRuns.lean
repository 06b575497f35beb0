import Unsugar.Proofs.Lower.Idempotence

open List

namespace Unsugar

/-! # Passes that note no change

A pass says itself whether it changed the unit, and a unit that it says to be
unchanged is dropped together with everything the pass did to it.  No pass changes
a node, a declaration or an import without saying so, and every pass reads the
analysis of the very tree it runs on.
-/

/-! ## Actions that own up to their changes -/

namespace Pass

/-- Where an action ends without a change noted, none was noted before it and its
    result is `same`. -/
def Candid {α : Type} (env : PassEnv) (action : Pass α) (same : α) : Prop :=
  ∀ before result after, action env before = .ok (result, after) → after.changed = false →
    before.changed = false ∧ result = same

namespace Candid

variable {α β : Type} {env : PassEnv} {same : α} {action : Pass α}

theorem pure (value : α) : Candid env (Pure.pure value : Pass α) value := by
  intro before result after ran unnoted
  cases ran
  exact ⟨unnoted, rfl⟩

theorem ofNotes (notes : Notes .change action) : Candid env action same := by
  intro before result after ran unnoted
  have noted : after.changed = true := notes _ _ _ _ ran
  rw [unnoted] at noted
  cases noted

theorem bind {next : α → Pass β} {whole : α → β} (first : Candid env action same)
    (rest : ∀ value, Candid env (next value) (whole value)) :
    Candid env (action >>= next) (whole same) := by
  intro before result after ran unnoted
  obtain ⟨value, middle, ranFirst, ranRest⟩ := bind_eq_ok ran
  obtain ⟨unnotedMiddle, rfl⟩ := rest value _ _ _ ranRest unnoted
  obtain ⟨unnotedBefore, rfl⟩ := first _ _ _ ranFirst unnotedMiddle
  exact ⟨unnotedBefore, rfl⟩

theorem map (first : Candid env action same) (build : α → β) :
    Candid env (action >>= fun value => (Pure.pure (build value) : Pass β)) (build same) :=
  first.bind fun value => pure (build value)

theorem after {action : Pass β} {next : β → Pass α} (grows : Grows action)
    (rest : ∀ value, Candid env (next value) same) : Candid env (action >>= next) same := by
  intro before result after ran unnoted
  obtain ⟨value, middle, ranFirst, ranRest⟩ := bind_eq_ok ran
  obtain ⟨unnotedMiddle, isSame⟩ := rest value _ _ _ ranRest unnoted
  refine ⟨?_, isSame⟩
  cases noted : before.changed with
  | false => rfl
  | true =>
    have stillNoted := (grows _ _ _ _ ranFirst).changed noted
    rw [unnotedMiddle] at stillNoted
    cases stillNoted

theorem ite {condition : Prop} [Decidable condition] {yes no : Pass α}
    (isYes : condition → Candid env yes same) (isNo : ¬condition → Candid env no same) :
    Candid env (if condition then yes else no) same := by
  split
  · exact isYes ‹_›
  · exact isNo ‹_›

end Candid

theorem Settles.candid {α : Type} {env : PassEnv} {stays : Prop} {action : Pass α} {same : α}
    (settles : Settles .change env stays action same) : Candid env action same := by
  intro before result after ran unnoted
  by_cases stay : stays
  · rw [settles.keeps stay] at ran
    cases ran
    exact ⟨unnoted, rfl⟩
  · have noted : after.changed = true := settles.notes stay _ _ _ ran
    rw [unnoted] at noted
    cases noted

end Pass

/-- Rules that note every change: without a note, a node comes back over the
    children that the rule was given. -/
structure Rules.Candid (rules : Rules Pass) (env : PassEnv) : Prop where
  expr (site : Site) (node : Expr) (kind : ExprKind) :
    Pass.Candid env (rules.expr site node kind) { node with kind }
  stmt (site : Site) (node : Stmt) (kind : StmtKind) :
    Pass.Candid env (rules.stmt site node kind) [{ node with kind }]
  pattern (site : Site) (node : Pattern) (kind : PatternKind) :
    Pass.Candid env (rules.pattern site node kind) { node with kind }

/-- What such rules do follows the nodes of a rebuild, wherever they stand. -/
def Rules.Candid.walk {rules : Rules Pass} {env : PassEnv} (candid : rules.Candid env) :
    Traversal rules fun (_ : Unit) _ _ => True where
  holds _ action same := Pass.Candid env action same
  congr holds _ := holds
  pure value := .pure value
  bind first rest := first.bind rest
  expr site node _ children := by
    obtain ⟨mark, kind⟩ := node
    exact children.bind (candid.expr site ⟨mark, kind⟩)
  stmt site node _ children := by
    obtain ⟨mark, kind⟩ := node
    exact children.bind (candid.stmt site ⟨mark, kind⟩)
  pattern site node _ children := by
    obtain ⟨mark, kind⟩ := node
    exact children.bind (candid.pattern site ⟨mark, kind⟩)

theorem CompilationUnit.rebuild_candid {rules : Rules Pass} {env : PassEnv}
    (candid : rules.Candid env) (unit : CompilationUnit) :
    Pass.Candid env (unit.rebuild rules) unit :=
  unit.rebuild_walks candid.walk

namespace Pass

variable (env : PassEnv) (site : Site)

theorem rebuild_candid {rules : Rules Pass} (candid : rules.Candid env) :
    Candid env (do (← read).unit.rebuild rules) env.unit := by
  intro before result after ran unnoted
  rw [bind_ok (read_ok env before)] at ran
  exact env.unit.rebuild_candid candid _ _ _ ran unnoted

/-! ## Desugaring -/

theorem lowerName_candid {node : Expr} {name : String} :
    Candid env (lowerName site node name) { node with kind := .ident name } :=
  .after view_grows fun _ => .after primaryParamsAt_grows fun _ =>
    .after inInstanceBody_grows fun _ =>
      .ite (fun _ => .ofNotes (.last fun _ => setKind_notes)) fun _ => .pure _

theorem lowerIndex_candid {node receiver : Expr} {args : List Expr} :
    Candid env (lowerIndex site node receiver args) { node with kind := .index receiver args } := by
  refine .ite (fun _ => .pure _) fun _ => .after subscriptArg_grows fun found => ?_
  split
  · exact .pure _
  · exact .ofNotes (.last fun _ => replace_notes)

theorem lowerRange_candid {node : Expr} {start stop : Option Expr} :
    Candid env (lowerRange site node start stop) { node with kind := .range start stop } := by
  unfold lowerRange
  refine .ite (fun _ => .pure _) fun _ => ?_
  split
  exact .ofNotes (.last fun _ => .last fun _ => replace_notes)

theorem lowerConditionalAccess_candid {node : Expr} {kind : ExprKind} :
    Candid env (lowerConditionalAccess site node kind) { node with kind } :=
  .ite (fun _ => .pure _) fun _ => .after isVoidAccess_grows fun _ =>
    .ite (fun _ => .pure _) fun _ =>
      .ofNotes (.last fun _ => .last fun _ => .last fun _ => replace_notes)

theorem lowerCollection_candid {node : Expr} {items : List Expr} :
    Candid env (lowerCollection node items) { node with kind := .collection items } := by
  refine .ite (fun _ => .pure _) fun _ => .ofNotes ?_
  refine .last fun _ => .last fun _ => .last fun _ => .last fun _ => .last fun _ => ?_
  dsimp only
  split
  · exact .last fun _ => replace_notes
  · exact .last fun _ => replace_notes

theorem desugarExpr_candid {node : Expr} {kind : ExprKind} :
    Candid env (desugarExpr site node kind) { node with kind } := by
  cases kind with
  | ident name => exact lowerName_candid env _
  | isPattern subject tested => exact .after tests_grows fun _ => .pure _
  | switch subject arms =>
    have notes : Notes .change (lowerSwitchExpression site node subject arms) :=
      .last fun _ => .last fun _ => .last fun _ => .last fun _ => replace_notes
    exact .ofNotes (notes.first fun _ => tests_grows.bindPure)
  | index receiver args => exact lowerIndex_candid env _
  | fromEnd value => exact .ite (fun _ => .pure _) fun _ => .ofNotes replace_notes
  | range start stop => exact lowerRange_candid env _
  | conditionalAccess receiver access => exact lowerConditionalAccess_candid env _
  | collection items => exact lowerCollection_candid env
  | interpolated parts => exact .ofNotes lowerInterpolated_notes
  | copyWith receiver inits => exact .ofNotes lowerCopyWith_notes
  | lambda id params isAsync body =>
    cases body with
    | expr value =>
      exact .after isVoidAccess_grows fun _ =>
        .ite (fun _ => .ofNotes (.last fun _ => setKind_notes)) fun _ => .pure _
    | block body => exact .pure _
  | _ => exact .pure _

theorem desugarRules_candid : desugarRules.Candid env where
  expr := desugarExpr_candid env
  stmt site node kind := by
    refine .after observe_grows fun _ => ?_
    split
    · exact .after isVoidAccess_grows fun _ =>
        .ite (fun _ => .ofNotes (.last fun _ => setStmt_notes)) fun _ => .pure _
    · exact .pure _
  pattern site node kind := .pure _

theorem lowerPrimary_candid (index : Nat) (leading : List Stmt) (decl : TypeDecl) :
    Candid env (lowerPrimary index leading decl) decl := by
  unfold lowerPrimary
  split
  · exact .pure _
  · exact .ofNotes (.last fun _ => .last fun _ => markChanged_notes.first fun _ => .pure)

theorem desugarDecls_candid (index : Nat) (decls : List TypeDecl) :
    Candid env (desugarDecls index decls) decls := by
  induction decls generalizing index with
  | nil => exact .pure _
  | cons decl rest ih =>
    have following (lowered : TypeDecl) :=
      (ih (index + 1)).map fun others => lowered :: others
    have record : Notes .change (lowerRecord index decl) :=
      markChanged_notes.first fun _ => types_grows.bind fun _ => lowerPrimary_grows
    unfold desugarDecls
    dsimp only
    split
    · exact Candid.bind (.ofNotes record) following
    · exact (lowerPrimary_candid env _ _ _).bind following

theorem desugar_candid : Candid env desugar env.unit := by
  have rest : Candid env (do
      let unit ← env.unit.rebuild desugarRules
      return { unit with types := ← desugarDecls 0 unit.types }) env.unit :=
    (env.unit.rebuild_candid (desugarRules_candid env)).bind fun unit =>
      (desugarDecls_candid env 0 unit.types).map fun types => ({ unit with types } : CompilationUnit)
  have called : Grows (trigger fun triggers => { triggers with staticUsings := true }) :=
    trigger_grows fun _ => ⟨id, id, fun _ => rfl, id, id⟩
  intro before result after ran unnoted
  unfold desugar at ran
  rw [bind_ok (read_ok env before)] at ran
  dsimp only at ran
  split at ran
  · exact Candid.after called (fun _ => rest) _ _ _ ran unnoted
  · exact rest _ _ _ ran unnoted

/-! ## The passes that are called for -/

theorem localFunctionRules_candid : localFunctionRules.Candid env where
  expr site node kind := .pure _
  stmt site node kind := by
    unfold localFunctionRules
    dsimp only
    split
    · exact .ite (fun _ => .ofNotes (.last fun _ => setStmt_notes)) fun _ => .pure _
    · exact .pure _
  pattern site node kind := .pure _

theorem chainRules_candid : chainRules.Candid env where
  expr site node kind := .pure _
  stmt site node kind := by
    unfold chainRules
    dsimp only
    split
    · exact .ite (fun _ => .ofNotes (.last fun _ => .last fun _ => .last fun _ =>
        splice_notes)) fun _ => .pure _
    · exact .pure _
  pattern site node kind := .pure _

theorem Notes.rethrow {α : Type} {notice : Notice} {action : Pass α}
    {handler : LowerError → Pass α} (notes : Notes notice action)
    (fails : ∀ error, Notes notice (handler error)) : Notes notice (tryCatch action handler) := by
  intro env before result after ran
  rcases tryCatch_eq_ok ran with acted | ⟨error, handled⟩
  · exact notes _ _ _ _ acted
  · exact fails error _ _ _ _ handled

theorem lowerIs_notes {node subject : Expr} {tested : Pattern} :
    Notes .change (lowerIs site node subject tested) := by
  refine .last fun point => .last fun type => ?_
  refine .rethrow (.last fun _ => replace_notes) fun error => .last fun _ => ?_
  rintro env before result after ⟨⟩

theorem lowerBranchTest_candid {node : Stmt} {cond : Expr} {yes : Stmt} {no : Option Stmt} :
    Candid env (lowerBranchTest node cond yes no) [{ node with kind := .ifElse cond yes no }] := by
  unfold lowerBranchTest
  split
  · exact .pure _
  · refine .ofNotes (.last fun _ => ?_)
    dsimp only
    split
    · exact .last fun _ => setStmt_notes
    · exact .last fun _ => setStmt_notes

theorem patternRules_candid : patternRules.Candid env where
  expr site node kind := by
    unfold patternRules
    dsimp only
    split
    · exact .ite (fun _ => .pure _) fun _ => .ofNotes (lowerIs_notes _)
    · exact .pure _
  stmt site node kind := by
    unfold patternRules
    dsimp only
    split
    · exact lowerBranchTest_candid env
    · exact .pure _
  pattern site node kind := .pure _

theorem lowerSwitch_notes {node : Stmt} {subject : Expr} {sections : List Section} :
    Notes .change (lowerSwitch node subject sections) := by
  refine .last fun type => ?_
  dsimp only
  split
  · exact .last fun _ => .last fun _ => setStmt_notes
  · exact .last fun _ => .last fun _ => .last fun _ => .last fun _ => setStmt_notes

theorem switchRules_candid : switchRules.Candid env where
  expr site node kind := .pure _
  stmt site node kind := by
    unfold switchRules
    dsimp only
    split
    · exact .ite (fun _ => .pure _) fun _ => .ofNotes lowerSwitch_notes
    · exact .pure _
  pattern site node kind := .pure _

theorem staticUsings_candid : Candid env staticUsings env.unit := by
  have dropped (unit : CompilationUnit) : Candid env (do
      if unit.usings.any (·.isStatic) then markChanged
      return { unit with usings := unit.usings.filter fun directive => !directive.isStatic })
      unit := by
    split
    · exact .ofNotes (markChanged_notes.first fun _ => .pure)
    · rename_i noStatic
      have kept : unit.usings.filter (fun directive => !directive.isStatic) = unit.usings := by
        simpa using noStatic
      rw [kept]
      exact .pure _
  intro before result after ran unnoted
  unfold staticUsings at ran
  rw [bind_ok (read_ok env before), bind_ok (types_ok env before)] at ran
  exact ((env.unit.rebuild_settles (qualifyRules_settle env _)).candid.bind dropped) _ _ _ ran unnoted

end Pass

theorem PassKind.action_candid {env : PassEnv} (pass : PassKind) :
    Pass.Candid env pass.action env.unit := by
  cases pass with
  | expressionBodies => exact (Pass.expressionBodies_settles env).candid
  | names => exact (Pass.names_settles _ env).candid
  | deconstruction => exact (Pass.deconstruction_settles _ env).candid
  | desugar => exact Pass.desugar_candid env
  | localFunctions => exact Pass.rebuild_candid env (Pass.localFunctionRules_candid env)
  | chainedAssignment => exact Pass.rebuild_candid env (Pass.chainRules_candid env)
  | staticUsings => exact Pass.staticUsings_candid env
  | patterns => exact Pass.rebuild_candid env (Pass.patternRules_candid env)
  | switchLabels => exact Pass.rebuild_candid env (Pass.switchRules_candid env)

/-! ## Runs of passes -/

/-- A pass of a run: the tree it finds, and the analysis that it reads. -/
structure Visit where
  pass : PassKind
  lowering : Lowering
  analyzed : Analyzed

variable {visit : Visit}

namespace Visit

def env (visit : Visit) : PassEnv := visit.analyzed.env visit.pass

def start (visit : Visit) : PassState := visit.analyzed.start visit.lowering.triggers

def outcome (visit : Visit) : Except LowerError Lowering :=
  Lowering.runOn visit.analyzed visit.pass visit.lowering

/-- A pass that notes no change and queues nothing leaves what it found; only what
    it calls for is kept. -/
theorem outcome_of_unnoted {unit : CompilationUnit} {state : PassState}
    (ran : visit.pass.action visit.env visit.start = .ok (unit, state))
    (unnoted : (state.changed || !state.hoists.isEmpty) = false) :
    visit.outcome = .ok { visit.lowering with triggers := state.triggers } := by
  unfold outcome Lowering.runOn Pass.run
  change ((visit.pass.action visit.env visit.start >>= _) >>= _) = _
  rw [ran]
  change ((if (state.changed || !state.hoists.isEmpty) = true then _ else _) >>= _) = _
  rw [unnoted]
  rfl

end Visit

/-- How a run ends that begins with `lowering`: as the last of its passes does. -/
def Lowering.ending (lowering : Lowering) (visits : List Visit) : Except LowerError Lowering :=
  visits.getLast?.elim (.ok lowering) Visit.outcome

namespace Lowering

variable {lowering middle : Lowering} {passes : List PassKind}

/-- The passes that a run goes through, each with what it is given.  The run is over
    with the first pass that fails. -/
def visits : List PassKind → Lowering → List Visit
  | [], _ => []
  | pass :: rest, lowering =>
    let (analyzed, lowering) := lowering.analyze Tree.analyze
    ⟨pass, lowering, analyzed⟩ :: match runOn analyzed pass lowering with
      | .error _ => []
      | .ok next => visits rest next

theorem ending_append {first second : List Visit} (reached : lowering.ending first = .ok middle) :
    lowering.ending (first ++ second) = middle.ending second := by
  unfold ending at reached ⊢
  rw [getLast?_append]
  cases second.getLast? with
  | none => exact reached
  | some last => rfl

theorem ending_cons {rest : List Visit} (reached : visit.outcome = .ok middle) :
    lowering.ending (visit :: rest) = middle.ending rest :=
  @ending_append lowering middle [visit] rest reached

theorem runAll_eq_ending (passes : List PassKind) (lowering : Lowering) :
    (runAll Tree.analyze passes lowering).1 = lowering.ending (visits passes lowering) := by
  induction passes generalizing lowering with
  | nil => rfl
  | cons pass rest ih =>
    let visit : Visit :=
      ⟨pass, (lowering.analyze Tree.analyze).2, (lowering.analyze Tree.analyze).1⟩
    have found : visits (pass :: rest) lowering = visit :: match visit.outcome with
        | .error _ => []
        | .ok next => visits rest next := rfl
    have ran : (runAll Tree.analyze (pass :: rest) lowering).1 = match visit.outcome with
        | .error error => .error error
        | .ok next => (runAll Tree.analyze rest next).1 := by
      change (match visit.outcome with
        | .error error => (Except.error error, _)
        | .ok next => runAll Tree.analyze rest next).1 = _
      cases visit.outcome <;> rfl
    rw [ran, found]
    cases outcome : visit.outcome with
    | error error => exact outcome.symm
    | ok next =>
      rw [ending_cons outcome]
      exact ih next

theorem visits_coherent (coherent : lowering.Coherent) (isVisit : visit ∈ visits passes lowering) :
    visit.analyzed = visit.lowering.tree.analyze := by
  induction passes generalizing lowering with
  | nil => cases isVisit
  | cons pass rest ih =>
    unfold visits at isVisit
    rw [analyze_eq coherent] at isVisit
    rcases mem_cons.1 isVisit with rfl | isLater
    · rfl
    · split at isLater
      · cases isLater
      · rename_i next ran
        exact ih (runOn_coherent (fun other isOther => (Option.some.inj isOther).symm) ran) isLater

theorem runAll_coherent (coherent : lowering.Coherent)
    (ran : (runAll Tree.analyze passes lowering).1 = .ok middle) : middle.Coherent := by
  induction passes generalizing lowering with
  | nil =>
    cases ran
    exact coherent
  | cons pass rest ih =>
    obtain ⟨_, next, _, _, _, nextCoherent, ranRest⟩ := runAll_cons coherent ran
    exact ih nextCoherent ranRest

end Lowering

/-- The passes that lowering a tree goes through: the standing ones, and where all
    of them succeed those that they call for. -/
def Tree.visits (tree : Tree) : List Visit :=
  Lowering.visits PassKind.always { tree } ++
    match (Lowering.runAll Tree.analyze PassKind.always { tree }).1 with
    | .error _ => []
    | .ok lowering => Lowering.visits lowering.triggers.plan lowering

/-- Lowering a tree ends as the last pass it goes through; what that leaves is
    checked. -/
theorem Tree.lower_eq_ending (tree : Tree) :
    tree.lower = (do
      let lowering ← Lowering.ending { tree } tree.visits
      lowering.tree.unit.validate
      return lowering.tree) := by
  unfold Tree.lower Tree.lowerTraced Tree.lowerTracedWith Tree.visits
  have standing := Lowering.runAll_eq_ending PassKind.always { tree }
  cases ran : Lowering.runAll Tree.analyze PassKind.always { tree } with
  | mk result history =>
    rw [ran] at standing
    cases result with
    | error error =>
      rw [append_nil, ← standing]
      rfl
    | ok middle =>
      have planned := Lowering.runAll_eq_ending middle.triggers.plan middle
      rw [Lowering.ending_append standing.symm, ← planned]
      dsimp only
      cases Lowering.runAll Tree.analyze middle.triggers.plan middle with
      | mk result history =>
        cases result with
        | error error => rfl
        | ok final =>
          change Except.map _ final.tree.unit.validate = final.tree.unit.validate >>= _
          cases final.tree.unit.validate <;> rfl

/-- Every pass that lowering goes through is given the analysis of the tree it finds. -/
theorem Tree.visits_coherent {tree : Tree} (isVisit : visit ∈ tree.visits) :
    visit.analyzed = visit.lowering.tree.analyze := by
  have fresh : Lowering.Coherent { tree } := by
    intro analyzed isSome
    cases isSome
  rcases mem_append.1 isVisit with isStanding | isPlanned
  · exact Lowering.visits_coherent fresh isStanding
  · split at isPlanned
    · cases isPlanned
    · rename_i middle ran
      exact Lowering.visits_coherent (Lowering.runAll_coherent fresh ran) isPlanned

/-- A tree is lowered pass by pass.  Each pass reads the analysis of the tree that
    it finds, and a unit that is dropped because its pass notes no change and queues
    nothing is the unit that the pass was given. -/
theorem Tree.lower_drops_no_edit (tree : Tree) :
    (tree.lower = do
      let lowering ← Lowering.ending { tree } tree.visits
      lowering.tree.unit.validate
      return lowering.tree) ∧
    ∀ visit ∈ tree.visits,
      visit.analyzed = visit.lowering.tree.analyze ∧
      visit.env.view =
        visit.env.unit.analyze visit.analyzed.nextId visit.analyzed.tree.vocabulary ∧
      ∀ unit state, visit.pass.action visit.env visit.start = .ok (unit, state) →
        (state.changed || !state.hoists.isEmpty) = false →
          unit = visit.env.unit ∧
            visit.outcome = .ok { visit.lowering with triggers := state.triggers } := by
  refine ⟨tree.lower_eq_ending, fun visit isVisit => ?_⟩
  have current := Tree.visits_coherent isVisit
  refine ⟨current, ?_, fun unit state ran unnoted => ?_⟩
  · change visit.analyzed.view = visit.analyzed.tree.unit.analyze _ _
    rw [current]
    rfl
  · have unchanged : state.changed = false := (Bool.or_eq_false_iff.1 unnoted).1
    have same := PassKind.action_candid visit.pass visit.start unit state ran unchanged
    exact ⟨same.2, Visit.outcome_of_unnoted ran unnoted⟩

def Visit.isUnnoted (visit : Visit) : Bool :=
  match visit.pass.action visit.env visit.start with
  | .ok (_, state) => !(state.changed || !state.hoists.isEmpty)
  | .error _ => false

/-- Desugaring leaves a test of a type alone; its unit is dropped, but not that it
    calls for the pass that lowers tests. -/
theorem lower_drops_no_edit_arrowTest :
    ∃ visit ∈ arrowTest.visits, visit.pass = .desugar ∧
      visit.analyzed = visit.lowering.tree.analyze ∧
      ∃ unit state, visit.pass.action visit.env visit.start = .ok (unit, state) ∧
        unit = visit.env.unit ∧
          visit.outcome = .ok { visit.lowering with triggers := state.triggers } := by
  have found : (arrowTest.visits.any fun visit =>
      visit.pass == .desugar && visit.isUnnoted) = true := by decide +kernel
  obtain ⟨visit, isVisit, holds⟩ := List.any_eq_true.1 found
  obtain ⟨isDesugar, unnoted⟩ := Bool.and_eq_true_iff.1 holds
  obtain ⟨current, _, dropped⟩ := (Tree.lower_drops_no_edit arrowTest).2 visit isVisit
  unfold Visit.isUnnoted at unnoted
  split at unnoted
  · rename_i unit state ran
    have quiet : (state.changed || !state.hoists.isEmpty) = false := by simpa using unnoted
    exact ⟨visit, isVisit, eq_of_beq isDesugar, current, unit, state, ran,
      dropped unit state ran quiet⟩
  · cases unnoted

end Unsugar
