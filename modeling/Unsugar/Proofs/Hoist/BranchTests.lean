import Unsugar.Proofs.Hoist.BranchScopes
import Unsugar.Proofs.Hoist.VisibleLocals
import Unsugar.Proofs.Switch.InstalledJumps

open List

namespace Unsugar

/-! # Names in lowered tests

What a name means after the tests of a unit are lowered is told by where it comes from:
the variable of `if (x is T name)` is declared in the branch, everything else stays
where it was or is put together again from copies.
-/

open Node

variable {results : List Stmt} {designated : String} {taken : Stmt} {unit : CompilationUnit}

/-- What an occurrence of the name may come from: one in front of the lowering, or a test,
    which sets variables and temporaries. -/
inductive Node.Names (name : String) : Node → Prop where
  | itself {mark : Mark} : Node.Names name (expr ⟨mark, .ident name⟩)
  | test {mark : Mark} {subject : Expr} {tested : Pattern} :
      Node.Names name (expr ⟨mark, .isPattern subject tested⟩)

variable {origin : Node} {tested : Pattern} {mark : Mark} {name : String} {subject : Expr}
  {read : Expr}

/-! ## Tracing occurrences back -/

/-- How occurrences are told, and how what they mean is related to what the name is going
    to mean where they come from. -/
structure Tracing where
  cover : Cover
  /-- What may be inserted in the lowered unit. -/
  others : Cover → Prop
  /-- Occurrences are told by their identities, and copies, which have none, are not traced. -/
  byId : Bool
  means : Binding → Binding → Prop

def Tracing.traces (tracing : Tracing) (mark : Mark) : Prop :=
  tracing.byId = true → mark.id ≠ none

def Tracing.tells (tracing : Tracing) (source mark : Mark) : Prop :=
  if tracing.byId then source.id = mark.id else source.span = mark.span

theorem Tracing.tells_self (tracing : Tracing) (mark : Mark) : tracing.tells mark mark := by
  unfold tells
  split <;> rfl

def Tracing.exact (cover : Cover) : Tracing where
  cover
  others other := other = cover
  byId := true
  means := Eq

/-- What means no local comes from where the name means no local, and so does a copy, which
    has the span of what it is a copy of. -/
def Tracing.free : Tracing where
  cover := {}
  others _ := True
  byId := false
  means := Looser

def SameStmts (name : String) (node result : Node) : Prop :=
  ∀ before after, node = stmt before → result = stmt after →
    after.mark = before.mark ∧ after.declaresName name = before.declaresName name

/-- Tracing that goes on through statements that stay and through copies. -/
structure Tracing.Sound (tracing : Tracing) (wrapped : List Nat) (name : String) : Prop where
  made : tracing.means .made .made
  entered (other : Cover) (mark : Mark) (left right : Binding) : tracing.others other →
    tracing.means left right →
      tracing.means (tracing.cover.entered mark left) (other.entered mark right)
  passes (other : Cover) : tracing.others other →
    PassesOn tracing.cover other wrapped wrapped name tracing.means (SameStmts name)
  copies : tracing.byId = false → tracing.others {} ∧
    ∀ first second third, tracing.means first second → Looser second third →
      tracing.means first third

namespace SameStmts

variable {name : String} {node result : Stmt} (same : SameStmts name (stmt node) (stmt result))

include same

theorem ahead? (cover : Cover) (listed : Bool) (binding : Binding) :
    cover.ahead? listed result binding = cover.ahead? listed node binding := by
  unfold Cover.ahead? Stmt.id
  rw [(same node result rfl rfl).1]

theorem rebinds (wrapped : List Nat) (binding : Binding) :
    result.rebinds wrapped name binding = node.rebinds wrapped name binding := by
  obtain ⟨sameMark, sameName⟩ := same node result rfl rfl
  unfold Stmt.rebinds Stmt.id
  rw [sameMark, sameName]

end SameStmts

theorem Looser.ite {here : Bool} {left right : Binding} (looser : Looser left right) :
    Looser left (if here then .made else right) := by
  cases here
  · exact looser
  · exact nofun

theorem Tracing.exact_sound {cover : Cover} {wrapped : List Nat} {name : String} :
    (Tracing.exact cover).Sound wrapped name where
  made := rfl
  entered other mark left right isCover same := by
    obtain rfl : other = cover := isCover
    exact congrArg (other.entered mark) same
  passes other isCover := by
    obtain rfl : other = cover := isCover
    refine ⟨fun node result sameStmts listed left right same => ?_,
      fun node result sameStmts left right same => ?_, fun label left right same => ?_⟩
    · rw [sameStmts.ahead?]
      exact congrArg (other.ahead? listed node) same
    · rw [sameStmts.rebinds]
      exact congrArg (node.rebinds wrapped name) same
    · exact congrArg (fun binding => if label.any other.inside.contains then .made else binding) same
  copies := nofun

theorem Tracing.free_sound {wrapped : List Nat} {name : String} :
    Tracing.free.Sound wrapped name where
  made := nofun
  entered other mark left right _ looser := by
    change Looser (({} : Cover).entered mark left) (other.entered mark right)
    rw [Cover.entered_nothing]
    exact looser.ite
  passes other _ := by
    refine ⟨fun node result sameStmts listed left right looser => ?_,
      fun node result sameStmts left right looser => ?_, fun label left right looser => ?_⟩
    · change Looser (({} : Cover).ahead? listed node left) (other.ahead? listed result right)
      rw [Cover.ahead?_nothing]
      exact looser.ite
    · rw [sameStmts.rebinds]
      unfold Stmt.rebinds
      split
      · exact id
      · exact looser
    · change Looser (if label.any ([] : List Nat).contains then .made else left) _
      cases label <;> exact looser.ite
  copies _ := ⟨trivial, fun _ _ _ first second isFree => first (second isFree)⟩

section Keeps

variable (tracing : Tracing) (wrapped : List Nat) (name : String)

/-- An occurrence that means `found` comes from somewhere in a node, where the name
    means `binding`. -/
def Tracing.Explains (mark : Mark) (found binding : Binding) (node : Node) : Prop :=
  ∃ (origin : Node) (original : Binding), origin.Names name ∧ tracing.tells origin.mark mark ∧
    origin.StandsIn tracing.cover wrapped name original binding node ∧ tracing.means original found

/-- Every occurrence in a result that is traced comes from somewhere in the node. -/
def Tracing.Keeps (node result : Node) : Prop :=
  ∀ (other : Cover) (mark : Mark) (found left right : Binding), tracing.others other →
    tracing.traces mark → tracing.means left right → result.Finds other wrapped name mark found right →
      tracing.Explains wrapped name mark found left node

end Keeps

theorem Tracing.Explains.through {tracing : Tracing} {wrapped : List Nat}
    {found binding between : Binding} {node child : Node}
    (explains : tracing.Explains wrapped name mark found between child)
    (isPlaced : (between, child) ∈ node.tested tracing.cover wrapped name binding) :
    tracing.Explains wrapped name mark found binding node := by
  obtain ⟨origin, original, names, tells, stands, same⟩ := explains
  exact ⟨origin, original, names, tells, .through isPlaced stands, same⟩

namespace Tracing.Keeps

variable {tracing : Tracing} {wrapped : List Nat} {name : String} {node result : Node}

theorem ofPlaces
    (here : ∀ mark, result = expr ⟨mark, .ident name⟩ → node = expr ⟨mark, .ident name⟩)
    (alike : ∀ (other : Cover) (left right : Binding), tracing.others other →
      tracing.means left right → Forall₂ (PlacedAlike tracing.means (tracing.Keeps wrapped name))
        (node.tested tracing.cover wrapped name left) (result.placed other wrapped name right)) :
    tracing.Keeps wrapped name node result := by
  intro other mark found left right isOther traced same finds
  cases finds with
  | here =>
    obtain rfl := here mark rfl
    exact ⟨_, left, .itself, tracing.tells_self mark, .here, same⟩
  | through isPlaced finds =>
    obtain ⟨⟨between, child⟩, isChild, same, keeps⟩ :=
      exists_left (alike other left right isOther same) isPlaced
    exact (keeps _ _ _ _ _ isOther traced same finds).through isChild

theorem part {child : Node} (keeps : tracing.Keeps wrapped name node result)
    (isPart : ∀ (other : Cover) binding, (binding, child) ∈ result.placed other wrapped name binding) :
    tracing.Keeps wrapped name node child :=
  fun other mark found left right isOther traced same finds =>
    keeps other mark found left right isOther traced same (.through (isPart other right) finds)

theorem compared {value : Expr} (compares : tested.Compares value)
    (keeps : tracing.Keeps wrapped name node (pattern tested)) :
    tracing.Keeps wrapped name node (expr value) := by
  induction compares with
  | @itself node value isChild =>
    obtain ⟨mark, kind⟩ := node
    exact keeps.part fun _ binding => mem_map_of_mem isChild
  | @inside node inner value isChild _ ih =>
    obtain ⟨mark, kind⟩ := node
    exact ih (keeps.part fun _ binding => mem_map_of_mem isChild)

theorem copied (sound : tracing.Sound wrapped name) {part : Expr}
    (keeps : tracing.Keeps wrapped name node (expr part))
    (site : Site) : tracing.Keeps wrapped name node (expr (part.rebuilt Rules.forget site)) := by
  intro other mark found left right _ traced same finds
  obtain ⟨source, original, rfl, finds, looser⟩ :=
    part.copiedTo_rebuilt.finds other mark found right right id finds
  have bySpan : tracing.byId = false := Bool.eq_false_iff.2 fun byId => traced byId rfl
  obtain ⟨isOther, through⟩ := sound.copies bySpan
  obtain ⟨origin, first, names, tells, stands, same⟩ :=
    keeps {} source original left right isOther (by simp [traces, bySpan]) same finds
  refine ⟨origin, first, names, ?_, stands, through _ _ _ same looser⟩
  simpa [Tracing.tells, bySpan, Span.mark] using tells

theorem madeOf {given : Expr → Prop} {cond : Expr}
    (made : cond.MadeOf given fun span _ => span = mark.span)
    (parts : ∀ part, given part →
      tracing.Keeps wrapped name (expr ⟨mark, .isPattern subject tested⟩) (expr part)) :
    tracing.Keeps wrapped name (expr ⟨mark, .isPattern subject tested⟩)
      (expr (Expr.replaceBy ⟨mark, .isPattern subject tested⟩ cond)) := by
  intro other inner found left right isOther traced same finds
  have ofTest (tells : tracing.tells mark inner) (isFound : right = found) :
      tracing.Explains wrapped name inner found left (expr ⟨mark, .isPattern subject tested⟩) :=
    ⟨_, left, .test, tells, .here, isFound ▸ same⟩
  -- the condition as a whole takes the identity of the test over and keeps its own span
  obtain ⟨outer, kind⟩ := cond
  obtain ⟨source, sameSpan, inCond, kept⟩ : ∃ source : Mark, source.span = inner.span ∧
      (expr ⟨outer, kind⟩).Finds other wrapped name source found right ∧
        (source = inner ∨ inner.id = mark.id ∧ right = found) := by
    rcases Node.finds_expr.1 finds with ⟨isName, rfl, rfl⟩ | inPlaces
    · exact ⟨outer, rfl, Node.finds_expr.2 (.inl ⟨isName, rfl, rfl⟩), .inr ⟨rfl, rfl⟩⟩
    · exact ⟨inner, rfl, Node.finds_expr.2 (.inr inPlaces), .inl rfl⟩
  cases byId : tracing.byId with
  | true =>
    rcases kept with rfl | ⟨sameId, isFound⟩
    · rcases made.finds inCond with ⟨part, isGiven, inPart⟩ | ⟨span, rfl, -⟩
      · exact parts part isGiven _ _ _ _ _ isOther traced same inPart
      · exact absurd rfl (traced byId)
    · exact ofTest (by simp [Tracing.tells, byId, sameId]) isFound
  | false =>
    rcases made.finds inCond with ⟨part, isGiven, inPart⟩ | ⟨span, rfl, isSpan, isFound⟩
    · obtain ⟨origin, original, names, tells, explained⟩ :=
        parts part isGiven _ _ _ _ _ isOther (by simp [traces, byId]) same inPart
      refine ⟨origin, original, names, ?_, explained⟩
      simpa [Tracing.tells, byId, sameSpan] using tells
    · exact ofTest (by simp [Tracing.tells, byId, ← sameSpan, ← isSpan, Span.mark]) isFound

end Tracing.Keeps

/-! ## Lowered tests -/

namespace Pass

variable {env : PassEnv} {before after : PassState}

theorem lowerIs_ok {site : Site} {node subject result : Expr}
    (ran : lowerIs site node subject tested env before = .ok (result, after)) :
    ∃ (point : InstallPoint) (type : Ty) (cond : Expr) (first last : PassState),
      patternCondition point node.span { expr := subject, type, source := some subject } tested
        env first = .ok (cond, last) ∧ result = node.replaceBy cond := by
  unfold lowerIs at ran
  obtain ⟨point, middle, _, ran⟩ := bind_eq_ok ran
  obtain ⟨type, typed, _, ran⟩ := bind_eq_ok ran
  rcases tryCatch_eq_ok ran with acted | ⟨error, raised⟩
  · obtain ⟨cond, last, lowered, replaced⟩ := bind_eq_ok acted
    cases replaced
    exact ⟨point, type, cond, typed, last, lowered, rfl⟩
  · cases raised

theorem lowerBranchTest_ok {node : Stmt} {cond subject : Expr} {type : TypeSyntax} {yes : Stmt}
    {no : Option Stmt}
    (isTest : declarationTest? cond = some (subject, tested, type, name))
    (ran : lowerBranchTest node cond yes no env before = .ok (results, after)) :
    ∃ written, results = [⟨node.mark, .ifElse (cond.span.typeTest subject.forget type)
      (yes.span.block
        [cond.span.declare written name (some (cond.span.cast type subject.forget)), yes]) no⟩] := by
  unfold lowerBranchTest at ran
  rw [isTest] at ran
  dsimp only at ran
  rw [bind_ok (view_ok env before)] at ran
  generalize Option.filter _ _ = known at ran
  cases known with
  | none =>
    cases ran
    exact ⟨type, rfl⟩
  | some declared =>
    obtain ⟨written, _, _, ran⟩ := bind_eq_ok ran
    cases ran
    exact ⟨written, rfl⟩

end Pass

/-! ## What becomes of nodes -/

theorem Expr.ne_isPattern_rebuilt {node : Expr}
    (other : ∀ subject tested, node.kind ≠ .isPattern subject tested) {site : Site}
    (subject : Expr) {tested : Pattern} :
    (node.rebuilt Rules.forget site).kind ≠ .isPattern subject tested := by
  obtain ⟨mark, kind⟩ := node
  cases kind with
  | isPattern inner pattern => exact absurd rfl (other inner pattern)
  | _ => exact nofun

section Follows

variable (tracing : Tracing) (wrapped : List Nat) (name : String)

structure Expr.Follows (site : Site) (node result : Expr) : Prop where
  keeps : tracing.Keeps wrapped name (expr node) (expr result)
  simple : node.isSimple = true → result.isSimple = true
  branch : Pass.isBranchTest site node = true → result.designates? = node.designates?
  lowered : Pass.isBranchTest site node = false →
    ∀ subject tested, result.kind ≠ .isPattern subject tested

structure Stmt.Follows (node result : Stmt) : Prop where
  keeps : tracing.Keeps wrapped name (stmt node) (stmt result)
  mark : result.mark = node.mark
  declares : result.declaresName name = node.declaresName name

structure Pattern.Follows (node result : Pattern) : Prop where
  keeps : tracing.Keeps wrapped name (pattern node) (pattern result)
  declaration (type : TypeSyntax) (designated : String) :
    node.kind = .declaration type designated → result.kind = .declaration type designated
  values (value : Expr) : result.Compares value →
    ∀ subject tested, value.kind ≠ .isPattern subject tested

def Node.Follows (site : Site) : Node → Node → Prop
  | expr node, expr result => node.Follows tracing wrapped name site result
  | stmt node, stmt result => node.Follows tracing wrapped name result
  | pattern node, pattern result => node.Follows tracing wrapped name result
  | _, _ => False

end Follows

section Rules

variable {tracing : Tracing} {wrapped : List Nat} {name : String}
  {cond result node : Expr} {no : Option Stmt} {site : Site} {yes : Stmt} {kind : ExprKind}
  {after before : PassState} {env : PassEnv}

theorem Expr.designates?_eq_none (other : ∀ subject tested, cond.kind ≠ .isPattern subject tested) :
    cond.designates? = none := by
  obtain ⟨mark, kind⟩ := cond
  cases kind with
  | isPattern subject tested => exact absurd rfl (other subject tested)
  | _ => rfl

theorem Expr.Follows.designates (follows : cond.Follows tracing wrapped name
      (site.below (stmt ⟨mark, .ifElse cond yes no⟩)) result) :
    result.designates? = cond.designates? := by
  have isBranch : Pass.isBranchTest (site.below (stmt ⟨mark, .ifElse cond yes no⟩)) cond =
      (Pass.declarationTest? cond).isSome := by
    simp [Pass.isBranchTest, Site.parent?, Site.below]
  cases isTest : Pass.declarationTest? cond with
  | some test => exact follows.branch (by rw [isBranch, isTest]; rfl)
  | none =>
    rw [Expr.designates?_eq_none (follows.lowered (by rw [isBranch, isTest]; rfl)),
      Expr.designates?, isTest]
    rfl

theorem Node.Follows.keeps {node result : Node}
    (follows : node.Follows tracing wrapped name site result) :
    tracing.Keeps wrapped name node result := by
  cases node <;> cases result
  all_goals first
    | exact False.elim follows
    | exact Expr.Follows.keeps follows
    | exact Stmt.Follows.keeps follows
    | exact Pattern.Follows.keeps follows

theorem follows_keep {places results : List (Binding × Node)}
    (alike : Forall₂ (PlacedAlike tracing.means (Node.Follows tracing wrapped name site))
      places results) :
    Forall₂ (PlacedAlike tracing.means (tracing.Keeps wrapped name)) places results :=
  alike.imp fun _ _ ⟨same, follows⟩ => ⟨same, follows.keeps⟩

theorem isBranchTest_below_expr {site : Site} {node child : Expr} :
    Pass.isBranchTest (site.below (expr node)) child = false := rfl

theorem isBranchTest_below_pattern {site : Site} {node : Pattern} {child : Expr} :
    Pass.isBranchTest (site.below (pattern node)) child = false := rfl

variable (sound : tracing.Sound wrapped name)

include sound

theorem Tracing.Sound.follows (site : Site) (other : Cover) (isOther : tracing.others other) :
    PassesOn tracing.cover other wrapped wrapped name tracing.means
      (Node.Follows tracing wrapped name site) := by
  have passes := sound.passes other isOther
  have stays (node result : Stmt)
      (follows : Node.Follows tracing wrapped name site (stmt node) (stmt result)) :
      SameStmts name (stmt node) (stmt result) := by
    rintro _ _ ⟨⟩ ⟨⟩
    exact ⟨Stmt.Follows.mark follows, Stmt.Follows.declares follows⟩
  exact ⟨fun node result follows => passes.ahead node result (stays node result follows),
    fun node result follows => passes.rebinds node result (stays node result follows),
    passes.inside⟩

theorem Expr.keeps_kept (related : node.kind.Related (Node.Follows tracing wrapped name site) kind) :
    tracing.Keeps wrapped name (expr node) (expr ⟨node.mark, kind⟩) := by
  obtain ⟨mark, original⟩ := node
  refine .ofPlaces (fun other isName => ?_) fun other left right isOther same => ?_
  · cases related with
    | alone =>
      cases isName
      rfl
    | other _ stays =>
      cases isName
      cases stays
    | _ => cases isName
  · exact follows_keep ((sound.follows site other isOther).expr related same)

theorem Stmt.keeps_kept {node : Stmt} {kind : StmtKind}
    (plain : ∀ cond yes no, node.kind = .ifElse cond yes no → cond.designates? = none)
    (related : node.kind.Related (Node.Follows tracing wrapped name site) kind) :
    node.Follows tracing wrapped name ⟨node.mark, kind⟩ := by
  obtain ⟨mark, original⟩ := node
  refine ⟨.ofPlaces nofun fun other left right isOther same => ?_, rfl, related.declaresName⟩
  have notBranch (other : Mark) (cond : Expr) (yes : Stmt) (no : Option Stmt)
      (isIf : stmt ⟨mark, original⟩ = stmt ⟨other, .ifElse cond yes no⟩) :
      cond.designates? = none := by
    cases isIf
    exact plain cond yes no rfl
  rw [Node.tested_eq_placed notBranch]
  exact follows_keep ((sound.follows site other isOther).stmt related
    (sound.entered other mark left right isOther same))

omit sound in
theorem Expr.simple_kept (related : node.kind.Related (Node.Follows tracing wrapped name site) kind)
    (isSimple : node.isSimple = true) : Expr.isSimple ⟨node.mark, kind⟩ = true := by
  obtain ⟨mark, original⟩ := node
  cases related with
  | alone => exact isSimple
  | @paren inner result isInner =>
    obtain ⟨_, inner⟩ := inner
    obtain ⟨_, result⟩ := result
    have simple : Expr.isSimple ⟨_, result⟩ = true := Expr.Follows.simple isInner isSimple
    exact simple
  | lambda | test => exact absurd isSimple Bool.false_ne_true
  | other isOther =>
    cases original <;> first | exact absurd isSimple Bool.false_ne_true | cases isOther

theorem Expr.keeps_lowered (isTest : ∃ first second, node.kind = .isPattern first second)
    (keeps : tracing.Keeps wrapped name (expr node) (expr ⟨node.mark, .isPattern subject tested⟩))
    (notTest : ∀ first second, subject.kind ≠ .isPattern first second)
    (values : ∀ value, tested.Compares value → ∀ first second, value.kind ≠ .isPattern first second)
    (ran : Pass.lowerIs site node subject tested env before = .ok (result, after)) :
    tracing.Keeps wrapped name (expr node) (expr result) ∧
      ∀ first second, result.kind ≠ .isPattern first second := by
  obtain ⟨point, type, cond, first, last, lowered, rfl⟩ := Pass.lowerIs_ok ran
  obtain ⟨mark, original⟩ := node
  obtain ⟨original, pattern, rfl⟩ := isTest
  -- the condition is made of the subject, of copies of it, and of values of the pattern
  let given (part : Expr) : Prop :=
    tracing.Keeps wrapped name (expr ⟨mark, .isPattern original pattern⟩) (expr part) ∧
      ∀ first second, part.kind ≠ .isPattern first second
  have allows : Pass.Allows given given (fun span _ => span = mark.span) mark.span :=
    ⟨fun _ isGiven => isGiven, fun part site ⟨keeps, other⟩ =>
      ⟨keeps.copied sound site, part.ne_isPattern_rebuilt other⟩, fun _ => rfl⟩
  have inTested := keeps.part fun _ _ => mem_cons_of_mem _ mem_cons_self
  have made : cond.MadeOf given fun span _ => span = mark.span :=
    Pass.patternCondition_made point _ allows
      (.given ⟨keeps.part fun _ _ => mem_cons_self, notTest⟩)
      ⟨fun value compares => ⟨inTested.compared compares, values value compares⟩,
        fun _ _ _ => rfl⟩ env first cond last lowered
  exact ⟨.madeOf made fun part isGiven => isGiven.1, made.ne_isPattern fun part isGiven => isGiven.2⟩

section Finds

variable {cover : Cover} {mark : Mark} {found binding : Binding} {span : Span} {type : TypeSyntax}

omit sound

theorem Node.finds_typeTest :
    (expr (span.typeTest read type)).Finds cover wrapped name mark found binding ↔
      (expr read).Finds cover wrapped name mark found binding := by
  simp [Span.typeTest, Span.expr, Node.finds_expr, ExprKind.placed, ExprKind.children]

/-- A local that is declared in front of a statement means that local there. -/
theorem Node.finds_declaredBlock {outer : Span} {written : TypeSyntax} :
    (stmt (outer.block [span.declare written designated (some (span.cast type read)), taken])).Finds
        cover wrapped name mark found binding ↔
      (expr read).Finds cover wrapped name mark found binding ∨
        (stmt taken).Finds cover wrapped name mark found
          (cover.ahead? true taken (if designated == name then .made else binding)) := by
  have noId : (span.declare written designated (some (span.cast type read))).id = none := rfl
  simp only [Span.block, Span.stmt, Node.finds_stmt, StmtKind.placed, Cover.inOrder, findsIn_cons,
    findsIn_nil, or_false]
  rw [Stmt.rebinds_made noId]
  simp [Span.declare, Span.stmt, Span.cast, Span.expr, Node.finds_stmt, StmtKind.placed,
    StmtKind.children, Node.finds_expr, ExprKind.placed, ExprKind.children, Cover.entered, Span.mark,
    Cover.ahead?, Stmt.id, Stmt.declaresName]

theorem Node.finds_ifElse {outer : Mark} {cond : Expr} {yes : Stmt} {no : Option Stmt} :
    (stmt ⟨outer, .ifElse cond yes no⟩).Finds cover wrapped name mark found binding ↔
      (expr cond).Finds cover wrapped name mark found (cover.entered outer binding) ∨
        (stmt yes).Finds cover wrapped name mark found (cover.entered outer binding) ∨
          FindsIn cover wrapped name mark found
            ((ofStmt? no).map (Prod.mk (cover.entered outer binding))) := by
  simp [Node.finds_stmt, StmtKind.placed, StmtKind.children]

end Finds

theorem Stmt.keeps_branch {span : Span} {type written : TypeSyntax} {untaken : Option Stmt}
    (designates : cond.designates? = some designated)
    (keeps : tracing.Keeps wrapped name (expr cond) (expr read))
    (isYes : yes.Follows tracing wrapped name taken)
    (isNo : Forall₂ (Node.Follows tracing wrapped name site) (ofStmt? no) (ofStmt? untaken)) :
    tracing.Keeps wrapped name (stmt ⟨mark, .ifElse cond yes no⟩)
      (stmt ⟨mark, .ifElse (span.typeTest read type) (taken.span.block
        [span.declare written designated (some (span.cast type read)), taken]) untaken⟩) := by
  intro other inner found left right isOther traced same finds
  have here := sound.entered other mark left right isOther same
  have atCond (inRead : (expr read).Finds other wrapped name inner found (other.entered mark right)) :
      tracing.Explains wrapped name inner found left (stmt ⟨mark, .ifElse cond yes no⟩) :=
    (keeps _ _ _ _ _ isOther traced here inRead).through mem_cons_self
  rcases Node.finds_ifElse.1 finds with inTest | inBlock | inElse
  · exact atCond (Node.finds_typeTest.1 inTest)
  · rcases Node.finds_declaredBlock.1 inBlock with inRead | inTaken
    · exact atCond inRead
    · -- the block declares the variable, then what is queued for the branch is inserted
      have inBranch : tracing.means
          (tracing.cover.inBranch name cond yes (tracing.cover.entered mark left))
          (other.ahead? true taken (if designated == name then .made else other.entered mark right)) := by
        unfold Cover.inBranch
        rw [designates]
        exact (sound.follows site other isOther).ahead yes taken isYes true _ _
          (ite_made_alike sound.made here)
      exact (isYes.keeps _ _ _ _ _ isOther traced inBranch inTaken).through
        (mem_cons_of_mem _ mem_cons_self)
  · obtain ⟨place, isPlace, finds⟩ := inElse
    obtain ⟨child, isChild, rfl⟩ := mem_map.1 isPlace
    obtain ⟨original, isOriginal, follows⟩ := exists_left isNo isChild
    exact (follows.keeps _ _ _ _ _ isOther traced here finds).through
      (mem_cons_of_mem _ (mem_cons_of_mem _ (mem_map_of_mem isOriginal)))

omit sound in
theorem isBranchTest_isSome (isBranch : Pass.isBranchTest site node = true) :
    (Pass.declarationTest? node).isSome = true := by
  unfold Pass.isBranchTest at isBranch
  split at isBranch
  · exact (Bool.and_eq_true_iff.1 isBranch).2
  · cases isBranch

theorem Expr.follows_kept
    (related : node.kind.Related (Node.Follows tracing wrapped name (site.below (expr node))) kind)
    (stays : Pass.isBranchTest site node = true ∨ ∀ subject tested, kind ≠ .isPattern subject tested) :
    node.Follows tracing wrapped name site ⟨node.mark, kind⟩ where
  keeps := Expr.keeps_kept sound related
  simple := Expr.simple_kept related
  branch isBranch := by
    obtain ⟨mark, original⟩ := node
    obtain ⟨test, isTest⟩ := Option.isSome_iff_exists.1 (isBranchTest_isSome isBranch)
    obtain ⟨subject, tested, written, designated⟩ := test
    obtain ⟨_, inner, same, rfl, isSimple⟩ := Pass.declarationTest?_eq_some isTest
    cases same
    cases related with
    | @test _ result _ lowered isSubject isTested =>
      -- the pattern is kept and the subject stays simple, so it is still the same test
      have simple : result.isSimple = true := Expr.Follows.simple isSubject isSimple
      have declares : lowered.kind = .declaration written designated :=
        Pattern.Follows.declaration isTested _ _ rfl
      obtain ⟨_, lowered⟩ := lowered
      subst declares
      unfold Expr.designates? Pass.declarationTest?
      simp only [simple, isSimple, Bool.and_true]
      split <;> rfl
    | alone isAlone => cases isAlone
    | other isOther => cases isOther
  lowered notBranch := by
    rcases stays with isBranch | other
    · exact absurd isBranch (by simp [notBranch])
    · exact other

omit sound in
theorem Pattern.follows_kept {node : Pattern} {kind : PatternKind} (related : node.kind.Related
      (Node.Follows tracing wrapped name (site.below (pattern node))) kind) :
    node.Follows tracing wrapped name ⟨node.mark, kind⟩ where
  keeps := by
    obtain ⟨mark, original⟩ := node
    exact .ofPlaces nofun fun other left right _ same =>
      follows_keep (placedAlike same related.children)
  declaration type designated isDeclaration := by
    obtain ⟨mark, original⟩ := node
    subst isDeclaration
    cases related with
    | alone => rfl
    | other isOther => cases isOther
  values value compares := by
    cases compares with
    | itself isChild =>
      obtain ⟨child, _, follows⟩ := exists_left related.children isChild
      cases child with
      | expr original =>
        exact Expr.Follows.lowered follows isBranchTest_below_pattern
      | stmt | pattern => exact follows.elim
    | inside isChild compares =>
      obtain ⟨child, _, follows⟩ := exists_left related.children isChild
      cases child with
      | pattern original => exact Pattern.Follows.values follows value compares
      | expr | stmt => exact follows.elim

theorem Expr.follows_lowered (notBranch : Pass.isBranchTest site node = false)
    (related : node.kind.Related (Node.Follows tracing wrapped name (site.below (expr node)))
      (.isPattern subject tested))
    (ran : Pass.lowerIs site node subject tested env before = .ok (result, after)) :
    node.Follows tracing wrapped name site result := by
  have keeps := Expr.keeps_kept sound related
  obtain ⟨mark, original⟩ := node
  cases related with
  | @test original _ pattern _ isSubject isTested =>
    have inSubject : ∀ first second, subject.kind ≠ .isPattern first second :=
      Expr.Follows.lowered isSubject isBranchTest_below_expr
    obtain ⟨keeps, lowered⟩ := Expr.keeps_lowered sound ⟨_, _, rfl⟩ keeps inSubject
      (Pattern.Follows.values isTested) ran
    exact ⟨keeps, fun isSimple => absurd isSimple Bool.false_ne_true,
      fun isBranch => absurd isBranch (by simp [notBranch]), fun _ => lowered⟩
  | alone isAlone => cases isAlone
  | other _ stays => cases stays

omit sound in
theorem StmtKind.Related.ifElse_left {rel : Node → Node → Prop} {kind : StmtKind}
    (related : (StmtKind.ifElse cond yes no).Related rel kind) :
    ∃ tested taken untaken, kind = .ifElse tested taken untaken := by
  cases related with
  | ifElse => exact ⟨_, _, _, rfl⟩
  | other isOther => cases isOther

theorem Stmt.follows_branch {node : Stmt}
    (related : node.kind.Related (Node.Follows tracing wrapped name (site.below (stmt node)))
      (.ifElse cond yes no))
    (ran : Pass.lowerBranchTest node cond yes no env before = .ok (results, after)) :
    ∃ result, results = [result] ∧ node.Follows tracing wrapped name result := by
  obtain ⟨mark, original⟩ := node
  cases related with
  | @ifElse tested _ first _ second _ isCond isYes isNo =>
    have same : cond.designates? = tested.designates? := Expr.Follows.designates isCond
    cases isTest : Pass.declarationTest? cond with
    | none =>
      unfold Pass.lowerBranchTest at ran
      rw [isTest] at ran
      cases ran
      have plain : tested.designates? = none := by
        rw [← same, Expr.designates?, isTest]
        rfl
      refine ⟨_, rfl, Stmt.keeps_kept sound ?_ (.ifElse isCond isYes isNo)⟩
      rintro _ _ _ ⟨⟩
      exact plain
    | some test =>
      obtain ⟨subject, pattern, type, designated⟩ := test
      obtain ⟨written, rfl⟩ := Pass.lowerBranchTest_ok isTest ran
      have designates : tested.designates? = some designated := by
        rw [← same, Expr.designates?, isTest]
        rfl
      have keeps : tracing.Keeps wrapped name (expr tested) (expr cond) := Expr.Follows.keeps isCond
      obtain ⟨_, _, rfl, _, _⟩ := Pass.declarationTest?_eq_some isTest
      have read := (keeps.part fun _ _ => mem_cons_self).copied sound .detached
      exact ⟨_, rfl, Stmt.keeps_branch sound designates read isYes isNo, rfl, rfl⟩
  | other isOther stays => cases stays

theorem Pass.patternRules_follow {env : PassEnv} :
    patternRules.RelateAt (.passResult env) (Node.Follows tracing wrapped name) where
  expr site node kind related := by
    cases kind with
    | isPattern subject tested =>
      change (Outcomes.passResult env).holds (if isBranchTest site node = true then _ else _) _
      split
      · next isBranch =>
          exact (Outcomes.passResult env).pure (Expr.follows_kept sound related (.inl isBranch))
      · next notBranch =>
          exact fun before result after ran =>
            Expr.follows_lowered sound (Bool.eq_false_iff.2 notBranch) related ran
    | _ => exact (Outcomes.passResult env).pure (Expr.follows_kept sound related (.inr nofun))
  stmt site node kind related := by
    cases kind with
    | ifElse cond yes no => exact fun before results after ran => Stmt.follows_branch sound related ran
    | _ =>
      refine (Outcomes.passResult env).pure ⟨_, rfl, Stmt.keeps_kept sound ?_ related⟩
      intro cond yes no isIf
      rw [isIf] at related
      exact absurd related.ifElse_left (by simp)
  pattern site node kind related := (Outcomes.passResult env).pure (Pattern.follows_kept related)

theorem Pass.patterns_trace {start : PassState} {rewritten : CompilationUnit}
    (ran : PassKind.patterns.action env start = .ok (rewritten, after))
    (startsAlike : tracing.means .free .free) {other : Cover} (isOther : tracing.others other)
    (traced : tracing.traces mark) {found : Binding}
    (finds : rewritten.Finds other wrapped name mark found) :
    ∃ (origin : Node) (original : Binding), origin.Names name ∧
      tracing.tells origin.mark mark ∧
        origin.StandsInUnit tracing.cover wrapped name original env.unit ∧
          tracing.means original found := by
  have follow := env.unit.rebuild_relatesAt (Pass.patternRules_follow sound) _ _ _ ran
  obtain ⟨place, isPlace, finds⟩ := finds
  obtain ⟨result, isResult, rfl⟩ := mem_map.1 isPlace
  obtain ⟨root, isRoot, owner, follows⟩ := exists_left follow isResult
  obtain ⟨origin, original, names, tells, stands, same⟩ :=
    follows.keeps other mark found .free .free isOther traced startsAlike finds
  exact ⟨origin, original, names, tells, ⟨root, isRoot, stands⟩, same⟩

end Rules

/-! ## Units -/

/-- The lowering of tests, after which its declarations are installed.

An identified occurrence of a name means what the name means where it comes from, if the
variable of every `if` is declared in its branch, and everything else where it was or
where it is hoisted to.  So in the branch the name always means a local.  What means no
local comes from a place where the name meant none and stands in no branch, also where it
is a copy, so that a copy of what stands in branches alone means a local.  If nothing else
declares the name, it means a local nowhere else. -/
theorem branchTests_scope {env : PassEnv} {start : PassState} {result : PassResult}
    {unit : CompilationUnit} (proper : env.unit.Proper) (below : env.unit.IdsBelow start.nextId)
    (ran : PassKind.patterns.action.run env start = .ok result) (isUnit : result.unit = some unit) :
    ∃ rewritten after, PassKind.patterns.action env start = .ok (rewritten, after) ∧
      ∀ (name : String) (mark : Mark),
        (mark.id ≠ none → ∀ found, unit.Finds {} [] name mark found →
          ∃ origin : Node, origin.Names name ∧ origin.mark.id = mark.id ∧ origin.StandsInUnit
            (CompilationUnit.coverOf (.ofUnit env.unit) name after.hoists.entries rewritten)
            (CompilationUnit.wrappedOf (.ofUnit env.unit) after.hoists.entries rewritten)
            name found env.unit) ∧
        (mark.id ≠ none → env.unit.InBranch name (expr ⟨mark, .ident name⟩) →
          ¬ unit.Finds {} [] name mark .free) ∧
        (unit.Finds {} [] name mark .free → ∃ origin : Node, origin.Names name ∧
          origin.mark.span = mark.span ∧ origin.StandsInUnit {}
            (CompilationUnit.wrappedOf (.ofUnit env.unit) after.hoists.entries rewritten)
            name .free env.unit ∧ (origin.mark.id ≠ none → ¬ env.unit.InBranch name origin)) ∧
        ((∀ origin ∈ env.unit.reachable, origin.Names name → origin.mark.span = mark.span →
            origin.mark.id ≠ none ∧ env.unit.InBranch name origin) →
          ¬ unit.Finds {} [] name mark .free) ∧
        ((∀ node, stmt node ∈ env.unit.reachable → node.declaresName name = false) →
          (∀ entry ∈ after.hoists.entries, declares entry.2 name = false) → mark.id ≠ none →
            ∀ found ≠ .free, unit.Finds {} [] name mark found →
              ∃ origin : Node, origin.Names name ∧ origin.mark.id = mark.id ∧
                env.unit.InBranch name origin) := by
  obtain ⟨rewritten, after, acted, unchanged | rebuilt⟩ := Pass.run_ok ran
  · rw [unchanged] at isUnit
    cases isUnit
  rw [rebuilt] at isUnit
  cases isUnit
  refine ⟨rewritten, after, acted, fun name mark => ?_⟩
  let cover := CompilationUnit.coverOf (.ofUnit env.unit) name after.hoists.entries rewritten
  let wrapped := CompilationUnit.wrappedOf (.ofUnit env.unit) after.hoists.entries rewritten
  have finds (found : Binding) :
      (rewritten.install (.ofUnit env.unit) after.hoists).Finds {} [] name mark found ↔
        rewritten.Finds cover wrapped name mark found :=
    CompilationUnit.finds_install (.ofUnit env.unit)
      (PassKind.patterns.action_proper proper below acted) after.hoists name
  have exact (hasId : mark.id ≠ none) (found : Binding)
      (isFound : rewritten.Finds cover wrapped name mark found) :
      ∃ origin : Node, origin.Names name ∧ origin.mark.id = mark.id ∧
        origin.StandsInUnit cover wrapped name found env.unit := by
    obtain ⟨origin, original, names, tells, stands, rfl⟩ :=
      Pass.patterns_trace Tracing.exact_sound acted rfl rfl (fun _ => hasId) isFound
    exact ⟨origin, names, tells, stands⟩
  have ofFree (isFree : (rewritten.install (.ofUnit env.unit) after.hoists).Finds {} [] name mark
      .free) : ∃ origin : Node, origin.Names name ∧ origin.mark.span = mark.span ∧
        origin.StandsInUnit {} wrapped name .free env.unit := by
    obtain ⟨origin, original, names, tells, stands, looser⟩ :=
      Pass.patterns_trace Tracing.free_sound acted id trivial nofun ((finds .free).1 isFree)
    obtain rfl := looser rfl
    exact ⟨origin, names, tells, stands⟩
  refine ⟨fun hasId found isFound => exact hasId found ((finds found).1 isFound),
    fun hasId inBranch isFree => ?_, fun isFree => ?_, fun inBranches isFree => ?_,
    fun undeclared unqueued hasId found bound isFound => ?_⟩
  · obtain ⟨origin, names, sameId, stands⟩ := exact hasId .free ((finds .free).1 isFree)
    obtain ⟨id, isId⟩ := Option.ne_none_iff_exists'.1 hasId
    obtain rfl := proper.eq_of_id stands.reachable inBranch.reachable (sameId.trans isId) isId
    have originHasId : (expr ⟨mark, .ident name⟩).mark.id ≠ none := hasId
    exact stands.ne_free proper originHasId inBranch rfl
  · obtain ⟨origin, names, sameSpan, stands⟩ := ofFree isFree
    exact ⟨origin, names, sameSpan, stands,
      fun hasId inBranch => stands.ne_free proper hasId inBranch rfl⟩
  · obtain ⟨origin, names, sameSpan, stands⟩ := ofFree isFree
    obtain ⟨hasId, inBranch⟩ := inBranches origin stands.reachable names sameSpan
    exact stands.ne_free proper hasId inBranch rfl
  · have isFound := (finds found).1 isFound
    obtain ⟨origin, names, sameId, stands⟩ := exact hasId found isFound
    have nothing : cover = {} := CompilationUnit.coverOf_unqueued unqueued rewritten
    rw [nothing] at stands
    exact ⟨origin, names, sameId, stands.inBranch undeclared bound⟩

def lengthOf : Expr := Span.member default (Span.ident default "n") "Length"

def testedIn (taken : Expr) : Tree :=
  let span : Span := default
  let text := span.expr (.isPattern (span.ident "x") ⟨span.mark, .declaration (.simple "string") "n"⟩)
  classTree none
    [⟨.method "Run" [] [.plain (.simple "object") "x"] (.simple "int") (.block (span.block
      [span.ifElse text (span.ret taken) (some (span.block
        [span.evalStmt (span.assign (span.ident "n") (span.strLit "ab")), span.ret lengthOf]))])),
      [.isStatic], span⟩]

def usedInElse : Tree := testedIn lengthOf

/-- In the branch the variable is compared twice, where it has a span of its own. -/
def comparedTwice : Tree :=
  let span : Span := default
  let text (value : String) : Pattern := ⟨span.mark, .constant (span.strLit value)⟩
  let test := span.expr (.isPattern (Span.ident ⟨3, 4⟩ "n") ⟨span.mark, .or (text "a") (text "b")⟩)
  testedIn (span.conditional test lengthOf (span.intLit 0))

/-- The branches of every `if` that declares this name in the first of them, each with the
    mark of the pattern that designates it. -/
def CompilationUnit.branchesOf (unit : CompilationUnit) (name : String) :
    List (Mark × Stmt × Option Stmt) :=
  unit.reachable.filterMap fun node =>
    match node with
    | .stmt ⟨_, .ifElse cond yes no⟩ =>
      match Pass.declarationTest? cond with
      | some (_, tested, _, designated) =>
        if designated = name then some (tested.mark, yes, no) else none
      | none => none
    | _ => none

theorem CompilationUnit.inBranch_of_branchesOf {designation : Mark}
    {yes : Stmt} {no : Option Stmt} (isIf : (designation, yes, no) ∈ unit.branchesOf name)
    (inYes : origin ∈ (stmt yes).reachable true) : unit.InBranch name origin := by
  obtain ⟨node, isNode, isBranch⟩ := mem_filterMap.1 isIf
  split at isBranch
  · next mark cond taken other =>
      split at isBranch
      · next subject tested written designated isTest =>
          split at isBranch
          · next isName =>
              cases isBranch
              refine ⟨mark, cond, yes, no, isNode, ?_, inYes⟩
              rw [Expr.designates?, isTest, ← isName]
              rfl
          · cases isBranch
      · cases isBranch
  · cases isBranch

def Node.namesBelow (name : String) (node : Node) : List Mark :=
  ((node.reachable true).filter (Node.isName name)).map Node.mark

theorem Node.mem_namesBelow {node : Node} (isBelow : mark ∈ node.namesBelow name) :
    expr ⟨mark, .ident name⟩ ∈ node.reachable true := by
  obtain ⟨below, isName, rfl⟩ := mem_map.1 isBelow
  obtain ⟨isBelow, isName⟩ := mem_filter.1 isName
  obtain ⟨other, rfl⟩ := Node.isName_iff.1 isName
  exact isBelow

def Tree.branchDeclares (tree : Tree) (name : String) : Bool :=
  match PassKind.patterns.action.run (tree.analyze.env .patterns) (tree.analyze.start {}),
      PassKind.patterns.action (tree.analyze.env .patterns) (tree.analyze.start {}) with
  | .ok ⟨some unit, _, _, _⟩, .ok (_, after) =>
    (tree.analyze.tree.unit.reachable.all fun node =>
      match node with
      | .stmt node => !node.declaresName name
      | _ => true) &&
    (after.hoists.entries.all fun entry => !declares entry.2 name) &&
    ((tree.analyze.tree.unit.branchesOf name).any fun branches =>
      (((stmt branches.2.1).namesBelow name).any fun mark =>
        mark.id.isSome && (unit.findings {} [] name).contains (mark, .made)) &&
      (unit.findings {} [] name).any fun finding =>
        finding.1.id.isNone && finding.2 == .made &&
          tree.analyze.tree.unit.reachable.all fun origin => origin.mark.span != finding.1.span ||
            origin.isName name && origin.mark.id.isSome &&
              ((stmt branches.2.1).namesBelow name).contains origin.mark) &&
    (unit.findings {} [] name).any fun finding => finding.2 == .free
  | _, _ => false

/-- In the branch the name means the declared variable, and so does a copy of it; in the other
    branch it means no local. -/
theorem branchTests_scope_comparedTwice :
    ∃ result unit rewritten after inside copy outside,
      PassKind.patterns.action.run (comparedTwice.analyze.env .patterns)
        (comparedTwice.analyze.start {}) = .ok result ∧ result.unit = some unit ∧
      PassKind.patterns.action (comparedTwice.analyze.env .patterns) (comparedTwice.analyze.start {}) =
        .ok (rewritten, after) ∧
      unit.Finds {} [] "n" inside .made ∧ ¬ unit.Finds {} [] "n" inside .free ∧
      (∃ origin : Node, origin.Names "n" ∧ origin.mark.id = inside.id ∧
        comparedTwice.analyze.tree.unit.InBranch "n" origin) ∧
      copy.id = none ∧ unit.Finds {} [] "n" copy .made ∧ ¬ unit.Finds {} [] "n" copy .free ∧
      unit.Finds {} [] "n" outside .free ∧
      ∃ origin : Node, origin.Names "n" ∧ origin.mark.span = outside.span ∧
        (origin.mark.id ≠ none → ¬ comparedTwice.analyze.tree.unit.InBranch "n" origin) := by
  have declares : comparedTwice.branchDeclares "n" = true := by decide +kernel
  obtain ⟨proper, below⟩ := comparedTwice.analyze_proper
  unfold Tree.branchDeclares at declares
  split at declares
  · next unit _ _ _ rewritten after ran acted =>
      obtain ⟨rewritten', after', acted', scopes⟩ := branchTests_scope proper below ran rfl
      cases acted.symm.trans acted'
      simp only [Bool.and_eq_true, List.any_eq_true] at declares
      obtain ⟨⟨⟨undeclared, unqueued⟩, ⟨designation, yes, no⟩, isIf,
        ⟨inside, isBelow, hasId, isMade⟩, ⟨copy, _⟩, isCopy, ⟨noId, isMadeToo⟩, onlyBelow⟩,
        ⟨outside, _⟩, isFound, isFree⟩ := declares
      obtain rfl := eq_of_beq isFree
      obtain rfl := eq_of_beq isMadeToo
      have insideId : inside.id ≠ none := Option.isSome_iff_ne_none.1 hasId
      have isMade := CompilationUnit.mem_findings.1 (List.contains_iff_mem.1 isMade)
      have isFree := CompilationUnit.mem_findings.1 isFound
      have inBranch {use : Mark} (isBelow : use ∈ (stmt yes).namesBelow "n") :=
        CompilationUnit.inBranch_of_branchesOf isIf (Node.mem_namesBelow isBelow)
      have noDeclaration (node : Stmt) (isNode : stmt node ∈ comparedTwice.analyze.tree.unit.reachable) :
          node.declaresName "n" = false := by
        simpa using List.all_eq_true.1 undeclared _ isNode
      have notQueued (entry) (isEntry : entry ∈ after.hoists.entries) :
          Unsugar.declares entry.2 "n" = false := by
        simpa using List.all_eq_true.1 unqueued entry isEntry
      have notFree : ¬ unit.Finds {} [] "n" copy .free := by
        refine (scopes "n" copy).2.2.2.1 fun origin isNode _ sameSpan => ?_
        have onlyBelow := List.all_eq_true.1 onlyBelow origin isNode
        simp only [sameSpan, bne_self_eq_false, Bool.false_or, Bool.and_eq_true] at onlyBelow
        obtain ⟨⟨isName, hasId⟩, isBelow⟩ := onlyBelow
        obtain ⟨use, rfl⟩ := Node.isName_iff.1 isName
        exact ⟨Option.isSome_iff_ne_none.1 hasId, inBranch (List.contains_iff_mem.1 isBelow)⟩
      obtain ⟨origin, names, sameSpan, _, notInBranch⟩ := (scopes "n" outside).2.2.1 isFree
      exact ⟨_, unit, rewritten, after, inside, copy, outside, ran, rfl, acted, isMade,
        (scopes "n" inside).2.1 insideId (inBranch isBelow),
        (scopes "n" inside).2.2.2.2 noDeclaration notQueued insideId .made nofun isMade,
        Option.isNone_iff_eq_none.1 noId, CompilationUnit.mem_findings.1 isCopy, notFree, isFree,
        origin, names, sameSpan, notInBranch⟩
  · cases declares

/-- Whether a name that refers to the variable of the test in the other branch of an `if`
    means no local once the test is lowered. -/
def Tree.hidesInElse (tree : Tree) (name : String) : Bool :=
  match PassKind.patterns.action.run (tree.analyze.env .patterns) (tree.analyze.start {}) with
  | .ok ⟨some unit, _, _, _⟩ =>
    (tree.analyze.tree.unit.branchesOf name).any fun (designation, _, no) =>
      (tree.analyze.view.declared? designation).any fun reference =>
        no.any fun no => ((stmt no).namesBelow name).any fun use =>
          (tree.analyze.view.resolution ⟨use, .ident name⟩).found == some reference &&
            (unit.findings {} [] name).contains (use, .free)
  | _ => false

/-- In the other branch a name that refers to the variable of the test means no local once
    the test is lowered. -/
theorem branchTests_hide_usedInElse :
    ∃ designation yes no use reference result unit,
      (designation, yes, some no) ∈ usedInElse.analyze.tree.unit.branchesOf "n" ∧
      expr ⟨use, .ident "n"⟩ ∈ (stmt no).reachable true ∧
      usedInElse.analyze.view.declared? designation = some reference ∧
      (usedInElse.analyze.view.resolution ⟨use, .ident "n"⟩).found = some reference ∧
      PassKind.patterns.action.run (usedInElse.analyze.env .patterns) (usedInElse.analyze.start {}) =
        .ok result ∧ result.unit = some unit ∧ unit.Finds {} [] "n" use .free := by
  have hides : usedInElse.hidesInElse "n" = true := by decide +kernel
  unfold Tree.hidesInElse at hides
  split at hides
  · next unit _ _ _ ran =>
      obtain ⟨⟨designation, yes, no⟩, isIf, hides⟩ := List.any_eq_true.1 hides
      obtain ⟨reference, isDeclared, hides⟩ := (Option.any_eq_true _ _).1 hides
      obtain ⟨no, isNo, hides⟩ := (Option.any_eq_true _ _).1 hides
      obtain ⟨use, isBelow, hides⟩ := List.any_eq_true.1 hides
      obtain ⟨refers, isFree⟩ := Bool.and_eq_true_iff.1 hides
      obtain rfl : _ = some no := isNo
      exact ⟨designation, yes, no, use, reference, _, unit, isIf, Node.mem_namesBelow isBelow,
        isDeclared, eq_of_beq refers, ran, rfl,
        CompilationUnit.mem_findings.1 (List.contains_iff_mem.1 isFree)⟩
  · cases hides

end Unsugar
