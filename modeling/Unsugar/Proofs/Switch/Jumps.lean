import Unsugar.Proofs.Switch.Plans

open List

namespace Unsugar

/-! # Where control goes

A `break` leaves the nearest loop or switch around it, and a `continue` goes on with
the nearest loop; neither leaves the function that it stands in.  `Node.Shows` says
which jumps stand in a tree and where each of them goes, and which loops and
switches are there to be left.
-/

open Node

/-! ## What nodes do to control -/

/-- What a node means for the jumps in it. -/
inductive Role where
  | breaks
  | continues
  | loop
  | switch
  | patterned
  | function
  | block
  | constant
  | null
  | plain
  deriving DecidableEq

def ExprKind.role : ExprKind → Role
  | .lambda .. => .function
  | .literal .null => .null
  | _ => .plain

def StmtKind.role : StmtKind → Role
  | .breakLoop => .breaks
  | .continueLoop => .continues
  | .whileLoop .. | .forLoop .. | .forEach .. => .loop
  | .switch _ sections => if allConstant sections then .switch else .patterned
  | .localFunction .. => .function
  | .block _ => .block
  | .eval _ | .declare .. | .ifElse .. | .ret _ | .throw _ | .empty => .plain

def PatternKind.role : PatternKind → Role
  | .constant _ => .constant
  | _ => .plain

def Node.role : Node → Role
  | expr node => node.kind.role
  | stmt node => node.kind.role
  | pattern node => node.kind.role

structure JumpScope where
  breakTo : Option Mark := none
  continueTo : Option Mark := none

def JumpScope.below (scope : JumpScope) (node : Node) : JumpScope :=
  match node.role with
  | .loop => ⟨some node.mark, some node.mark⟩
  | .switch | .patterned => { scope with breakTo := some node.mark }
  | .function => {}
  | _ => scope

/-- What is said about control: a jump goes somewhere, or something is there for
    jumps to go to. -/
inductive Control where
  | jump (mark : Mark) (isBreak : Bool) (target : Option Mark)
  | target (mark : Mark)
  /-- A switch with patterns, which is yet to be lowered. -/
  | patterned (mark : Mark)
  deriving DecidableEq

def Control.mark : Control → Mark
  | jump mark _ _ | target mark | patterned mark => mark

def Node.control? (node : Node) (scope : JumpScope) : Option Control :=
  match node.role with
  | .breaks => some (.jump node.mark true scope.breakTo)
  | .continues => some (.jump node.mark false scope.continueTo)
  | .loop | .switch => some (.target node.mark)
  | .patterned => some (.patterned node.mark)
  | _ => none

theorem Node.control?_mark {node : Node} {scope : JumpScope} {control : Control}
    (isControl : node.control? scope = some control) : control.mark = node.mark := by
  unfold control? at isControl
  split at isControl <;> cases isControl <;> rfl

/-- What a node and everything below it say. -/
inductive Node.Shows : Node → JumpScope → Control → Prop where
  | here {node : Node} {scope : JumpScope} {control : Control}
      (isControl : node.control? scope = some control) : node.Shows scope control
  | inside {node child : Node} {scope : JumpScope} {control : Control}
      (isChild : child ∈ node.children) (shows' : child.Shows (scope.below node) control) :
      node.Shows scope control

/-- What nodes say that stand in one place. -/
def Shown (nodes : List Node) (scope : JumpScope) (control : Control) : Prop :=
  ∃ node ∈ nodes, node.Shows scope control

def CompilationUnit.Shows (unit : CompilationUnit) (control : Control) : Prop :=
  Shown unit.roots {} control

section Shown

variable {node : Node} {left right : List Node} {scope : JumpScope} {control : Control}

@[simp] theorem shown_nil : Shown [] scope control ↔ False := by
  simp [Shown]

@[simp] theorem shown_cons :
    Shown (node :: right) scope control ↔ node.Shows scope control ∨ Shown right scope control := by
  simp [Shown]

@[simp] theorem shown_append :
    Shown (left ++ right) scope control ↔ Shown left scope control ∨ Shown right scope control := by
  simp [Shown, or_and_right, exists_or]

theorem shown_flatMap {α : Type} {items : List α} {nodes : α → List Node} :
    Shown (items.flatMap nodes) scope control ↔
      ∃ item ∈ items, Shown (nodes item) scope control := by
  simp only [Shown, mem_flatMap]
  constructor
  · rintro ⟨node, ⟨item, isItem, isNode⟩, shows'⟩
    exact ⟨item, isItem, node, isNode, shows'⟩
  · rintro ⟨item, isItem, node, isNode, shows'⟩
    exact ⟨node, ⟨item, isItem, isNode⟩, shows'⟩

theorem Node.shows_iff : node.Shows scope control ↔
      node.control? scope = some control ∨ Shown node.children (scope.below node) control := by
  constructor
  · rintro (isControl | ⟨isChild, shows'⟩)
    · exact .inl isControl
    · exact .inr ⟨_, isChild, shows'⟩
  · rintro (isControl | ⟨child, isChild, shows'⟩)
    · exact .here isControl
    · exact .inside isChild shows'

theorem Node.shows_iff_children (quiet : node.control? scope = none)
    (through : scope.below node = scope) :
    node.Shows scope control ↔ Shown node.children scope control := by
  rw [shows_iff, quiet, through]
  simp

end Shown

/-! ## Nodes that no jump leaves -/

/-- Below expressions and patterns, statements stand only in functions. -/
def Node.isCode : Node → Bool
  | stmt _ => true
  | _ => false

def Node.breaks : Node → List Stmt
  | stmt node => node.breaks
  | _ => []

@[simp] theorem Node.isCode_expr {node : Expr} : (expr node).isCode = false := rfl

@[simp] theorem Node.isCode_pattern {node : Pattern} : (pattern node).isCode = false := rfl

section Code

variable {node child : Node} {scope other : JumpScope} {control : Control}

theorem isCode_ofExpr? {value : Option Expr} : ∀ child ∈ ofExpr? value, child.isCode = false := by
  cases value <;> simp [ofExpr?]

theorem isCode_ofExprs {values : List Expr} : ∀ child ∈ ofExprs values, child.isCode = false := by
  simp [ofExprs]

theorem isCode_ofInits {inits : List FieldInit} :
    ∀ child ∈ ofInits inits, child.isCode = false := by
  simp [ofInits]

theorem isCode_ofLabels {labels : List Label} :
    ∀ child ∈ labels.flatMap ofLabel, child.isCode = false := by
  refine forall_mem_flatMap.mpr fun label _ => ?_
  cases label with
  | default => exact fun _ none => absurd none not_mem_nil
  | case => exact forall_mem_cons.mpr ⟨rfl, isCode_ofExpr?⟩

theorem ExprKind.children_isCode {kind : ExprKind} (notFunction : kind.role ≠ .function) :
    ∀ child ∈ kind.children, child.isCode = false := by
  cases kind with
  | lambda => exact absurd rfl notFunction
  | range => exact forall_mem_append.mpr ⟨isCode_ofExpr?, isCode_ofExpr?⟩
  | seq => exact forall_mem_append.mpr ⟨isCode_ofExprs, by simp⟩
  | create => exact forall_mem_append.mpr ⟨isCode_ofExprs, isCode_ofInits⟩
  | copyWith => exact forall_mem_cons.mpr ⟨rfl, isCode_ofInits⟩
  | switch subject arms =>
    refine forall_mem_cons.mpr ⟨rfl, forall_mem_flatMap.mpr fun arm _ => ?_⟩
    exact forall_mem_cons.mpr ⟨rfl, forall_mem_append.mpr ⟨isCode_ofExpr?, by simp⟩⟩
  | interpolated parts =>
    refine forall_mem_flatMap.mpr fun part _ => ?_
    cases part with
    | text => exact fun _ none => absurd none not_mem_nil
    | hole value alignment format => exact forall_mem_cons.mpr ⟨rfl, isCode_ofExpr?⟩
  | _ => simp [ExprKind.children, ofExprs]

theorem PatternKind.children_isCode {kind : PatternKind} :
    ∀ child ∈ kind.children, child.isCode = false := by
  cases kind with
  | recursive => simp [PatternKind.children, or_imp, forall_and]
  | slice inner => cases inner <;> simp [PatternKind.children]
  | _ => simp [PatternKind.children]

theorem Node.children_isCode (notCode : node.isCode = false) (notFunction : node.role ≠ .function) :
    ∀ child ∈ node.children, child.isCode = false := by
  cases node with
  | expr node => exact ExprKind.children_isCode notFunction
  | stmt node => cases notCode
  | pattern node => exact PatternKind.children_isCode

theorem ExprKind.role_cases (kind : ExprKind) :
    kind.role = .function ∨ kind.role = .null ∨ kind.role = .plain := by
  unfold role
  split <;> simp

theorem PatternKind.role_cases (kind : PatternKind) :
    kind.role = .constant ∨ kind.role = .plain := by
  unfold role
  split <;> simp

theorem StmtKind.role_switch (subject : Expr) (sections : List Section) :
    (StmtKind.switch subject sections).role = .switch ∨
      (StmtKind.switch subject sections).role = .patterned := by
  rw [role]
  split <;> simp

theorem Node.role_notCode (notCode : node.isCode = false) :
    node.role = .function ∨ node.role = .null ∨ node.role = .constant ∨ node.role = .plain := by
  cases node with
  | expr node => exact node.kind.role_cases.imp_right fun others => others.imp_right .inr
  | stmt node => cases notCode
  | pattern node => exact .inr (.inr node.kind.role_cases)

theorem Node.control?_notCode (notCode : node.isCode = false) : node.control? scope = none := by
  unfold control?
  rcases node.role_notCode notCode with isRole | isRole | isRole | isRole <;> rw [isRole]

theorem Node.role_ne_patterned (notCode : node.isCode = false) : node.role ≠ .patterned := by
  rcases node.role_notCode notCode with isRole | isRole | isRole | isRole <;> simp [isRole]

/-- A jump below an expression or a pattern stays in a function, so it does not matter
    where the expression stands. -/
theorem Node.Shows.elsewhere (shows' : node.Shows scope control) (notCode : node.isCode = false)
    (other : JumpScope) : node.Shows other control := by
  induction shows' generalizing other with
  | here isControl =>
    rw [Node.control?_notCode notCode] at isControl
    cases isControl
  | @inside node child scope control isChild shows' ih =>
    by_cases isFunction : node.role = .function
    · have same : scope.below node = other.below node := by simp [JumpScope.below, isFunction]
      exact .inside isChild (same ▸ shows')
    · exact .inside isChild (ih (node.children_isCode notCode isFunction child isChild) _)

theorem Shown.elsewhere {nodes : List Node} (shown : Shown nodes scope control)
    (notCode : ∀ node ∈ nodes, node.isCode = false) (other : JumpScope) :
    Shown nodes other control := by
  obtain ⟨node, isNode, shows'⟩ := shown
  exact ⟨node, isNode, shows'.elsewhere (notCode node isNode) other⟩

theorem mem_breaksIn {nodes : List Stmt} {found : Stmt} :
    found ∈ breaksIn nodes ↔ ∃ node ∈ nodes, found ∈ node.breaks := by
  induction nodes with
  | nil => simp [breaksIn]
  | cons node rest ih => simp [breaksIn, ih]

/-- Nodes that let the jumps in them through. -/
def Role.isOpen : Role → Bool
  | .loop | .switch | .patterned | .function => false
  | _ => true

theorem JumpScope.below_open (isOpen : node.role.isOpen = true) : scope.below node = scope := by
  unfold JumpScope.below
  cases isRole : node.role <;> simp_all [Role.isOpen]

theorem Node.breaks_child (isOpen : node.role.isOpen = true) (isChild : child ∈ node.children) :
    ∀ found ∈ child.breaks, found ∈ node.breaks := by
  cases child with
  | expr | pattern => exact fun _ none => absurd none not_mem_nil
  | stmt inner =>
    cases node with
    | expr node =>
      have notFunction : node.kind.role ≠ .function := by
        intro isFunction
        simp [role, isFunction, Role.isOpen] at isOpen
      cases node.kind.children_isCode notFunction _ isChild
    | pattern node => cases node.kind.children_isCode _ isChild
    | stmt node =>
      obtain ⟨mark, kind⟩ := node
      intro found isFound
      change found ∈ kind.breaks mark
      cases kind with
      | block body =>
        obtain ⟨node, isNode, same⟩ := mem_map.mp isChild
        cases same
        exact mem_breaksIn.mpr ⟨_, isNode, isFound⟩
      | ifElse cond yes no =>
        obtain different | isChild := mem_cons.mp isChild
        · cases different
        rw [StmtKind.breaks, mem_append]
        obtain same | isChild := mem_cons.mp isChild
        · cases same
          exact .inl isFound
        · cases no with
          | none => cases isChild
          | some no =>
            cases mem_singleton.mp isChild
            exact .inr isFound
      | switch subject sections =>
        rcases StmtKind.role_switch subject sections with isRole | isRole <;>
          simp [role, isRole, Role.isOpen] at isOpen
      | declare type name init => cases isCode_ofExpr? _ isChild
      | ret value | throw value => cases isCode_ofExpr? _ isChild
      | eval value => cases mem_singleton.mp isChild
      | breakLoop | continueLoop | empty => cases isChild
      | whileLoop | forLoop | forEach | localFunction => cases isOpen

theorem Node.eq_breakLoop (isBreak : node.role = .breaks) :
    node = stmt ⟨node.mark, .breakLoop⟩ := by
  have isCode : node.isCode = true := by
    by_contra notCode
    rw [Bool.not_eq_true] at notCode
    rcases node.role_notCode notCode with isRole | isRole | isRole | isRole <;>
      simp [isRole] at isBreak
  cases node with
  | expr | pattern => cases isCode
  | stmt node =>
    obtain ⟨mark, kind⟩ := node
    cases kind with
    | breakLoop => rfl
    | switch subject sections =>
      rcases StmtKind.role_switch subject sections with noBreak | noBreak <;>
        exact absurd (noBreak.symm.trans isBreak) (by simp)
    | _ => cases isBreak

/-- What a node says that no `break` leaves does not depend on what `break` would refer
    to. -/
theorem Node.Shows.unbroken (shows' : node.Shows scope control) (none : node.breaks = [])
    (same : other.continueTo = scope.continueTo) : node.Shows other control := by
  induction shows' generalizing other with
  | @here node scope control isControl =>
    refine .here ?_
    rw [← isControl]
    unfold control?
    cases isRole : node.role with
    | breaks =>
      rw [Node.eq_breakLoop isRole] at none
      cases none
    | continues => rw [same]
    | _ => rfl
  | @inside node child scope control isChild shows' ih =>
    refine .inside isChild ?_
    by_cases isOpen : node.role.isOpen = true
    · refine ih ?_ (by rw [JumpScope.below_open isOpen, JumpScope.below_open isOpen, same])
      exact eq_nil_iff_forall_not_mem.mpr fun found isFound =>
        eq_nil_iff_forall_not_mem.mp none found (Node.breaks_child isOpen isChild found isFound)
    · have below : other.below node = scope.below node := by
        unfold JumpScope.below
        cases isRole : node.role <;> simp_all [Role.isOpen]
      rw [below]
      exact shows'

theorem Shown.unbroken {nodes : List Stmt} (shown : Shown (ofStmts nodes) scope control)
    (none : breaksIn nodes = []) (same : other.continueTo = scope.continueTo) :
    Shown (ofStmts nodes) other control := by
  obtain ⟨node, isNode, shows'⟩ := shown
  obtain ⟨statement, isStatement, rfl⟩ := mem_map.mp isNode
  refine ⟨_, isNode, shows'.unbroken ?_ same⟩
  exact eq_nil_iff_forall_not_mem.mpr fun found isFound =>
    eq_nil_iff_forall_not_mem.mp none found (mem_breaksIn.mpr ⟨_, isStatement, isFound⟩)

end Code

/-! ## The end of a body -/

/-- A `break` is the very last thing in a node, at the end of nested blocks. -/
inductive Node.EndsIn : Node → Mark → Prop where
  | here {node : Node} (isBreak : node.role = .breaks) : node.EndsIn node.mark
  | last {node child : Node} {mark : Mark} (isBlock : node.role = .block)
      (isLast : node.children.getLast? = some child) (endsIn : child.EndsIn mark) :
      node.EndsIn mark

def EndIn (nodes : List Node) (mark : Mark) : Prop :=
  ∃ last, nodes.getLast? = some last ∧ last.EndsIn mark

theorem shows_block {scope : JumpScope} {control : Control} {mark : Mark} {body : List Stmt} :
    (stmt ⟨mark, .block body⟩).Shows scope control ↔ Shown (ofStmts body) scope control :=
  Node.shows_iff_children rfl rfl

/-- Taking the `break` at the end away takes nothing else away. -/
theorem EndsInBreak.shown {body kept : List Stmt} {dropped : Stmt}
    (ends : EndsInBreak body kept dropped) : EndIn (ofStmts body) dropped.mark ∧
      ∀ scope control, Shown (ofStmts body) scope control ↔
        Shown (ofStmts kept) scope control ∨ control = .jump dropped.mark true scope.breakTo := by
  induction ends with
  | here mark =>
    refine ⟨⟨_, rfl, .here rfl⟩, fun scope control => ?_⟩
    rw [ofStmts, map_singleton, shown_cons, Node.shows_iff]
    simp [ofStmts, Node.children, StmtKind.children, Node.control?, Node.role, StmtKind.role,
      Node.mark, eq_comm]
  | block mark ends ih =>
    obtain ⟨⟨last, isLast, endsIn⟩, same⟩ := ih
    refine ⟨⟨_, rfl, .last rfl isLast endsIn⟩, fun scope control => ?_⟩
    simpa [ofStmts, shows_block] using same scope control
  | later node ends ih =>
    obtain ⟨⟨last, isLast, endsIn⟩, same⟩ := ih
    refine ⟨⟨last, ?_, endsIn⟩, fun scope control => ?_⟩
    · change (stmt node :: ofStmts _).getLast? = some last
      rw [getLast?_cons, isLast]
      rfl
    · change Shown (stmt node :: ofStmts _) scope control ↔
        Shown (stmt node :: ofStmts _) scope control ∨ _
      rw [shown_cons, shown_cons, or_assoc]
      exact or_congr_right (same scope control)

end Unsugar
