import Unsugar.Proofs.Lower.Idempotence

namespace Unsugar

/-! # Freedom from sugar

The check for sugar goes through a unit without entering patterns.  A pattern
below a construct that is no sugar itself is a constant label of a plain switch,
so the check misses exactly what stands in such labels: where their values hold
no sugar it reports the first sugar of the unit in pre-order, and a lowered unit
has no sugar outside of them.
-/

open Node

/-! ## Constructs in pre-order -/

/-- What a unit is made of. -/
inductive Construct where
  | decl (decl : TypeDecl)
  | node (node : Node)

namespace Construct

def sugar? : Construct → Option String
  | decl declared => declared.sugar?
  | node inner => inner.sugar?

def span : Construct → Span
  | decl declared => declared.span
  | node inner => inner.span

def report? (construct : Construct) : Option (String × Span) :=
  construct.sugar?.map fun what => (what, construct.span)

end Construct

def CompilationUnit.constructs (unit : CompilationUnit) : List Construct :=
  unit.types.flatMap fun decl => .decl decl :: decl.reachable.map .node

def CompilationUnit.firstSugar? (unit : CompilationUnit) : Option (String × Span) :=
  unit.constructs.findSome? Construct.report?

def sugarAnswer : Option (String × Span) → Except LowerError Unit
  | none => .ok ()
  | some (what, span) =>
    .error (.unsupported "validate" (what ++ " remains after lowering") span)

/-- A node that declarations lead to through children. -/
inductive CompilationUnit.Reaches (unit : CompilationUnit) : Node → Prop where
  | root {node : Node} (isRoot : node ∈ unit.roots) : Reaches unit node
  | child {node child : Node} (reached : Reaches unit node) (isChild : child ∈ node.children) :
      Reaches unit child

/-- Neither a declaration nor a node of the unit is sugar. -/
structure CompilationUnit.SugarFree (unit : CompilationUnit) : Prop where
  decls : ∀ decl ∈ unit.types, decl.sugar? = none
  nodes : ∀ node, unit.Reaches node → node.sugar? = none

inductive Node.HasLabel : Node → Expr → Prop where
  | intro {mark labelMark : Mark} {subject value : Expr} {sections : List Section}
      {sect : Section} (plain : allConstant sections = true) (isSection : sect ∈ sections)
      (isLabel : Label.case ⟨labelMark, .constant value⟩ none ∈ sect.labels) :
      Node.HasLabel (.stmt ⟨mark, .switch subject sections⟩) value

def CompilationUnit.LabelsPlain (unit : CompilationUnit) : Prop :=
  ∀ node value, unit.Reaches node → node.HasLabel value →
    ∀ below ∈ value.reachable true, below.sugar? = none

/-! ## Reachable nodes -/

theorem Node.mem_reachable_self (node : Node) : node ∈ node.reachable true := by
  rw [node.reachable_eq]
  exact List.mem_cons_self

theorem Node.mem_reachable_of_child {node below child : Node}
    (isBelow : below ∈ node.reachable true) (isChild : child ∈ below.children) :
    child ∈ node.reachable true := by
  induction node using Node.childInduction with
  | step node ih =>
    rw [node.reachable_eq, List.mem_cons, List.mem_flatMap] at isBelow ⊢
    rcases isBelow with rfl | ⟨middle, isMiddle, isBelow⟩
    · exact .inr ⟨child, isChild, child.mem_reachable_self⟩
    · exact .inr ⟨middle, isMiddle, ih middle isMiddle isBelow⟩

variable {node : Node} {unit : CompilationUnit}

theorem CompilationUnit.Reaches.descend (reached : unit.Reaches node) :
    ∀ below ∈ node.reachable true, unit.Reaches below := by
  induction node using Node.childInduction with
  | step node ih =>
    intro below isBelow
    rw [node.reachable_eq, List.mem_cons, List.mem_flatMap] at isBelow
    rcases isBelow with rfl | ⟨child, isChild, isBelow⟩
    · exact reached
    · exact ih child isChild (reached.child isChild) below isBelow

theorem CompilationUnit.reaches_iff : unit.Reaches node ↔ node ∈ unit.reachable := by
  rw [unit.reachable_eq, List.mem_flatMap]
  constructor
  · intro reached
    induction reached with
    | root isRoot => exact ⟨_, isRoot, Node.mem_reachable_self _⟩
    | child _ isChild ih =>
      obtain ⟨root, isRoot, isBelow⟩ := ih
      exact ⟨root, isRoot, Node.mem_reachable_of_child isBelow isChild⟩
  · rintro ⟨root, isRoot, isBelow⟩
    exact (CompilationUnit.Reaches.root isRoot).descend node isBelow

/-! ## Where patterns stand -/

section Patterns

variable {tested : Pattern}

theorem pattern_not_mem_ofExprs {nodes : List Expr} : pattern tested ∉ ofExprs nodes := by
  simp [ofExprs]

theorem pattern_not_mem_ofStmts {nodes : List Stmt} : pattern tested ∉ ofStmts nodes := by
  simp [ofStmts]

theorem pattern_not_mem_ofExpr? {node : Option Expr} : pattern tested ∉ ofExpr? node := by
  cases node <;> simp [ofExpr?]

theorem pattern_not_mem_ofStmt? {node : Option Stmt} : pattern tested ∉ ofStmt? node := by
  cases node <;> simp [ofStmt?]

theorem pattern_not_mem_ofParams {params : List Param} : pattern tested ∉ ofParams params := by
  simp [ofParams, pattern_not_mem_ofExpr?]

theorem pattern_not_mem_ofBody {body : Body} : pattern tested ∉ ofBody body := by
  cases body <;> simp [ofBody]

theorem pattern_not_mem_ofLambdaBody {body : LambdaBody} : pattern tested ∉ ofLambdaBody body := by
  cases body <;> simp [ofLambdaBody]

theorem pattern_not_mem_ofInits {inits : List FieldInit} : pattern tested ∉ ofInits inits := by
  simp [ofInits]

theorem pattern_not_mem_ofPart {part : Part} : pattern tested ∉ ofPart part := by
  cases part <;> simp [ofPart, pattern_not_mem_ofExpr?]

theorem ExprKind.pattern_not_mem_children {kind : ExprKind} (plain : kind.sugar? = none) :
    pattern tested ∉ kind.children := by
  cases kind with
  | isPattern | switch => cases plain
  | _ =>
    simp [children, pattern_not_mem_ofExprs, pattern_not_mem_ofExpr?, pattern_not_mem_ofParams,
      pattern_not_mem_ofLambdaBody, pattern_not_mem_ofInits, pattern_not_mem_ofPart]

theorem Label.case_of_isConstant {tested : Pattern} {guard : Option Expr}
    (isConstant : (Label.case tested guard).isConstant = true) :
    ∃ mark value, tested = ⟨mark, .constant value⟩ ∧ guard = none := by
  obtain ⟨mark, kind⟩ := tested
  cases guard with
  | some => cases kind <;> cases isConstant
  | none =>
    cases kind with
    | constant value => exact ⟨mark, value, rfl, rfl⟩
    | _ => cases isConstant

theorem pattern_mem_ofSection {sect : Section} (plain : sect.labels.all Label.isConstant = true)
    (isChild : pattern tested ∈ ofSection sect) :
    ∃ mark value, tested = ⟨mark, .constant value⟩ ∧
      Label.case ⟨mark, .constant value⟩ none ∈ sect.labels := by
  rw [ofSection, List.mem_append, List.mem_flatMap] at isChild
  rcases isChild with ⟨label, isLabel, isChild⟩ | isChild
  · have isConstant := List.all_eq_true.1 plain label isLabel
    cases label with
    | default => cases isChild
    | case pattern guard =>
      obtain ⟨mark, value, rfl, rfl⟩ := Label.case_of_isConstant isConstant
      simp only [ofLabel, ofExpr?, List.mem_singleton, Node.pattern.injEq] at isChild
      exact ⟨mark, value, isChild, isLabel⟩
  · exact absurd isChild pattern_not_mem_ofStmts

theorem Node.hasLabel_of_pattern {node : Node} (plain : node.sugar? = none)
    (outside : node.isPattern = false) (isChild : pattern tested ∈ node.children) :
    ∃ mark value, tested = ⟨mark, .constant value⟩ ∧ node.HasLabel value := by
  cases node with
  | expr node => exact absurd isChild (ExprKind.pattern_not_mem_children plain)
  | pattern node => cases outside
  | stmt node =>
    obtain ⟨mark, kind⟩ := node
    change pattern tested ∈ kind.children at isChild
    cases kind with
    | switch subject sections =>
      have constants : allConstant sections = true := by
        simpa [Node.sugar?, StmtKind.sugar?] using plain
      rcases List.mem_cons.1 isChild with isSubject | isChild
      · cases isSubject
      · obtain ⟨sect, isSection, isChild⟩ := List.mem_flatMap.1 isChild
        obtain ⟨mark, value, isTested, isLabel⟩ :=
          pattern_mem_ofSection (List.all_eq_true.1 constants sect isSection) isChild
        exact ⟨mark, value, isTested, .intro constants isSection isLabel⟩
    | _ =>
      simp [StmtKind.children, pattern_not_mem_ofExprs, pattern_not_mem_ofExpr?,
        pattern_not_mem_ofStmts, pattern_not_mem_ofStmt?, pattern_not_mem_ofParams,
        pattern_not_mem_ofBody] at isChild

theorem MemberKind.pattern_not_mem_roots (kind : MemberKind) : pattern tested ∉ kind.roots := by
  have body? (body : Option Body) : pattern tested ∉ (body.map ofBody).getD [] := by
    cases body <;> simp [pattern_not_mem_ofBody]
  cases kind with
  | ctor params initializer body =>
    cases initializer <;>
      simp [roots, pattern_not_mem_ofParams, pattern_not_mem_ofBody, pattern_not_mem_ofExprs]
  | _ =>
    simp [roots, body?, pattern_not_mem_ofParams, pattern_not_mem_ofBody, pattern_not_mem_ofExpr?]

theorem TypeDecl.pattern_not_mem_headerRoots (decl : TypeDecl) :
    pattern tested ∉ decl.headerRoots := by
  unfold headerRoots
  cases decl.primary <;> cases decl.baseArgs <;>
    simp [pattern_not_mem_ofParams, pattern_not_mem_ofExprs]

end Patterns

theorem Node.isPattern_eq_false {nodes : List Node} (none : ∀ tested, pattern tested ∉ nodes)
    (isIn : node ∈ nodes) : node.isPattern = false := by
  cases node with
  | pattern tested => exact absurd isIn (none tested)
  | _ => rfl

theorem CompilationUnit.roots_isPattern (isRoot : node ∈ unit.roots) : node.isPattern = false := by
  obtain ⟨decl, isDecl, isRoot⟩ := List.mem_flatMap.1 isRoot
  rcases List.mem_append.1 isRoot with inHeader | inMembers
  · exact isPattern_eq_false (fun _ => decl.pattern_not_mem_headerRoots) inHeader
  · obtain ⟨member, isMember, isRoot⟩ := List.mem_flatMap.1 inMembers
    exact isPattern_eq_false (fun _ => member.kind.pattern_not_mem_roots) isRoot

/-! ## The first sugar -/

theorem findSome?_flatMap {α β γ : Type} {xs : List α} (below : α → List β) (test : β → Option γ) :
    (xs.flatMap below).findSome? test = xs.findSome? fun x => (below x).findSome? test := by
  induction xs with
  | nil => rfl
  | cons x rest ih =>
    rw [List.flatMap_cons, List.findSome?_append, List.findSome?_cons, ih]
    cases (below x).findSome? test <;> rfl

theorem findSome?_congr {α β : Type} {xs : List α} {left right : α → Option β}
    (same : ∀ x ∈ xs, left x = right x) : xs.findSome? left = xs.findSome? right := by
  induction xs with
  | nil => rfl
  | cons x rest ih =>
    rw [List.findSome?_cons, List.findSome?_cons, same x List.mem_cons_self,
      ih fun other isOther => same other (List.mem_cons_of_mem _ isOther)]

def Node.report? (node : Node) : Option (String × Span) :=
  node.sugar?.map fun what => (what, node.span)

theorem Node.report?_eq_none : node.report? = none ↔ node.sugar? = none := by
  simp [report?]

/-- Leaving out patterns does not change the first sugar below a node, if labels
    hold none. -/
theorem Node.findSome?_report (outside : node.isPattern = false)
    (plain : ∀ below ∈ node.reachable true, ∀ value, below.HasLabel value →
      ∀ inner ∈ value.reachable true, inner.sugar? = none) :
    (node.reachable false).findSome? Node.report? = (node.reachable true).findSome? Node.report? := by
  induction node using Node.childInduction with
  | step node ih =>
    have belowChild {child below : Node} (isChild : child ∈ node.children)
        (isBelow : below ∈ child.reachable true) : below ∈ node.reachable true := by
      rw [node.reachable_eq]
      exact List.mem_cons_of_mem _ (List.mem_flatMap.2 ⟨child, isChild, isBelow⟩)
    rw [Node.reachable_outside outside, node.reachable_eq, List.findSome?_cons, List.findSome?_cons]
    cases here : node.report? with
    | some report => rfl
    | none =>
      have noSugar := Node.report?_eq_none.1 here
      dsimp only
      rw [findSome?_flatMap, findSome?_flatMap]
      refine findSome?_congr fun child isChild => ?_
      cases child with
      | pattern tested =>
        obtain ⟨mark, value, rfl, isLabel⟩ :=
          Node.hasLabel_of_pattern noSugar outside isChild
        have inValue := plain node node.mem_reachable_self value isLabel
        rw [Pattern.reachable_outside, Node.reachable_eq]
        refine (List.findSome?_eq_none_iff.2 fun below isBelow => ?_).symm
        rcases List.mem_cons.1 isBelow with rfl | isBelow
        · rfl
        · exact Node.report?_eq_none.2 (inValue below (by
            simpa [Node.children, PatternKind.children, Node.reachable] using isBelow))
      | expr child =>
        exact ih _ isChild rfl fun below isBelow =>
          plain below (belowChild isChild isBelow)
      | stmt child =>
        exact ih _ isChild rfl fun below isBelow =>
          plain below (belowChild isChild isBelow)

theorem head?_sugarIn {roots : List Node} :
    (sugarIn roots).head? = (roots.flatMap (Node.reachable false)).findSome? Node.report? := by
  rw [sugarIn, List.head?_filterMap]
  rfl

theorem CompilationUnit.validate_eq (unit : CompilationUnit) :
    unit.validate = sugarAnswer unit.sugar.head? := by
  unfold validate
  cases unit.sugar <;> rfl

theorem CompilationUnit.head?_sugar (plain : unit.LabelsPlain) :
    unit.sugar.head? = unit.firstSugar? := by
  have among (roots : List Node) (areRoots : ∀ node ∈ roots, node ∈ unit.roots) :
      (sugarIn roots).head? = (roots.flatMap (Node.reachable true)).findSome? Node.report? := by
    rw [head?_sugarIn, findSome?_flatMap, findSome?_flatMap]
    refine findSome?_congr fun node isRoot => ?_
    have reached := CompilationUnit.Reaches.root (areRoots node isRoot)
    exact Node.findSome?_report (roots_isPattern (areRoots node isRoot)) fun below isBelow value =>
      plain below value (reached.descend below isBelow)
  unfold sugar firstSugar? constructs
  rw [List.head?_flatMap, findSome?_flatMap]
  refine findSome?_congr fun decl isDecl => ?_
  have isRoot {node : Node} (isOwn : node ∈ decl.headerRoots ++ memberRoots decl.members) :
      node ∈ unit.roots :=
    List.mem_flatMap.2 ⟨decl, isDecl, isOwn⟩
  have header := among decl.headerRoots fun node isOwn => isRoot (List.mem_append_left _ isOwn)
  have members : (decl.members.flatMap fun member => sugarIn member.kind.roots).head? =
      (decl.members.flatMap Member.reachable).findSome? Node.report? := by
    rw [List.head?_flatMap, findSome?_flatMap]
    refine findSome?_congr fun member isMember => among _ fun node isOwn => isRoot ?_
    exact List.mem_append_right _ (List.mem_flatMap.2 ⟨member, isMember, isOwn⟩)
  have nodes : (decl.reachable.map Construct.node).findSome? Construct.report? =
      decl.reachable.findSome? Node.report? := by
    rw [List.findSome?_map]
    rfl
  have declared : (Construct.decl decl).report? = decl.sugar?.map fun what => (what, decl.span) :=
    rfl
  rw [TypeDecl.sugar, List.head?_append, List.head?_append, header, members, List.findSome?_cons,
    nodes, declared, TypeDecl.reachable, List.findSome?_append]
  cases decl.sugar? <;> rfl

theorem CompilationUnit.firstSugar?_eq_none : unit.firstSugar? = none ↔ unit.SugarFree := by
  have isConstruct (construct : Construct) : construct ∈ unit.constructs ↔
      ∃ decl ∈ unit.types, construct = .decl decl ∨
        ∃ node ∈ decl.reachable, Construct.node node = construct := by
    simp [constructs]
  unfold firstSugar?
  rw [List.findSome?_eq_none_iff]
  constructor
  · intro none
    refine ⟨fun decl isDecl => ?_, fun node reached => ?_⟩
    · have here := none (.decl decl) ((isConstruct _).2 ⟨decl, isDecl, .inl rfl⟩)
      simpa [Construct.report?, Construct.sugar?] using here
    · obtain ⟨decl, isDecl, isBelow⟩ := List.mem_flatMap.1 (reaches_iff.1 reached)
      have here := none (.node node) ((isConstruct _).2 ⟨decl, isDecl, .inr ⟨node, isBelow, rfl⟩⟩)
      simpa [Construct.report?, Construct.sugar?] using here
  · rintro ⟨decls, nodes⟩ construct isIn
    obtain ⟨decl, isDecl, rfl | ⟨node, isBelow, rfl⟩⟩ := (isConstruct construct).1 isIn
    · simpa [Construct.report?, Construct.sugar?] using decls decl isDecl
    · have reached := reaches_iff.2 (List.mem_flatMap.2 ⟨decl, isDecl, isBelow⟩)
      simpa [Construct.report?, Construct.sugar?] using nodes node reached

/-! ## Sugar that is left -/

/-- What the check sees: nodes that are reached without entering a pattern. -/
def CompilationUnit.Sees (unit : CompilationUnit) (node : Node) : Prop :=
  ∃ root ∈ unit.roots, node ∈ root.reachable false

theorem Node.mem_outside_iff {below : Node} :
    below ∈ node.reachable false ↔ node.isPattern = false ∧
      (below = node ∨ ∃ child ∈ node.children, below ∈ child.reachable false) := by
  cases isOutside : node.isPattern with
  | true =>
    cases node with
    | pattern tested => simp [Pattern.reachable_outside]
    | expr _ | stmt _ => cases isOutside
  | false => simp [Node.reachable_outside isOutside]

theorem Node.mem_outside_of_child {below child : Node} (isBelow : below ∈ node.reachable false)
    (isChild : child ∈ below.children) (outside : child.isPattern = false) :
    child ∈ node.reachable false := by
  induction node using Node.childInduction with
  | step node ih =>
    rw [mem_outside_iff] at isBelow ⊢
    refine ⟨isBelow.1, ?_⟩
    rcases isBelow.2 with rfl | ⟨middle, isMiddle, isBelow⟩
    · exact .inr ⟨child, isChild, mem_outside_iff.2 ⟨outside, .inl rfl⟩⟩
    · exact .inr ⟨middle, isMiddle, ih middle isMiddle isBelow⟩

theorem CompilationUnit.validate_ok_iff : unit.validate = .ok () ↔ unit.sugar = [] := by
  rw [validate_eq]
  cases unit.sugar with
  | nil => exact ⟨fun _ => rfl, fun _ => rfl⟩
  | cons first rest => exact ⟨nofun, nofun⟩

theorem sugarIn_eq_nil {roots : List Node} :
    sugarIn roots = [] ↔ ∀ root ∈ roots, ∀ node ∈ root.reachable false, node.sugar? = none := by
  simp only [sugarIn, List.filterMap_eq_nil_iff, List.mem_flatMap, Option.map_eq_none_iff]
  exact ⟨fun none root isRoot node isBelow => none node ⟨root, isRoot, isBelow⟩,
    fun none node ⟨root, isRoot, isBelow⟩ => none root isRoot node isBelow⟩

theorem CompilationUnit.sugar_eq_nil : unit.sugar = [] ↔
      (∀ decl ∈ unit.types, decl.sugar? = none) ∧ ∀ node, unit.Sees node → node.sugar? = none := by
  have ofDecl (decl : TypeDecl) : decl.sugar = [] ↔ decl.sugar? = none ∧
      ∀ root ∈ decl.headerRoots ++ memberRoots decl.members,
        ∀ node ∈ root.reachable false, node.sugar? = none := by
    simp only [TypeDecl.sugar, List.append_eq_nil_iff, List.map_eq_nil_iff, Option.toList_eq_nil_iff,
      List.flatMap_eq_nil_iff, sugarIn_eq_nil, List.mem_append, memberRoots, List.mem_flatMap]
    constructor
    · rintro ⟨⟨declared, header⟩, members⟩
      refine ⟨declared, fun root isRoot => ?_⟩
      rcases isRoot with inHeader | ⟨member, isMember, isRoot⟩
      · exact header root inHeader
      · exact members member isMember root isRoot
    · rintro ⟨declared, roots⟩
      exact ⟨⟨declared, fun root inHeader => roots root (.inl inHeader)⟩,
        fun member isMember root isRoot => roots root (.inr ⟨member, isMember, isRoot⟩)⟩
  simp only [sugar, List.flatMap_eq_nil_iff, ofDecl, Sees, roots]
  constructor
  · intro each
    refine ⟨fun decl isDecl => (each decl isDecl).1, ?_⟩
    rintro node ⟨root, isRoot, isBelow⟩
    obtain ⟨decl, isDecl, isRoot⟩ := List.mem_flatMap.1 isRoot
    exact (each decl isDecl).2 root isRoot node isBelow
  · rintro ⟨decls, nodes⟩ decl isDecl
    exact ⟨decls decl isDecl, fun root isRoot node isBelow =>
      nodes node ⟨root, List.mem_flatMap.2 ⟨decl, isDecl, isRoot⟩, isBelow⟩⟩

theorem CompilationUnit.Sees.isPattern (sees : unit.Sees node) : node.isPattern = false := by
  obtain ⟨root, -, isBelow⟩ := sees
  induction root using Node.childInduction with
  | step root ih =>
    obtain ⟨outside, rfl | ⟨child, isChild, isBelow⟩⟩ := Node.mem_outside_iff.1 isBelow
    · exact outside
    · exact ih child isChild isBelow

/-- Where the check sees no sugar, what it does not see stands in a constant
    label. -/
theorem CompilationUnit.sees_or_label (none : ∀ node, unit.Sees node → node.sugar? = none)
    (reached : unit.Reaches node) :
    unit.Sees node ∨ ∃ switch value, unit.Reaches switch ∧ switch.HasLabel value ∧
      (node ∈ value.reachable true ∨ ∃ mark, node = pattern ⟨mark, .constant value⟩) := by
  induction reached with
  | @root node isRoot =>
    exact .inl ⟨node, isRoot, Node.mem_outside_iff.2 ⟨roots_isPattern isRoot, .inl rfl⟩⟩
  | @child node child reached isChild ih =>
    rcases ih with sees | ⟨switch, value, isSwitch, isLabel, inLabel⟩
    · cases outside : child.isPattern with
      | false =>
        obtain ⟨root, isRoot, isBelow⟩ := sees
        exact .inl ⟨root, isRoot, Node.mem_outside_of_child isBelow isChild outside⟩
      | true =>
        cases child with
        | pattern tested =>
          obtain ⟨mark, value, rfl, isLabel⟩ :=
            Node.hasLabel_of_pattern (none node sees) sees.isPattern isChild
          exact .inr ⟨node, value, reached, isLabel, .inr ⟨mark, rfl⟩⟩
        | expr _ | stmt _ => cases outside
    · refine .inr ⟨switch, value, isSwitch, isLabel, .inl ?_⟩
      rcases inLabel with inValue | ⟨mark, rfl⟩
      · exact @Node.mem_reachable_of_child (.expr value) _ _ inValue isChild
      · obtain rfl := List.mem_singleton.1 isChild
        exact (Node.expr value).mem_reachable_self

/-- Where labels hold no sugar, the check succeeds exactly on units without any,
    and reports the first sugar in pre-order otherwise; whatever sugar a lowered
    unit has stands in the labels of plain switches. -/
theorem validate_reports_first_sugar (unit : CompilationUnit) (tree : Tree) :
    (unit.LabelsPlain →
      unit.validate = sugarAnswer unit.firstSugar? ∧
        (unit.validate = .ok () ↔ unit.SugarFree)) ∧
    ∀ lowered, tree.lower = .ok lowered →
      (∀ decl ∈ lowered.unit.types, decl.sugar? = none) ∧
        ∀ node, lowered.unit.Reaches node → node.sugar? ≠ none →
          ∃ switch value, lowered.unit.Reaches switch ∧ switch.HasLabel value ∧
            node ∈ value.reachable true := by
  refine ⟨fun plain => ?_, fun lowered ran => ?_⟩
  · have answer : unit.validate = sugarAnswer unit.firstSugar? := by
      rw [unit.validate_eq, CompilationUnit.head?_sugar plain]
    refine ⟨answer, ?_⟩
    rw [answer, ← CompilationUnit.firstSugar?_eq_none]
    cases unit.firstSugar? with
    | none => exact ⟨fun _ => rfl, fun _ => rfl⟩
    | some first => exact ⟨nofun, nofun⟩
  · have noSugar := CompilationUnit.validate_ok_iff.1 (Tree.lower_shape ran).1
    obtain ⟨decls, nodes⟩ := CompilationUnit.sugar_eq_nil.1 noSugar
    refine ⟨decls, fun node reached isSugar => ?_⟩
    rcases CompilationUnit.sees_or_label nodes reached with
      sees | ⟨switch, value, isSwitch, isLabel, inLabel⟩
    · exact absurd (nodes node sees) isSugar
    · rcases inLabel with inValue | ⟨mark, rfl⟩
      · exact ⟨switch, value, isSwitch, isLabel, inValue⟩
      · exact absurd rfl isSugar

def onlyCase (label result : Expr) : Stmt :=
  let span : Span := default
  span.stmt (.switch (span.ident "x")
    [⟨[.case ⟨span.mark, .constant label⟩ none], [span.ret result]⟩])

def switchTree (label result : Expr) : Tree :=
  let span : Span := default
  classTree none [⟨.method "M" [] [.plain (.simple "int") "x"] (.simple "int")
      (.block (span.block [onlyCase label result])), [], span⟩]

def Node.isSwitch : Node → Bool
  | .stmt ⟨_, .switch ..⟩ => true
  | _ => false

def Tree.keepsSugar (tree : Tree) : Bool :=
  match tree.lower with
  | .ok lowered => lowered.unit.reachable.any fun node => node.sugar?.isSome
  | .error _ => false

/-- A discard in a body is reported.  One in a label is left in the lowered unit,
    although the check succeeds on it. -/
theorem validate_discard_result_label :
    let span : Span := default
    let inBody := (switchTree (span.intLit 1) (span.expr .discard)).unit
    (inBody.LabelsPlain ∧ inBody.validate =
      .error (.unsupported "validate" "discard remains after lowering" span)) ∧
    ∃ lowered, (switchTree (span.expr .discard) (span.intLit 1)).lower = .ok lowered ∧
      lowered.unit.validate = .ok () ∧ ¬ lowered.unit.SugarFree ∧
        ∃ node switch value, node.sugar? ≠ none ∧ lowered.unit.Reaches switch ∧
          switch.HasLabel value ∧ node ∈ value.reachable true := by
  intro span inBody
  constructor
  · have plain : inBody.LabelsPlain := by
      rintro _ _ reached ⟨_, isSection, isLabel⟩ below isBelow
      have isSwitch := List.mem_filter (p := Node.isSwitch).2
        ⟨CompilationUnit.reaches_iff.1 reached, rfl⟩
      change _ ∈ [Node.stmt (onlyCase _ _)] at isSwitch
      cases List.mem_singleton.1 isSwitch
      cases List.mem_singleton.1 isSection
      cases List.mem_singleton.1 isLabel
      cases List.mem_singleton.1 isBelow
      rfl
    exact ⟨plain, ((validate_reports_first_sugar inBody { unit := inBody }).1 plain).1⟩
  · have keeps : (switchTree (span.expr .discard) (span.intLit 1)).keepsSugar = true := by
      decide +kernel
    unfold Tree.keepsSugar at keeps
    split at keeps
    · rename_i lowered ran
      obtain ⟨node, isNode, isSugar⟩ := List.any_eq_true.1 keeps
      have reached := CompilationUnit.reaches_iff.2 isNode
      have some : node.sugar? ≠ none := Option.isSome_iff_ne_none.1 isSugar
      obtain ⟨switch, value, isSwitch, isLabel, inValue⟩ :=
        ((validate_reports_first_sugar inBody _).2 _ ran).2 node reached some
      exact ⟨lowered, ran, (Tree.lower_shape ran).1, fun free => some (free.nodes node reached),
        node, switch, value, some, isSwitch, isLabel, inValue⟩
    · cases keeps

end Unsugar
