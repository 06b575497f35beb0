import Unsugar.Proofs.Hoist.TestedPatterns

open List

namespace Unsugar

/-! # What pattern tests are made of

A condition that a pattern becomes is put together from the values that the
pattern compares with and from reads of the subject.  Everything around these is
made for the test: operators, accesses, calls of known methods, and the names of
variables that the test itself sets.  Nothing else of the program gets into it.
-/

open Node

/-- A form that may stand around given expressions: it is no lambda, and if it is a
    name, it is one of these. -/
def ExprKind.IsPlain (named : String → Prop) : ExprKind → Prop
  | .ident name => named name
  | .lambda .. => False
  | _ => True

/-- Put together from given expressions; what stands around them was made for the
    purpose and is plain, and its names are those that may be made with its span. -/
inductive Expr.MadeOf (given : Expr → Prop) (named : Span → String → Prop) : Expr → Prop where
  | given {node : Expr} (isGiven : given node) : MadeOf given named node
  | around (span : Span) {kind : ExprKind} (isPlain : kind.IsPlain (named span))
      (arePlain : ∀ child ∈ kind.children, ∃ part, child = expr part)
      (parts : ∀ part, expr part ∈ kind.children → MadeOf given named part) :
      MadeOf given named (span.expr kind)

variable {name : String} {receiver : Expr}

namespace Expr.MadeOf

variable {given more : Expr → Prop} {named : Span → String → Prop} {span : Span}
  {node : Expr} {kind : ExprKind}

theorem mono (made : MadeOf given named node) (weaker : ∀ part, given part → more part) :
    MadeOf more named node := by
  induction made with
  | given isGiven => exact .given (weaker _ isGiven)
  | around span isPlain arePlain _ ih =>
    exact .around span isPlain arePlain ih

theorem ofParts (span : Span) (parts : List Expr) (isPlain : kind.IsPlain (named span))
    (areParts : kind.children = ofExprs parts) (made : ∀ part ∈ parts, MadeOf given named part) :
    MadeOf given named (span.expr kind) := by
  refine .around span isPlain (fun child isChild => ?_) fun part isChild => made part ?_
  · rw [areParts] at isChild
    obtain ⟨part, _, rfl⟩ := mem_map.mp isChild
    exact ⟨part, rfl⟩
  · rw [areParts] at isChild
    obtain ⟨other, listed, same⟩ := mem_map.mp isChild
    cases same
    exact listed

theorem leaf (isPlain : kind.IsPlain (named span)) (alone : kind.children = []) :
    MadeOf given named (span.expr kind) :=
  .ofParts span [] isPlain alone fun _ none => absurd none not_mem_nil

theorem literal {value : Literal} : MadeOf given named (span.expr (.literal value)) :=
  .leaf trivial rfl

theorem ident (isNamed : named span name) : MadeOf given named (span.ident name) :=
  .leaf isNamed rfl

theorem unary {op : UnaryOp} {operand : Expr} (made : MadeOf given named operand) :
    MadeOf given named (span.unary op operand) :=
  .ofParts span [operand] trivial rfl (forall_mem_singleton.mpr made)

theorem binary {op : BinaryOp} {left right : Expr} (madeLeft : MadeOf given named left)
    (madeRight : MadeOf given named right) : MadeOf given named (span.binary op left right) :=
  .ofParts span [left, right] trivial rfl
    (forall_mem_cons.mpr ⟨madeLeft, forall_mem_singleton.mpr madeRight⟩)

theorem member (made : MadeOf given named receiver) :
    MadeOf given named (span.member receiver name) :=
  .ofParts span [receiver] trivial rfl (forall_mem_singleton.mpr made)

theorem cast {type : TypeSyntax} {operand : Expr} (made : MadeOf given named operand) :
    MadeOf given named (span.cast type operand) :=
  .ofParts span [operand] trivial rfl (forall_mem_singleton.mpr made)

theorem typeTest {type : TypeSyntax} {subject : Expr} (made : MadeOf given named subject) :
    MadeOf given named (span.typeTest subject type) :=
  .ofParts span [subject] trivial rfl (forall_mem_singleton.mpr made)

theorem index {args : List Expr} (made : MadeOf given named receiver)
    (others : ∀ arg ∈ args, MadeOf given named arg) :
    MadeOf given named (span.index receiver args) :=
  .ofParts span (receiver :: args) trivial rfl (forall_mem_cons.mpr ⟨made, others⟩)

theorem methodCall {args : List Expr} (made : MadeOf given named receiver)
    (others : ∀ arg ∈ args, MadeOf given named arg) :
    MadeOf given named (span.methodCall receiver name args) :=
  .ofParts span (span.member receiver name :: args) trivial rfl
    (forall_mem_cons.mpr ⟨made.member, others⟩)

theorem assign {value : Expr} (isNamed : named span name) (made : MadeOf given named value) :
    MadeOf given named (span.assign (span.ident name) value) :=
  .ofParts span [span.ident name, value] trivial rfl
    (forall_mem_cons.mpr ⟨.ident isNamed, forall_mem_singleton.mpr made⟩)

theorem seq {effects : List Expr} {value : Expr}
    (others : ∀ effect ∈ effects, MadeOf given named effect) (made : MadeOf given named value) :
    MadeOf given named (span.seq effects value) :=
  .ofParts span (effects ++ [value]) trivial (by simp [ExprKind.children, ofExprs])
    (forall_mem_append.mpr ⟨others, forall_mem_singleton.mpr made⟩)

theorem foldl_binary {op : BinaryOp} {first : Expr} {rest : List Expr}
    (made : MadeOf given named first) (others : ∀ node ∈ rest, MadeOf given named node) :
    MadeOf given named (rest.foldl (span.binary op) first) := by
  induction rest generalizing first with
  | nil => exact made
  | cons second rest ih =>
    obtain ⟨madeSecond, madeRest⟩ := forall_mem_cons.mp others
    exact ih (made.binary madeSecond) madeRest

theorem conjunction {nodes : List Expr} (others : ∀ node ∈ nodes, MadeOf given named node) :
    MadeOf given named (span.conjunction nodes) := by
  cases nodes with
  | nil => exact .literal
  | cons first rest =>
    obtain ⟨madeFirst, madeRest⟩ := forall_mem_cons.mp others
    exact .foldl_binary madeFirst madeRest

theorem isPlain_forgotten (isPlain : kind.IsPlain (named span)) (site : Site) :
    (kind.rebuild Rules.forget site : Id ExprKind).anonymous.IsPlain (named span) ∧
      (kind.rebuild Rules.forget site : Id ExprKind).anonymous.children =
        kind.children.map (Node.rebuilt Rules.forget site) := by
  rw [← ExprKind.children_rebuild]
  cases kind with
  | lambda id params isAsync body => exact isPlain.elim
  | ident name => exact ⟨isPlain, rfl⟩
  | _ => exact ⟨trivial, rfl⟩

theorem rebuilt_forget (made : MadeOf given named node)
    (closed : ∀ part site, given part → given (part.rebuilt Rules.forget site)) (site : Site) :
    MadeOf given named (node.rebuilt Rules.forget site) := by
  induction made generalizing site with
  | given isGiven => exact .given (closed _ site isGiven)
  | @around span kind isPlain arePlain _ ih =>
    have rebuilt : (span.expr kind).rebuilt Rules.forget site =
        span.expr (kind.rebuild Rules.forget (site.below (expr (span.expr kind))) :
          Id ExprKind).anonymous := rfl
    obtain ⟨stillPlain, children⟩ :=
      isPlain_forgotten isPlain (site.below (expr (span.expr kind)))
    rw [rebuilt]
    refine .around span stillPlain (fun child isChild => ?_) fun part isPart => ?_
    · rw [children] at isChild
      obtain ⟨original, listed, rfl⟩ := mem_map.mp isChild
      obtain ⟨part, rfl⟩ := arePlain original listed
      exact ⟨_, rfl⟩
    · rw [children] at isPart
      obtain ⟨original, listed, same⟩ := mem_map.mp isPart
      obtain ⟨other, rfl⟩ := arePlain original listed
      cases same
      exact ih other listed _

theorem forget (made : MadeOf given named node)
    (closed : ∀ part site, given part → given (part.rebuilt Rules.forget site)) :
    MadeOf given named node.forget :=
  made.rebuilt_forget closed .detached

end Expr.MadeOf

/-! ## What a pattern brings into its test -/

inductive Pattern.Compares : Pattern → Expr → Prop where
  | itself {node : Pattern} {value : Expr} (isChild : expr value ∈ node.kind.children) :
      Compares node value
  | inside {node inner : Pattern} {value : Expr} (isChild : pattern inner ∈ node.kind.children)
      (compares : inner.Compares value) : Compares node value

/-- Everything that a pattern brings into its test is allowed there. -/
structure Pattern.Brings (given : Expr → Prop) (named : String → Prop) (node : Pattern) : Prop where
  values : ∀ value, node.Compares value → given value
  designations : ∀ mark name, (mark, name) ∈ node.binders → named name

theorem mem_bindersOf {node : Pattern} {nodes : List Pattern} {found : Mark × String}
    (listed : node ∈ nodes) (isFound : found ∈ node.binders) : found ∈ bindersOf nodes := by
  induction nodes with
  | nil => cases listed
  | cons first rest ih =>
    rw [bindersOf, mem_append]
    rcases mem_cons.mp listed with rfl | isLater
    · exact .inl isFound
    · exact .inr (ih isLater)

theorem mem_bindersOfProperties {property : PropertyPattern} {properties : List PropertyPattern}
    {found : Mark × String} (listed : property ∈ properties)
    (isFound : found ∈ property.pattern.binders) : found ∈ bindersOfProperties properties := by
  induction properties with
  | nil => cases listed
  | cons first rest ih =>
    obtain ⟨path, node⟩ := first
    rw [bindersOfProperties, mem_append]
    rcases mem_cons.mp listed with rfl | isLater
    · exact .inl isFound
    · exact .inr (ih isLater)

theorem PatternKind.binders_part {mark : Mark} {kind : PatternKind} {inner : Pattern}
    (isChild : pattern inner ∈ kind.children) : inner.binders ⊆ kind.binders mark := by
  cases kind with
  | paren _ | not _ =>
    cases mem_singleton.1 isChild
    exact List.Subset.refl _
  | slice sliced =>
    cases sliced with
    | none => cases isChild
    | some node =>
      cases mem_singleton.1 isChild
      exact List.Subset.refl _
  | and left right | or left right =>
    obtain same | isChild := mem_cons.1 isChild
    · cases same
      exact subset_append_left _ _
    · cases mem_singleton.1 isChild
      exact subset_append_right _ _
  | list elements designation =>
    obtain ⟨node, listed, same⟩ := mem_map.1 isChild
    cases same
    exact fun _ isBinder => mem_append_left _ (mem_bindersOf listed isBinder)
  | recursive type positional properties designation =>
    rcases mem_append.1 isChild with isPositional | isProperty
    · obtain ⟨node, listed, same⟩ := mem_map.1 isPositional
      cases same
      exact fun _ isBinder => mem_append_left _ (mem_bindersOf listed isBinder)
    · obtain ⟨property, listed, same⟩ := mem_map.1 isProperty
      cases same
      exact fun _ isBinder => mem_append_right _
        (mem_append_left _ (mem_bindersOfProperties listed isBinder))
  | constant _ | relational _ _ => cases mem_singleton.1 isChild
  | _ => cases isChild

namespace Pass

/-- What tests may be made of: given expressions, among them reads of the subject,
    and names, among them those of temporaries. -/
structure Allows (given reads : Expr → Prop) (named : Span → String → Prop) (span : Span) :
    Prop where
  inTest : ∀ node, reads node → given node
  copies : ∀ node site, reads node → reads (node.rebuilt Rules.forget site)
  temporaries : ∀ number, named span (freshName "t" number)

structure TestParts.MadeOf (given : Expr → Prop) (named : Span → String → Prop)
    (parts : TestParts) : Prop where
  checks : ∀ check ∈ parts.checks, check.MadeOf given named
  assigns : ∀ assign ∈ parts.assigns, assign.MadeOf given named

namespace TestParts.MadeOf

variable {given : Expr → Prop} {named : Span → String → Prop} {parts left right : TestParts}
  {span : Span}

theorem none : TestParts.MadeOf given named {} :=
  ⟨fun _ isCheck => absurd isCheck not_mem_nil, fun _ isAssign => absurd isAssign not_mem_nil⟩

theorem ofChecks {checks : List Expr} (made : ∀ check ∈ checks, check.MadeOf given named) :
    TestParts.MadeOf given named { checks } :=
  ⟨made, fun _ isAssign => absurd isAssign not_mem_nil⟩

theorem check {test : Expr} (made : test.MadeOf given named) :
    TestParts.MadeOf given named (.check test) :=
  .ofChecks (forall_mem_singleton.mpr made)

theorem append (madeLeft : left.MadeOf given named) (madeRight : right.MadeOf given named) :
    (left.append right).MadeOf given named :=
  ⟨forall_mem_append.mpr ⟨madeLeft.checks, madeRight.checks⟩,
    forall_mem_append.mpr ⟨madeLeft.assigns, madeRight.assigns⟩⟩

theorem condition (made : parts.MadeOf given named) :
    (parts.condition span).MadeOf given named := by
  refine .conjunction (forall_mem_append.mpr ⟨made.checks, ?_⟩)
  split
  · exact fun _ isNone => absurd isNone not_mem_nil
  · exact forall_mem_singleton.mpr (.seq made.assigns .literal)

theorem prepend {effect : Expr} (made : parts.MadeOf given named)
    (madeEffect : effect.MadeOf given named) : (parts.prepend span effect).MadeOf given named := by
  obtain ⟨checks, assigns⟩ := made
  unfold TestParts.prepend
  split
  · rename_i first rest isChecks
    rw [isChecks] at checks
    obtain ⟨madeFirst, madeRest⟩ := forall_mem_cons.mp checks
    exact ⟨forall_mem_cons.mpr
      ⟨.seq (forall_mem_singleton.mpr madeEffect) madeFirst, madeRest⟩, assigns⟩
  · exact ⟨checks, forall_mem_cons.mpr ⟨madeEffect, assigns⟩⟩

end TestParts.MadeOf

section Tests

variable {given reads : Expr → Prop} {named : Span → String → Prop}

/-- The subject is read as something that tests may be made of. -/
def Subject.MadeOf (reads : Expr → Prop) (named : Span → String → Prop) (subject : Subject) :
    Prop :=
  subject.expr.MadeOf reads named

variable {subject : Subject} {value : Expr}
  (point : InstallPoint) (span : Span)

theorem temporary_named (allows : Allows given reads named span) {type : Ty} :
    Returns (temporary point "t" type span) (named span) := by
  have drawn : Returns (fresh "t") (named span) := by
    rintro env before result after ⟨⟩
    exact allows.temporaries _
  exact drawn.bind fun _ isNamed => .last fun _ => .last fun _ => .pure isNamed

def madeWalk (allows : Allows given reads named span) (env : PassEnv) : TestWalk point span where
  toTestSteps := .results env point span
  subject node := node.MadeOf reads named
  reads node := node.MadeOf reads named
  names := named span
  read isSubject := isSubject.forget allows.copies
  subjectOf isRead := isRead
  ident := .ident
  literal _ := .literal
  binary _ := .binary
  cast _ := .cast
  typeTest _ := .typeTest
  member _ := .member
  index isRead isPlace := .index isRead (forall_mem_singleton.mpr isPlace)
  slice _ isRead isStart isCount := .methodCall isRead
    (forall_mem_cons.mpr ⟨isStart, forall_mem_singleton.mpr isCount⟩)
  brings node := node.Brings given (named span)
  made _ parts := parts.MadeOf given named
  part brings isChild := ⟨fun value compares => brings.values value (.inside isChild compares),
    fun mark name isBinder => brings.designations mark name
      (PatternKind.binders_part isChild isBinder)⟩
  inPattern _ := TestSteps.runs_inPattern env _ _
  nothing := .none
  check isRead := .check (isRead.mono allows.inTest)
  append := .append
  whole made _ := made
  discard _ := .none
  null _ _ isRead := .check (isRead.mono allows.inTest)
  compare op brings same isRead := .check (.binary (isRead.mono allows.inTest)
    (.given (brings.values _ (.itself (by simp [same])))))
  equals brings same isRead := .check (.methodCall (.leaf trivial rfl)
    (forall_mem_cons.mpr ⟨isRead.mono allows.inTest, forall_mem_singleton.mpr
      (.given (brings.values _ (.itself (by simp [same]))))⟩))
  or left right := .check (.binary left.condition right.condition)
  not made := .check (.unary made.condition)
  temporary type before result after ran :=
    ⟨temporary_named point span allows env before result after ran, trivial⟩
  prepend isName isRead made := made.prepend (.assign isName (isRead.mono allows.inTest))
  designate {mark kind name value} written type brings binders isRead before result after ran := by
    refine ⟨?_, trivial⟩
    obtain rfl | ⟨designates, rfl⟩ := designate_returns _ _ _ _ ran
    · exact .none
    · have isNamed := brings.designations mark name (binders (by simp [binder, designates]))
      exact ⟨fun _ isCheck => absurd isCheck not_mem_nil, forall_mem_singleton.mpr
        (.assign isNamed (isRead.mono allows.inTest))⟩

theorem lowerPattern_made (allows : Allows given reads named span) {subject : Subject}
    (made : subject.MadeOf reads named) {node : Pattern}
    (brings : node.Brings given (named span)) :
    Returns (lowerPattern point span subject node) (·.MadeOf given named) :=
  fun env _ _ _ ran =>
    ((madeWalk point span allows env).lowerPattern subject made node brings _ _ _ ran).1

theorem patternCondition_made (allows : Allows given reads named span)
    (made : subject.MadeOf reads named) {node : Pattern}
    (brings : node.Brings given (named span)) :
    Returns (patternCondition point span subject node) (·.MadeOf given named) := by
  unfold patternCondition
  refine .last fun view => ?_
  split
  · exact (lowerPattern_made point span allows made brings).bind fun parts madeParts =>
      .pure madeParts.condition
  · refine (temporary_named point span allows).bind fun name isNamed => ?_
    have stable : Subject.MadeOf reads named { subject with expr := span.ident name } :=
      .ident isNamed
    refine (lowerPattern_made point span allows stable brings).bind fun parts madeParts =>
      .pure ?_
    exact .seq (forall_mem_singleton.mpr (.assign isNamed (made.mono allows.inTest)))
      madeParts.condition

end Tests

end Pass

end Unsugar
