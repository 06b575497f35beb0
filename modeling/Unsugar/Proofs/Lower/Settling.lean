import Unsugar.Proofs.Lower.Growth
import Unsugar.Proofs.Lower.Traversals

namespace Unsugar

/-! # Rebuilds that leave everything as it was

If the rules of a rebuild say for each node whether it stays, then the rebuild
leaves the unit and the state of the pass as they were when all nodes stay, and
something is noted when one does not.
-/

/-! ## Settling -/

namespace Pass

/-- If `stays`, an action yields `same` and leaves the state alone, and otherwise
    something is noted when it ends. -/
structure Settles {α : Type} (notice : Notice) (env : PassEnv) (stays : Prop) (action : Pass α)
    (same : α) : Prop where
  keeps : stays → ∀ state, action env state = .ok (same, state)
  notes : ¬stays → ∀ before result after,
    action env before = .ok (result, after) → notice.noted after
  grows : ∀ before result after, action env before = .ok (result, after) → before.Grows after

namespace Settles

variable {α β : Type} {notice : Notice} {env : PassEnv} {stays others : Prop} {same : α}
  {action : Pass α} {next : α → Pass β}

theorem congr (settles : Settles notice env stays action same) (iff : others ↔ stays) :
    Settles notice env others action same where
  keeps holds := settles.keeps (iff.1 holds)
  notes moves := settles.notes fun holds => moves (iff.2 holds)
  grows := settles.grows

theorem always (keeps : ∀ state, action env state = .ok (same, state)) :
    Settles notice env True action same where
  keeps _ := keeps
  notes moves := absurd trivial moves
  grows before result after ran := by
    rw [keeps] at ran
    cases ran
    exact .refl _

theorem never (notes : Notes notice action) (grows : Grows action) :
    Settles notice env False action same where
  keeps := False.elim
  notes _ := notes env
  grows := grows env

theorem pure : Settles notice env True (Pure.pure same : Pass α) same :=
  always fun _ => rfl

/-- What is left as it is where it is to stay. -/
theorem still (holds : stays) : Settles notice env stays (Pure.pure same : Pass α) same :=
  pure.congr (iff_true_intro holds)

/-- A rule comes after the children it is given: it has to say what it does to
    them as they were. -/
theorem rule {whole : β} (first : Settles notice env stays action same)
    (rest : Settles notice env others (next same) whole)
    (grows : ∀ value before result after,
      next value env before = .ok (result, after) → before.Grows after) :
    Settles notice env (stays ∧ others) (action >>= next) whole where
  keeps := by
    rintro ⟨stay, other⟩ state
    change (action env state >>= fun (value, state) => next value env state) = _
    rw [first.keeps stay]
    exact rest.keeps other state
  notes moves before result after ran := by
    obtain ⟨value, middle, ranFirst, ranRest⟩ := bind_eq_ok ran
    by_cases stay : stays
    · -- the children are as they were, so the rule itself notes something
      rw [first.keeps stay] at ranFirst
      cases ranFirst
      exact rest.notes (fun other => moves ⟨stay, other⟩) _ _ _ ranRest
    · exact notice.grows (first.notes stay _ _ _ ranFirst) (grows _ _ _ _ ranRest)
  grows before result after ran := by
    obtain ⟨value, middle, ranFirst, ranRest⟩ := bind_eq_ok ran
    exact (first.grows _ _ _ ranFirst).trans (grows _ _ _ _ ranRest)

theorem bind {whole : α → β} (first : Settles notice env stays action same)
    (rest : ∀ value, Settles notice env others (next value) (whole value)) :
    Settles notice env (stays ∧ others) (action >>= next) (whole same) :=
  first.rule (rest same) fun value => (rest value).grows

theorem map (settles : Settles notice env stays action same) (build : α → β) :
    Settles notice env stays (action >>= fun value => (Pure.pure (build value) : Pass β)) (build same) :=
  (settles.bind fun _ => pure).congr (by simp)

theorem ask {question : Pass α} {answer : α} {whole : β}
    (asked : ∀ state, question env state = .ok (answer, state))
    (rest : Settles notice env stays (next answer) whole) :
    Settles notice env stays (question >>= next) whole := by
  have same (state : PassState) : (question >>= next) env state = next answer env state := by
    change (question env state >>= fun (value, state) => next value env state) = _
    rw [asked]
    rfl
  refine ⟨fun stay state => ?_, fun moves before => ?_, fun before => ?_⟩
  · rw [same]
    exact rest.keeps stay state
  · rw [same]
    exact rest.notes moves before
  · rw [same]
    exact rest.grows before

theorem ite {condition : Prop} [Decidable condition] {yes no : Pass α}
    (isYes : condition → Settles notice env stays yes same)
    (isNo : ¬condition → Settles notice env stays no same) :
    Settles notice env stays (if condition then yes else no) same := by
  split
  · exact isYes ‹_›
  · exact isNo ‹_›

end Settles

end Pass

/-- Rules that never take a note back. -/
structure Rules.Grow (rules : Rules Pass) : Prop where
  expr (site : Site) (node : Expr) (kind : ExprKind) : (rules.expr site node kind).Grows
  stmt (site : Site) (node : Stmt) (kind : StmtKind) : (rules.stmt site node kind).Grows
  pattern (site : Site) (node : Pattern) (kind : PatternKind) : (rules.pattern site node kind).Grows

/-- What rules do to a node over its own children is decided by `stays`. -/
structure Rules.Settle (rules : Rules Pass) (notice : Notice) (env : PassEnv)
    (stays : Site → Node → Prop) : Prop where
  grow : rules.Grow
  expr (site : Site) (node : Expr) :
    Pass.Settles notice env (stays site (.expr node)) (rules.expr site node node.kind) node
  stmt (site : Site) (node : Stmt) :
    Pass.Settles notice env (stays site (.stmt node)) (rules.stmt site node node.kind) [node]
  pattern (site : Site) (node : Pattern) :
    Pass.Settles notice env (stays site (.pattern node)) (rules.pattern site node node.kind) node

/-! ## Rebuilding -/

section Rebuild

variable {rules : Rules Pass} {notice : Notice} {env : PassEnv} {stays : Site → Node → Prop}

/-- What is noted follows the nodes of a rebuild. -/
def Rules.Settle.walk (settle : rules.Settle notice env stays) :
    Traversal rules fun (_ : Unit) => stays where
  holds places action same := Pass.Settles notice env (places ()) action same
  congr settles iff := settles.congr (iff ())
  pure _ := .pure
  bind first rest := first.bind rest
  expr site node _ children :=
    children.rule (settle.expr site node) fun _ => settle.grow.expr site node _ env
  stmt site node _ children :=
    children.rule (settle.stmt site node) fun _ => settle.grow.stmt site node _ env
  pattern site node _ children :=
    children.rule (settle.pattern site node) fun _ => settle.grow.pattern site node _ env

theorem CompilationUnit.rebuild_settles (settle : rules.Settle notice env stays)
    (unit : CompilationUnit) :
    Pass.Settles notice env (∀ site node, unit.Holds site node → stays site node)
      (unit.rebuild rules) unit :=
  unit.rebuild_walks settle.walk

theorem CompilationUnit.rebuild_grows (grow : rules.Grow) (unit : CompilationUnit) :
    Pass.Grows (unit.rebuild rules) := by
  intro env
  -- nothing is looked for, so it does not matter which nodes stay
  let nothing : Notice := ⟨fun _ => True, fun _ => trivial, fun _ _ => trivial⟩
  have settle : rules.Settle nothing env fun _ _ => False :=
    { grow
      expr := fun site node => ⟨False.elim, fun _ _ _ _ _ => trivial, grow.expr site node _ env⟩
      stmt := fun site node => ⟨False.elim, fun _ _ _ _ _ => trivial, grow.stmt site node _ env⟩
      pattern := fun site node =>
        ⟨False.elim, fun _ _ _ _ _ => trivial, grow.pattern site node _ env⟩ }
  exact (unit.rebuild_settles settle).grows

end Rebuild

end Unsugar
