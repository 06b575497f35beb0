import Unsugar.Proofs.Patterns.Contributions
import Unsugar.Proofs.Lower.Settling

open List

namespace Unsugar

/-! # Locals that patterns queue

A pattern test queues a local for every variable it designates, unless a local of
that name is queued at the same point already.  `HoistQueue.Extends` says both
what is queued and why, so that it is put together from the parts of a pattern.
-/

/-! ## Queued locals -/

variable {name : String} {node value : Expr} {owner : Owner} {type : Ty} {written : TypeSyntax}
  {point : InstallPoint} {hoisted : HoistedLocal} {condition : Prop} {mark : Mark}

namespace HoistQueue

def local? (queue : HoistQueue) (point : InstallPoint) (name : String) : Option HoistedLocal :=
  (queue.at? point).find? fun hoisted => hoisted.name == name

theorem find?_addTo {hoisted : HoistedLocal} {queued : List HoistedLocal} :
    (addTo hoisted queued).find? (fun other => other.name == name) =
      (queued.find? fun other => other.name == name).or
        (if hoisted.name = name then some hoisted else none) := by
  unfold addTo
  split
  · next known =>
      obtain ⟨other, isQueued, same⟩ := any_eq_true.1 known
      split
      · next isName =>
          -- a local of this name is there, so nothing is left to choose
          subst isName
          have found : (queued.find? fun other => other.name == hoisted.name).isSome :=
            find?_isSome.2 ⟨other, isQueued, same⟩
          rw [Option.or_of_isSome found]
      · rw [Option.or_none]
  · rw [find?_append]
    congr 1
    by_cases isName : hoisted.name = name
    · simp [isName]
    · simp [isName]

theorem local?_declare (queue : HoistQueue) {point place : InstallPoint} {hoisted : HoistedLocal} :
    (queue.declare point hoisted).local? place name = (queue.local? place name).or
        (if place = point ∧ hoisted.name = name then some hoisted else none) := by
  obtain ⟨entries⟩ := queue
  unfold local? at? declare
  induction entries with
  | nil =>
    by_cases same : place = point
    · subst same
      simp [declareIn]
    · have different : (place == point) = false := beq_eq_false_iff_ne.2 same
      simp [declareIn, lookup_cons, different, same]
  | cons entry rest ih =>
    obtain ⟨other, queued⟩ := entry
    simp only [declareIn]
    split
    · next here =>
        subst here
        by_cases same : place = other
        · subst same
          simpa using find?_addTo
        · simp [lookup_cons, beq_eq_false_iff_ne.2 same, same]
    · by_cases same : place = other
      · subst same
        simp_all
      · simpa [lookup_cons, beq_eq_false_iff_ne.2 same] using ih

def Distinct (queue : HoistQueue) : Prop := ∀ point, (queue.names point).Nodup

variable {queue : HoistQueue}

theorem Distinct.declare (distinct : queue.Distinct) (point : InstallPoint) (hoisted : HoistedLocal) :
    (queue.declare point hoisted).Distinct := by
  obtain ⟨entries⟩ := queue
  intro place
  have start := distinct place
  unfold names at? HoistQueue.declare at *
  clear distinct
  induction entries with
  | nil =>
    by_cases same : place = point
    · subst same
      simp [declareIn]
    · simp [declareIn, lookup_cons, beq_eq_false_iff_ne.2 same]
  | cons entry rest ih =>
    obtain ⟨other, queued⟩ := entry
    simp only [declareIn]
    by_cases same : place = other
    · subst same
      rw [lookup_cons_self] at start
      split
      · rw [lookup_cons_self]
        exact addTo_nodup start
      · rw [lookup_cons_self]
        exact start
    · have different := beq_eq_false_iff_ne.2 same
      rw [lookup_cons, different] at start
      split
      · rw [lookup_cons, different]
        exact start
      · rw [lookup_cons, different]
        exact ih start

theorem local?_name (found : queue.local? point name = some hoisted) :
    hoisted.name = name := by
  have isName := find?_some found
  exact beq_iff_eq.1 isName

end HoistQueue

/-- The type that analysis found for the variable that a pattern designates. -/
def View.resolved? (view : View) (mark : Mark) : Option Ty :=
  ((view.declared? mark).map (·.type)).filter (· ≠ .unknown)

/-- A local stands for a variable: it is declared with the type that was found for
    it, if one was. -/
def HoistedLocal.StandsFor (view : View) (mark : Mark) (hoisted : HoistedLocal) : Prop :=
  ∀ type, view.resolved? mark = some type → hoisted.type = view.types.names.syntaxOf type

/-- Variables that are to be declared: the point, the pattern that designates one,
    and its name. -/
abbrev Wanted := InstallPoint → Mark → String → Prop

namespace HoistQueue

/-- Exactly these variables were queued, besides temporaries.  What was queued
    before stays, and a new local stands for one of the variables of its name at
    its point. -/
structure Extends (view : View) (wanted : Wanted) (before after : HoistQueue) : Prop where
  kept {point : InstallPoint} {name : String} {hoisted : HoistedLocal} :
    before.local? point name = some hoisted → after.local? point name = some hoisted
  declared {point : InstallPoint} {mark : Mark} {name : String} :
    wanted point mark name → ∃ hoisted, after.local? point name = some hoisted
  distinct : before.Distinct → after.Distinct
  tidy : before.Tidy → after.Tidy
  stands {point : InstallPoint} {name : String} {hoisted : HoistedLocal} :
    after.local? point name = some hoisted →
      before.local? point name = some hoisted ∨ IsTemporary name ∨
        ∃ mark, wanted point mark name ∧ hoisted.StandsFor view mark

namespace Extends

variable {view : View} {wanted others : Wanted} {before middle after : HoistQueue}

theorem refl (queue : HoistQueue) : Extends view (fun _ _ _ => False) queue queue where
  kept := id
  declared := False.elim
  distinct := id
  tidy := id
  stands := .inl

theorem trans (first : Extends view wanted before middle)
    (second : Extends view others middle after) :
    Extends view (fun point mark name => wanted point mark name ∨ others point mark name)
      before after where
  kept found := second.kept (first.kept found)
  declared := by
    rintro point mark name (isFirst | isSecond)
    · obtain ⟨hoisted, found⟩ := first.declared isFirst
      exact ⟨hoisted, second.kept found⟩
    · exact second.declared isSecond
  distinct := second.distinct ∘ first.distinct
  tidy := second.tidy ∘ first.tidy
  stands found := by
    rcases second.stands found with found | isTemporary | ⟨mark, isOther, stands⟩
    · rcases first.stands found with found | isTemporary | ⟨mark, isFirst, stands⟩
      · exact .inl found
      · exact .inr (.inl isTemporary)
      · exact .inr (.inr ⟨mark, .inl isFirst, stands⟩)
    · exact .inr (.inl isTemporary)
    · exact .inr (.inr ⟨mark, .inr isOther, stands⟩)

theorem congr (grown : Extends view wanted before after)
    (same : ∀ point mark name, others point mark name ↔ wanted point mark name) :
    Extends view others before after where
  kept := grown.kept
  declared isOther := grown.declared ((same _ _ _).1 isOther)
  distinct := grown.distinct
  tidy := grown.tidy
  stands found := by
    rcases grown.stands found with found | isTemporary | ⟨mark, isWanted, stands⟩
    · exact .inl found
    · exact .inr (.inl isTemporary)
    · exact .inr (.inr ⟨mark, (same _ _ _).2 isWanted, stands⟩)

theorem declare (stands : hoisted.StandsFor view mark) (queue : HoistQueue) :
    Extends view (fun place other name => place = point ∧ other = mark ∧ name = hoisted.name)
      queue (queue.declare point hoisted) where
  kept found := by rw [local?_declare, found, Option.some_or]
  declared := by
    rintro place other name ⟨rfl, rfl, rfl⟩
    rw [local?_declare]
    cases queue.local? place hoisted.name with
    | some known => exact ⟨known, rfl⟩
    | none => exact ⟨hoisted, by simp⟩
  distinct start := start.declare point hoisted
  tidy start := start.declare point hoisted
  stands {place name found} isFound := by
    rw [local?_declare] at isFound
    rcases Option.or_eq_some_iff.1 isFound with known | ⟨_, isNew⟩
    · exact .inl known
    · split at isNew
      · next here =>
          cases isNew
          exact .inr (.inr ⟨mark, ⟨here.1, rfl, here.2.symm⟩, stands⟩)
      · cases isNew

theorem temporary (isTemporary : IsTemporary hoisted.name) (queue : HoistQueue) :
    Extends view (fun _ _ _ => False) queue (queue.declare point hoisted) where
  kept found := by rw [local?_declare, found, Option.some_or]
  declared := False.elim
  distinct start := start.declare point hoisted
  tidy start := start.declare point hoisted
  stands {place name found} isFound := by
    rw [local?_declare] at isFound
    rcases Option.or_eq_some_iff.1 isFound with known | ⟨_, isNew⟩
    · exact .inl known
    · split at isNew
      · next here => exact .inr (.inl (here.2 ▸ isTemporary))
      · cases isNew

end Extends

end HoistQueue

/-! ## What pattern tests queue

The condition that a test becomes queues exactly the variables that its pattern
designates, wherever they stand in the pattern, and temporaries.
-/

/-! ## Variables of patterns -/

/-- The variable that a pattern designates itself, with the mark of the pattern. -/
def binder (mark : Mark) (name : String) : List (Mark × String) :=
  if isDesignation name then [(mark, name)] else []

mutual

/-- The variables that a pattern and its parts designate. -/
def Pattern.binders : Pattern → List (Mark × String)
  | ⟨mark, kind⟩ => kind.binders mark

def PatternKind.binders (mark : Mark) : PatternKind → List (Mark × String)
  | .var name | .declaration _ name => binder mark name
  | .recursive _ positional properties designation =>
    bindersOf positional ++ (bindersOfProperties properties ++ binder mark designation)
  | .list elements designation => bindersOf elements ++ binder mark designation
  | .slice (some inner) | .not inner | .paren inner => inner.binders
  | .and left right | .or left right => left.binders ++ right.binders
  | .constant _ | .relational .. | .type _ | .discard | .slice none => []

def bindersOf : List Pattern → List (Mark × String)
  | [] => []
  | node :: rest => node.binders ++ bindersOf rest

def bindersOfProperties : List PropertyPattern → List (Mark × String)
  | [] => []
  | ⟨_, node⟩ :: rest => node.binders ++ bindersOfProperties rest

end

mutual

theorem Pattern.binders_discard : (node : Pattern) → node.isDiscard = true → node.binders = []
  | ⟨mark, kind⟩, isDiscard => kind.binders_discard mark isDiscard

theorem PatternKind.binders_discard (mark : Mark) :
    (kind : PatternKind) → kind.isDiscard = true → kind.binders mark = []
  | .discard, _ => rfl
  | .var name, isDiscard => by
    have undesignated : isDesignation name = false := by
      simpa [PatternKind.isDiscard] using isDiscard
    simp [PatternKind.binders, binder, undesignated]
  | .paren inner, isDiscard => inner.binders_discard isDiscard

end

mutual

theorem Pattern.binders_null {view : View} :
    (node : Pattern) → node.isNullConstant view = true → node.binders = []
  | ⟨mark, kind⟩, isNull => kind.binders_null mark isNull

theorem PatternKind.binders_null {view : View} (mark : Mark) :
    (kind : PatternKind) → kind.isNullConstant view = true → kind.binders mark = []
  | .constant _, _ => rfl
  | .paren inner, isNull => inner.binders_null isNull

end

def Label.binders : Label → List (Mark × String)
  | .default => []
  | .case tested _ => tested.binders

/-- The variables that the labels of a section designate.  Labels beside `default`
    are not tested. -/
def Section.binders (sect : Section) : List (Mark × String) :=
  if sect.labels.any Pass.isDefaultLabel then [] else sect.labels.flatMap Label.binders

namespace Pass

variable {α β : Type} {action : Pass α} {next : α → Pass β} {yes no : Pass α} {post : β → Prop}

/-! ## Questions -/

/-- An action that only asks: it leaves the state alone and answers alike in every
    state. -/
def Asks (action : Pass α) : Prop :=
  ∀ env before result after, action env before = .ok (result, after) →
    after = before ∧ ∀ state, action env state = .ok (result, state)

namespace Asks

theorem pure (value : α) : Asks (Pure.pure value : Pass α) := by
  rintro env before result after ⟨⟩
  exact ⟨rfl, fun _ => rfl⟩

theorem bind (first : Asks action) (rest : ∀ value, Asks (next value)) :
    Asks (action >>= next) := by
  intro env before result after ran
  obtain ⟨value, middle, ranFirst, ranRest⟩ := bind_eq_ok ran
  obtain ⟨rfl, asked⟩ := first _ _ _ _ ranFirst
  obtain ⟨rfl, answered⟩ := rest _ _ _ _ _ ranRest
  exact ⟨rfl, fun state => (bind_ok (asked state)).trans (answered state)⟩

theorem ite [Decidable condition] (isYes : Asks yes) (isNo : Asks no) :
    Asks (if condition then yes else no) := by
  split
  · exact isYes
  · exact isNo

end Asks

theorem read_asks : Asks (read : Pass PassEnv) := by
  rintro env before result after ⟨⟩
  exact ⟨rfl, fun _ => rfl⟩

theorem view_asks : Asks view := read_asks.bind fun _ => .pure _

theorem typeOf_asks : Asks (typeOf node) := view_asks.bind fun _ => .pure _

theorem fail_asks {error : LowerError} : Asks (fail error : Pass α) := by
  rintro env before result after ⟨⟩

theorem unsupported_asks {what : String} {span : Span} : Asks (unsupported what span : Pass α) :=
  read_asks.bind fun _ => fail_asks

theorem returnsValue_asks {body : Expr} : Asks (returnsValue node body) :=
  view_asks.bind fun _ => .ite (.pure _) (.pure _)

theorem movesIntoConstructor_asks {root : Expr} :
    Asks (movesIntoConstructor owner root) := by
  unfold movesIntoConstructor
  split
  · refine read_asks.bind fun _ => ?_
    split
    · exact .pure _
    · split <;> exact .pure _
  · exact .pure _

theorem findPoint_asks {span : Span} {nodes : List Node} :
    Asks (findPoint owner span nodes) := by
  have outside : Asks (findPoint.outside span) := unsupported_asks
  fun_induction findPoint owner span nodes with
  | case1 => exact outside
  | case2 => exact .pure _
  | case3 _ _ _ ih => exact ih
  | case4 => exact returnsValue_asks.bind fun _ => .pure _
  | case5 =>
    exact read_asks.bind fun _ => movesIntoConstructor_asks.bind fun _ =>
      .ite (.pure _) outside
  | case6 => rename_i ih; exact ih
  | case7 _ _ ih => exact ih

theorem installPoint_asks {site : Site} {span : Span} : Asks (installPoint site node span) :=
  findPoint_asks

/-! ## Steps that queue nothing -/

def Quiet (action : Pass α) : Prop :=
  ∀ env before result after, action env before = .ok (result, after) → after.hoists = before.hoists

theorem Asks.quiet (asks : Asks action) : Quiet action := by
  intro env before result after ran
  rw [(asks _ _ _ _ ran).1]

namespace Quiet

theorem pure (value : α) : Quiet (Pure.pure value : Pass α) := (Asks.pure value).quiet

theorem bind (first : Quiet action) (rest : ∀ value, Quiet (next value)) :
    Quiet (action >>= next) := by
  intro env before result after ran
  obtain ⟨value, middle, ranFirst, ranRest⟩ := bind_eq_ok ran
  exact (rest _ _ _ _ _ ranRest).trans (first _ _ _ _ ranFirst)

theorem ite [Decidable condition] (isYes : Quiet yes) (isNo : Quiet no) :
    Quiet (if condition then yes else no) := by
  split
  · exact isYes
  · exact isNo

end Quiet

theorem markChanged_quiet : Quiet markChanged := by
  rintro env before result after ⟨⟩
  rfl

theorem replace_quiet {replacement : Expr} : Quiet (replace node replacement) :=
  markChanged_quiet.bind fun _ => .pure _

theorem setStmt_quiet {node : Stmt} {kind : StmtKind} : Quiet (setStmt node kind) :=
  markChanged_quiet.bind fun _ => .pure _

theorem fresh_quiet {hint : String} : Quiet (fresh hint) := by
  rintro env before result after ⟨⟩
  rfl

theorem syntaxOf_quiet : Quiet (syntaxOf type) := by
  rintro env before result after ⟨⟩
  rfl

theorem localSyntax_quiet : Quiet (localSyntax type) := by
  rintro env before result after ⟨⟩
  rfl

/-! ## Walks over patterns -/

open Node

/-- What is to be known of the steps of a test.  A step `holds` for the variables it
    queues. -/
structure TestSteps (point : InstallPoint) (span : Span) where
  holds {α : Type} (binders : List (Mark × String)) (action : Pass α) (post : α → Prop) : Prop
  views : View → Prop
  pure {α : Type} {value : α} {post : α → Prop} : post value → holds [] (Pure.pure value) post
  mono {α : Type} {binders : List (Mark × String)} {action : Pass α} {post weaker : α → Prop} :
    holds binders action post → (∀ value, post value → weaker value) → holds binders action weaker
  bind {α β : Type} {first others : List (Mark × String)} {action : Pass α} {next : α → Pass β}
    {middle : α → Prop} {post : β → Prop} : holds first action middle →
      (∀ value, middle value → holds others (next value) post) →
      holds (first ++ others) (action >>= next) post
  asks {α : Type} {action : Pass α} {post : α → Prop} (answer : PassEnv → α) :
    (∀ env state, action env state = .ok (answer env, state)) → (∀ env, post (answer env)) →
      holds [] action post
  view : holds [] view views
  syntaxOf (type : Ty) : holds [] (syntaxOf type) fun _ => True
  unresolved {α : Type} {binders : List (Mark × String)} {post : α → Prop} (what : String) :
    holds binders (fail (.resolution what span)) post
  unsupported {α : Type} {binders : List (Mark × String)} {post : α → Prop} (what : String) :
    holds binders (unsupported what span) post

/-- What is known of the subject of a pattern, of what reads it in a test and of the names
    of temporaries. -/
structure TestReads (span : Span) where
  subject : Expr → Prop
  reads : Expr → Prop
  names : String → Prop
  read {node : Expr} : subject node → reads node.forget
  subjectOf {node : Expr} : reads node → subject node
  ident {name : String} : names name → reads (span.ident name)
  literal (value : Literal) : reads (span.expr (.literal value))
  binary {left right : Expr} (op : BinaryOp) : reads left → reads right →
    reads (span.binary op left right)
  cast {node : Expr} (written : TypeSyntax) : reads node → reads (span.cast written node)
  typeTest {node : Expr} (written : TypeSyntax) : reads node → reads (span.typeTest node written)
  member {node : Expr} (name : String) : reads node → reads (span.member node name)
  index {node place : Expr} : reads node → reads place → reads (span.index node [place])
  slice {node start count : Expr} (name : String) : reads node → reads start → reads count →
    reads (span.methodCall node name [start, count])

/-- What the parts `made` for patterns are to be, from what the patterns bring along. -/
structure TestWalk (point : InstallPoint) (span : Span)
    extends TestSteps point span, TestReads span where
  brings : Pattern → Prop
  made : List Pattern → TestParts → Prop
  part {mark : Mark} {kind : PatternKind} {inner : Pattern} : brings ⟨mark, kind⟩ →
    pattern inner ∈ kind.children → brings inner
  inPattern {node : Pattern} {binders : List (Mark × String)} {action : Pass TestParts}
    {post : TestParts → Prop} : brings node → holds binders action post →
      holds binders (inPattern node action) post
  nothing : made [] {}
  check {test : Expr} : reads test → made [] (.check test)
  append {first others : List Pattern} {left right : TestParts} : made first left →
    made others right → made (first ++ others) (left.append right)
  whole {mark : Mark} {kind : PatternKind} {nodes : List Pattern} {parts : TestParts} :
    made nodes parts → kind.children = nodes.map pattern → made [⟨mark, kind⟩] parts
  discard {node : Pattern} : node.isDiscard = true → made [node] {}
  null {view : View} {node : Pattern} {test : Expr} : views view →
    node.isNullConstant view = true → reads test → made [node] (.check test)
  compare {mark : Mark} {kind : PatternKind} {value left : Expr} (op : BinaryOp) :
    brings ⟨mark, kind⟩ → kind.children = [expr value] → reads left →
      made [⟨mark, kind⟩] (.check (span.binary op left value))
  equals {mark : Mark} {kind : PatternKind} {value left : Expr} :
    brings ⟨mark, kind⟩ → kind.children = [expr value] → reads left → made [⟨mark, kind⟩]
        (.check (span.methodCall (span.typeRef (.simple "object")) "Equals" [left, value]))
  or {left right : Pattern} {leftParts rightParts : TestParts} : made [left] leftParts →
    made [right] rightParts → made [left, right]
      (.check (span.binary .or (leftParts.condition span) (rightParts.condition span)))
  not {node : Pattern} {parts : TestParts} : made [node] parts →
    made [node] (.check (span.unary .not (parts.condition span)))
  temporary (type : Ty) : holds [] (temporary point "t" type span) names
  prepend {name : String} {value : Expr} {nodes : List Pattern} {parts : TestParts} :
    names name → reads value → made nodes parts →
      made nodes (parts.prepend span (span.assign (span.ident name) value))
  designate {mark : Mark} {kind : PatternKind} {name : String} {value : Expr}
    (written : TypeSyntax) (type : Ty) : brings ⟨mark, kind⟩ → binder mark name ⊆ kind.binders mark →
      reads value → holds (binder mark name) (designate point span mark name written type value) (made [])

/-- Nothing has to be known of what a test reads. -/
def TestReads.any (span : Span) : TestReads span where
  subject _ := True
  reads _ := True
  names _ := True
  read _ := trivial
  subjectOf _ := trivial
  ident _ := trivial
  literal _ := trivial
  binary _ _ _ := trivial
  cast _ _ := trivial
  typeTest _ _ := trivial
  member _ _ := trivial
  index _ _ := trivial
  slice _ _ _ _ := trivial

namespace TestSteps

variable {point : InstallPoint} {span : Span} (steps : TestSteps point span)
  {binders : List (Mark × String)}

theorem after {middle : α → Prop} (first : steps.holds [] action middle)
    (rest : ∀ value, middle value → steps.holds binders (next value) post) :
    steps.holds binders (action >>= next) post :=
  steps.bind first rest

theorem map {build : α → β} {middle : α → Prop} (first : steps.holds binders action middle)
    (last : ∀ value, middle value → post (build value)) :
    steps.holds binders (action >>= fun value => (Pure.pure (build value) : Pass β)) post := by
  rw [← append_nil binders]
  exact steps.bind first fun value isMiddle => steps.pure (last value isMiddle)

theorem ite [Decidable condition] {post : α → Prop}
    (isYes : condition → steps.holds binders yes post)
    (isNo : ¬condition → steps.holds binders no post) :
    steps.holds binders (if condition then yes else no) post := by
  split
  · exact isYes ‹_›
  · exact isNo ‹_›

theorem types {next : Universe → Pass β} (rest : ∀ types, steps.holds binders (next types) post) :
    steps.holds binders (Pass.types >>= next) post :=
  steps.after (steps.asks (fun env => env.view.types) types_ok fun _ => trivial)
    fun types (_ : True) => rest types

section Runs

variable (env : PassEnv) {moves : List (Mark × String) → HoistQueue → HoistQueue → Prop}
  (refl : ∀ queue, moves [] queue queue)
  (trans : ∀ {first others before middle after}, moves first before middle →
    moves others middle after → moves (first ++ others) before after)

/-- What every run does to the queue, and what is so of its result. -/
def runs (point : InstallPoint) (span : Span) : TestSteps point span where
  holds binders action post := ∀ before result after,
    action env before = .ok (result, after) → post result ∧ moves binders before.hoists after.hoists
  views := (· = env.view)
  pure isPost := by
    rintro before result after ⟨⟩
    exact ⟨isPost, refl _⟩
  mono holds weaken before result after ran := (holds before result after ran).imp_left (weaken _)
  bind first rest := by
    intro before result after ran
    obtain ⟨value, middle, ranFirst, ranRest⟩ := bind_eq_ok ran
    obtain ⟨isMiddle, moved⟩ := first _ _ _ ranFirst
    exact (rest value isMiddle _ _ _ ranRest).imp_right (trans moved)
  asks answer answers isPost := by
    intro before result after ran
    rw [answers] at ran
    cases ran
    exact ⟨isPost env, refl _⟩
  view := by
    rintro before result after ⟨⟩
    exact ⟨rfl, refl _⟩
  syntaxOf type := by
    rintro before result after ⟨⟩
    exact ⟨trivial, refl _⟩
  unresolved what := by rintro before result after ⟨⟩
  unsupported what := by rintro before result after ⟨⟩

/-- What is so of results, whatever is queued. -/
abbrev results (point : InstallPoint) (span : Span) : TestSteps point span :=
  @runs env (fun _ _ _ => True) (fun _ => trivial) (fun _ _ => trivial) point span

theorem runs_inPattern {node : Pattern} {post : α → Prop}
    (holds : (runs env refl trans point span).holds binders action post) :
    (runs env refl trans point span).holds binders (inPattern node action) post := by
  intro before result after ran
  rcases tryCatch_eq_ok ran with acted | ⟨error, raised⟩
  · exact holds before result after acted
  · obtain ⟨_, _, _, thrown⟩ := bind_eq_ok raised
    obtain ⟨_, _, _, thrown⟩ := bind_eq_ok thrown
    cases thrown

end Runs

end TestSteps

theorem designate_returns {point : InstallPoint} {span : Span} {mark : Mark} :
    Returns (designate point span mark name written type value) fun parts => parts = {} ∨
      isDesignation name = true ∧ parts = { assigns := [span.assign (span.ident name) value] } := by
  unfold designate
  split
  · exact .pure (.inl rfl)
  · next designates =>
    have assigned (parts : TestParts)
        (isAssigned : parts = { assigns := [span.assign (span.ident name) value] }) :
        parts = {} ∨ isDesignation name = true ∧
          parts = { assigns := [span.assign (span.ident name) value] } :=
      .inr ⟨by simpa using designates, isAssigned⟩
    exact .last fun view => .ite (.last fun _ => .last fun _ => .pure (assigned _ rfl))
      (.last fun _ => .last fun _ => .pure (assigned _ rfl))

theorem components_length {types : Universe} {count : Nat} :
    (types.components type count).length = count := by
  have items (types : List Ty) (number : Nat) :
      (TypeData.tupleItems number types).length = types.length := by
    induction types generalizing number with
    | nil => rfl
    | cons type rest ih => simp [TypeData.tupleItems, ih]
  unfold Universe.components
  dsimp only
  split
  · next known => rw [length_map, known]
  · rw [length_map, items, length_replicate]

/-- The patterns of a sequence stand for slices where the sequence is sliced. -/
def ListSubject.SlicedIn (list : ListSubject) (index : Nat) (nodes : List Pattern) : Prop :=
  ∀ place node, nodes[place]? = some node → list.sliceAt = some (index + place) →
    node.isSlice = true

theorem ListSubject.slicedIn_cons {list : ListSubject} {index : Nat} {node : Pattern}
    {rest : List Pattern} : list.SlicedIn index (node :: rest) ↔
      (list.sliceAt = some index → node.isSlice = true) ∧ list.SlicedIn (index + 1) rest :=
  let holds (place : Nat) (node : Pattern) : Prop := list.sliceAt = some place → node.isSlice = true
  @forall_places_cons Pattern holds index node rest

namespace TestWalk

variable {point : InstallPoint} {span : Span} (walk : TestWalk point span) {subject : Subject}

/-! ### Checks -/

def Narrows (checked : List Expr × Subject) : Prop :=
  walk.made [] { checks := checked.1 } ∧ walk.subject checked.2.expr

section Checks

variable (isSubject : walk.subject subject.expr)

include isSubject

theorem nullCheck (op : BinaryOp) : walk.reads (nullCheck span subject op) :=
  walk.binary op (walk.read isSubject) (walk.literal .null)

theorem notNull (isValue : Bool) : walk.made []
    { checks := if isValue then [] else [Pass.nullCheck span subject .notEq] } := by
  cases isValue with
  | true => exact walk.nothing
  | false => exact walk.check (walk.nullCheck isSubject .notEq)

theorem typeCheck (target : Ty) (written : TypeSyntax) :
    walk.holds [] (typeCheck span subject target written) walk.Narrows := by
  have checked (conversion : Conversion) :
      walk.holds [] (checkedBy span subject target written conversion) walk.Narrows := by
    refine walk.ite (fun _ => walk.types fun types => walk.pure ⟨walk.notNull isSubject _, ?_⟩)
      fun _ => walk.pure ⟨walk.check (walk.typeTest written (walk.read isSubject)),
        walk.subjectOf (walk.cast written (walk.read isSubject))⟩
    dsimp only
    split <;> exact isSubject
  have converted : walk.holds [] (conversionTo subject target) fun _ => True := by
    refine walk.after walk.view fun view _ => ?_
    split <;> exact walk.pure trivial
  unfold Pass.typeCheck
  dsimp only
  split
  · exact checked .explicit
  · exact walk.after converted fun conversion _ => checked conversion

theorem constantCheck (brings : walk.brings ⟨mark, .constant value⟩) :
    walk.holds [] (constantCheck span subject value) fun check =>
      walk.made [⟨mark, .constant value⟩] (.check check) := by
  have compares : walk.holds [] (comparesByValue subject.type value) fun _ => True := by
    unfold comparesByValue
    split
    · exact walk.pure trivial
    · exact walk.map walk.view fun _ _ => trivial
  have isRead := walk.read isSubject
  exact walk.after walk.view fun view isView => walk.ite
    (fun isNull => walk.pure (walk.null isView isNull (walk.nullCheck isSubject .eq)))
    fun _ => walk.after compares fun _ _ => walk.ite
      (fun _ => walk.pure (walk.compare .eq brings rfl isRead))
      fun _ => walk.pure (walk.equals brings rfl isRead)

theorem relationalChecks {op : Comparison} (brings : walk.brings ⟨mark, .relational op value⟩) :
    walk.holds [] (relationalChecks span subject op.toBinary value) fun checks =>
      walk.made [⟨mark, .relational op value⟩] { checks } := by
  have typed : walk.holds [] (typeOf value) fun _ => True :=
    walk.asks _ (fun env => typeOf_ok env value) fun _ => trivial
  exact walk.after typed fun type _ => walk.ite
    (fun _ => walk.pure (walk.compare _ brings rfl (walk.read isSubject)))
    fun _ => walk.after (walk.syntaxOf type) fun written _ =>
      walk.map (walk.typeCheck isSubject type written) fun checked isChecked =>
        walk.append isChecked.1 (walk.compare _ brings rfl (walk.read isChecked.2))

theorem memberSubject (name : String) :
    walk.holds [] (memberSubject span subject name) fun item => walk.subject item.expr := by
  have isAccess := walk.subjectOf (walk.member name (walk.read isSubject))
  refine walk.ite (fun _ => walk.pure isAccess) fun _ => walk.types fun types => ?_
  split
  · exact walk.pure isAccess
  · exact walk.unresolved _

omit isSubject in
theorem memberPath {path : List String} (isSubject : walk.subject subject.expr) :
    walk.holds [] (path.foldlM (Pass.memberSubject span) subject) fun item =>
      walk.subject item.expr := by
  induction path generalizing subject with
  | nil => exact walk.pure isSubject
  | cons name rest ih =>
    rw [foldlM_cons]
    exact walk.after (walk.memberSubject isSubject name) fun _ => ih

theorem stabilized (reads : Nat) {lower : Subject → Pass TestParts} {nodes : List Pattern}
    {binders : List (Mark × String)}
    (lowers : ∀ item : Subject, walk.subject item.expr →
      walk.holds binders (lower item) (walk.made nodes)) :
    walk.holds binders (stabilized point span reads subject lower) (walk.made nodes) :=
  walk.ite (fun _ => lowers subject isSubject) fun _ =>
    walk.after (walk.temporary subject.type) fun _ isName =>
      walk.map (lowers _ (walk.subjectOf (walk.ident isName))) fun _ =>
        walk.prepend isName (walk.read isSubject)

end Checks

/-! ### Sequences -/

section Sequences

variable {list : ListSubject} (isList : walk.subject list.subject.expr)

include isList

theorem readLength : walk.reads (list.readLength span) := walk.member _ (walk.read isList)

theorem lengthLess (value : Nat) : walk.reads (list.lengthLess span value) := by
  unfold ListSubject.lengthLess
  split
  · exact walk.readLength isList
  · exact walk.binary .sub (walk.readLength isList) (walk.literal _)

theorem elementAt (index : Nat) : walk.subject (list.elementAt span index).expr := by
  have offset (fromEnd : Bool) : walk.reads (if fromEnd then
      span.binary .sub (list.readLength span) (ListSubject.int span (list.count - index))
      else ListSubject.int span index) := by
    cases fromEnd with
    | true => exact walk.binary .sub (walk.readLength isList) (walk.literal _)
    | false => exact walk.literal _
  exact walk.subjectOf (walk.index (walk.read isList) (offset _))

theorem sliceFrom {start : Nat} : walk.subject (list.slice span start).expr := by
  have sliced (name : String) (count : Nat) := walk.slice name (walk.read isList)
    (walk.literal (.int start)) (walk.lengthLess isList count)
  unfold ListSubject.slice
  dsimp only
  split <;> exact walk.subjectOf (sliced _ _)

theorem listChecks : walk.holds [] (list.checks span) fun checks => walk.made [] { checks } := by
  refine walk.types fun types => walk.pure (walk.append (walk.notNull isList _) (walk.check ?_))
  split <;> exact walk.binary _ (walk.readLength isList) (walk.literal _)

end Sequences

theorem listSubject (isSubject : walk.subject subject.expr) (elements : List Pattern) :
    walk.holds [] (listSubject subject elements) fun list =>
      walk.subject list.subject.expr ∧ list.SlicedIn 0 elements := by
  refine walk.types fun types => walk.pure ⟨isSubject, fun place node isNode isSliced => ?_⟩
  rw [Nat.zero_add] at isSliced
  obtain ⟨within, isSlice, _⟩ := findIdx?_eq_some_iff_getElem.1 isSliced
  rw [getElem?_eq_getElem within] at isNode
  cases isNode
  exact isSlice

/-! ### Patterns -/

mutual

theorem lowerPattern (subject : Subject) (isSubject : walk.subject subject.expr) :
    (node : Pattern) → walk.brings node →
    walk.holds node.binders (Pass.lowerPattern point span subject node) (walk.made [node])
  | ⟨mark, kind⟩, brings => by
    rw [Pass.lowerPattern, Pattern.binders]
    exact walk.inPattern brings (lowerPatternKind mark subject isSubject kind brings)

theorem lowerPatternKind (mark : Mark) (subject : Subject)
    (isSubject : walk.subject subject.expr) : (kind : PatternKind) → walk.brings ⟨mark, kind⟩ →
    walk.holds (kind.binders mark) (Pass.lowerPatternKind point span mark subject kind)
      (walk.made [⟨mark, kind⟩])
  | .discard, _ => by
    rw [Pass.lowerPatternKind]
    exact walk.pure (walk.discard rfl)
  | .paren inner, brings => by
    rw [Pass.lowerPatternKind]
    exact walk.mono (lowerPattern subject isSubject inner (walk.part brings mem_cons_self))
      fun _ made => walk.whole made rfl
  | .constant value, brings => by
    rw [Pass.lowerPatternKind]
    exact walk.map (walk.constantCheck isSubject brings) fun _ made => made
  | .relational op value, brings => by
    rw [Pass.lowerPatternKind]
    exact walk.map (walk.relationalChecks isSubject brings) fun _ made => made
  | .type type, _ => by
    rw [Pass.lowerPatternKind]
    exact walk.after walk.view fun _ _ => walk.map (walk.typeCheck isSubject _ type)
      fun _ narrows => walk.whole narrows.1 rfl
  | .var name, brings => by
    rw [Pass.lowerPatternKind]
    exact walk.mono (walk.designate .absent _ brings (List.Subset.refl _) (walk.read isSubject))
      fun _ made => walk.whole made rfl
  | .declaration type name, brings => by
    rw [Pass.lowerPatternKind]
    exact walk.after walk.view fun _ _ => walk.after (walk.typeCheck isSubject _ type)
      fun _ narrows => walk.map
        (walk.designate type _ brings (List.Subset.refl _) (walk.read narrows.2))
        fun _ bound => walk.whole (walk.append narrows.1 bound) rfl
  | .recursive type positional properties designation, brings => by
    have following (checked : List Expr × Subject) (narrows : walk.Narrows checked) :
        walk.holds ((PatternKind.recursive type positional properties designation).binders mark)
          (partsOf point span mark type positional properties designation checked)
          (walk.made [⟨mark, .recursive type positional properties designation⟩]) := by
      refine walk.types fun types => walk.bind (lowerPositional checked.2 narrows.2 _
        positional components_length fun node listed => walk.part brings ?_)
        fun items madeItems => ?_
      · exact mem_append_left _ (mem_map_of_mem listed)
      refine walk.bind (lowerProperties checked.2 narrows.2 properties
        fun property listed => walk.part brings ?_) fun parts madeParts => ?_
      · exact mem_append_right _ (mem_map.2 ⟨property, listed, rfl⟩)
      refine walk.map (walk.designate type _ brings ?_ (walk.read narrows.2)) fun bound made =>
        walk.whole (walk.append (walk.append (walk.append narrows.1 madeItems) madeParts) made) ?_
      · exact subset_append_of_subset_right _ (subset_append_right _ _)
      · simp [PatternKind.children]
    cases type with
    | absent =>
      rw [Pass.lowerPatternKind]
      exact walk.types fun types => following
        (if types.isValueType subject.type then [] else [Pass.nullCheck span subject .notEq],
          subject)
        ⟨walk.notNull isSubject _, isSubject⟩
    | _ =>
      rw [Pass.lowerPatternKind]
      · exact walk.after walk.view fun _ _ => walk.after (walk.typeCheck isSubject _ _) following
      · exact nofun
  | .list elements designation, brings => by
    rw [Pass.lowerPatternKind]
    refine walk.after (walk.listSubject isSubject elements) fun list isList => ?_
    refine walk.after (walk.listChecks isList.1) fun checks madeChecks => ?_
    refine walk.bind (lowerElements list isList.1 0 elements isList.2
      fun node listed => walk.part brings (mem_map_of_mem listed)) fun parts madeParts => ?_
    refine walk.map (walk.designate .absent _ brings (subset_append_right _ _)
      (walk.read isSubject)) fun bound made =>
        walk.whole (walk.append (walk.append madeChecks madeParts) made) ?_
    simp [PatternKind.children]
  | .slice _, _ => by
    rw [Pass.lowerPatternKind]
    exact walk.unsupported _
  | .and left right, brings => by
    rw [Pass.lowerPatternKind]
    exact walk.bind (lowerPattern subject isSubject left (walk.part brings mem_cons_self))
      fun _ madeLeft => walk.map (lowerPattern subject isSubject right
        (walk.part brings (mem_cons_of_mem _ mem_cons_self)))
        fun _ madeRight => walk.whole (walk.append madeLeft madeRight) rfl
  | .or left right, brings => by
    rw [Pass.lowerPatternKind]
    exact walk.bind (lowerPattern subject isSubject left (walk.part brings mem_cons_self))
      fun _ madeLeft => walk.map (lowerPattern subject isSubject right
        (walk.part brings (mem_cons_of_mem _ mem_cons_self)))
        fun _ madeRight => walk.whole (walk.or madeLeft madeRight) rfl
  | .not inner, brings => by
    rw [Pass.lowerPatternKind]
    refine walk.after walk.view fun view isView => walk.ite (fun isNull => ?_) fun _ =>
      walk.map (lowerPattern subject isSubject inner (walk.part brings mem_cons_self))
        fun _ made => walk.whole (walk.not made) rfl
    rw [PatternKind.binders, inner.binders_null isNull]
    exact walk.pure (walk.whole (walk.null isView isNull (walk.nullCheck isSubject .notEq)) rfl)

theorem lowerPositional (subject : Subject) (isSubject : walk.subject subject.expr) :
    (members : List (String × Ty)) → (nodes : List Pattern) → members.length = nodes.length →
    (∀ node ∈ nodes, walk.brings node) →
    walk.holds (bindersOf nodes) (Pass.lowerPositional point span subject members nodes)
      (walk.made nodes)
  | (name, type) :: members, node :: rest, sameLength, brings => by
    obtain ⟨first, others⟩ := forall_mem_cons.1 brings
    have isItem := walk.subjectOf (walk.member name (walk.read isSubject))
    rw [Pass.lowerPositional]
    exact walk.after walk.view fun _ _ => walk.bind (walk.stabilized isItem _ fun item isItem =>
      lowerPattern item isItem node first) fun _ madeFirst =>
        walk.map (lowerPositional subject isSubject members rest (Nat.succ.inj sameLength)
          others) fun _ madeOthers => walk.append madeFirst madeOthers
  | [], [], _, _ => by
    rw [Pass.lowerPositional]
    · exact walk.pure walk.nothing
    · simp

theorem lowerProperties (subject : Subject) (isSubject : walk.subject subject.expr) :
    (properties : List PropertyPattern) →
    (∀ property ∈ properties, walk.brings property.pattern) →
    walk.holds (bindersOfProperties properties) (Pass.lowerProperties point span subject properties)
      (walk.made (properties.map (·.pattern)))
  | [], _ => by
    rw [Pass.lowerProperties]
    exact walk.pure walk.nothing
  | ⟨path, node⟩ :: rest, brings => by
    obtain ⟨first, others⟩ := forall_mem_cons.1 brings
    rw [Pass.lowerProperties]
    exact walk.after (walk.memberPath isSubject) fun item isItem => walk.after walk.view
      fun _ _ => walk.bind (walk.stabilized isItem _ fun item isItem =>
        lowerPattern item isItem node first) fun _ madeFirst =>
          walk.map (lowerProperties subject isSubject rest others) fun _ madeOthers =>
            walk.append madeFirst madeOthers

theorem lowerElements (list : ListSubject) (isList : walk.subject list.subject.expr) :
    (index : Nat) → (nodes : List Pattern) → list.SlicedIn index nodes →
    (∀ node ∈ nodes, walk.brings node) →
    walk.holds (bindersOf nodes) (Pass.lowerElements point span list index nodes) (walk.made nodes)
  | _, [], _, _ => by
    rw [Pass.lowerElements]
    exact walk.pure walk.nothing
  | index, node :: rest, sliced, brings => by
    obtain ⟨first, others⟩ := forall_mem_cons.1 brings
    obtain ⟨here, there⟩ := ListSubject.slicedIn_cons.1 sliced
    have following (parts : TestParts) (made : walk.made [node] parts) : walk.holds (bindersOf rest)
          (do return parts.append (← Pass.lowerElements point span list (index + 1) rest))
          (walk.made (node :: rest)) :=
      walk.map (lowerElements list isList (index + 1) rest there others)
        fun _ madeOthers => walk.append made madeOthers
    rw [Pass.lowerElements, bindersOf]
    split
    · next isHere =>
        exact walk.bind (lowerSlice list isList index node (here isHere) first) following
    · split
      · next isDiscard =>
          rw [node.binders_discard isDiscard]
          exact following _ (walk.discard isDiscard)
      · exact walk.after walk.view fun _ _ => walk.bind
          (walk.stabilized (walk.elementAt isList index) _ fun item isItem =>
            lowerPattern item isItem node first) following

theorem lowerSlice (list : ListSubject) (isList : walk.subject list.subject.expr) (index : Nat) :
    (node : Pattern) → node.isSlice = true → walk.brings node →
    walk.holds node.binders (Pass.lowerSlice point span list index node) (walk.made [node])
  | ⟨mark, .slice (some inner)⟩, _, brings => by
    rw [Pass.lowerSlice]
    refine walk.ite (fun isDiscard => ?_) fun _ => walk.after walk.view fun _ _ => walk.mono
      (walk.stabilized (walk.sliceFrom isList) _ fun item isItem =>
        lowerPattern item isItem inner (walk.part brings mem_cons_self))
      fun _ made => walk.whole made rfl
    rw [Pattern.binders, PatternKind.binders, inner.binders_discard isDiscard]
    exact walk.pure (walk.whole (walk.discard isDiscard) rfl)
  | ⟨_, .slice none⟩, _, _ => by
    rw [Pass.lowerSlice]
    · exact walk.pure (walk.whole walk.nothing rfl)
    · exact nofun

end

end TestWalk

/-! ## Steps that queue variables -/

/-- Extended at one point by the variables of a pattern. -/
abbrev ExtendsAt (view : View) (point : InstallPoint) (binders : List (Mark × String))
    (before after : HoistQueue) : Prop :=
  before.Extends view (fun place mark name => place = point ∧ (mark, name) ∈ binders) after

namespace ExtendsAt

variable {view : View} {point : InstallPoint}

theorem refl (queue : HoistQueue) : ExtendsAt view point [] queue queue :=
  (HoistQueue.Extends.refl queue).congr (by simp)

theorem trans {first others : List (Mark × String)} {before middle after : HoistQueue}
    (isFirst : ExtendsAt view point first before middle)
    (isRest : ExtendsAt view point others middle after) :
    ExtendsAt view point (first ++ others) before after :=
  (HoistQueue.Extends.trans isFirst isRest).congr fun _ _ _ => by rw [mem_append, and_or_left]

end ExtendsAt

def Queues (env : PassEnv) (wanted : Wanted) (action : Pass α) : Prop :=
  ∀ before result after, action env before = .ok (result, after) →
    before.hoists.Extends env.view wanted after.hoists

def Binds (env : PassEnv) (point : InstallPoint) (binders : List (Mark × String))
    (action : Pass α) : Prop :=
  Queues env (fun place mark name => place = point ∧ (mark, name) ∈ binders) action

namespace Binds

variable {env : PassEnv} {point : InstallPoint} {binders others : List (Mark × String)}

theorem quiet (quiet : Quiet action) : Binds env point [] action := by
  intro before result after ran
  rw [quiet _ _ _ _ ran]
  exact ExtendsAt.refl _

theorem pure (value : α) : Binds env point [] (Pure.pure value : Pass α) := quiet (.pure value)

theorem bind (first : Binds env point binders action)
    (rest : ∀ value, Binds env point others (next value)) :
    Binds env point (binders ++ others) (action >>= next) := by
  intro before result after ran
  obtain ⟨value, middle, ranFirst, ranRest⟩ := bind_eq_ok ran
  exact ExtendsAt.trans (first _ _ _ ranFirst) (rest _ _ _ _ ranRest)

theorem map (binds : Binds env point binders action) (build : α → β) :
    Binds env point binders (action >>= fun value => (Pure.pure (build value) : Pass β)) := by
  rw [← append_nil binders]
  exact binds.bind fun _ => pure _

theorem after (first : Quiet action) (rest : ∀ value, Binds env point binders (next value)) :
    Binds env point binders (action >>= next) :=
  (quiet first).bind rest

/-- A step that queues nothing comes first, and something is known of its
    result. -/
theorem knowing {known : α → Prop} (first : Quiet action)
    (answers : ∀ before result after, action env before = .ok (result, after) → known result)
    (rest : ∀ value, known value → Binds env point binders (next value)) :
    Binds env point binders (action >>= next) := by
  intro before result after ran
  obtain ⟨value, middle, ranFirst, ranRest⟩ := bind_eq_ok ran
  rw [← first _ _ _ _ ranFirst]
  exact rest value (answers _ _ _ ranFirst) _ _ _ ranRest

theorem ite [Decidable condition] (isYes : condition → Binds env point binders yes)
    (isNo : ¬condition → Binds env point binders no) :
    Binds env point binders (if condition then yes else no) := by
  split
  · exact isYes ‹_›
  · exact isNo ‹_›

theorem rethrow {handler : LowerError → Pass α} (binds : Binds env point binders action)
    (raises : ∀ error before result after, handler error env before ≠ .ok (result, after)) :
    Binds env point binders (tryCatch action handler) := by
  intro before result after ran
  rcases tryCatch_eq_ok ran with acted | ⟨error, raised⟩
  · exact binds before result after acted
  · exact absurd raised (raises error before result after)

end Binds

variable (env : PassEnv) (point : InstallPoint) (span : Span)

theorem temporary_binds : Binds env point [] (temporary point "t" type span) := by
  rintro before result after ⟨⟩
  refine (HoistQueue.Extends.temporary ?_ before.hoists).congr (by simp)
  exact ⟨before.nextName, rfl⟩

/-- A local that is written down for a type stands for every variable of that
    type. -/
theorem hoist_binds {shown : TypeSyntax} (designates : isDesignation name = true)
    (stands : ∀ type, env.view.resolved? mark = some type →
      shown = env.view.types.names.syntaxOf type) :
    Binds env point (binder mark name) (hoist point name shown span) := by
  rintro before result after ⟨⟩
  have isFor : HoistedLocal.StandsFor env.view mark ⟨name, shown, span⟩ := stands
  exact (HoistQueue.Extends.declare isFor before.hoists).congr (by simp [binder, designates])

theorem designate_binds {mark : Mark} {subjectType : Ty} : Binds env point (binder mark name)
      (designate point span mark name written subjectType value) := by
  unfold designate
  cases designates : isDesignation name with
  | false =>
    rw [binder, designates]
    exact .pure _
  | true =>
    have viewed (before result after) (ran : view env before = .ok (result, after)) :
        result = env.view := by
      cases ran
      rfl
    refine .knowing view_asks.quiet viewed ?_
    rintro view rfl
    have queued (shown : TypeSyntax) (stands : ∀ type, env.view.resolved? mark = some type →
        shown = env.view.types.names.syntaxOf type) :
        Binds env point (binder mark name) (do
          hoist point name shown span
          return { assigns := [span.assign (span.ident name) value] : TestParts }) :=
      (hoist_binds env point span designates stands).map _
    cases resolved : env.view.resolved? mark with
    | none =>
      have anything (shown : TypeSyntax) := queued shown fun type found => by
        rw [resolved] at found
        cases found
      exact .ite (fun _ => anything written) fun _ => .after syntaxOf_quiet anything
    | some type =>
      have isKnown : type.isUnknown = false := by
        have isType := (Option.filter_eq_some_iff.1 resolved).2
        simpa [Ty.isUnknown] using isType
      have shows (before result after) (ran : syntaxOf type env before = .ok (result, after)) :
          result = env.view.types.names.syntaxOf type := by
        cases ran
        rfl
      unfold View.resolved? at resolved
      simp only [resolved, isKnown, Bool.and_false, Bool.false_eq_true, if_false]
      refine .knowing syntaxOf_quiet shows fun shown isShown => queued shown ?_
      intro other isOther
      rw [View.resolved?, resolved] at isOther
      cases isOther
      exact isShown

/-- Every step queues its own variables, whatever the test is made of. -/
def bindsWalk : TestWalk point span where
  toTestSteps := .runs env ExtendsAt.refl ExtendsAt.trans point span
  toTestReads := .any span
  brings _ := True
  made _ _ := True
  part _ _ := trivial
  inPattern _ := TestSteps.runs_inPattern env _ _
  nothing := trivial
  check _ := trivial
  append _ _ := trivial
  whole _ _ := trivial
  discard _ := trivial
  null _ _ _ := trivial
  compare _ _ _ _ := trivial
  equals _ _ _ := trivial
  or _ _ := trivial
  not _ := trivial
  temporary _ before result after ran :=
    ⟨trivial, temporary_binds env point span before result after ran⟩
  prepend _ _ _ := trivial
  designate _ _ _ _ _ before result after ran :=
    ⟨trivial, designate_binds env point span before result after ran⟩

theorem lowerPattern_binds {subject : Subject} {node : Pattern} :
    Binds env point node.binders (lowerPattern point span subject node) :=
  fun before result after ran =>
    ((bindsWalk env point span).lowerPattern subject trivial node trivial before result after ran).2

theorem patternCondition_binds {subject : Subject} {node : Pattern} :
    Binds env point node.binders (patternCondition point span subject node) :=
  .after view_asks.quiet fun _ => .ite (fun _ => (lowerPattern_binds env point span).map _)
    fun _ => (temporary_binds env point span).bind fun _ =>
      (lowerPattern_binds env point span).map _

/-! ## Switch statements -/

theorem labelCondition_binds {id : Nat} {subject : Subject} {tested : Pattern}
    {guard : Option Expr} :
    Binds env (.stmt id) tested.binders (labelCondition id subject tested guard) := by
  rw [← append_nil tested.binders]
  refine (patternCondition_binds env _ _).bind fun cond => ?_
  split <;> exact .pure _

theorem labelConditions_binds {id : Nat} {subject : Subject} {labels : List Label} :
    Binds env (.stmt id) (labels.flatMap Label.binders) (labelConditions id subject labels) := by
  induction labels with
  | nil => exact .pure _
  | cons label rest ih =>
    cases label with
    | default => exact ih
    | case tested guard =>
      exact (labelCondition_binds env).bind fun _ =>
        ih.map _

theorem sectionBody_quiet {body : List Stmt} : Quiet (sectionBody span body) := by
  unfold sectionBody
  split
  dsimp only
  split
  · exact unsupported_asks.quiet
  · exact .ite (markChanged_quiet.bind fun _ => .pure _) (.pure _)

theorem switchArms_binds (id : Nat) (subject : Subject) :
    (sections : List Section) → (seen : SwitchArms) →
    Binds env (.stmt id) (sections.flatMap Section.binders)
      (switchArms id span subject seen sections)
  | [], seen => .pure _
  | ⟨labels, body⟩ :: rest, seen => by
    unfold switchArms
    rw [flatMap_cons, Section.binders]
    refine .after (sectionBody_quiet span) fun block => ?_
    split
    · exact switchArms_binds id subject rest _
    · refine (labelConditions_binds env).bind fun conds => ?_
      split
      · exact switchArms_binds id subject rest _
      · exact switchArms_binds id subject rest _

theorem lowerSwitch_binds {node : Stmt} {subject : Expr} {sections : List Section} :
    Binds env (.stmt (node.id.getD 0)) (sections.flatMap Section.binders)
      (lowerSwitch node subject sections) := by
  have lowered (tested : Subject) (opening : List Stmt) :
      Binds env (.stmt (node.id.getD 0)) (sections.flatMap Section.binders) (do
        let arms ← switchArms (node.id.getD 0) node.span tested {} sections
        setStmt node (.block (opening ++ (ifChain node.span arms.otherwise arms.arms).toList))) := by
    rw [← append_nil (sections.flatMap _)]
    exact (switchArms_binds env node.span _ tested sections {}).bind fun _ =>
      .quiet setStmt_quiet
  refine .after typeOf_asks.quiet fun type => ?_
  dsimp only
  split
  · exact lowered _ _
  · exact .after fresh_quiet fun _ => .after localSyntax_quiet fun _ => lowered _ _

end Pass

end Unsugar
