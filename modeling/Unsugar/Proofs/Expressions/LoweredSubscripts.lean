import Unsugar.Proofs.Expressions.Operands
import Unsugar.Proofs.Hoist.DesignatedTypes

namespace Unsugar

/-! # Lowered subscripts

What a subscript is lowered to reads its receiver and its bounds once, in the order in
which they are written, and computes the offsets from them.
-/

open Pass

/-! ## Temporaries of subscripts -/

variable {type : Ty} {bound : Option Expr} {receiver : Expr}

def IsDrawn (name : String) : Prop :=
  ∃ hint number, hint ∈ ["r", "g", "i"] ∧ name = freshName hint number

theorem freshName_ne {first second : Char} (different : first ≠ second) {left right : Nat} :
    freshName (String.ofList [first]) left ≠ freshName (String.ofList [second]) right := by
  intro same
  have spelled := congrArg String.toList same
  simp [freshName, String.toList_append, different] at spelled

/-- What a value that may be read again is kept in, if it is not simple. -/
inductive Stable (value : Expr) (name : String) : Expr → Option Expr → Prop where
  | simple (isSimple : value.isSimple = true) : Stable value name value none
  | held : Stable value name (value.span.ident name)
      (some (value.span.assign (value.span.ident name) value))

variable {others : Set String} {before after : PassState} {capture : Option Expr} {name : String}

namespace Pass

variable {α β : Type} {env : PassEnv} {point : InstallPoint} {action : Pass α}

def Succeeds (env : PassEnv) (point : InstallPoint) (action : Pass α) : Prop :=
  ∀ before, ∃ result after, action env before = .ok (result, after) ∧
    ∀ name ∈ before.hoists.names point, name ∈ after.hoists.names point

namespace Succeeds

theorem pure (value : α) : Succeeds env point (Pure.pure value) :=
  fun before => ⟨value, before, rfl, fun _ isIn => isIn⟩

theorem bind {next : α → Pass β} (first : Succeeds env point action)
    (rest : ∀ value, Succeeds env point (next value)) : Succeeds env point (action >>= next) := by
  intro before
  obtain ⟨value, middle, ran, kept⟩ := first before
  obtain ⟨result, after, ranRest, keptRest⟩ := rest value middle
  exact ⟨result, after, (bind_ok ran).trans ranRest, fun name isIn => keptRest name (kept name isIn)⟩

theorem ask {next : α → Pass β} {answer : α}
    (asked : ∀ state, action env state = .ok (answer, state))
    (rest : Succeeds env point (next answer)) : Succeeds env point (action >>= next) := by
  intro before
  obtain ⟨result, after, ran, kept⟩ := rest before
  exact ⟨result, after, (bind_ok (asked before)).trans ran, kept⟩

theorem ite {condition : Prop} [Decidable condition] {yes no : Pass α} (isYes : Succeeds env point yes)
    (isNo : Succeeds env point no) : Succeeds env point (if condition then yes else no) := by
  split
  · exact isYes
  · exact isNo

theorem kept (succeeds : Succeeds env point action) {result : α}
    (ran : action env before = .ok (result, after)) (isIn : name ∈ before.hoists.names point) :
    name ∈ after.hoists.names point := by
  obtain ⟨_, _, ranAgain, kept⟩ := succeeds before
  rw [ran] at ranAgain
  cases ranAgain
  exact kept name isIn

end Succeeds

def HoistsDeclared (env : PassEnv) (site : Site) (anchor : Expr) (scope : Nat) (state : PassState)
    (machine : Machine) : Prop :=
  ∀ point, env.PointOf site anchor point → ∀ name ∈ state.hoists.names point,
    (machine.valueOf? scope name).isSome

variable {site : Site} {anchor : Expr}

theorem findPoint_span {owner : Owner} {span : Span} {nodes : List Node}
    (ran : findPoint owner span nodes env before = .ok (point, after)) {other : Span} :
    findPoint owner other nodes env before = .ok (point, after) := by
  fun_induction findPoint owner span nodes with
  | case1 => cases ran
  | case2 rest node id isNode =>
    rw [findPoint, isNode]
    exact ran
  | case3 rest node isNode ih =>
    rw [findPoint, isNode]
    exact ih ran
  | case4 rest node id params isAsync body isLambda =>
    simp only [findPoint, isLambda]
    exact ran
  | case5 node id isNode notLambda =>
    simp only [findPoint, isNode]
    obtain ⟨settings, _, asked, ran⟩ := bind_eq_ok ran
    obtain ⟨moves, state, isMoved, ran⟩ := bind_eq_ok ran
    refine (bind_ok asked).trans ((bind_ok isMoved).trans ?_)
    split at ran
    · next moved => rw [if_pos moved]; exact ran
    · cases ran
  | case6 rest node notLambda notLast ih =>
    simp only [findPoint]
    exact ih ran
  | case7 rest node ih =>
    rw [findPoint]
    exact ih ran

theorem installPoint_pointOf {span : Span}
    (ran : installPoint site anchor span env before = .ok (point, after)) :
    env.PointOf site anchor point ∧ after = before := by
  obtain ⟨same, always⟩ := installPoint_asks _ _ _ _ ran
  exact ⟨fun state => findPoint_span (always state), same⟩

theorem stabilize_stable {value stable : Expr} {hint : String}
    (ran : stabilize site anchor value type hint env before = .ok ((stable, capture), after)) :
    Stable value (freshName hint before.nextName) stable capture ∧
      (capture.isSome → ∃ point, env.PointOf site anchor point ∧
        freshName hint before.nextName ∈ after.hoists.names point) := by
  unfold stabilize at ran
  split at ran
  · next isSimple =>
      cases ran
      exact ⟨.simple isSimple, nofun⟩
  · obtain ⟨point, state, asked, queued⟩ := bind_eq_ok ran
    obtain ⟨placed, rfl⟩ := installPoint_pointOf asked
    cases queued
    exact ⟨.held, fun _ => ⟨point, placed, HoistQueue.mem_names_declare.2 (.inr rfl)⟩⟩

section Succeeds

variable (placed : env.PointOf site anchor point)

include placed

theorem stabilize_succeeds {value : Expr} {hint : String} :
    Succeeds env point (stabilize site anchor value type hint) := by
  refine .ite (.pure _) fun before => ?_
  exact ⟨_, _, bind_ok (findPoint_span (placed before)),
    fun _ isIn => HoistQueue.mem_names_declare.2 (.inl isIn)⟩

theorem slice_succeeds {span : Span} {sequence : Sequenced} {start stop : Expr} :
    Succeeds env point (slice site anchor span sequence start stop) :=
  .ite (.pure _) (.ite (.pure _) (.bind (stabilize_succeeds placed) fun _ => .pure _))

omit placed in
theorem bound_succeeds {sequence : Sequenced} {span : Span} {missing : Expr} :
    Succeeds env point (sequence.bound span missing bound) := by
  unfold Sequenced.bound
  cases bound with
  | none => exact .pure _
  | some value =>
    dsimp only
    split
    · exact .pure _
    · exact .ask (types_ok env) (.ask (typeOf_ok env _) (.ite (.pure _) (.pure _)))

theorem subscript_succeeds {span : Span} {arg : SubscriptArg} :
    Succeeds env point (subscript site anchor span receiver type arg) := by
  refine .ask (types_ok env) ?_
  cases arg with
  | fromEnd value => exact .pure _
  | indexValue index => exact .pure _
  | range start stop =>
    exact .bind bound_succeeds fun _ => .bind bound_succeeds fun _ =>
      slice_succeeds placed
  | rangeValue range =>
    exact .ask (typeOf_ok env _) (.bind (stabilize_succeeds placed) fun _ =>
      .bind (slice_succeeds placed) fun _ => .pure _)

theorem subscriptOn_succeeds {span : Span} {arg : SubscriptArg} :
    Succeeds env point (subscriptOn site anchor span receiver arg) :=
  .ask (typeOf_ok env _) (.bind (stabilize_succeeds placed) fun _ =>
    .bind (subscript_succeeds placed) fun _ => .pure _)

end Succeeds

namespace HoistsDeclared

variable {scope : Nat} {machine : Machine} {after : PassState}

theorem of_queued {result : α} {middle : PassState}
    (declared : HoistsDeclared env site anchor scope after machine)
    (isQueued : capture.isSome → ∃ point, env.PointOf site anchor point ∧
      name ∈ middle.hoists.names point)
    (succeeds : ∀ {point}, env.PointOf site anchor point → Succeeds env point action)
    (ran : action env middle = .ok (result, after)) (isHeld : capture.isSome) :
    (machine.valueOf? scope name).isSome := by
  obtain ⟨point, placed, isIn⟩ := isQueued isHeld
  exact declared point placed name ((succeeds placed).kept ran isIn)

theorem later {written : Set String} {later : Machine}
    (declared : HoistsDeclared env site anchor scope after machine)
    (enlarges : Enlarges scope written machine later) :
    HoistsDeclared env site anchor scope after later :=
  fun point placed name isIn => enlarges.declared name (declared point placed name isIn)

end HoistsDeclared

end Pass

/-! ## Giving -/

section Gives

variable (program : Program) (scope : Nat) (frame : Frame)

/-- An expression gives what is selected, or ends with the exception where nothing is.
    Only these variables may have got other values then. -/
def Gives (written : Set String) (exception : String) (node : Expr) (before : Machine)
    (result : Option Matched) : Prop :=
  ∃ outcome after, EndsWith program scope frame node before outcome after ∧
    Selected exception after result outcome ∧ Enlarges scope written before after

end Gives

section Gives

variable {program : Program} {scope : Nat} {frame : Frame} {reads written : Set String}
  {machine : Machine} {exception : String} {result : Option Matched} {node value : Expr}
  {meant : Meant} {span : Span}

theorem Gives.mono (gives : Gives program scope frame written exception node machine result)
    (subset : written ⊆ others) :
    Gives program scope frame others exception node machine result := by
  obtain ⟨outcome, after, ends, selected, enlarges⟩ := gives
  exact ⟨outcome, after, ends, selected, enlarges.mono subset⟩

theorem Gives.of_kind {other : Expr} (gives : Gives program scope frame written exception other
    machine result) (same : node.kind = other.kind) :
    Gives program scope frame written exception node machine result := by
  obtain ⟨outcome, after, ends, rest⟩ := gives
  exact ⟨outcome, after, ends.of_kind same, rest⟩

theorem Stable.gives {stable : Expr} (isStable : Stable value name stable capture)
    (isValue : Yields program scope frame reads machine value meant)
    (isDeclared : capture.isSome → (machine.valueOf? scope name).isSome)
    (isWritten : name ∈ written)
    (rest : ∀ later, Enlarges scope {name} machine later →
      Yields program scope frame (insert name reads) later stable.forget meant →
      Gives program scope frame written exception node later result) :
    Gives program scope frame written exception (span.after capture node) machine result := by
  cases isStable with
  | simple isSimple =>
    exact rest machine (.refl machine)
      ((isValue.forget isSimple).mono (.refl machine) (Set.subset_insert _ _))
  | held =>
    obtain ⟨held, middle, evaluated, isHeld, kept⟩ := isValue machine (.refl machine)
    have declared := kept.declared name (isDeclared rfl)
    have assigned : Enlarges scope {name} middle (middle.assign scope name held) :=
      (Changes.ofAssign held declared).enlarges
    have reached : Enlarges scope {name} machine (middle.assign scope name held) :=
      kept.ofNothing.trans assigned
    have stored : (middle.assign scope name held).valueOf? scope name = some held := by
      rw [Machine.valueOf?_assign declared, if_pos rfl]
    obtain ⟨outcome, after, ends, selected, enlarges⟩ := rest _ reached
      (.ident stored (isHeld.mono assigned) (Set.mem_insert _ _))
    have keeps : Evaluates program scope frame
        (value.span.assign (value.span.ident name) value) machine held _ :=
      evaluated.assign_shared isHeld.copyStruct_eq declared
    exact ⟨outcome, after, .seq (.single keeps) ends, selected,
      (reached.mono (Set.singleton_subset_iff.2 isWritten)).trans enlarges⟩

end Gives

/-! ## Sequences -/

section Sequences

variable (program : Program) (scope : Nat) (frame : Frame)

/-- A receiver can be read again and again, and holds a text or a sequence. -/
structure Pass.Sequenced.Holds (reads : Set String) (machine : Machine) (sequence : Sequenced)
    (held : Value) (indexed : Indexed) : Prop where
  yields : Yields program scope frame reads machine sequence.read (.plain held)
  notBase : sequence.read.kind ≠ .base
  found : (Matched.value held).indexed? machine = some indexed
  short : indexed.length < lengthLimit
  measured : sequence.length = "Length" ∨
    sequence.length = "Count" ∧ ((Matched.value held).sequence? machine).isSome
  isText : sequence.type = .string ↔ ∃ text, held = .str text

/-- A text of type `string`, or a sequence of another type, shorter than the limit. -/
structure Ty.Indexes (type : Ty) (machine : Machine) (held : Value) (indexed : Indexed) : Prop where
  isText : type = .string ↔ ∃ text, held = .str text
  found : (Matched.value held).indexed? machine = some indexed
  short : indexed.length < lengthLimit

def Computes (reads : Set String) (machine : Machine) (length : Nat) (node : Expr)
    (offset : Offset) : Prop :=
  ∃ number, offset.ComputedAs length number ∧
    Yields program scope frame reads machine node (.plain (.int number))

end Sequences

theorem Matched.sequence?_later {held : Value} {machine later : Machine} {items : Sequence}
    (found : (Matched.value held).sequence? machine = some items)
    (extended : later.Extends machine) : (Matched.value held).sequence? later = some items := by
  obtain ⟨address, rfl, present⟩ := Matched.sequence?_value found
  exact extended address items present

theorem Matched.indexed?_later {held : Value} {machine later : Machine} {indexed : Indexed}
    (found : (Matched.value held).indexed? machine = some indexed)
    (extended : later.Extends machine) : (Matched.value held).indexed? later = some indexed := by
  rcases Matched.indexed?_cases found with ⟨text, isText, rfl⟩ | ⟨items, isSequence, rfl⟩
  · cases isText
    rfl
  · exact Matched.indexed?_sequence (sequence?_later isSequence extended)

namespace Pass.Sequenced.Holds

variable {program : Program} {scope : Nat} {frame : Frame} {reads : Set String}
  {machine : Machine} {sequence : Sequenced} {held : Value} {indexed : Indexed} {span : Span}
  {offset start stop : Offset} {node first last : Expr}
  (holds : sequence.Holds program scope frame reads machine held indexed)

include holds

theorem mono {later : Machine} (enlarges : Enlarges scope readsᶜ machine later)
    (subset : reads ⊆ others) :
    sequence.Holds program scope frame others later held indexed where
  yields := holds.yields.mono enlarges subset
  notBase := holds.notBase
  found := Matched.indexed?_later holds.found enlarges.sequences
  short := holds.short
  measured := holds.measured.imp_right fun ⟨named, isSequence⟩ => by
    obtain ⟨items, found⟩ := Option.isSome_iff_exists.1 isSequence
    exact ⟨named, by rw [Matched.sequence?_later found enlarges.sequences]; rfl⟩
  isText := holds.isText

theorem readLength : Yields program scope frame reads machine (sequence.readLength span)
      (.plain (.int indexed.length)) := by
  intro later enlarges
  obtain ⟨value, after, evaluated, ⟨rfl, isPlain⟩, kept⟩ := holds.yields later enlarges
  have reached := holds.mono (enlarges.trans kept.ofNothing) subset_rfl
  refine ⟨.int indexed.length, after, .member evaluated fun recur => ?_, ⟨rfl, rfl⟩, kept⟩
  rcases Matched.indexed?_cases reached.found with ⟨text, isText, rfl⟩ | ⟨items, isSequence, rfl⟩
  · cases isText
    obtain named | ⟨_, noSequence⟩ := reached.measured
    · rw [named]
      rfl
    · cases noSequence
  · obtain ⟨address, rfl, present⟩ := Matched.sequence?_value isSequence
    have counted : (Machine.sequence address >>= fun sequence =>
        (pure (.int sequence.items.length) : Eval Value)) after =
        (.ok (.int items.items.length), after) := Eval.bind_ok (Machine.sequence_eq present)
    obtain named | ⟨named, _⟩ := reached.measured <;> rw [named] <;> exact counted

theorem fromEnd {value : Expr} {number : Int32}
    (yields : Yields program scope frame reads machine value (.plain (.int number.toInt))) :
    Computes program scope frame reads machine indexed.length (sequence.fromEnd span value)
      ⟨number, true⟩ :=
  ⟨_, .difference number holds.short, holds.readLength.difference yields⟩

theorem offsetOf (notBase : node.kind ≠ .base)
    (yields : Yields program scope frame reads machine node (.index offset)) :
    Computes program scope frame reads machine indexed.length (sequence.offsetOf span node) offset :=
  ⟨_, .position offset holds.short, .offset holds.short yields notBase holds.readLength⟩

theorem item (computes : Computes program scope frame reads machine indexed.length node offset) :
    Gives program scope frame ∅ (Selection.item offset).exception
      (span.index sequence.read [node]) machine ((Selection.item offset).of indexed) := by
  obtain ⟨number, computed, yields⟩ := computes
  obtain ⟨_, middle, _, after, receiverEval, offsetEval, ⟨rfl, _⟩, ⟨rfl, _⟩, kept⟩ :=
    holds.yields.both yields (.refl machine)
  obtain ⟨outcome, last, ran, selected, selecting⟩ :=
    Selects.getIndex (Matched.indexed?_later holds.found kept.sequences) computed
  exact ⟨outcome, last, .index receiverEval (.single offsetEval) ran, selected,
    kept.trans (selecting scope)⟩

theorem called {name exception : String} {number other : Int} {result : Option Matched}
    {action : Eval Value}
    (isFirst : Yields program scope frame reads machine first (.plain (.int number)))
    (isLast : Yields program scope frame reads machine last (.plain (.int other)))
    (isBuiltin : ∀ recur : Answer,
      Eval.builtinMethod program recur held name [.int number, .int other] = action)
    (selects : ∀ later, later.Extends machine → Selects exception result action later) :
    Gives program scope frame ∅ exception (span.methodCall sequence.read name [first, last]) machine
      result := by
  obtain ⟨_, middle, _, after, firstEval, lastEval, ⟨rfl, _⟩, ⟨rfl, _⟩, kept⟩ :=
    isFirst.both isLast (.refl machine)
  obtain ⟨_, reached, receiverEval, ⟨rfl, isPlain⟩, keptAgain⟩ := holds.yields after kept.ofNothing
  have whole := kept.trans keptAgain
  obtain ⟨outcome, last, ran, selected, selecting⟩ := selects reached whole.sequences
  refine ⟨outcome, last, .methodCall (.cons firstEval (.single lastEval)) receiverEval holds.notBase
    (.inl isPlain) (fun recur => ?_), selected, whole.trans (selecting scope)⟩
  rw [isBuiltin recur, ran]

theorem substring {number count : Int} (isString : sequence.type = .string)
    (isFirst : Yields program scope frame reads machine first (.plain (.int number)))
    (isLast : Yields program scope frame reads machine last (.plain (.int count)))
    (counted : start.CountedAs stop indexed.length number count) :
    Gives program scope frame ∅ (Selection.part start stop).exception
      (span.methodCall sequence.read "Substring" [first, last]) machine
      ((Selection.part start stop).of indexed) := by
  obtain ⟨text, rfl⟩ := holds.isText.1 isString
  cases holds.found
  exact holds.called isFirst isLast (fun _ => rfl) fun _ _ => .substring counted

theorem slice (notString : sequence.type ≠ .string)
    (isFirst : Computes program scope frame reads machine indexed.length first start)
    (isLast : Computes program scope frame reads machine indexed.length last stop) :
    Gives program scope frame ∅ (Selection.part start stop).exception
      (span.methodCall sequence.read "Slice" [first, last]) machine
      ((Selection.part start stop).of indexed) := by
  obtain ⟨number, isStart, firstYields⟩ := isFirst
  obtain ⟨stopNumber, isStop, lastYields⟩ := isLast
  rcases Matched.indexed?_cases holds.found with ⟨text, isText, rfl⟩ | ⟨items, isSequence, rfl⟩
  · cases isText
    exact absurd (holds.isText.2 ⟨text, rfl⟩) notString
  · obtain ⟨address, rfl, present⟩ := Matched.sequence?_value isSequence
    exact holds.called firstYields lastYields (fun _ => rfl) fun later extended =>
      .slice (extended address items present) isStart isStop

end Pass.Sequenced.Holds

/-! ## Parts -/

section Parts

variable {program : Program} {scope : Nat} {frame : Frame} {reads : Set String}
  {machine : Machine} {held : Value} {indexed : Indexed} {env : PassEnv} {before after : PassState}
  {site : Site} {anchor : Expr} {point : InstallPoint} {span : Span} {start stop : Offset}

theorem Computes.mono {length : Nat} {node : Expr} {offset : Offset} {later : Machine}
    (computes : Computes program scope frame reads machine length node offset)
    (enlarges : Enlarges scope readsᶜ machine later) (subset : reads ⊆ others) :
    Computes program scope frame others later length node offset := by
  obtain ⟨number, computed, yields⟩ := computes
  exact ⟨number, computed, yields.mono enlarges subset⟩

theorem isZero_eq {node : Expr} (isZero : Pass.isZero node = true) :
    node.kind = .literal (.int 0) := by
  unfold Pass.isZero at isZero
  split at isZero
  · rfl
  · cases isZero

theorem slice_gives {sequence : Sequenced} {first last lowered : Expr}
    (holds : sequence.Holds program scope frame reads machine held indexed)
    (isFirst : Computes program scope frame reads machine indexed.length first start)
    (isLast : Computes program scope frame reads machine indexed.length last stop)
    (isFresh : ∀ number, freshName "i" number ∉ reads)
    (ran : slice site anchor span sequence first last env before = .ok (lowered, after))
    (declared : HoistsDeclared env site anchor scope after machine) :
    Gives program scope frame { name | IsDrawn name } (Selection.part start stop).exception lowered
      machine ((Selection.part start stop).of indexed) := by
  unfold slice at ran
  by_cases isString : sequence.type = .string
  · rw [if_neg (not_not_intro isString)] at ran
    by_cases isZero : Pass.isZero first = true
    · rw [if_pos isZero] at ran
      cases ran
      obtain ⟨number, isStart, firstYields⟩ := isFirst
      obtain ⟨count, isStop, lastYields⟩ := isLast
      have isLiteral : Evaluates program scope frame first machine (.int 0) machine :=
        (Evaluates.literal span (.int 0) machine).of_kind (isZero_eq isZero)
      obtain ⟨_, _, evaluated, ⟨rfl, _⟩, _⟩ := firstYields machine (.refl machine)
      obtain rfl : number = 0 := Value.int.inj (evaluated.unique isLiteral)
      exact (holds.substring isString firstYields lastYields (.fromZero isStart isStop)).mono
        (Set.empty_subset _)
    · rw [if_neg isZero] at ran
      obtain ⟨⟨stable, capture⟩, middle, stabilized, ran⟩ := bind_eq_ok ran
      obtain ⟨isStable, isQueued⟩ := stabilize_stable stabilized
      cases ran
      obtain ⟨number, isStart, firstYields⟩ := isFirst
      refine isStable.gives firstYields (declared.of_queued isQueued (fun _ => .pure ()) rfl)
        ⟨"i", _, by simp, rfl⟩ fun later enlarges reread => ?_
      have apart : Enlarges scope readsᶜ machine later :=
        enlarges.mono (Set.singleton_subset_iff.2 (isFresh _))
      obtain ⟨stopNumber, isStop, lastYields⟩ := isLast.mono apart (Set.subset_insert _ _)
      exact ((holds.mono apart (Set.subset_insert _ _)).substring isString reread
        (lastYields.difference reread) (.difference holds.short isStart isStop)).mono
        (Set.empty_subset _)
  · rw [if_pos isString] at ran
    cases ran
    exact (holds.slice isString isFirst isLast).mono (Set.empty_subset _)

end Parts

/-! ## Forms of subscripts -/

section Forms

variable (view : View) (denotes : Site → Expr → Meant → Prop)

inductive BoundAs (site : Site) (missing : Offset) : Option Expr → Offset → Prop where
  | absent : BoundAs site missing none missing
  | number {node : Expr} {value : Int32} (isInt : view.typeOf node = .int)
      (notOffset : node.kind.isOffset = false)
      (isNumber : denotes site node (.plain (.int value.toInt))) :
      BoundAs site missing (some node) ⟨value, false⟩
  | fromEnd {mark : Mark} {inner : Expr} {value : Int32}
      (isNumber : denotes (site.below (.expr ⟨mark, .fromEnd inner⟩)) inner
        (.plain (.int value.toInt))) :
      BoundAs site missing (some ⟨mark, .fromEnd inner⟩) ⟨value, true⟩
  | index {node : Expr} {offset : Offset}
      (isNamed : view.types.isNamed (view.typeOf node) "Index" = true)
      (isIndex : denotes site node (.index offset)) : BoundAs site missing (some node) offset

def BoundsAs (site : Site) (first last : Option Expr) (start stop : Offset) : Prop :=
  BoundAs view denotes site .first first start ∧ BoundAs view denotes site .last last stop

inductive SubscriptAs (site : Site) : Expr → Selection → Prop where
  | fromEnd {mark : Mark} {inner : Expr} {value : Int32}
      (isNumber : denotes (site.below (.expr ⟨mark, .fromEnd inner⟩)) inner
        (.plain (.int value.toInt))) :
      SubscriptAs site ⟨mark, .fromEnd inner⟩ (.item ⟨value, true⟩)
  | index {node : Expr} {offset : Offset}
      (isNamed : view.types.isNamed (view.typeOf node) "Index" = true)
      (isIndex : denotes site node (.index offset)) : SubscriptAs site node (.item offset)
  | range {mark : Mark} {first last : Option Expr} {start stop : Offset}
      (bounds : BoundsAs view denotes (site.below (.expr ⟨mark, .range first last⟩)) first last
        start stop) :
      SubscriptAs site ⟨mark, .range first last⟩ (.part start stop)
  | rangeValue {node : Expr} {start stop : Offset}
      (isNamed : view.types.isNamed (view.typeOf node) "Range" = true)
      (isRange : denotes site node (.range start stop)) : SubscriptAs site node (.part start stop)

end Forms

theorem BoundAs.imp {view : View} {denotes others : Site → Expr → Meant → Prop}
    (implies : ∀ site node meant, denotes site node meant → others site node meant) {site : Site}
    {missing offset : Offset}
    (isBound : BoundAs view denotes site missing bound offset) :
    BoundAs view others site missing bound offset := by
  cases isBound with
  | absent => exact .absent
  | number isInt notOffset isNumber => exact .number isInt notOffset (implies _ _ _ isNumber)
  | fromEnd isNumber => exact .fromEnd (implies _ _ _ isNumber)
  | index isNamed isIndex => exact .index isNamed (implies _ _ _ isIndex)

section Operands

variable (program : Program) (scope : Nat) (frame : Frame)

def Ready (reads : Set String) (machine : Machine) (_ : Site) (node : Expr) (meant : Meant) : Prop :=
  node.kind ≠ .base ∧ Yields program scope frame reads machine node meant

/-- An operand as it is written: lowering it succeeds, and then it yields what is meant. -/
def Operand (env : PassEnv) (reads : Set String) (machine : Machine) (site : Site) (node : Expr)
    (meant : Meant) : Prop :=
  ∀ before, ∃ lowered after, node.rebuild desugarRules site env before = .ok (lowered, after) ∧
    Ready program scope frame reads machine site lowered meant

end Operands

section Lowered

variable {program : Program} {scope : Nat} {frame : Frame} {reads : Set String}
  {machine : Machine} {held : Value} {indexed : Indexed} {env : PassEnv} {before after : PassState}
  {site : Site} {anchor node lowered : Expr} {point : InstallPoint} {span : Span}
  {sequence : Sequenced} {offset missing : Offset} {selection : Selection} {meant : Meant}

theorem Ready.mono {later : Machine} {site : Site}
    (ready : Ready program scope frame reads machine site node meant)
    (enlarges : Enlarges scope readsᶜ machine later) (subset : reads ⊆ others) :
    Ready program scope frame others later site node meant :=
  ⟨ready.1, ready.2.mono enlarges subset⟩

theorem Yields.not_offset (yields : Yields program scope frame reads machine node meant) :
    node.kind.isOffset = false := by
  obtain ⟨value, after, ⟨enough, runs⟩, _⟩ := yields machine (.refl machine)
  have ran := runs (enough + 1) (by omega)
  obtain ⟨mark, kind⟩ := node
  cases kind with
  | fromEnd inner => cases ran
  | range first last => cases ran
  | _ => rfl

theorem not_isNamed_int {types : Universe} : types.isNamed .int "Index" = false := rfl

theorem bound_computes {missingNode : Expr}
    (holds : sequence.Holds program scope frame reads machine held indexed)
    (isMissing : Computes program scope frame reads machine indexed.length missingNode missing)
    (isBound : BoundAs env.view (Ready program scope frame reads machine) site missing bound offset)
    (ran : sequence.bound span missingNode bound env before = .ok (lowered, after)) :
    Computes program scope frame reads machine indexed.length lowered offset := by
  have asked {value : Expr} (notOffset : value.kind.isOffset = false) :
      sequence.bound span missingNode (some value) env before =
        .ok (if env.view.types.isNamed (env.view.typeOf value) "Index" then
          sequence.offsetOf span value else value, before) := by
    obtain ⟨mark, kind⟩ := value
    unfold Sequenced.bound
    cases kind with
    | fromEnd inner => cases notOffset
    | _ =>
      dsimp only
      rw [bind_ok (types_ok env before), bind_ok (typeOf_ok env _ before)]
      split <;> rfl
  cases isBound with
  | absent =>
    cases ran
    exact isMissing
  | number isInt notOffset isNumber =>
    rw [asked notOffset, isInt, not_isNamed_int] at ran
    cases ran
    exact ⟨_, .fromStart _ holds.short, isNumber.2⟩
  | fromEnd isNumber =>
    cases ran
    exact holds.fromEnd isNumber.2
  | index isNamed isIndex =>
    rw [asked isIndex.2.not_offset, if_pos isNamed] at ran
    cases ran
    exact holds.offsetOf isIndex.1 isIndex.2

/-- What a lowered argument selects. -/
inductive SubscriptArg.Means (program : Program) (scope : Nat) (frame : Frame) (view : View)
    (reads : Set String) (machine : Machine) (site : Site) : SubscriptArg → Selection → Prop where
  | fromEnd {value : Expr} {number : Int32}
      (isNumber : Yields program scope frame reads machine value (.plain (.int number.toInt))) :
      Means program scope frame view reads machine site (.fromEnd value) (.item ⟨number, true⟩)
  | indexValue {value : Expr} {offset : Offset}
      (isIndex : Ready program scope frame reads machine site value (.index offset)) :
      Means program scope frame view reads machine site (.indexValue value) (.item offset)
  | range {first last : Option Expr} {start stop : Offset}
      (bounds : BoundsAs view (Ready program scope frame reads machine) site first last start stop) :
      Means program scope frame view reads machine site (.range first last) (.part start stop)
  | rangeValue {value : Expr} {start stop : Offset}
      (isRange : Yields program scope frame reads machine value (.range start stop)) :
      Means program scope frame view reads machine site (.rangeValue value) (.part start stop)

variable {arg : SubscriptArg}

theorem SubscriptArg.Means.mono {later : Machine} {view : View}
    (means : SubscriptArg.Means program scope frame view reads machine site arg selection)
    (enlarges : Enlarges scope readsᶜ machine later) (subset : reads ⊆ others) :
    SubscriptArg.Means program scope frame view others later site arg selection := by
  have onward (site : Site) (node : Expr) (meant : Meant)
      (ready : Ready program scope frame reads machine site node meant) :
      Ready program scope frame others later site node meant := ready.mono enlarges subset
  cases means with
  | fromEnd isNumber => exact .fromEnd (isNumber.mono enlarges subset)
  | indexValue isIndex => exact .indexValue (isIndex.mono enlarges subset)
  | range bounds => exact .range ⟨bounds.1.imp onward, bounds.2.imp onward⟩
  | rangeValue isRange => exact .rangeValue (isRange.mono enlarges subset)

theorem ofArgs?_means
    (selects : SubscriptAs env.view (Ready program scope frame reads machine) site node selection) :
    ∃ arg below, (∀ state, SubscriptArg.ofArgs? [node] env state = .ok (some arg, state)) ∧
      SubscriptArg.Means program scope frame env.view reads machine below arg selection := by
  have asked {value : Expr} (notOffset : value.kind.isOffset = false) (state : PassState) :
      SubscriptArg.ofArgs? [value] env state =
        .ok (if env.view.types.isNamed (env.view.typeOf value) "Index" then some (.indexValue value)
          else if env.view.types.isNamed (env.view.typeOf value) "Range" then
            some (.rangeValue value)
          else none, state) := by
    obtain ⟨mark, kind⟩ := value
    unfold SubscriptArg.ofArgs?
    cases kind with
    | fromEnd inner => cases notOffset
    | range first last => cases notOffset
    | _ =>
      dsimp only
      rw [bind_ok (types_ok env state), bind_ok (typeOf_ok env _ state)]
      split
      · rfl
      · split <;> rfl
  cases selects with
  | fromEnd isNumber => exact ⟨_, site, fun _ => rfl, .fromEnd isNumber.2⟩
  | index isNamed isIndex =>
    refine ⟨_, site, fun state => ?_, .indexValue isIndex⟩
    rw [asked isIndex.2.not_offset, if_pos isNamed]
  | range bounds => exact ⟨_, _, fun _ => rfl, .range bounds⟩
  | rangeValue isNamed isRange =>
    refine ⟨_, site, fun state => ?_, .rangeValue isRange.2⟩
    have notIndex : env.view.types.isNamed (env.view.typeOf node) "Index" = false := by
      unfold Universe.isNamed at isNamed ⊢
      obtain ⟨_, named⟩ := Bool.and_eq_true_iff.1 isNamed
      rw [beq_iff_eq.1 named, Bool.and_eq_false_iff]
      exact .inr rfl
    rw [asked isRange.2.not_offset, notIndex, if_neg Bool.false_ne_true, if_pos isNamed]

theorem subscript_gives {receiver : Expr} {type : Ty} {below : Site}
    (holds : Sequenced.Holds program scope frame reads machine
      ⟨receiver, type, env.view.types.lengthMember type⟩ held indexed)
    (means : SubscriptArg.Means program scope frame env.view reads machine below arg selection)
    (isFresh : ∀ hint ∈ ["g", "i"], ∀ number, freshName hint number ∉ reads)
    (ran : subscript site anchor span receiver type arg env before = .ok (lowered, after))
    (declared : HoistsDeclared env site anchor scope after machine) :
    Gives program scope frame { name | IsDrawn name } selection.exception lowered machine
      (selection.of indexed) := by
  unfold subscript at ran
  rw [bind_ok (types_ok env before)] at ran
  cases means with
  | fromEnd isNumber =>
    cases ran
    exact (holds.item (holds.fromEnd isNumber)).mono (Set.empty_subset _)
  | indexValue isIndex =>
    cases ran
    exact (holds.item (holds.offsetOf isIndex.1 isIndex.2)).mono (Set.empty_subset _)
  | range bounds =>
    obtain ⟨first, _, ranFirst, ran⟩ := bind_eq_ok ran
    obtain ⟨last, middle, ranLast, ran⟩ := bind_eq_ok ran
    have isZero : Computes program scope frame reads machine indexed.length (span.intLit 0)
        .first := ⟨_, .fromStart 0 holds.short, .intLit 0⟩
    have isLength : Computes program scope frame reads machine indexed.length
        (Sequenced.readLength ⟨receiver, type, env.view.types.lengthMember type⟩ span) .last := by
      refine ⟨indexed.length, ?_, holds.readLength⟩
      simpa [Offset.position, Offset.last] using Offset.ComputedAs.position .last holds.short
    exact slice_gives holds (bound_computes holds isZero bounds.1 ranFirst)
      (bound_computes holds isLength bounds.2 ranLast) (isFresh "i" (by simp)) ran declared
  | @rangeValue value start stop isRange =>
    obtain ⟨_, _, ranType, ran⟩ := bind_eq_ok ran
    cases ranType
    obtain ⟨⟨stable, capture⟩, middle, stabilized, ran⟩ := bind_eq_ok ran
    obtain ⟨isStable, isQueued⟩ := stabilize_stable stabilized
    obtain ⟨part, _, ranSlice, ran⟩ := bind_eq_ok ran
    cases ran
    refine isStable.gives isRange
      (declared.of_queued isQueued (fun placed => slice_succeeds placed) ranSlice)
      ⟨"g", _, by simp, rfl⟩ fun later enlarges reread => ?_
    have apart : Enlarges scope readsᶜ machine later :=
      enlarges.mono (Set.singleton_subset_iff.2 (isFresh "g" (by simp) _))
    have holdsLater := holds.mono apart (Set.subset_insert (freshName "g" before.nextName) _)
    refine slice_gives holdsLater (holdsLater.offsetOf (by nofun) reread.start)
      (holdsLater.offsetOf (by nofun) reread.stop) ?_ ranSlice (declared.later enlarges)
    rintro number (same | isRead)
    · exact freshName_ne (by decide) same
    · exact isFresh "i" (by simp) number isRead

theorem Ty.Indexes.holds {later : Machine} {stable : Expr}
    (indexes : type.Indexes machine held indexed) (extended : later.Extends machine)
    (notBase : stable.forget.kind ≠ .base)
    (yields : Yields program scope frame reads later stable.forget (.plain held)) :
    Sequenced.Holds program scope frame reads later
      ⟨stable, type, env.view.types.lengthMember type⟩ held indexed where
  yields := yields
  notBase := notBase
  found := Matched.indexed?_later indexes.found extended
  short := indexes.short
  isText := indexes.isText
  measured := by
    rcases Matched.indexed?_cases (Matched.indexed?_later indexes.found extended) with
      ⟨text, isText, -⟩ | ⟨items, isSequence, -⟩
    · cases isText
      rw [indexes.isText.2 ⟨text, rfl⟩]
      exact .inl rfl
    · unfold Universe.lengthMember
      split
      · exact .inr ⟨rfl, Option.isSome_of_eq_some isSequence⟩
      · exact .inl rfl

theorem Expr.forget_notBase {node : Expr} (isSimple : node.isSimple = true)
    (notBase : node.kind ≠ .base) : node.forget.kind ≠ .base := by
  match node, isSimple with
  | ⟨_, .base⟩, _ => exact absurd rfl notBase
  | ⟨_, .literal _⟩, _ | ⟨_, .ident _⟩, _ | ⟨_, .self⟩, _ | ⟨_, .typeRef _⟩, _
  | ⟨_, .defaultOf _⟩, _ | ⟨_, .paren ⟨_, _⟩⟩, _ => nofun

theorem Stable.notBase {value stable : Expr} (isStable : Stable value name stable capture)
    (notBase : value.kind ≠ .base) : stable.forget.kind ≠ .base := by
  cases isStable with
  | simple isSimple => exact value.forget_notBase isSimple notBase
  | held => nofun

theorem subscriptOn_gives {receiver : Expr} {below : Site}
    (indexes : (env.view.typeOf receiver).Indexes machine held indexed)
    (means : SubscriptArg.Means program scope frame env.view reads machine below arg selection)
    (isReceiver : Ready program scope frame reads machine below receiver (.plain held))
    (unreserved : ∀ name ∈ reads, ¬ IsDrawn name)
    (ran : subscriptOn site anchor span receiver arg env before = .ok (lowered, after))
    (declared : HoistsDeclared env site anchor scope after machine) :
    Gives program scope frame { name | IsDrawn name } selection.exception lowered machine
      (selection.of indexed) := by
  unfold subscriptOn at ran
  rw [bind_ok (typeOf_ok env receiver before)] at ran
  obtain ⟨⟨stable, capture⟩, middle, stabilized, ran⟩ := bind_eq_ok ran
  obtain ⟨isStable, isQueued⟩ := stabilize_stable stabilized
  obtain ⟨part, _, ranPart, ran⟩ := bind_eq_ok ran
  cases ran
  refine isStable.gives isReceiver.2
    (declared.of_queued isQueued (fun placed => subscript_succeeds placed) ranPart)
    ⟨"r", _, by simp, rfl⟩ fun later enlarges reread => ?_
  have apart : Enlarges scope readsᶜ machine later :=
    enlarges.mono (Set.singleton_subset_iff.2 fun isRead =>
      unreserved _ isRead ⟨"r", _, by simp, rfl⟩)
  have notBase := isStable.notBase isReceiver.1
  refine subscript_gives (indexes.holds enlarges.sequences notBase reread)
    (means.mono apart (Set.subset_insert _ _)) ?_ ranPart (declared.later enlarges)
  rintro hint isHint number (same | isRead)
  · rcases List.mem_pair.1 isHint with rfl | rfl
    · exact freshName_ne (by decide) same
    · exact freshName_ne (by decide) same
  · exact unreserved _ isRead ⟨hint, number, List.mem_cons_of_mem _ isHint, rfl⟩

end Lowered

end Unsugar
