import Unsugar.Proofs.Patterns.Contributions

open List

namespace Unsugar

open Pass (TestParts Subject ListSubject)

/-! # Sequences and tuples

What is known about the types that list and positional patterns apply to, and
how the elements of a list pattern line up with the items of a sequence.
-/

/-! ## Plain types -/

section Types

variable {types : Universe} {heap : Machine} {type item : Ty} {target : Matched}
  {sequence : Indexed}

theorem Ty.itemType?_cases (found : type.itemType? types = some item) :
    (type = .string ∧ item = .char) ∨ type = .array item ∨
      ∃ name, type = .applied name [item] ∧ types.names.template name = .library .list := by
  unfold Ty.itemType? at found
  split at found
  · cases found
    exact .inl ⟨rfl, rfl⟩
  · cases found
    exact .inr (.inl rfl)
  · rename_i name element
    split at found
    · rename_i isList
      cases found
      exact .inr (.inr ⟨name, rfl, isList⟩)
    · cases found
  · cases found

theorem Ty.itemType?_reference (found : type.itemType? types = some item) :
    types.isValueType type = false := by
  rcases itemType?_cases found with ⟨rfl, _⟩ | rfl | ⟨name, rfl, isList⟩
  · rfl
  · rfl
  · simp [Universe.isValueType, TypeNames.isValueType, TypeNames.shape, isList,
      LibraryGeneric.shape]

theorem Matched.indexed?_sequence {items : Sequence} (found : target.sequence? heap = some items) :
    target.indexed? heap = some (.ofSequence items) := by
  unfold Matched.indexed?
  split
  · cases found
  · rw [found]
    rfl

def Sequence.Admitted (types : Universe) (heap : Machine) (item : Ty) (items : Sequence) : Prop :=
  items.items.length < lengthLimit ∧ ∀ value ∈ items.items, item.Admits types heap (.value value)

theorem Ty.admits_iff (found : type.itemType? types = some item) :
    type.Admits types heap target ↔ target = .value .null ∨
      (type = .string ∧ ∃ text : String, target = .value (.str text) ∧
        text.toList.length < lengthLimit) ∨
      (type ≠ .string ∧ ∃ items, target.sequence? heap = some items ∧
        items.Admitted types heap item) := by
  rcases itemType?_cases found with ⟨rfl, _⟩ | rfl | ⟨name, rfl, isList⟩
  · simp [Ty.Admits]
  · simp [Ty.Admits, Sequence.Admitted]
  · simp [Ty.Admits, Sequence.Admitted, isList]

theorem mem_itemsBetween {α : Type} {items : List α} {start stop : Nat} {value : α}
    (isIn : value ∈ itemsBetween items start stop) : value ∈ items :=
  mem_of_mem_drop (mem_of_mem_take isIn)

theorem length_itemsBetween_le {α : Type} {items : List α} {start stop : Nat} :
    (itemsBetween items start stop).length ≤ items.length := by
  unfold itemsBetween
  rw [length_take, length_drop]
  omega

theorem Ty.Admits.indexed (admits : type.Admits types heap target)
    (found : type.itemType? types = some item) (isIndexed : target.indexed? heap = some sequence) :
    sequence.length < lengthLimit ∧
      (∀ index, index < sequence.length → item.Admits types heap (sequence.item index)) ∧
      ∀ start stop, type.Admits types heap (sequence.part start stop) := by
  rcases (admits_iff found).1 admits with
    rfl | ⟨rfl, text, rfl, short⟩ | ⟨notString, items, isSequence, short, admitted⟩
  · cases isIndexed
  · cases isIndexed
    obtain rfl : Ty.char = item := Option.some.inj found
    refine ⟨short, fun index _ => ⟨_, rfl⟩, fun start stop => .inr ⟨_, rfl, ?_⟩⟩
    rw [String.toList_ofList]
    exact Nat.lt_of_le_of_lt length_itemsBetween_le short
  · obtain rfl : Indexed.ofSequence items = sequence :=
      Option.some.inj ((Matched.indexed?_sequence isSequence).symm.trans isIndexed)
    refine ⟨short, fun index inside => ?_, fun start stop => ?_⟩
    · have inItems : items.items.getD index .null ∈ items.items := by
        rw [getD_eq_getElem?_getD, getElem?_eq_getElem inside, Option.getD_some]
        exact getElem_mem inside
      exact admitted _ inItems
    · refine (admits_iff found).2 (.inr (.inr ⟨notString, _, rfl, ?_, ?_⟩))
      · exact Nat.lt_of_le_of_lt length_itemsBetween_le short
      · exact fun value isIn => admitted value (mem_itemsBetween isIn)

theorem Ty.Admits.indexed?_iff (admits : type.Admits types heap target)
    (found : type.itemType? types = some item) :
    target ≠ .value .null ↔ ∃ sequence, target.indexed? heap = some sequence := by
  rcases (admits_iff found).1 admits with
    rfl | ⟨rfl, text, rfl, short⟩ | ⟨_, items, isSequence, _⟩
  · simp [Matched.indexed?, Matched.sequence?]
  · simp [Matched.indexed?]
  · refine ⟨fun _ => ⟨_, Matched.indexed?_sequence isSequence⟩, fun _ isNull => ?_⟩
    subst isNull
    cases isSequence

theorem Ty.Admits.lengthMember (admits : type.Admits types heap target)
    (found : type.itemType? types = some item) (isIndexed : target.indexed? heap = some sequence) :
    types.lengthMember type = "Length" ∨
      types.lengthMember type = "Count" ∧ (target.sequence? heap).isSome := by
  rcases (admits_iff found).1 admits with rfl | ⟨rfl, text, rfl, short⟩ | ⟨_, items, isSequence, _⟩
  · cases isIndexed
  · exact .inl rfl
  · unfold Universe.lengthMember
    split
    · exact .inr ⟨rfl, by rw [isSequence]; rfl⟩
    · exact .inl rfl

theorem Ty.itemType?_element (found : type.itemType? types = some item) :
    (if type = .string then .char else (types.data type).element.getD .unknown) = item := by
  rcases itemType?_cases found with ⟨rfl, rfl⟩ | rfl | ⟨name, rfl, isList⟩
  · rfl
  · rfl
  · simp [Universe.data, isList, LibraryGeneric.data, LibraryGeneric.arguments]

end Types

/-! ## Alignment -/

namespace Pass.ListSubject

variable (list : ListSubject)

/-- Whether an index lies after the slice, where elements count from the end. -/
def isPast (index : Nat) : Bool :=
  match list.sliceAt with
  | some position => decide (position < index)
  | none => false

def start (index length : Nat) : Nat :=
  if list.isPast index then length - (list.count - index) else index

def Enough (length : Nat) : Prop :=
  match list.sliceAt with
  | some _ => list.count - 1 ≤ length
  | none => length = list.count

structure Aligned (index : Nat) (rest : List Pattern) : Prop where
  count : list.count = index + rest.length
  before : list.isPast index = false →
    list.sliceAt = (rest.findIdx? Pattern.isSlice).map (· + index) ∧ rest.countP Pattern.isSlice ≤ 1
  past : list.isPast index = true → rest.countP Pattern.isSlice = 0

namespace Aligned

variable {list} {index : Nat} {node : Pattern} {rest : List Pattern}
  (aligned : list.Aligned index (node :: rest))

include aligned

theorem atSlice (here : list.sliceAt = some index) :
    node.isSlice = true ∧ list.isPast index = false ∧ list.isPast (index + 1) = true ∧
      list.Aligned (index + 1) rest := by
  have notPast : list.isPast index = false := by simp [isPast, here]
  have past : list.isPast (index + 1) = true := by simp [isPast, here]
  obtain ⟨placed, single⟩ := aligned.before notPast
  rw [here, findIdx?_cons] at placed
  have isSlice : node.isSlice = true := by
    cases isSlice : node.isSlice with
    | true => rfl
    | false =>
      cases found : rest.findIdx? Pattern.isSlice with
      | none => simp [isSlice, found] at placed
      | some position => simp [isSlice, found] at placed
  rw [countP_cons_of_pos isSlice] at single
  refine ⟨isSlice, notPast, past, ⟨?_, fun notYet => ?_, fun _ => by omega⟩⟩
  · have := aligned.count
    simp only [length_cons] at this
    omega
  · rw [past] at notYet
    cases notYet

theorem offSlice (elsewhere : list.sliceAt ≠ some index) :
    node.isSlice = false ∧ list.isPast (index + 1) = list.isPast index ∧
      list.Aligned (index + 1) rest := by
  have count : list.count = index + 1 + rest.length := by
    have := aligned.count
    simp only [length_cons] at this
    omega
  cases isPast : list.isPast index with
  | true =>
    have noSlice := aligned.past isPast
    have notSlice : node.isSlice = false := by
      cases isSlice : node.isSlice with
      | false => rfl
      | true => simp [countP_cons_of_pos isSlice] at noSlice
    have stillPast : list.isPast (index + 1) = true := by
      unfold ListSubject.isPast at isPast ⊢
      split at isPast
      · simp only [decide_eq_true_eq] at isPast ⊢
        omega
      · cases isPast
    rw [countP_cons_of_neg (by simp [notSlice])] at noSlice
    exact ⟨notSlice, stillPast, count, fun notPast => by simp [stillPast] at notPast, fun _ => noSlice⟩
  | false =>
    obtain ⟨placed, single⟩ := aligned.before isPast
    rw [findIdx?_cons] at placed
    have notSlice : node.isSlice = false := by
      cases isSlice : node.isSlice with
      | false => rfl
      | true =>
        rw [isSlice] at placed
        exact absurd (by simpa using placed) elsewhere
    rw [notSlice] at placed
    rw [countP_cons_of_neg (by simp [notSlice])] at single
    have placedNext : list.sliceAt = (rest.findIdx? Pattern.isSlice).map (· + (index + 1)) := by
      rw [placed]
      cases rest.findIdx? Pattern.isSlice with
      | none => rfl
      | some position => simp; omega
    have notPast : list.isPast (index + 1) = false := by
      unfold ListSubject.isPast
      rw [placedNext]
      cases rest.findIdx? Pattern.isSlice with
      | none => rfl
      | some position => exact decide_eq_false (by dsimp only; omega)
    exact ⟨notSlice, notPast, count, fun _ => ⟨placedNext, single⟩,
      fun past => by simp [notPast] at past⟩

theorem start_offSlice {length : Nat} (elsewhere : list.sliceAt ≠ some index)
    (enough : list.Enough length) :
    list.start index length < length ∧ list.start (index + 1) length = list.start index length + 1 ∧
      (list.isPast index = true → list.count - index ≤ length) := by
  obtain ⟨_, samePast, next⟩ := aligned.offSlice elsewhere
  have count := next.count
  cases isPast : list.isPast index with
  | true =>
    obtain ⟨position, placed, before⟩ : ∃ position, list.sliceAt = some position ∧
        position < index := by
      unfold ListSubject.isPast at isPast
      split at isPast
      · rename_i position placed
        exact ⟨position, placed, by simpa using isPast⟩
      · cases isPast
    simp only [Enough, placed] at enough
    simp only [start, isPast, samePast, if_true, true_implies]
    omega
  | false =>
    rw [isPast] at samePast
    simp only [start, isPast, samePast, Bool.false_eq_true, if_false, false_implies, and_true]
    obtain ⟨placed, _⟩ := next.before samePast
    cases found : rest.findIdx? Pattern.isSlice with
    | none =>
      simp only [found, Option.map_none] at placed
      simp only [Enough, placed] at enough
      omega
    | some position =>
      have inside := (findIdx?_eq_some_iff_findIdx_eq.1 found).1
      simp only [found, Option.map_some] at placed
      simp only [Enough, placed] at enough
      omega

theorem start_atSlice {length : Nat} (here : list.sliceAt = some index)
    (enough : list.Enough length) :
    list.start index length = index ∧ list.start (index + 1) length = length - rest.length ∧
      index + rest.length ≤ length := by
  obtain ⟨_, notPast, past, next⟩ := aligned.atSlice here
  have count := next.count
  simp only [Enough, here] at enough
  simp only [start, notPast, past, Bool.false_eq_true, if_false, if_true, true_and]
  omega

end Aligned

end Pass.ListSubject

/-! ## Matching elements -/

section Elements

variable {heap : Machine} {sequence : Indexed} {node : Pattern} {rest : List Pattern} {start : Nat}
  {bindings : Bindings}

theorem matchElements_length (matched : matchElements heap rest sequence start bindings) :
    start + rest.length ≤ sequence.length + rest.countP Pattern.isSlice ∧
      (rest.countP Pattern.isSlice = 0 → start + rest.length = sequence.length) := by
  induction rest generalizing start bindings with
  | nil =>
    obtain ⟨rfl, _⟩ := matched
    simp
  | cons node rest ih =>
    obtain ⟨stop, target, _, others, covers, _, restMatched, _⟩ := matched
    obtain ⟨bound, exact⟩ := ih restMatched
    unfold Indexed.Covers at covers
    cases isSlice : node.isSlice with
    | true =>
      simp only [isSlice, if_true] at covers
      rw [countP_cons_of_pos isSlice, length_cons]
      omega
    | false =>
      simp only [isSlice, Bool.false_eq_true, if_false] at covers
      rw [countP_cons_of_neg (by simp [isSlice]), length_cons]
      exact ⟨by omega, fun none => by have := exact none; omega⟩

theorem matchElements_item (notSlice : node.isSlice = false) (inside : start < sequence.length) :
    matchElements heap (node :: rest) sequence start bindings ↔
      ∃ first others, node.Matches heap (sequence.item start) first ∧
        matchElements heap rest sequence (start + 1) others ∧ bindings = first ++ others := by
  simp only [matchElements, Indexed.Covers, notSlice, Bool.false_eq_true, if_false]
  constructor
  · rintro ⟨stop, target, first, others, ⟨_, rfl, rfl⟩, matched, restMatched, rfl⟩
    exact ⟨first, others, matched, restMatched, rfl⟩
  · rintro ⟨first, others, matched, restMatched, rfl⟩
    exact ⟨_, _, first, others, ⟨inside, rfl, rfl⟩, matched, restMatched, rfl⟩

theorem matchElements_slice (isSlice : node.isSlice = true)
    (noOther : rest.countP Pattern.isSlice = 0) (room : start + rest.length ≤ sequence.length) :
    matchElements heap (node :: rest) sequence start bindings ↔
      ∃ first others, node.Matches heap (sequence.part start (sequence.length - rest.length)) first ∧
        matchElements heap rest sequence (sequence.length - rest.length) others ∧
        bindings = first ++ others := by
  simp only [matchElements, Indexed.Covers, isSlice, if_true]
  constructor
  · rintro ⟨stop, target, first, others, ⟨_, _, rfl⟩, matched, restMatched, rfl⟩
    obtain rfl : stop = sequence.length - rest.length := by
      have := (matchElements_length restMatched).2 noOther
      omega
    exact ⟨first, others, matched, restMatched, rfl⟩
  · rintro ⟨first, others, matched, restMatched, rfl⟩
    exact ⟨_, _, first, others, ⟨by omega, by omega, rfl⟩, matched, restMatched, rfl⟩

end Elements

/-! ## Reaching into a subject -/

namespace Expr.Anonymous

variable {span : Span} {node offset : Expr}

theorem member (anonymous : node.Anonymous) (name : String) :
    (span.member node name).Anonymous := by
  intro site
  change span.member (node.rebuild Rules.forget _ : Id Expr) name = _
  rw [anonymous]

theorem binary {right : Expr} (leftAnonymous : node.Anonymous) (rightAnonymous : right.Anonymous)
    (op : BinaryOp) : (span.binary op node right).Anonymous := by
  intro site
  change span.binary op (node.rebuild Rules.forget _ : Id Expr) (right.rebuild Rules.forget _ : Id Expr) = _
  rw [leftAnonymous, rightAnonymous]

theorem index (anonymous : node.Anonymous) (offsetAnonymous : offset.Anonymous) :
    (span.index node [offset]).Anonymous := by
  intro site
  change span.index (node.rebuild Rules.forget _ : Id Expr) [(offset.rebuild Rules.forget _ : Id Expr)] = _
  rw [anonymous, offsetAnonymous]

theorem methodCall (anonymous : node.Anonymous) (name : String) {first second : Expr}
    (firstAnonymous : first.Anonymous) (secondAnonymous : second.Anonymous) :
    (span.methodCall node name [first, second]).Anonymous := by
  intro site
  change span.call (span.member (node.rebuild Rules.forget _ : Id Expr) name)
    [(first.rebuild Rules.forget _ : Id Expr), (second.rebuild Rules.forget _ : Id Expr)] = _
  rw [anonymous, firstAnonymous, secondAnonymous]
  rfl

theorem intLit (value : Int) : (span.intLit value).Anonymous := fun _ => rfl

end Expr.Anonymous

namespace Pass.ListSubject

variable (list : ListSubject)

structure Describes (types : Universe) (item : Ty) : Prop where
  readable : list.subject.Readable
  itemType : list.subject.type.itemType? types = some item
  length : list.length = types.lengthMember list.subject.type
  element : list.element = item

namespace Describes

variable {list} {program : Program} {scope : Nat} {frame : Frame} {types : Universe} {heap machine : Machine}
  {item : Ty} {span : Span} {reads : Set String} {target : Matched} {sequence : Indexed}

theorem elementAt_anonymous (describes : list.Describes types item) {index : Nat} :
    (list.elementAt span index).expr.Anonymous := by
  have lengthAnonymous : (list.readLength span).Anonymous := describes.readable.anonymous.member _
  refine .index describes.readable.anonymous ?_
  change (if list.isPast index = true then _ else _ : Expr).Anonymous
  split
  · exact lengthAnonymous.binary (.intLit _) .sub
  · exact .intLit _

theorem lengthLess_anonymous (describes : list.Describes types item) {value : Nat} :
    (list.lengthLess span value).Anonymous := by
  have lengthAnonymous : (list.readLength span).Anonymous := describes.readable.anonymous.member _
  unfold lengthLess
  split
  · exact lengthAnonymous
  · exact lengthAnonymous.binary (.intLit _) .sub

theorem slice_anonymous (describes : list.Describes types item) {start : Nat} :
    (list.slice span start).expr.Anonymous := by
  unfold slice
  dsimp only
  split
  · exact .methodCall describes.readable.anonymous _ (.intLit _) describes.lengthLess_anonymous
  · exact .methodCall describes.readable.anonymous _ (.intLit _) describes.lengthLess_anonymous

variable (describes : list.Describes types item) (extended : machine.Extends heap)
  (subject : Reads program scope frame reads machine list.subject.read target)
  (admits : list.subject.type.Admits types heap target)
  (isIndexed : target.indexed? heap = some sequence)

include describes extended subject admits isIndexed

theorem reads_length (span : Span) : Reads program scope frame reads machine (list.readLength span)
      (.value (.int sequence.length)) := by
  unfold readLength
  rw [describes.length]
  exact subject.length extended isIndexed (admits.lengthMember describes.itemType isIndexed)

theorem reads_lengthLess (span : Span) {value : Nat} (smaller : value ≤ sequence.length) :
    Reads program scope frame reads machine (list.lengthLess span value)
      (.value (.int (sequence.length - value : Nat))) := by
  have measured := describes.reads_length extended subject admits isIndexed span
  obtain ⟨short, _, _⟩ := admits.indexed describes.itemType isIndexed
  unfold lengthLess
  split
  · rename_i isZero
    rw [isZero, Nat.sub_zero]
    exact measured
  · exact measured.difference (.intLit value) smaller short

theorem reads_elementAt {index : Nat} (inside : list.start index sequence.length < sequence.length)
    (counted : list.isPast index = true → list.count - index ≤ sequence.length) :
    Reads program scope frame reads machine (list.elementAt span index).read
      (sequence.item (list.start index sequence.length)) := by
  have measured := describes.reads_length extended subject admits isIndexed span
  obtain ⟨short, _, _⟩ := admits.indexed describes.itemType isIndexed
  rw [Subject.read_eq describes.elementAt_anonymous]
  refine subject.element extended isIndexed ?_ inside
  change Reads program scope frame reads machine (if list.isPast index = true then _ else _) _
  unfold ListSubject.start
  split
  · rename_i isPast
    exact measured.difference (.intLit _) (counted isPast) short
  · exact .intLit _

theorem reads_slice {index after : Nat} (counted : list.count - index - 1 = after)
    (room : index + after ≤ sequence.length) :
    Reads program scope frame reads machine (list.slice span index).read
      (sequence.part index (sequence.length - after)) := by
  rw [Subject.read_eq describes.slice_anonymous]
  unfold ListSubject.slice
  dsimp only
  rw [counted]
  rcases (Ty.admits_iff describes.itemType).1 admits with
    rfl | ⟨isString, text, rfl, _⟩ | ⟨notString, items, isSequence, _⟩
  · cases isIndexed
  · rw [if_pos isString]
    have taken := describes.reads_lengthLess extended subject admits isIndexed span room
    cases isIndexed
    have bound : index + ((Indexed.ofText text).length - (index + after)) ≤ text.toList.length := by
      have : (Indexed.ofText text).length = text.toList.length := rfl
      omega
    have stop : (Indexed.ofText text).length - after =
        index + ((Indexed.ofText text).length - (index + after)) := by omega
    rw [stop]
    exact subject.substring describes.readable.notBase taken bound
  · rw [if_neg notString]
    have stops := describes.reads_lengthLess extended subject admits isIndexed span
      (show after ≤ sequence.length by omega)
    obtain rfl : Indexed.ofSequence items = sequence :=
      Option.some.inj ((Matched.indexed?_sequence isSequence).symm.trans isIndexed)
    exact subject.slice extended isSequence describes.readable.notBase stops (by omega)
      (Nat.sub_le _ _)

end Describes

end Pass.ListSubject

end Unsugar
