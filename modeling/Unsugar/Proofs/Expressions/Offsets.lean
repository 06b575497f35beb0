import Unsugar.Proofs.Eval.Computations

namespace Unsugar

/-! # Offsets into sequences

What a subscript selects: one item at an offset, or the part between two offsets, each
counted from the start or from the end.  Offsets are computed in bounded integers, by
subtractions that may wrap; wherever the exact result lies inside of the sequence, and
only there, so does the computed one, and then they are the same.
-/

/-! ## Operands that can be read again

Evaluating an operand may make objects and sequences, but it changes nothing that
was there.  So an operand yields the same thing whenever it is evaluated, as long as
the variables it depends on stay as they are.
-/

/-- Between two moments only these variables may have got other values, and objects
    and sequences may have been made. -/
structure Enlarges (scope : Nat) (written : Set String) (before after : Machine) : Prop where
  kept : ∀ name, name ∉ written → after.valueOf? scope name = before.valueOf? scope name
  declared : ∀ name, (before.valueOf? scope name).isSome → (after.valueOf? scope name).isSome
  sequences : after.Extends before
  objects : ∀ (address : Nat) (object : Object), before.objects[address]? = some object →
    after.objects[address]? = some object
  closures : after.closures = before.closures
  statics : after.statics = before.statics
  initialized : after.initialized = before.initialized
  output : after.output = before.output
  depth : after.depth = before.depth

theorem Changes.enlarges {scope : Nat} {written : Set String} {before after : Machine}
    (changes : Changes scope written before after) : Enlarges scope written before after where
  __ := changes
  objects address object present := by rw [changes.objects, present]

namespace Enlarges

variable {scope : Nat} {written other : Set String} {before middle after : Machine}

theorem refl (machine : Machine) : Enlarges scope written machine machine :=
  (Changes.refl machine).enlarges

theorem trans (first : Enlarges scope written before middle)
    (second : Enlarges scope written middle after) : Enlarges scope written before after where
  kept name unwritten := (second.kept name unwritten).trans (first.kept name unwritten)
  declared name isDeclared := second.declared name (first.declared name isDeclared)
  sequences := second.sequences.trans first.sequences
  objects address object present := second.objects address object (first.objects address object present)
  closures := second.closures.trans first.closures
  statics := second.statics.trans first.statics
  initialized := second.initialized.trans first.initialized
  output := second.output.trans first.output
  depth := second.depth.trans first.depth

theorem mono (enlarges : Enlarges scope written before after) (subset : written ⊆ other) :
    Enlarges scope other before after :=
  { enlarges with
    kept := fun name unwritten => enlarges.kept name fun isIn => unwritten (subset isIn) }

theorem ofNothing (enlarges : Enlarges scope ∅ before after) :
    Enlarges scope written before after :=
  enlarges.mono (Set.empty_subset _)

theorem ofObject (machine : Machine) (object : Object) :
    Enlarges scope ∅ machine { machine with objects := machine.objects.push object } := by
  refine ⟨fun _ _ => rfl, fun _ isDeclared => isDeclared, fun _ _ present => present,
    fun address other present => ?_, rfl, rfl, rfl, rfl, rfl⟩
  obtain ⟨inBounds, _⟩ := Array.getElem?_eq_some_iff.1 present
  rw [← present]
  exact (Array.getElem?_push_lt inBounds).trans (Array.getElem?_eq_getElem inBounds).symm

end Enlarges

/-! ## The reference -/

/-- A 32-bit number of items, counted from the start or from the end. -/
structure Offset where
  value : Int32
  isFromEnd : Bool
  deriving DecidableEq

namespace Offset

def first : Offset := ⟨0, false⟩

/-- The position behind the last item. -/
def last : Offset := ⟨0, true⟩

def position (offset : Offset) (length : Nat) : Int :=
  if offset.isFromEnd then length - offset.value.toInt else offset.value.toInt

/-- Whether two offsets bound a part of a sequence. -/
def Bound (start stop : Offset) (length : Nat) : Prop :=
  0 ≤ start.position length ∧ start.position length ≤ stop.position length ∧
    stop.position length ≤ length

instance (start stop : Offset) (length : Nat) : Decidable (start.Bound stop length) :=
  inferInstanceAs (Decidable (_ ∧ _))

end Offset

/-- What a subscript asks for. -/
inductive Selection where
  | item (offset : Offset)
  | part (start stop : Offset)

namespace Selection

def of (sequence : Indexed) : Selection → Option Matched
  | item offset =>
    let position := offset.position sequence.length
    if 0 ≤ position ∧ position < sequence.length then some (sequence.item position.toNat)
    else none
  | part start stop =>
    if start.Bound stop sequence.length then
      some (sequence.part (start.position sequence.length).toNat
        (stop.position sequence.length).toNat)
    else none

def exception : Selection → String
  | item _ => "IndexOutOfRangeException"
  | part _ _ => "ArgumentOutOfRangeException"

variable {sequence : Indexed} {offset start stop : Offset}

theorem of_item {index : Nat} (isIndex : offset.position sequence.length = index)
    (inside : index < sequence.length) : (item offset).of sequence = some (sequence.item index) := by
  change (if _ then _ else none) = _
  rw [isIndex, if_pos (by omega), Int.toNat_natCast]

theorem of_item_outside (outside : ¬ (0 ≤ offset.position sequence.length ∧
    offset.position sequence.length < sequence.length)) : (item offset).of sequence = none :=
  if_neg outside

theorem of_part (isBound : start.Bound stop sequence.length) :
    (part start stop).of sequence = some (sequence.part (start.position sequence.length).toNat
      (stop.position sequence.length).toNat) :=
  if_pos isBound

theorem of_part_outside (outside : ¬ start.Bound stop sequence.length) :
    (part start stop).of sequence = none :=
  if_neg outside

end Selection

/-! ## Computed offsets -/

theorem wrap32_spec (number : Int) : -2 ^ 31 ≤ wrap32 number ∧ wrap32 number < 2 ^ 31 ∧
      ∃ turns, wrap32 number = number - turns * 2 ^ 32 := by
  have low : -((4294967296 : Nat) / 2 : Int) ≤ number.bmod 4294967296 := Int.le_bmod (by decide)
  have high : number.bmod 4294967296 < ((4294967296 : Nat) + 1) / 2 := Int.bmod_lt (by decide)
  have turns := Int.bmod_add_bdiv number 4294967296
  change -2 ^ 31 ≤ number.bmod 4294967296 ∧ number.bmod 4294967296 < 2 ^ 31 ∧
    ∃ turns, number.bmod 4294967296 = number - turns * 2 ^ 32
  exact ⟨by omega, by omega, number.bdiv 4294967296, by omega⟩

theorem wrap64_of_lt {number : Int} (low : -2 ^ 63 ≤ number) (high : number < 2 ^ 63) :
    wrap64 number = number :=
  Int.bmod_eq_of_le (by simpa [UInt64.size] using low) (by simpa [UInt64.size] using high)

/-- A number takes the place of an offset: both lie outside of the sequence, unless they
    are the same. -/
structure Offset.ComputedAs (offset : Offset) (length : Nat) (number : Int) : Prop where
  low : -2 ^ 31 ≤ number
  high : number < 2 ^ 32
  exact : (0 ≤ number ∧ number ≤ length) ∨
    (0 ≤ offset.position length ∧ offset.position length ≤ length) →
    number = offset.position length

namespace Offset.ComputedAs

variable {offset start stop : Offset} {length : Nat} {number startNumber stopNumber : Int}

theorem position (offset : Offset) (short : length < lengthLimit) :
    offset.ComputedAs length (offset.position length) := by
  have low := offset.value.le_toInt
  have high := offset.value.toInt_lt
  unfold lengthLimit at short
  refine ⟨?_, ?_, fun _ => rfl⟩ <;> unfold Offset.position <;> split <;> omega

theorem fromStart (value : Int32) (short : length < lengthLimit) :
    (⟨value, false⟩ : Offset).ComputedAs length value.toInt :=
  .position ⟨value, false⟩ short

theorem difference (value : Int32) (short : length < lengthLimit) :
    (⟨value, true⟩ : Offset).ComputedAs length (wrap32 (length - value.toInt)) := by
  have low := value.le_toInt
  have high := value.toInt_lt
  have isExact : (⟨value, true⟩ : Offset).position length = length - value.toInt := rfl
  obtain ⟨wrappedLow, wrappedHigh, turns, wrapped⟩ := wrap32_spec (length - value.toInt)
  unfold lengthLimit at short
  exact ⟨by omega, by omega, fun inside => by omega⟩

end Offset.ComputedAs

/-- Starting at a number and counting from it takes the part between two offsets. -/
structure Offset.CountedAs (start stop : Offset) (length : Nat) (number count : Int) : Prop where
  inside : (0 ≤ number ∧ 0 ≤ count ∧ number + count ≤ length) ↔ start.Bound stop length
  exact : start.Bound stop length →
    number = start.position length ∧ number + count = stop.position length

namespace Offset.CountedAs

variable {start stop : Offset} {length : Nat} {number stopNumber : Int}

theorem difference (short : length < lengthLimit) (isStart : start.ComputedAs length number)
    (isStop : stop.ComputedAs length stopNumber) :
    start.CountedAs stop length number (wrap32 (stopNumber - number)) := by
  obtain ⟨startLow, startHigh, startExact⟩ := isStart
  obtain ⟨stopLow, stopHigh, stopExact⟩ := isStop
  obtain ⟨low, high, turns, wrapped⟩ := wrap32_spec (stopNumber - number)
  unfold lengthLimit at short
  refine ⟨⟨?_, ?_⟩, ?_⟩
  · rintro ⟨notNegative, counted, inside⟩
    have sameStart := startExact (by omega)
    have sameStop := stopExact (by omega)
    exact ⟨by omega, by omega, by omega⟩
  · rintro ⟨notNegative, ordered, inside⟩
    have sameStart := startExact (by omega)
    have sameStop := stopExact (by omega)
    omega
  · rintro ⟨notNegative, ordered, inside⟩
    have sameStart := startExact (by omega)
    have sameStop := stopExact (by omega)
    omega

theorem fromZero (isStart : start.ComputedAs length 0) (isStop : stop.ComputedAs length stopNumber) :
    start.CountedAs stop length 0 stopNumber := by
  have startExact := isStart.exact (by omega)
  have stopExact := isStop.exact
  refine ⟨⟨?_, ?_⟩, ?_⟩
  · rintro ⟨-, counted, inside⟩
    have sameStop := stopExact (by omega)
    exact ⟨by omega, by omega, by omega⟩
  · rintro ⟨notNegative, ordered, inside⟩
    have sameStop := stopExact (by omega)
    omega
  · rintro ⟨notNegative, ordered, inside⟩
    have sameStop := stopExact (by omega)
    omega

end Offset.CountedAs

/-! ## Built-in selections -/

def Selected (exception : String) (machine : Machine) : Option Matched → Except Exit Value → Prop
  | some target, .ok value => target.HeldAs machine value
  | none, .error (.throw (.object address)) =>
    ∃ object, machine.objects[address]? = some object ∧ object.className = exception
  | _, _ => False

def Selects (exception : String) (result : Option Matched) (action : Eval Value)
    (machine : Machine) : Prop :=
  ∃ outcome after, action machine = (outcome, after) ∧ Selected exception after result outcome ∧
    ∀ scope, Enlarges scope ∅ machine after

theorem Matched.sequence?_value {heap : Machine} {held : Value} {items : Sequence}
    (found : (Matched.value held).sequence? heap = some items) :
    ∃ address, held = .list address ∧ heap.sequences[address]? = some items := by
  cases held with
  | list address => exact ⟨address, rfl, found⟩
  | _ => cases found

namespace Selects

variable {machine : Machine} {sequence : Indexed}

theorem raise (className message : String) (machine : Machine) :
    Selects className none (Machine.raise className message) machine :=
  ⟨_, _, Eval.raise_eq className message machine, ⟨_, Array.getElem?_push_size, rfl⟩,
    fun _ => .ofObject _ _⟩

theorem value {exception : String} {target : Matched} {value : Value} {action : Eval Value}
    (ran : action machine = (.ok value, machine)) (isHeld : target.HeldAs machine value) :
    Selects exception (some target) action machine :=
  ⟨_, _, ran, isHeld, fun _ => .refl machine⟩

theorem allocate {exception : String} (isArray : Bool) (items : List Value) (machine : Machine) :
    Selects exception (some (.part isArray items)) (Machine.allocSequence isArray items) machine :=
  ⟨.ok (.list machine.sequences.size), _, rfl, ⟨_, rfl, Array.getElem?_push_size⟩,
    fun _ => (Changes.ofAllocate machine ⟨items, isArray⟩).enlarges⟩

theorem congr {exception : String} {result : Option Matched} {action other : Eval Value}
    (selects : Selects exception result action machine) (same : other machine = action machine) :
    Selects exception result other machine := by
  obtain ⟨outcome, after, ran, rest⟩ := selects
  exact ⟨outcome, after, same.trans ran, rest⟩

variable {number : Int} {offset : Offset}

theorem position?_inside {length : Nat} (computed : offset.ComputedAs length number) {index : Nat}
    (isIndex : offset.position length = index) (inside : index < length) :
    Eval.position? number length = some index := by
  have exact := computed.exact (by omega)
  rw [exact, isIndex]
  exact position?_of_lt inside

theorem position?_outside {length : Nat} (computed : offset.ComputedAs length number)
    (outside : ¬ (0 ≤ offset.position length ∧ offset.position length < length)) :
    Eval.position? number length = none := by
  have exact := computed.exact
  refine if_neg fun inside => outside ?_
  have same := exact (by omega)
  omega

theorem getIndex_eq {held : Value} (found : (Matched.value held).indexed? machine = some sequence) :
    ∃ value : Nat → Value, (∀ index, sequence.item index = .value (value index)) ∧
      ∀ number, Eval.getIndex held [.int number] machine =
        (match Eval.position? number sequence.length with
          | some index => pure (value index)
          | none => Machine.raiseIndex : Eval Value) machine := by
  have there {α : Type} (items : List α) (other : α) {number : Int} {index : Nat}
      (reached : Eval.position? number items.length = some index) :
      items[index]? = some (items.getD index other) := by
    unfold Eval.position? at reached
    split at reached
    · next inside =>
        cases reached
        rw [List.getD_eq_getElem?_getD, List.getElem?_eq_getElem inside.2]
        rfl
    · cases reached
  rcases Matched.indexed?_cases found with ⟨text, isText, rfl⟩ | ⟨items, isSequence, rfl⟩
  · cases isText
    refine ⟨fun index => .char (text.toList.getD index default), fun _ => rfl, fun number => ?_⟩
    change _ = (match Eval.position? number text.toList.length with
      | some index => pure _
      | none => Machine.raiseIndex : Eval Value) machine
    unfold Eval.getIndex
    cases reached : Eval.position? number text.toList.length with
    | none => simp only [reached, Option.bind_none]
    | some index => simp only [reached, Option.bind_some, there text.toList default reached]
  · obtain ⟨address, rfl, present⟩ := Matched.sequence?_value isSequence
    refine ⟨fun index => items.items.getD index .null, fun _ => rfl, fun number => ?_⟩
    change _ = (match Eval.position? number items.items.length with
      | some index => pure _
      | none => Machine.raiseIndex : Eval Value) machine
    unfold Eval.getIndex
    dsimp only
    rw [Eval.bind_ok (Machine.sequence_eq present)]
    cases reached : Eval.position? number items.items.length with
    | none => simp only [Option.bind_none]
    | some index => simp only [Option.bind_some, there items.items .null reached]

theorem getIndex {held : Value} (found : (Matched.value held).indexed? machine = some sequence)
    (computed : offset.ComputedAs sequence.length number) :
    Selects (Selection.item offset).exception ((Selection.item offset).of sequence)
      (Eval.getIndex held [.int number]) machine := by
  obtain ⟨value, isItem, accesses⟩ := getIndex_eq found
  by_cases inRange : 0 ≤ offset.position sequence.length ∧
      offset.position sequence.length < sequence.length
  · obtain ⟨index, isIndex⟩ := Int.eq_ofNat_of_zero_le inRange.1
    have inside : index < sequence.length := by omega
    rw [Selection.of_item isIndex inside, isItem]
    refine .value ?_ rfl
    rw [accesses, position?_inside computed isIndex inside]
    rfl
  · rw [Selection.of_item_outside inRange]
    have raised : Selects _ none Machine.raiseIndex machine := raise _ _ machine
    refine raised.congr ?_
    rw [accesses, position?_outside computed inRange]

theorem natural?_eq_some {natural : Nat} :
    Eval.natural? number = some natural ↔ number = natural := by
  unfold Eval.natural?
  split
  · simp only [Option.some.injEq]
    omega
  · simp only [reduceCtorEq, false_iff]
    omega

theorem substring {text : String} {start stop : Offset} {count : Int}
    (counted : start.CountedAs stop text.toList.length number count) :
    Selects (Selection.part start stop).exception ((Selection.part start stop).of (.ofText text))
      (Eval.substring text number [.int count]) machine := by
  have within := counted.inside
  unfold Eval.substring
  dsimp only
  by_cases inRange : start.Bound stop (Indexed.ofText text).length
  · obtain ⟨notNegative, isCount, inside⟩ := within.2 inRange
    obtain ⟨sameStart, sameStop⟩ := counted.exact inRange
    obtain ⟨first, rfl⟩ := Int.eq_ofNat_of_zero_le notNegative
    obtain ⟨taken, rfl⟩ := Int.eq_ofNat_of_zero_le isCount
    have fits : first + taken ≤ text.toList.length := by omega
    rw [Selection.of_part inRange]
    simp only [natural?_ofNat, if_pos fits]
    refine .value rfl ?_
    change Value.str _ = Value.str (String.ofList (itemsBetween text.toList
      (start.position text.toList.length).toNat (stop.position text.toList.length).toNat))
    rw [← sameStart, ← sameStop, itemsBetween, Int.toNat_natCast,
      show ((first : Int) + taken).toNat - first = taken by omega]
  · have raised : Selects _ none (Eval.substring.raiseRange) machine := raise _ _ machine
    rw [Selection.of_part_outside inRange]
    refine raised.congr ?_
    cases isFirst : Eval.natural? number with
    | none => rfl
    | some first =>
      cases isTaken : Eval.natural? count with
      | none => rfl
      | some taken =>
        have notInside : ¬ first + taken ≤ text.toList.length := by
          rw [natural?_eq_some] at isFirst isTaken
          exact fun fits => inRange (within.1 (by omega))
        simp only [if_neg notInside]

theorem slice {address : Nat} {items : Sequence} {start stop : Offset} {stopNumber : Int}
    (present : machine.sequences[address]? = some items)
    (isStart : start.ComputedAs items.items.length number)
    (isStop : stop.ComputedAs items.items.length stopNumber) :
    Selects (Selection.part start stop).exception
      ((Selection.part start stop).of (.ofSequence items))
      (Eval.slice address number stopNumber) machine := by
  have startExact := isStart.exact
  have stopExact := isStop.exact
  by_cases inRange : start.Bound stop (Indexed.ofSequence items).length
  · have isBound : start.Bound stop items.items.length := inRange
    obtain ⟨notNegative, ordered, inside⟩ := isBound
    have sameStart := startExact (by omega)
    have sameStop := stopExact (by omega)
    obtain ⟨first, isFirst⟩ := Int.eq_ofNat_of_zero_le notNegative
    obtain ⟨last, isLast⟩ : ∃ last : Nat, stop.position items.items.length = last :=
      Int.eq_ofNat_of_zero_le (by omega)
    have fits : first ≤ last ∧ last ≤ items.items.length := by omega
    rw [Selection.of_part inRange]
    refine (allocate items.isArray (itemsBetween items.items _ _) machine).congr
      ((Eval.bind_ok (Machine.sequence_eq present)).trans ?_)
    rw [natural?_eq_some.2 (sameStart.trans isFirst), natural?_eq_some.2 (sameStop.trans isLast)]
    simp only [if_pos fits]
    change _ = Machine.allocSequence items.isArray (itemsBetween items.items
      (start.position items.items.length).toNat (stop.position items.items.length).toNat) machine
    rw [isFirst, isLast]
    rfl
  · have raised : Selects _ none (Eval.slice.raiseRange) machine := raise _ _ machine
    rw [Selection.of_part_outside inRange]
    refine raised.congr ((Eval.bind_ok (Machine.sequence_eq present)).trans ?_)
    cases isFirst : Eval.natural? number with
    | none => rfl
    | some first =>
      cases isLast : Eval.natural? stopNumber with
      | none => rfl
      | some last =>
        have notInside : ¬ (first ≤ last ∧ last ≤ items.items.length) := by
          rw [natural?_eq_some] at isFirst isLast
          rintro ⟨ordered, inside⟩
          have sameStart := startExact (by omega)
          have sameStop := stopExact (by omega)
          have isBound : start.Bound stop items.items.length :=
            ⟨by omega, by omega, by omega⟩
          exact inRange isBound
        simp only [if_neg notInside]

end Selects

end Unsugar
