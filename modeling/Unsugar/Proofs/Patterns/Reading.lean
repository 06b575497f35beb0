import Unsugar.Lower.PatternTest
import Unsugar.Proofs.Eval.Changes
import Mathlib.Algebra.Ring.Nat
import Mathlib.Algebra.Group.Int.Defs
import Mathlib.Data.Set.Lattice
import Mathlib.Order.CompletePartialOrder

open List

namespace Unsugar

/-! # What patterns match

The meaning of patterns, apart from how they are lowered.  A pattern over the
plain types (numbers, texts, sequences and tuples of these) matches a value
with a list of bindings, one for each variable it designates.
-/

/-! ## What is matched -/

/-- What a pattern is matched against: a value, or a part that a slice takes out
    of a sequence.  Such a part is a new sequence, so only its items count. -/
inductive Matched where
  | value (value : Value)
  | part (isArray : Bool) (items : List Value)

/-- A text or sequence as a pattern sees it: items and parts by position. -/
structure Indexed where
  length : Nat
  item : Nat → Matched
  /-- From the first position up to the second. -/
  part : Nat → Nat → Matched

def itemsBetween {α : Type} (items : List α) (start stop : Nat) : List α :=
  (items.drop start).take (stop - start)

namespace Indexed

def ofText (text : String) : Indexed where
  length := text.toList.length
  item index := .value (.char (text.toList.getD index default))
  part start stop := .value (.str (String.ofList (itemsBetween text.toList start stop)))

def ofSequence (sequence : Sequence) : Indexed where
  length := sequence.items.length
  item index := .value (sequence.items.getD index .null)
  part start stop := .part sequence.isArray (itemsBetween sequence.items start stop)

/-- What an element pattern sees between two positions: a slice any part, any
    other pattern one item. -/
def Covers (sequence : Indexed) (isSlice : Bool) (start stop : Nat) (target : Matched) : Prop :=
  if isSlice then start ≤ stop ∧ stop ≤ sequence.length ∧ target = sequence.part start stop
  else start < sequence.length ∧ stop = start + 1 ∧ target = sequence.item start

end Indexed

namespace Matched

def sequence? (heap : Machine) : Matched → Option Sequence
  | .value (.list address) => heap.sequences[address]?
  | .part isArray items => some ⟨items, isArray⟩
  | _ => none

def indexed? (heap : Machine) : Matched → Option Indexed
  | .value (.str text) => some (.ofText text)
  | target => (target.sequence? heap).map .ofSequence

end Matched

/-! ## Matching -/

abbrev Bindings := List (String × Matched)

def designated (name : String) (target : Matched) : Bindings :=
  if isDesignation name then [(name, target)] else []

/-- Whether a comparison holds between a value and a literal of its type. -/
def Comparison.Holds (op : Comparison) (value literal : Int) : Prop :=
  match op with
  | .lt => value < literal
  | .ltEq => value ≤ literal
  | .gt => literal < value
  | .gtEq => literal ≤ value

instance (op : Comparison) (value literal : Int) : Decidable (op.Holds value literal) :=
  match op with
  | .lt => inferInstanceAs (Decidable (value < literal))
  | .ltEq => inferInstanceAs (Decidable (value ≤ literal))
  | .gt => inferInstanceAs (Decidable (literal < value))
  | .gtEq => inferInstanceAs (Decidable (literal ≤ value))

/-- Whether a number or a character compares with a literal as wanted. -/
def Comparison.Relates (op : Comparison) : Matched → Literal → Prop
  | .value (.int value), .int literal => op.Holds value literal
  | .value (.char value), .char literal => op.Holds value.toNat literal.toNat
  | _, _ => False

mutual

/-- A pattern matches what it is tested against and binds these variables.
    Tests of types are outside this meaning, and alternatives and negations bind
    nothing. -/
def Pattern.Matches (heap : Machine) : Pattern → Matched → Bindings → Prop
  | ⟨_, kind⟩, target, bindings => kind.Matches heap target bindings

def PatternKind.Matches (heap : Machine) : PatternKind → Matched → Bindings → Prop
  | .discard, _, bindings => bindings = []
  | .paren inner, target, bindings => inner.Matches heap target bindings
  | .constant value, target, bindings =>
    (∃ literal, value.kind = .literal literal ∧ target = .value (Eval.literalValue literal)) ∧
      bindings = []
  | .relational op value, target, bindings =>
    (∃ literal, value.kind = .literal literal ∧ op.Relates target literal) ∧ bindings = []
  | .var name, target, bindings => bindings = designated name target
  | .recursive written positional properties designation, target, bindings =>
    (written = .absent ∧ properties = []) ∧
      ∃ items inner, target = .value (.tuple items) ∧ matchEach heap positional items inner ∧
        bindings = inner ++ designated designation target
  | .list elements designation, target, bindings =>
    ∃ sequence inner, target.indexed? heap = some sequence ∧
      matchElements heap elements sequence 0 inner ∧
      bindings = inner ++ designated designation target
  | .slice none, _, bindings => bindings = []
  | .slice (some inner), target, bindings => inner.Matches heap target bindings
  | .and left right, target, bindings =>
    ∃ first second, left.Matches heap target first ∧ right.Matches heap target second ∧
      bindings = first ++ second
  | .or left right, target, bindings =>
    ((∃ inner, left.Matches heap target inner) ∨ ∃ inner, right.Matches heap target inner) ∧
      bindings = []
  | .not inner, target, bindings =>
    (∀ bound, ¬ inner.Matches heap target bound) ∧ bindings = []
  | .declaration .., _, _ => False
  | .type _, _, _ => False

def matchEach (heap : Machine) : List Pattern → List Value → Bindings → Prop
  | [], [], bindings => bindings = []
  | node :: rest, item :: items, bindings =>
    ∃ first others, node.Matches heap (.value item) first ∧
      matchEach heap rest items others ∧ bindings = first ++ others
  | _, _, _ => False

def matchElements (heap : Machine) : List Pattern → Indexed → Nat → Bindings → Prop
  | [], sequence, start, bindings => start = sequence.length ∧ bindings = []
  | node :: rest, sequence, start, bindings =>
    ∃ stop target first others, sequence.Covers node.isSlice start stop target ∧
      node.Matches heap target first ∧ matchElements heap rest sequence stop others ∧
      bindings = first ++ others

end

/-! ## Plain types and their values -/

def lengthLimit : Nat := 2 ^ 31

mutual

def Ty.Admits (types : Universe) (heap : Machine) : Ty → Matched → Prop
  | .int, target => ∃ number, target = .value (.int number)
  | .bool, target => ∃ truth, target = .value (.bool truth)
  | .char, target => ∃ char, target = .value (.char char)
  | .string, target =>
    target = .value .null ∨
      ∃ text : String, target = .value (.str text) ∧ text.toList.length < lengthLimit
  | .array element, target =>
    target = .value .null ∨
      ∃ sequence, target.sequence? heap = some sequence ∧ sequence.items.length < lengthLimit ∧
        ∀ item ∈ sequence.items, element.Admits types heap (.value item)
  | .applied name [element], target =>
    types.names.template name = .library .list ∧ (target = .value .null ∨
        ∃ sequence, target.sequence? heap = some sequence ∧ sequence.items.length < lengthLimit ∧
          ∀ item ∈ sequence.items, element.Admits types heap (.value item))
  | .tuple elements, target =>
    elements.length < 2 ^ 64 ∧ ∃ items, target = .value (.tuple items) ∧
      admitsEach types heap elements items
  | _, _ => False

def admitsEach (types : Universe) (heap : Machine) : List Ty → List Value → Prop
  | [], [] => True
  | type :: rest, item :: items =>
    type.Admits types heap (.value item) ∧ admitsEach types heap rest items
  | _, _ => False

end

/-! ## Well-typed patterns -/

def Ty.itemType? (types : Universe) : Ty → Option Ty
  | .string => some .char
  | .array element => some element
  | .applied name [element] =>
    match types.names.template name with
    | .library .list => some element
    | _ => none
  | _ => none

def View.HasLiteral (view : View) (value : Expr) (type : Ty) : Prop :=
  ∃ literal, value.kind = .literal literal ∧ Infer.literalType literal = type ∧
    view.typeOf value = type ∧ view.constant? value ≠ some .null

def designatedName (name : String) : List String :=
  if isDesignation name then [name] else []

mutual

/-- Variables that a pattern designates, from left to right. -/
def Pattern.designations : Pattern → List String
  | ⟨_, kind⟩ => kind.designations

def PatternKind.designations : PatternKind → List String
  | .var name => designatedName name
  | .recursive _ positional _ designation =>
    designationsOf positional ++ designatedName designation
  | .list elements designation =>
    designationsOf elements ++ designatedName designation
  | .slice (some inner) | .not inner | .paren inner => inner.designations
  | .and left right | .or left right => left.designations ++ right.designations
  | _ => []

def designationsOf : List Pattern → List String
  | [] => []
  | node :: rest => node.designations ++ designationsOf rest

end

mutual

/-- A pattern that fits a plain type.  A slice stands only in a list. -/
def Pattern.Fits (view : View) (inList : Bool) : Pattern → Ty → Prop
  | ⟨_, kind⟩, type => kind.Fits view inList type

def PatternKind.Fits (view : View) (inList : Bool) : PatternKind → Ty → Prop
  | .discard, _ | .var _, _ => True
  | .paren inner, type => inner.Fits view false type
  | .constant value, type =>
    value.kind = .literal .null ∨
      (type = .int ∨ type = .bool ∨ type = .char ∨ type = .string) ∧ view.HasLiteral value type
  | .relational _ value, type => (type = .int ∨ type = .char) ∧ view.HasLiteral value type
  | .recursive written positional properties _, type =>
    (written = .absent ∧ properties = []) ∧
      ∃ elements, type = .tuple elements ∧ fitEach view positional elements
  | .list elements _, type =>
    (elements.countP Pattern.isSlice ≤ 1) ∧
      ∃ item, type.itemType? view.types = some item ∧ fitElements view elements type item
  | .slice none, _ => inList = true
  | .slice (some inner), type => inList = true ∧ inner.Fits view false type
  | .and left right, type => left.Fits view false type ∧ right.Fits view false type
  | .or left right, type =>
    (left.Fits view false type ∧ right.Fits view false type) ∧
      left.designations = [] ∧ right.designations = []
  | .not inner, type => inner.Fits view false type ∧ inner.designations = []
  | .declaration .., _ | .type _, _ => False

def fitEach (view : View) : List Pattern → List Ty → Prop
  | [], [] => True
  | node :: rest, type :: types => node.Fits view false type ∧ fitEach view rest types
  | _, _ => False

/-- Patterns over the items of a sequence; a slice is matched against a part of
    the type of the whole. -/
def fitElements (view : View) : List Pattern → (whole item : Ty) → Prop
  | [], _, _ => True
  | node :: rest, whole, item =>
    node.Fits view true (if node.isSlice then whole else item) ∧
      fitElements view rest whole item

end

/-! ## Reading subjects

A subject is an expression that reads the same thing again and again, as long as
the variables it depends on stay as they are.  Each way to reach into a subject
(an item of a tuple, a length, an element, a part) has one lemma.
-/

/-! ## Values that stand for what is matched -/

def Matched.HeldAs (machine : Machine) : Matched → Value → Prop
  | .value expected, held => held = expected
  | .part isArray items, held =>
    ∃ address, held = .list address ∧ machine.sequences[address]? = some ⟨items, isArray⟩

def Machine.Extends (later earlier : Machine) : Prop :=
  ∀ (address : Nat) (sequence : Sequence), earlier.sequences[address]? = some sequence →
    later.sequences[address]? = some sequence

theorem Changes.extends {scope : Nat} {written : Set String} {before after : Machine}
    (changes : Changes scope written before after) : after.Extends before :=
  changes.sequences

theorem Machine.Extends.trans {first second third : Machine} (later : third.Extends second)
    (earlier : second.Extends first) : third.Extends first :=
  fun address sequence present => later address sequence (earlier address sequence present)

namespace Matched

variable {heap machine later : Machine} {target : Matched} {value : Value} {sequence : Sequence}

theorem HeldAs.mono (held : target.HeldAs machine value) (extended : later.Extends machine) :
    target.HeldAs later value := by
  cases target with
  | value expected => exact held
  | part isArray items =>
    obtain ⟨address, isList, present⟩ := held
    exact ⟨address, isList, extended address _ present⟩

theorem HeldAs.address (held : target.HeldAs machine value) (extended : machine.Extends heap)
    (found : target.sequence? heap = some sequence) :
    ∃ address, value = .list address ∧ machine.sequences[address]? = some sequence := by
  cases target with
  | value expected =>
    cases expected with
    | list address => exact ⟨address, held, extended address sequence found⟩
    | _ => cases found
  | part isArray items =>
    obtain ⟨address, isList, present⟩ := held
    cases found
    exact ⟨address, isList, present⟩

end Matched

/-! ## Reading -/

section Reading

variable (program : Program) (scope : Nat) (frame : Frame)

/-- As long as the variables `reads` stay as they are, an expression evaluates to
    the same thing and changes no variable. -/
def Reads (reads : Set String) (machine : Machine) (node : Expr) (target : Matched) : Prop :=
  ∀ later, Changes scope readsᶜ machine later →
    ∃ value after, Evaluates program scope frame node later value after ∧
      target.HeldAs after value ∧ Changes scope ∅ later after

end Reading

variable {program : Program} {scope : Nat} {frame : Frame} {reads : Set String}
  {machine heap : Machine} {node : Expr} {target : Matched} {span : Span} {name : String}
  {index : Nat}

namespace Reads

theorem ident {value : Value} (found : machine.valueOf? scope name = some value) :
    Reads program scope frame {name} machine (span.ident name) (.value value) := by
  intro later changes
  refine ⟨value, later, .ident ?_, rfl, .refl later⟩
  rw [changes.kept name (by simp), found]

theorem held {value : Value} (found : machine.valueOf? scope name = some value)
    (holds : target.HeldAs machine value) :
    Reads program scope frame {name} machine (span.ident name) target := by
  intro later changes
  refine ⟨value, later, .ident ?_, holds.mono changes.extends, .refl later⟩
  rw [changes.kept name (by simp), found]

theorem intLit (number : Int) :
    Reads program scope frame reads machine (span.intLit number) (.value (.int number)) :=
  fun later _ => ⟨_, later, .literal span (.int number) later, rfl, .refl later⟩

/-! ## Items of tuples -/

end Reads

theorem digitsValue?_toDigits {number : Nat} :
    digitsValue? (Nat.toDigits 10 number) = some number := by
  have digits : (Nat.toDigits 10 number).all Char.isDigit = true :=
    all_eq_true.2 fun _ isDigit =>
      Nat.isDigit_of_mem_toDigits (by decide) (by decide) isDigit
  have total : (Nat.toDigits 10 number).foldl
      (fun total char => total * 10 + (char.toNat - '0'.toNat)) 0 = number := by
    have known := Nat.ofDigitChars_ten_toDigits (n := number)
    rw [Nat.ofDigitChars_eq_foldl] at known
    simpa only [Nat.mul_comm] using known
  unfold digitsValue?
  rw [if_neg (by simp [digits, Nat.toDigits_ne_nil]), total]

theorem readUnsigned?_toDigits {number : Nat} (bound : number < 2 ^ 64) :
    readUnsigned? (Nat.toDigits 10 number) = some number := by
  unfold readUnsigned?
  cases written : Nat.toDigits 10 number with
  | nil => exact absurd written Nat.toDigits_ne_nil
  | cons first rest =>
    have isDigit : first.isDigit = true :=
      Nat.isDigit_of_mem_toDigits (by decide) (by decide) (written ▸ mem_cons_self)
    have noSign : first ≠ '+' := by
      rintro rfl
      cases isDigit
    split
    · rename_i isSign
      cases isSign
      exact absurd rfl noSign
    · dsimp only
      rw [← written, digitsValue?_toDigits]
      exact if_pos (decide_eq_true bound)

theorem tupleIndex?_item (bound : index + 1 < 2 ^ 64) :
    Eval.tupleIndex? ("Item" ++ toString (index + 1)) = some index := by
  have spelled : ("Item" ++ toString (index + 1)).toList =
      'I' :: 't' :: 'e' :: 'm' :: Nat.toDigits 10 (index + 1) := by
    rw [String.toList_append, Nat.toString_eq_repr, Nat.toList_repr]
    rfl
  unfold Eval.tupleIndex?
  rw [spelled]
  simp [readUnsigned?_toDigits bound]

namespace Reads

theorem tupleItem {items : List Value} {item : Value}
    (subject : Reads program scope frame reads machine node (.value (.tuple items)))
    (found : items[index]? = some item) (bound : index + 1 < 2 ^ 64) :
    Reads program scope frame reads machine (span.member node ("Item" ++ toString (index + 1)))
      (.value item) := by
  intro later changes
  obtain ⟨value, after, evaluated, rfl, unchanged⟩ := subject later changes
  refine ⟨item, after, .member evaluated fun recur => ?_, rfl, unchanged⟩
  unfold Eval.getMember
  simp only [tupleIndex?_item bound, Option.bind_some, found]
  rfl

/-! ## Lengths, elements and parts -/

end Reads

theorem Matched.indexed?_cases {sequence : Indexed} (found : target.indexed? heap = some sequence) :
    (∃ text, target = .value (.str text) ∧ sequence = .ofText text) ∨
      ∃ items, target.sequence? heap = some items ∧ sequence = .ofSequence items := by
  unfold Matched.indexed? at found
  split at found
  · rename_i text
    cases found
    exact .inl ⟨text, rfl, rfl⟩
  · obtain ⟨items, isSequence, rfl⟩ := Option.map_eq_some_iff.1 found
    exact .inr ⟨items, isSequence, rfl⟩

theorem Machine.sequence_eq {address : Nat} {sequence : Sequence}
    (present : machine.sequences[address]? = some sequence) :
    Machine.sequence address machine = (.ok sequence, machine) := by
  change (Except.ok (machine.sequences.getD address default), machine) = _
  rw [Array.getD_eq_getD_getElem?, present]
  rfl

theorem position?_of_lt {index size : Nat} (inside : index < size) :
    Eval.position? index size = some index := by
  simpa [Eval.position?] using inside

theorem wrap32_of_lt {number : Int} (notNegative : 0 ≤ number) (small : number < 2 ^ 31) :
    wrap32 number = number := by
  unfold wrap32 UInt32.size
  rw [Int.bmod_def]
  omega

theorem natural?_ofNat {number : Nat} : Eval.natural? number = some number := by
  simp [Eval.natural?]

namespace Reads

variable {sequence : Indexed}

theorem length (subject : Reads program scope frame reads machine node target)
    (extended : machine.Extends heap) (found : target.indexed? heap = some sequence)
    (named : name = "Length" ∨ name = "Count" ∧ (target.sequence? heap).isSome) :
    Reads program scope frame reads machine (span.member node name)
      (.value (.int sequence.length)) := by
  intro later changes
  obtain ⟨value, after, evaluated, held, unchanged⟩ := subject later changes
  refine ⟨_, after, .member evaluated fun recur => ?_, rfl, unchanged⟩
  rcases Matched.indexed?_cases found with ⟨text, rfl, rfl⟩ | ⟨items, isSequence, rfl⟩
  · obtain rfl : value = .str text := held
    obtain rfl | ⟨_, noSequence⟩ := named
    · rfl
    · cases noSequence
  · obtain ⟨address, rfl, present⟩ := held.address
      (unchanged.extends.trans (changes.extends.trans extended)) isSequence
    have measured : (Machine.sequence address >>= fun sequence =>
        (pure (.int sequence.items.length) : Eval Value)) after =
        (.ok (.int items.items.length), after) :=
      Eval.bind_ok (Machine.sequence_eq present)
    obtain rfl | ⟨rfl, _⟩ := named <;> exact measured

theorem element {offset : Expr} (subject : Reads program scope frame reads machine node target)
    (extended : machine.Extends heap) (found : target.indexed? heap = some sequence)
    (position : Reads program scope frame reads machine offset (.value (.int index)))
    (inside : index < sequence.length) :
    Reads program scope frame reads machine (span.index node [offset]) (sequence.item index) := by
  intro later changes
  obtain ⟨value, middle, evaluated, held, unchanged⟩ := subject later changes
  obtain ⟨_, after, offsetEval, rfl, stillUnchanged⟩ :=
    position middle (changes.trans (unchanged.mono (Set.empty_subset _)))
  have kept : Changes scope ∅ later after := unchanged.trans stillUnchanged
  rcases Matched.indexed?_cases found with ⟨text, rfl, rfl⟩ | ⟨items, isSequence, rfl⟩
  · obtain rfl : value = .str text := held
    refine ⟨.char (text.toList.getD index default), after,
      .index evaluated (.single offsetEval) ?_, rfl, kept⟩
    have there : text.toList[index]? = some (text.toList.getD index default) := by
      rw [getD_eq_getElem?_getD, getElem?_eq_getElem inside]
      rfl
    have reached : Eval.position? index text.toList.length = some index := position?_of_lt inside
    unfold Eval.getIndex
    simp only [reached, Option.bind_some, there]
    rfl
  · obtain ⟨address, rfl, present⟩ := held.address
      (unchanged.extends.trans (changes.extends.trans extended)) isSequence
    refine ⟨items.items.getD index .null, after,
      .index evaluated (.single offsetEval) ?_, rfl, kept⟩
    have there : items.items[index]? = some (items.items.getD index .null) := by
      rw [getD_eq_getElem?_getD, getElem?_eq_getElem inside]
      rfl
    have reached : Eval.position? index items.items.length = some index := position?_of_lt inside
    unfold Eval.getIndex
    dsimp only
    rw [Eval.bind_ok (Machine.sequence_eq (stillUnchanged.extends _ _ present))]
    simp only [reached, Option.bind_some, there]
    rfl

theorem difference {left right : Expr} {minuend subtrahend : Nat}
    (leftReads : Reads program scope frame reads machine left (.value (.int minuend)))
    (rightReads : Reads program scope frame reads machine right (.value (.int subtrahend)))
    (smaller : subtrahend ≤ minuend) (bound : minuend < lengthLimit) :
    Reads program scope frame reads machine (span.binary .sub left right)
      (.value (.int (minuend - subtrahend : Nat))) := by
  intro later changes
  obtain ⟨_, middle, leftEval, rfl, unchanged⟩ := leftReads later changes
  obtain ⟨_, after, rightEval, rfl, stillUnchanged⟩ :=
    rightReads middle (changes.trans (unchanged.mono (Set.empty_subset _)))
  refine ⟨_, after, .binary leftEval rightEval ⟨nofun, nofun, nofun⟩ fun recur => ?_, rfl,
    unchanged.trans stillUnchanged⟩
  have exact : wrap32 ((minuend : Int) - subtrahend) = (minuend - subtrahend : Nat) := by
    unfold lengthLimit at bound
    rw [wrap32_of_lt (by omega) (by omega)]
    omega
  change (Except.ok (Value.int (wrap32 ((minuend : Int) - subtrahend))), after) = _
  rw [exact]

theorem substring {text : String} {countNode : Expr} {start count : Nat}
    (subject : Reads program scope frame reads machine node (.value (.str text)))
    (notBase : node.kind ≠ .base)
    (counted : Reads program scope frame reads machine countNode (.value (.int count)))
    (inside : start + count ≤ text.toList.length) :
    Reads program scope frame reads machine
      (span.methodCall node "Substring" [span.intLit start, countNode])
      ((Indexed.ofText text).part start (start + count)) := by
  intro later changes
  obtain ⟨_, middle, countEval, rfl, unchanged⟩ := counted later changes
  obtain ⟨_, after, evaluated, rfl, stillUnchanged⟩ :=
    subject middle (changes.trans (unchanged.mono (Set.empty_subset _)))
  have startEval : Evaluates program scope frame (span.intLit start) later (.int start) later :=
    .literal span (.int start) later
  have argsEval := EvaluatesAll.cons startEval (.single countEval)
  refine ⟨_, after, .methodCall argsEval evaluated notBase rfl fun recur => ?_, rfl,
    unchanged.trans stillUnchanged⟩
  change Eval.substring text start [.int count] after = _
  unfold Eval.substring
  simp only [natural?_ofNat, if_pos inside, itemsBetween, Nat.add_sub_cancel_left]
  rfl

theorem slice {items : Sequence} {stopNode : Expr} {start stop : Nat}
    (subject : Reads program scope frame reads machine node target)
    (extended : machine.Extends heap) (found : target.sequence? heap = some items)
    (notBase : node.kind ≠ .base)
    (stopReads : Reads program scope frame reads machine stopNode (.value (.int stop)))
    (ordered : start ≤ stop) (inside : stop ≤ items.items.length) :
    Reads program scope frame reads machine
      (span.methodCall node "Slice" [span.intLit start, stopNode])
      ((Indexed.ofSequence items).part start stop) := by
  intro later changes
  obtain ⟨_, middle, stopEval, rfl, unchanged⟩ := stopReads later changes
  obtain ⟨value, after, evaluated, held, stillUnchanged⟩ :=
    subject middle (changes.trans (unchanged.mono (Set.empty_subset _)))
  have kept : Changes scope ∅ later after := unchanged.trans stillUnchanged
  obtain ⟨address, rfl, present⟩ := held.address
    (kept.extends.trans (changes.extends.trans extended)) found
  have startEval : Evaluates program scope frame (span.intLit start) later (.int start) later :=
    .literal span (.int start) later
  have argsEval := EvaluatesAll.cons startEval (.single stopEval)
  refine ⟨.list after.sequences.size, _, .methodCall argsEval evaluated notBase rfl fun recur => ?_,
    ?_, kept.trans (.ofAllocate after ⟨itemsBetween items.items start stop, items.isArray⟩)⟩
  · change Eval.slice address start stop after = _
    unfold Eval.slice
    rw [Eval.bind_ok (Machine.sequence_eq present)]
    simp only [natural?_ofNat, if_pos (And.intro ordered inside)]
    rfl
  · exact ⟨_, rfl, Array.getElem?_push_size⟩

end Reads

end Unsugar
