import Unsugar.Proofs.Expressions.KeptOffsets
import Unsugar.Proofs.Expressions.Offsets

namespace Unsugar

/-! # Operands of subscripts

What subscripts are computed from: sequences, numbers and values of `Index` and
`Range`.  An operand yields the same thing whenever it is evaluated, as long as the
variables it depends on stay as they are.
-/

/-! ## Values of `Index` and `Range` -/

def Program.HoldsOffset (program : Program) (machine : Machine) (offset : Offset) (value : Value) :
    Prop :=
  program.find? "Index" = none ∧
    ∃ address object, value = .object address ∧ machine.objects[address]? = some object ∧
      object.className = "Index" ∧ object.isStruct = false ∧
      object.fields.lookup "Value" = some (.int offset.value.toInt) ∧
      object.fields.lookup "IsFromEnd" = some (.bool offset.isFromEnd)

variable {value : Value} {name : String}

theorem Program.HoldsOffset.mono {program : Program} {before after : Machine} {offset : Offset}
    {scope : Nat} {written : Set String} (held : program.HoldsOffset before offset value)
    (enlarges : Enlarges scope written before after) : program.HoldsOffset after offset value := by
  obtain ⟨isBuiltin, address, object, isObject, present, fields⟩ := held
  exact ⟨isBuiltin, address, object, isObject, enlarges.objects _ _ present, fields⟩

/-- What an operand stands for. -/
inductive Meant where
  | plain (value : Value)
  | index (offset : Offset)
  | range (start stop : Offset)

namespace Meant

def HeldAs (program : Program) (machine : Machine) : Meant → Value → Prop
  | plain expected, held => held = expected ∧ expected.isPlain = true
  | index offset, held => program.HoldsOffset machine offset held
  | range start stop, held => ∃ address object first last, held = .object address ∧
      machine.objects[address]? = some object ∧ object.isStruct = false ∧
      object.fields.lookup "Start" = some first ∧ program.HoldsOffset machine start first ∧
      object.fields.lookup "End" = some last ∧ program.HoldsOffset machine stop last

variable {program : Program} {scope : Nat} {written : Set String} {before after machine : Machine}
  {value : Value} {meant : Meant}

theorem HeldAs.mono (held : meant.HeldAs program before value)
    (enlarges : Enlarges scope written before after) : meant.HeldAs program after value := by
  cases meant with
  | plain expected => exact held
  | index index => exact Program.HoldsOffset.mono held enlarges
  | range start stop =>
    obtain ⟨address, object, first, last, isObject, present, isShared, isFirst, first', isLast,
      last'⟩ := held
    exact ⟨address, object, first, last, isObject, enlarges.objects _ _ present, isShared, isFirst,
      first'.mono enlarges, isLast, last'.mono enlarges⟩

theorem HeldAs.copyStruct_eq (held : meant.HeldAs program machine value) :
    Machine.copyStruct value machine = (.ok value, machine) := by
  have shared {address : Nat} {object : Object} (present : machine.objects[address]? = some object)
      (isShared : object.isStruct = false) :
      Machine.copyStruct (.object address) machine = (.ok (.object address), machine) := by
    unfold Machine.copyStruct
    dsimp only
    rw [Eval.bind_ok (Eval.object_eq present), isShared]
    rfl
  cases meant with
  | plain expected =>
    obtain ⟨rfl, isPlain⟩ := held
    refine Unsugar.copyStruct_eq ?_ machine
    rintro address rfl
    cases isPlain
  | index offset =>
    obtain ⟨_, address, object, rfl, present, _, isShared, _⟩ := held
    exact shared present isShared
  | range start stop =>
    obtain ⟨address, object, first, last, rfl, present, isShared, _⟩ := held
    exact shared present isShared

end Meant

/-! ## Yielding -/

section Yields

variable (program : Program) (scope : Nat) (frame : Frame)

/-- As long as the variables `reads` stay as they are, an expression evaluates to what is
    meant and changes nothing that was there. -/
def Yields (reads : Set String) (machine : Machine) (node : Expr) (meant : Meant) : Prop :=
  ∀ later, Enlarges scope readsᶜ machine later →
    ∃ value after, Evaluates program scope frame node later value after ∧
      meant.HeldAs program after value ∧ Enlarges scope ∅ later after

end Yields

variable {program : Program} {scope : Nat} {frame : Frame} {reads : Set String}
  {machine : Machine} {node : Expr} {meant : Meant} {span : Span}

theorem Evaluates.unique {value other : Value} {after last : Machine}
    (evaluated : Evaluates program scope frame node machine value after)
    (again : Evaluates program scope frame node machine other last) : value = other := by
  obtain ⟨enough, runs⟩ := evaluated
  obtain ⟨otherEnough, otherRuns⟩ := again
  have same := (runs (max enough otherEnough) (by omega)).symm.trans
    (otherRuns (max enough otherEnough) (by omega))
  exact Except.ok.inj (congrArg Prod.fst same)

theorem Eval.run_rebuilt_forget : (node : Expr) → node.isSimple = true → (site : Site) →
    (fuel : Nat) → Eval.run program fuel
      (.eval (node.rebuild Rules.forget site : Id Expr) scope frame) =
        Eval.run program fuel (.eval node scope frame)
  | _, _, _, 0 => rfl
  | ⟨_, .literal _⟩, _, _, _ + 1 | ⟨_, .ident _⟩, _, _, _ + 1 | ⟨_, .self⟩, _, _, _ + 1
  | ⟨_, .base⟩, _, _, _ + 1 | ⟨_, .typeRef _⟩, _, _, _ + 1 | ⟨_, .defaultOf _⟩, _, _, _ + 1 => rfl
  | ⟨mark, .paren ⟨other, inner⟩⟩, isSimple, site, fuel + 1 =>
    Eval.run_rebuilt_forget ⟨other, inner⟩ isSimple
      (site.below (.expr ⟨mark, .paren ⟨other, inner⟩⟩)) fuel

theorem Eval.getMember_field {recur : Answer} {address : Nat} {object : Object}
    (present : machine.objects[address]? = some object)
    (isField : object.fields.lookup name = some value) :
    Eval.getMember program recur (.object address) name machine = (.ok value, machine) := by
  change Eval.getObjectMember program recur address name machine = _
  unfold Eval.getObjectMember
  rw [Eval.bind_ok (Eval.object_eq present), isField]
  rfl

theorem Evaluates.create {args : List Expr} {values : List Value} {before middle after : Machine}
    (argsEval : EvaluatesAll program scope frame args before values middle)
    (undeclared : program.find? name = none)
    (made : Eval.createBuiltin name values middle = (.ok value, after)) :
    Evaluates program scope frame (span.create (.simple name) args) before value after := by
  obtain ⟨enough, argsRun⟩ := argsEval.answers
  refine .of_step enough fun fuel bound => ?_
  change Eval.evalCreate program (Eval.run program fuel) (.named name []) args [] scope frame
    before = _
  unfold Eval.evalCreate
  rw [Eval.bind_ok (argsRun fuel bound)]
  have created : Eval.create program (Eval.run program fuel) (.named name []) values middle =
      (.ok value, after) := by
    unfold Eval.create
    dsimp only
    rw [undeclared]
    exact made
  rw [Eval.bind_ok created]
  rfl

namespace Yields

theorem mono {later : Machine} {others : Set String}
    (yields : Yields program scope frame reads machine node meant)
    (enlarges : Enlarges scope readsᶜ machine later) (subset : reads ⊆ others) :
    Yields program scope frame others later node meant :=
  fun _ further => yields _ (enlarges.trans (further.mono (Set.compl_subset_compl.2 subset)))

theorem forget (yields : Yields program scope frame reads machine node meant)
    (isSimple : node.isSimple = true) :
    Yields program scope frame reads machine node.forget meant := by
  intro later enlarges
  obtain ⟨value, after, ⟨enough, runs⟩, rest⟩ := yields later enlarges
  refine ⟨value, after, ⟨enough, fun fuel bound => ?_⟩, rest⟩
  rw [← runs fuel bound]
  exact congrFun (Eval.run_rebuilt_forget node isSimple .detached fuel) later

theorem of_kind {other : Expr} (yields : Yields program scope frame reads machine other meant)
    (same : node.kind = other.kind) : Yields program scope frame reads machine node meant := by
  intro later enlarges
  obtain ⟨value, after, evaluated, rest⟩ := yields later enlarges
  exact ⟨value, after, evaluated.of_kind same, rest⟩

theorem ident (found : machine.valueOf? scope name = some value)
    (held : meant.HeldAs program machine value) (isRead : name ∈ reads) :
    Yields program scope frame reads machine (span.ident name) meant := by
  intro later enlarges
  refine ⟨value, later, .ident ?_, held.mono enlarges, .refl later⟩
  rw [enlarges.kept name fun notRead => notRead isRead, found]

theorem intLit (number : Int) :
    Yields program scope frame reads machine (span.intLit number) (.plain (.int number)) :=
  fun later _ => ⟨_, later, .literal span (.int number) later, ⟨rfl, rfl⟩, .refl later⟩

theorem both {left right : Expr} {first second : Meant} {later : Machine}
    (isLeft : Yields program scope frame reads machine left first)
    (isRight : Yields program scope frame reads machine right second)
    (enlarges : Enlarges scope readsᶜ machine later) :
    ∃ leftValue middle rightValue after, Evaluates program scope frame left later leftValue middle ∧
      Evaluates program scope frame right middle rightValue after ∧
      first.HeldAs program after leftValue ∧ second.HeldAs program after rightValue ∧
      Enlarges scope ∅ later after := by
  obtain ⟨leftValue, middle, leftEval, leftHeld, leftEnlarges⟩ := isLeft later enlarges
  obtain ⟨rightValue, after, rightEval, rightHeld, rightEnlarges⟩ :=
    isRight middle (enlarges.trans leftEnlarges.ofNothing)
  exact ⟨leftValue, middle, rightValue, after, leftEval, rightEval, leftHeld.mono rightEnlarges,
    rightHeld, leftEnlarges.trans rightEnlarges⟩

theorem difference {left right : Expr} {minuend subtrahend : Int}
    (isLeft : Yields program scope frame reads machine left (.plain (.int minuend)))
    (isRight : Yields program scope frame reads machine right (.plain (.int subtrahend))) :
    Yields program scope frame reads machine (span.binary .sub left right)
      (.plain (.int (wrap32 (minuend - subtrahend)))) := by
  intro later enlarges
  obtain ⟨_, middle, _, after, leftEval, rightEval, ⟨rfl, _⟩, ⟨rfl, _⟩, kept⟩ :=
    isLeft.both isRight enlarges
  exact ⟨_, after, .binary leftEval rightEval ⟨nofun, nofun, nofun⟩ fun _ => rfl, ⟨rfl, rfl⟩, kept⟩

/-! ## Members and methods -/

theorem start {start stop : Offset}
    (yields : Yields program scope frame reads machine node (.range start stop)) :
    Yields program scope frame reads machine (span.member node "Start") (.index start) := by
  intro later enlarges
  obtain ⟨_, after, evaluated, ⟨address, object, first, last, rfl, present, _, isFirst, held, _⟩, kept⟩ :=
    yields later enlarges
  exact ⟨first, after, .member evaluated fun _ => Eval.getMember_field present isFirst, held, kept⟩

theorem stop {start stop : Offset}
    (yields : Yields program scope frame reads machine node (.range start stop)) :
    Yields program scope frame reads machine (span.member node "End") (.index stop) := by
  intro later enlarges
  obtain ⟨_, after, evaluated, ⟨address, object, first, last, rfl, present, _, _, _, isLast, held⟩,
    kept⟩ := yields later enlarges
  exact ⟨last, after, .member evaluated fun _ => Eval.getMember_field present isLast, held, kept⟩

theorem offset {lengthNode : Expr} {offset : Offset} {length : Nat} (short : length < lengthLimit)
    (yields : Yields program scope frame reads machine node (.index offset))
    (notBase : node.kind ≠ .base)
    (measured : Yields program scope frame reads machine lengthNode (.plain (.int length))) :
    Yields program scope frame reads machine (span.methodCall node "GetOffset" [lengthNode])
      (.plain (.int (offset.position length))) := by
  intro later enlarges
  obtain ⟨_, middle, _, after, lengthEval, indexEval, ⟨rfl, _⟩,
    ⟨undeclared, address, object, rfl, present, isIndex, _, isValue, isFromEnd⟩, kept⟩ :=
    measured.both yields enlarges
  have answered (recur : Answer) : Eval.builtinMethod program recur (.object address) "GetOffset"
      [.int length] after = (.ok (.int (offset.position length)), after) := by
    change Eval.getOffset address length after = _
    unfold Eval.getOffset
    rw [Eval.bind_ok (Eval.object_eq present), isValue, isFromEnd]
    unfold Offset.position
    cases fromEnd : offset.isFromEnd with
    | false => rfl
    | true =>
      have low := offset.value.le_toInt
      have high := offset.value.toInt_lt
      unfold lengthLimit at short
      have exact : wrap64 (length - offset.value.toInt) = length - offset.value.toInt :=
        wrap64_of_lt (by omega) (by omega)
      change (Except.ok (Value.int (wrap64 (length - offset.value.toInt))), after) = _
      rw [exact]
      rfl
  refine ⟨_, after, EndsWith.methodCall (.single lengthEval) indexEval notBase (.inr ?_) answered,
    ⟨rfl, rfl⟩, kept⟩
  exact ⟨address, object, rfl, present, isIndex ▸ undeclared⟩

/-! ## Making values -/

theorem newIndex {value : Expr} {number : Int32} {isFromEnd : Bool}
    (undeclared : program.find? "Index" = none)
    (yields : Yields program scope frame reads machine value (.plain (.int number.toInt))) :
    Yields program scope frame reads machine (Pass.newIndex span value isFromEnd)
      (.index ⟨number, isFromEnd⟩) := by
  intro later enlarges
  obtain ⟨_, middle, evaluated, ⟨rfl, _⟩, kept⟩ := yields later enlarges
  have argsEval := EvaluatesAll.cons evaluated (.single (.literal span (.bool isFromEnd) middle))
  refine ⟨.object middle.objects.size, _, .create argsEval undeclared rfl,
    ⟨undeclared, _, _, rfl, Array.getElem?_push_size, rfl, rfl, rfl, rfl⟩, kept.trans (.ofObject _ _)⟩

theorem newRange {first last : Expr} {start stop : Offset} (undeclared : program.find? "Range" = none)
    (isStart : Yields program scope frame reads machine first (.index start))
    (isStop : Yields program scope frame reads machine last (.index stop)) :
    Yields program scope frame reads machine (span.create (.simple "Range") [first, last])
      (.range start stop) := by
  intro later enlarges
  obtain ⟨startValue, middle, stopValue, after, startEval, stopEval, startHeld, stopHeld, kept⟩ :=
    isStart.both isStop enlarges
  have grown : Enlarges scope ∅ after _ :=
    .ofObject after ⟨"Range", [("Start", startValue), ("End", stopValue)], false⟩
  refine ⟨.object after.objects.size, _, .create (.cons startEval (.single stopEval)) undeclared rfl,
    ⟨_, _, startValue, stopValue, rfl, Array.getElem?_push_size, rfl, rfl, startHeld.mono grown, rfl,
      stopHeld.mono grown⟩,
    kept.trans grown⟩

end Yields

end Unsugar
