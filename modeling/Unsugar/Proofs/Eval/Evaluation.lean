import Unsugar.Eval.Run
import Unsugar.Syntax.Build
import Unsugar.Syntax.Numbering

open List

namespace Unsugar

/-! # Evaluation without fuel

`Answers` says that a request is answered once the bound on nesting is large
enough.  The rules below say how the expressions of lowered programs evaluate,
one for each form, and never mention the bound.
-/

variable {other operand : Expr} {machine : Machine} {method : String}

def Answers (program : Program) {α : Type} (request : Request α) (before : Machine) (answer : α)
    (after : Machine) : Prop :=
  ∃ enough, ∀ fuel, enough ≤ fuel → Eval.run program fuel request before = (.ok answer, after)

def Evaluates (program : Program) (scope : Nat) (frame : Frame) (node : Expr) (before : Machine)
    (value : Value) (after : Machine) : Prop :=
  Answers program (.eval node scope frame) before value after

variable {before after : Machine} {outcome : Except Exit Value} {node : Expr} {args : List Expr}
  {last : Machine} (recur : Answer) (enough : Nat)

namespace Eval

variable {α β : Type}

theorem bind_ok {action : Eval α} {next : α → Eval β} {result : α}
    (ran : action before = (.ok result, after)) : (action >>= next) before = next result after := by
  change ExceptT.bindCont next (action before).1 (action before).2 = _
  rw [ran]
  rfl

theorem bind_error {action : Eval α} {next : α → Eval β} {reason : Exit}
    (ran : action before = (.error reason, after)) :
    (action >>= next) before = (.error reason, after) := by
  change ExceptT.bindCont next (action before).1 (action before).2 = _
  rw [ran]
  rfl

/-! ### Statements one after the other -/

theorem execAll_cons (node : Stmt) (nodes : List Stmt) (scope : Nat) (frame : Frame) :
    Eval.execAll recur (node :: nodes) scope frame =
      recur (.exec node scope frame) >>= fun _ => Eval.execAll recur nodes scope frame := rfl

theorem execAll_single {node : Stmt} {scope : Nat} {frame : Frame} :
    Eval.execAll recur [node] scope frame = recur (.exec node scope frame) :=
  bind_pure_unit

theorem execAll_append {nodes others : List Stmt} {scope : Nat} {frame : Frame} :
    Eval.execAll recur (nodes ++ others) scope frame =
      Eval.execAll recur nodes scope frame >>= fun _ => Eval.execAll recur others scope frame := by
  induction nodes with
  | nil => exact (pure_bind _ _).symm
  | cons node nodes ih =>
    rw [cons_append, execAll_cons, ih, execAll_cons, bind_assoc]

end Eval

section Rules

variable {program : Program} {scope : Nat} {frame : Frame}

theorem Answers.of_step {α : Type} {request : Request α} {answer : α}
    (steps : ∀ fuel, enough ≤ fuel →
      Eval.step program (Eval.run program fuel) request before = (.ok answer, after)) :
    Answers program request before answer after := by
  refine ⟨enough + 1, fun fuel bound => ?_⟩
  obtain _ | rest := fuel
  · omega
  exact steps rest (by omega)

/-! ## How an expression ends -/

/-- An expression ends with a value or early, under every bound that is large enough. -/
def EndsWith (program : Program) (scope : Nat) (frame : Frame) (node : Expr) (before : Machine)
    (outcome : Except Exit Value) (after : Machine) : Prop :=
  ∃ enough, ∀ fuel, enough ≤ fuel →
    Eval.run program fuel (.eval node scope frame) before = (outcome, after)

namespace EndsWith

variable {node : Expr} {before after : Machine} {outcome : Except Exit Value}

theorem of_step (steps : ∀ fuel, enough ≤ fuel →
      Eval.eval program (Eval.run program fuel) node scope frame before = (outcome, after)) :
    EndsWith program scope frame node before outcome after := by
  refine ⟨enough + 1, fun fuel bound => ?_⟩
  obtain _ | rest := fuel
  · omega
  exact steps rest (by omega)

theorem of_kind (ends : EndsWith program scope frame other before outcome after)
    (same : node.kind = other.kind) : EndsWith program scope frame node before outcome after := by
  obtain ⟨enough, runs⟩ := ends
  obtain ⟨mark, kind⟩ := node
  obtain ⟨otherMark, otherKind⟩ := other
  cases same
  refine ⟨enough, fun fuel bound => ?_⟩
  rw [← runs fuel bound]
  cases fuel with
  | zero => rfl
  | succ fuel => cases kind <;> rfl

end EndsWith

variable {value : Value} {span : Span}

theorem Evaluates.of_kind {node : Expr}
    (evaluated : Evaluates program scope frame other before value after)
    (same : node.kind = other.kind) : Evaluates program scope frame node before value after :=
  EndsWith.of_kind evaluated same

/-! ## Names and literals -/

theorem Evaluates.literal (span : Span) (value : Literal) (machine : Machine) :
    Evaluates program scope frame (span.expr (.literal value)) machine (Eval.literalValue value)
      machine :=
  .of_step 0 fun _ _ => rfl

/-- What a variable holds, seen from a scope. -/
def Machine.valueOf? (machine : Machine) (scope : Nat) (name : String) : Option Value :=
  match Machine.findScope? machine.scopes name (scope + 1) scope with
  | none => none
  | some home => (machine.scopes.getD home default).vars.lookup name

theorem Machine.lookupVar?_eq (machine : Machine) {name : String} :
    Machine.lookupVar? scope name machine = (.ok (machine.valueOf? scope name), machine) := by
  unfold Machine.lookupVar? Machine.valueOf?
  rw [Eval.bind_ok (show (get : Eval Machine) machine = (.ok machine, machine) from rfl)]
  cases Machine.findScope? machine.scopes name (scope + 1) scope <;> rfl

theorem Evaluates.ident {name : String} (found : machine.valueOf? scope name = some value) :
    Evaluates program scope frame (span.ident name) machine value machine := by
  refine .of_step 0 fun fuel _ => ?_
  change Eval.readName program (Eval.run program fuel) name scope frame machine = _
  unfold Eval.readName
  rw [Eval.bind_ok (Machine.lookupVar?_eq machine), found]
  rfl

/-! ## Operators -/

section Operators

variable {span : Span} {left right : Expr} {before middle after : Machine}
  {leftValue rightValue result : Value}

theorem Evaluates.binary {op : BinaryOp}
    (leftEval : Evaluates program scope frame left before leftValue middle)
    (rightEval : Evaluates program scope frame right middle rightValue after)
    (eager : op ≠ .and ∧ op ≠ .or ∧ op ≠ .coalesce)
    (applied : ∀ recur : Answer, Eval.binary program recur op leftValue rightValue after =
      (.ok result, after)) :
    Evaluates program scope frame (span.binary op left right) before result after := by
  obtain ⟨leftEnough, leftRuns⟩ := leftEval
  obtain ⟨rightEnough, rightRuns⟩ := rightEval
  refine .of_step (max leftEnough rightEnough) fun fuel enough => ?_
  change Eval.evalBinary program (Eval.run program fuel) op left right scope frame before = _
  unfold Eval.evalBinary
  rw [Eval.bind_ok (leftRuns fuel (by omega))]
  obtain ⟨notAnd, notOr, notCoalesce⟩ := eager
  split
  · exact absurd rfl notAnd
  · exact absurd rfl notOr
  · exact absurd rfl notCoalesce
  · exact absurd rfl notCoalesce
  · rw [Eval.bind_ok (rightRuns fuel (by omega))]
    exact applied _

section ShortCircuit

variable {recur : Answer} (early : Bool)

theorem Eval.evalBinary_stops (ran : recur (.eval left scope frame) before =
      (.ok (.bool early), middle)) :
    Eval.evalBinary program recur (if early then .or else .and) left right scope frame before =
      (.ok (.bool early), middle) := by
  unfold Eval.evalBinary
  rw [Eval.bind_ok ran]
  cases early <;> rfl

theorem Eval.evalBinary_goes (ran : recur (.eval left scope frame) before =
      (.ok (.bool !early), middle)) :
    Eval.evalBinary program recur (if early then .or else .and) left right scope frame before =
      recur (.eval right scope frame) middle := by
  unfold Eval.evalBinary
  rw [Eval.bind_ok ran]
  cases early <;> exact congrFun (bind_pure (recur (.eval right scope frame))) middle

theorem Evaluates.stops (leftEval : Evaluates program scope frame left before (.bool early) after) :
    Evaluates program scope frame (span.binary (if early then .or else .and) left right) before
      (.bool early) after := by
  obtain ⟨enough, runs⟩ := leftEval
  exact .of_step enough fun fuel bound => Eval.evalBinary_stops early (runs fuel bound)

theorem Evaluates.goes (leftEval : Evaluates program scope frame left before (.bool !early) middle)
    (rightEval : Evaluates program scope frame right middle rightValue after) :
    Evaluates program scope frame (span.binary (if early then .or else .and) left right) before
      rightValue after := by
  obtain ⟨leftEnough, leftRuns⟩ := leftEval
  obtain ⟨rightEnough, rightRuns⟩ := rightEval
  exact .of_step (max leftEnough rightEnough) fun fuel bound =>
    (Eval.evalBinary_goes early (leftRuns fuel (by omega))).trans (rightRuns fuel (by omega))

end ShortCircuit

theorem Evaluates.and_false
    (leftEval : Evaluates program scope frame left before (.bool false) after) :
    Evaluates program scope frame (span.binary .and left right) before (.bool false) after :=
  .stops false leftEval

theorem Evaluates.and_true
    (leftEval : Evaluates program scope frame left before (.bool true) middle)
    (rightEval : Evaluates program scope frame right middle rightValue after) :
    Evaluates program scope frame (span.binary .and left right) before rightValue after :=
  .goes false leftEval rightEval

theorem Evaluates.or_true
    (leftEval : Evaluates program scope frame left before (.bool true) after) :
    Evaluates program scope frame (span.binary .or left right) before (.bool true) after :=
  .stops true leftEval

theorem Evaluates.or_false
    (leftEval : Evaluates program scope frame left before (.bool false) middle)
    (rightEval : Evaluates program scope frame right middle rightValue after) :
    Evaluates program scope frame (span.binary .or left right) before rightValue after :=
  .goes true leftEval rightEval

theorem Evaluates.not {value : Bool}
    (evaluated : Evaluates program scope frame operand before (.bool value) after) :
    Evaluates program scope frame (span.unary .not operand) before (.bool (!value)) after := by
  obtain ⟨enough, runs⟩ := evaluated
  refine .of_step enough fun fuel bound => ?_
  change (Eval.run program fuel (.eval operand scope frame) >>= Eval.unary .not) before = _
  rw [Eval.bind_ok (runs fuel bound)]
  rfl

end Operators

/-! ## Lists of expressions -/

inductive EvaluatesAll (program : Program) (scope : Nat) (frame : Frame) :
    List Expr → Machine → List Value → Machine → Prop where
  | nil (machine : Machine) : EvaluatesAll program scope frame [] machine [] machine
  | cons {node : Expr} {rest : List Expr} {before middle after : Machine} {value : Value}
      {values : List Value}
      (first : Evaluates program scope frame node before value middle)
      (others : EvaluatesAll program scope frame rest middle values after) :
      EvaluatesAll program scope frame (node :: rest) before (value :: values) after

namespace EvaluatesAll

variable {nodes others : List Expr} {before middle after : Machine}
  {values otherValues : List Value}

theorem answers (evaluated : EvaluatesAll program scope frame nodes before values after) :
    ∃ enough, ∀ fuel, enough ≤ fuel →
      Eval.evalAll (Eval.run program fuel) nodes scope frame before = (.ok values, after) := by
  induction evaluated with
  | nil machine => exact ⟨0, fun _ _ => rfl⟩
  | cons first _ ih =>
    obtain ⟨firstEnough, firstRuns⟩ := first
    obtain ⟨restEnough, restRuns⟩ := ih
    refine ⟨max firstEnough restEnough, fun fuel enough => ?_⟩
    unfold Eval.evalAll at restRuns ⊢
    rw [mapM_cons, Eval.bind_ok (firstRuns fuel (by omega)),
      Eval.bind_ok (restRuns fuel (by omega))]
    rfl

theorem length_eq (evaluated : EvaluatesAll program scope frame nodes before values after) :
    values.length = nodes.length := by
  induction evaluated with
  | nil => rfl
  | cons _ _ ih => exact congrArg (· + 1) ih

theorem append (first : EvaluatesAll program scope frame nodes before values middle)
    (second : EvaluatesAll program scope frame others middle otherValues after) :
    EvaluatesAll program scope frame (nodes ++ others) before (values ++ otherValues) after := by
  induction first with
  | nil machine => exact second
  | cons head _ ih => exact .cons head (ih second)

theorem single {value : Value} (evaluated : Evaluates program scope frame node before value after) :
    EvaluatesAll program scope frame [node] before [value] after :=
  .cons evaluated (.nil after)

end EvaluatesAll

section

variable {effects : List Expr} {before middle after : Machine} {values : List Value}
  (effectsEval : EvaluatesAll program scope frame effects before values middle)

include effectsEval

theorem EndsWith.seq (ends : EndsWith program scope frame node middle outcome after) :
    EndsWith program scope frame (span.seq effects node) before outcome after := by
  obtain ⟨effectsEnough, effectsRun⟩ := effectsEval.answers
  obtain ⟨nodeEnough, nodeRuns⟩ := ends
  refine .of_step (max effectsEnough nodeEnough) fun fuel enough => ?_
  change (Eval.evalAll (Eval.run program fuel) effects scope frame >>= fun _ =>
    Eval.run program fuel (.eval node scope frame)) before = _
  rw [Eval.bind_ok (effectsRun fuel (by omega))]
  exact nodeRuns fuel (by omega)

theorem Evaluates.seq (nodeEval : Evaluates program scope frame node middle value after) :
    Evaluates program scope frame (span.seq effects node) before value after :=
  EndsWith.seq effectsEval nodeEval

end

/-! ## Members, indices and calls -/

section Access

variable {span : Span} {receiver : Expr} {name : String} {before middle after : Machine}
  {target result : Value}

section

variable (receiverEval : Evaluates program scope frame receiver before target middle)

include receiverEval

theorem Evaluates.member
    (found : ∀ recur : Answer, Eval.getMember program recur target name middle =
      (.ok result, after)) :
    Evaluates program scope frame (span.member receiver name) before result after := by
  obtain ⟨enough, runs⟩ := receiverEval
  refine .of_step enough fun fuel bound => ?_
  change (Eval.run program fuel (.eval receiver scope frame) >>= fun target =>
    Eval.getMember program (Eval.run program fuel) target name) before = _
  rw [Eval.bind_ok (runs fuel bound)]
  exact found _

theorem EndsWith.index {values : List Value}
    (argsEval : EvaluatesAll program scope frame args middle values after)
    (found : Eval.getIndex target values after = (outcome, last)) :
    EndsWith program scope frame (span.index receiver args) before outcome last := by
  obtain ⟨receiverEnough, receiverRuns⟩ := receiverEval
  obtain ⟨argsEnough, argsRun⟩ := argsEval.answers
  refine .of_step (max receiverEnough argsEnough) fun fuel enough => ?_
  change (Eval.run program fuel (.eval receiver scope frame) >>= fun target =>
    Eval.evalAll (Eval.run program fuel) args scope frame >>= fun args =>
      Eval.getIndex target args) before = _
  rw [Eval.bind_ok (receiverRuns fuel (by omega)), Eval.bind_ok (argsRun fuel (by omega))]
  exact found

theorem Evaluates.index {values : List Value}
    (argsEval : EvaluatesAll program scope frame args middle values after)
    (found : Eval.getIndex target values after = (.ok result, last)) :
    Evaluates program scope frame (span.index receiver args) before result last :=
  EndsWith.index receiverEval argsEval found

end

def Value.isPlain : Value → Bool
  | .object _ | .type _ | .closure _ | .null => false
  | _ => true

namespace Eval

variable {α β : Type}

theorem bind_pure {action : Eval α} {outcome : Except Exit α} {before after : Machine} (make : α → β)
    (ran : action before = (outcome, after)) :
    (action >>= fun value => pure (make value)) before = (outcome.map make, after) := by
  cases outcome with
  | ok value => exact bind_ok ran
  | error reason => exact bind_error ran

theorem object_eq {address : Nat} {object : Object}
    (present : machine.objects[address]? = some object) :
    Machine.object address machine = (.ok object, machine) := by
  change (Except.ok (machine.objects.getD address default), machine) = _
  rw [Array.getD_eq_getD_getElem?, present]
  rfl

theorem findMethod?_undeclared {className : String} (undeclared : program.find? className = none)
    {args : List Value} :
    program.findMethod? machine className method args = none := by
  have noChain : program.chain className = [] := by
    unfold Program.chain
    cases program.types.length with
    | zero => rfl
    | succ steps => rw [Program.chainFrom, undeclared]
  unfold Program.findMethod?
  rw [noChain]
  rfl

theorem invoke_builtin {recur : Answer} {target : Value} {args : List Value}
    {before after : Machine}
    (builtin : target.isPlain = true ∨ ∃ address object, target = .object address ∧
      before.objects[address]? = some object ∧ program.find? object.className = none)
    (answered : builtinMethod program recur target method args before = (outcome, after)) :
    invoke program recur target method args none before =
      (outcome.map fun value => { value }, after) := by
  have isBuiltin : invoke program recur target method args none before =
      (builtinMethod program recur target method args >>= fun value =>
        (pure { value } : Eval CallResult)) before := by
    rcases builtin with plain | ⟨address, object, rfl, present, undeclared⟩
    · cases target with
      | null | object _ | closure _ | type _ => cases plain
      | int _ | double _ | bool _ | char _ | str _ | list _ | tuple _ => rfl
    · have asked : (get : Eval Machine) before = (.ok before, before) := rfl
      unfold invoke
      dsimp only
      rw [bind_ok (object_eq present), pure_bind, bind_ok asked, Option.getD_none, Option.bind_some,
        findMethod?_undeclared undeclared]
  rw [isBuiltin]
  exact bind_pure _ answered

end Eval

variable {values : List Value}

theorem Eval.callMember_eq {recur : Answer} (notBase : receiver.kind ≠ .base) :
    Eval.callMember program recur receiver name values scope frame =
      recur (.eval receiver scope frame) >>= fun target =>
        recur (.invoke target name values none) := by
  unfold Eval.callMember
  congr 1
  funext target
  cases kind : receiver.kind with
  | base => exact absurd kind notBase
  | _ => rfl

/-- A call of a method that no declared class provides.  Its arguments are
    evaluated before the receiver. -/
theorem EndsWith.methodCall (argsEval : EvaluatesAll program scope frame args before values middle)
    (receiverEval : Evaluates program scope frame receiver middle target after)
    (notBase : receiver.kind ≠ .base)
    (builtin : target.isPlain = true ∨ ∃ address object, target = .object address ∧
      after.objects[address]? = some object ∧ program.find? object.className = none)
    (answered : ∀ recur : Answer, Eval.builtinMethod program recur target name values after =
      (outcome, last)) :
    EndsWith program scope frame (span.methodCall receiver name args) before outcome last := by
  obtain ⟨argsEnough, argsRun⟩ := argsEval.answers
  obtain ⟨receiverEnough, receiverRuns⟩ := receiverEval
  refine .of_step (max argsEnough receiverEnough + 1) fun fuel enough => ?_
  obtain _ | rest := fuel
  · omega
  have invoked : Eval.run program (rest + 1) (.invoke target name values none) after =
      (outcome.map fun value => { value }, last) := Eval.invoke_builtin builtin (answered _)
  have called : Eval.callMember program (Eval.run program (rest + 1)) receiver name values scope
      frame middle = (outcome.map fun value => { value }, last) := by
    rw [Eval.callMember_eq notBase, Eval.bind_ok (receiverRuns (rest + 1) (by omega))]
    exact invoked
  change Eval.call program (Eval.run program (rest + 1)) (span.member receiver name) args scope
    frame before = _
  unfold Eval.call
  rw [Eval.bind_ok (argsRun (rest + 1) (by omega))]
  change (Eval.callMember program (Eval.run program (rest + 1)) receiver name values scope frame >>=
    _) middle = _
  cases outcome with
  | ok value =>
    rw [Eval.bind_ok called]
    rfl
  | error reason => exact Eval.bind_error called

theorem Evaluates.methodCall (argsEval : EvaluatesAll program scope frame args before values middle)
    (receiverEval : Evaluates program scope frame receiver middle target after)
    (notBase : receiver.kind ≠ .base) (plain : target.isPlain = true)
    (answered : ∀ recur : Answer, Eval.builtinMethod program recur target name values after =
      (.ok result, last)) :
    Evaluates program scope frame (span.methodCall receiver name args) before result last :=
  EndsWith.methodCall argsEval receiverEval notBase (.inl plain) answered

end Access

end Rules

/-! ## Evaluation with pattern tests

A pattern test means nothing to a machine before it is lowered.  Here a verdict
decides the tests of a program, with any effects, and all else runs as it does
without them.
-/

/-- Decides whether a pattern matches a value, in a scope and a frame. -/
abbrev Verdict := Pattern → Value → Nat → Frame → Eval Bool

def Eval.stepTesting (verdict : Verdict) (program : Program) (recur : Answer) :
    {α : Type} → Request α → Eval α
  | _, .eval ⟨_, .isPattern subject pattern⟩ scope frame => do
    let value ← recur (.eval subject scope frame)
    return .bool (← verdict pattern value scope frame)
  | _, request => Eval.step program recur request

/-- Answer a request, nesting requests at most `fuel` deep. -/
def Eval.runTesting (verdict : Verdict) (program : Program) :
    (fuel : Nat) → {α : Type} → Request α → Eval α
  | 0, _, _ => Eval.fault .outOfFuel
  | fuel + 1, _, request =>
    Eval.stepTesting verdict program (Eval.runTesting verdict program fuel) request

namespace Verdict

section Rules

variable (verdict : Verdict) (program : Program) (scope : Nat) (frame : Frame)

def Evaluates (node : Expr) (before : Machine) (value : Value) (after : Machine) : Prop :=
  ∃ enough, ∀ fuel, enough ≤ fuel →
    Eval.runTesting verdict program fuel (.eval node scope frame) before = (.ok value, after)

/-- An expression ends as what is left to do, however that is, once the bound on
    nesting is large enough; it takes some nesting more. -/
def EndsAs (node : Expr) (before : Machine) (rest : Answer → Eval Value) (after : Machine) : Prop :=
  ∃ depth enough, ∀ fuel, enough ≤ fuel →
    Eval.runTesting verdict program (fuel + depth) (.eval node scope frame) before =
      rest (Eval.runTesting verdict program fuel) after

def Decides (subject : Expr) (pattern : Pattern) (before : Machine) (holds : Bool)
    (after : Machine) : Prop :=
  ∃ value middle, verdict.Evaluates program scope frame subject before value middle ∧
    verdict pattern value scope frame middle = (.ok holds, after)

end Rules

variable {verdict : Verdict} {program : Program} {scope : Nat} {frame : Frame} {span : Span}
  {before middle after : Machine} {value : Value}

theorem Evaluates.of_run (depth : Nat)
    (runs : ∀ fuel, Eval.runTesting verdict program (fuel + depth) (.eval node scope frame) before =
      (.ok value, after)) :
    verdict.Evaluates program scope frame node before value after := by
  refine ⟨depth, fun fuel bound => ?_⟩
  obtain ⟨rest, rfl⟩ : ∃ rest, fuel = rest + depth := ⟨fuel - depth, by omega⟩
  exact runs rest

theorem Evaluates.of_step (steps : ∀ fuel, enough ≤ fuel →
      Eval.stepTesting verdict program (Eval.runTesting verdict program fuel)
        (.eval node scope frame) before = (.ok value, after)) :
    verdict.Evaluates program scope frame node before value after := by
  refine ⟨enough + 1, fun fuel bound => ?_⟩
  obtain _ | rest := fuel
  · omega
  exact steps rest (by omega)

theorem Decides.evaluates {subject : Expr} {pattern : Pattern} {holds : Bool}
    (decides : verdict.Decides program scope frame subject pattern before holds after) :
    verdict.Evaluates program scope frame (span.expr (.isPattern subject pattern)) before
      (.bool holds) after := by
  obtain ⟨value, middle, ⟨enough, reads⟩, decided⟩ := decides
  refine .of_step enough fun fuel bound => ?_
  change (Eval.runTesting verdict program fuel (.eval subject scope frame) >>= fun value =>
    verdict pattern value scope frame >>= fun holds => pure (Value.bool holds)) before = _
  rw [Eval.bind_ok (reads fuel bound), Eval.bind_ok decided]
  rfl

theorem Evaluates.and_false {left right : Expr}
    (fails : verdict.Evaluates program scope frame left before (.bool false) after) :
    verdict.Evaluates program scope frame (span.binary .and left right) before (.bool false)
      after := by
  obtain ⟨enough, runs⟩ := fails
  exact .of_step enough fun fuel bound => Eval.evalBinary_stops false (runs fuel bound)

theorem Evaluates.and_true {left right : Expr} {value : Bool}
    (holds : verdict.Evaluates program scope frame left before (.bool true) middle)
    (decided : verdict.Evaluates program scope frame right middle (.bool value) after) :
    verdict.Evaluates program scope frame (span.binary .and left right) before (.bool value)
      after := by
  obtain ⟨leftEnough, leftRuns⟩ := holds
  obtain ⟨rightEnough, rightRuns⟩ := decided
  exact .of_step (max leftEnough rightEnough) fun fuel bound =>
    (Eval.evalBinary_goes false (leftRuns fuel (by omega))).trans (rightRuns fuel (by omega))

theorem Evaluates.assign {name : String} {value stored : Value} {evaluated copied : Machine}
    (evaluates : verdict.Evaluates program scope frame node before value evaluated)
    (copies : Machine.copyStruct value evaluated = (.ok stored, copied))
    (assigns : Machine.assignVar scope name stored copied = (.ok true, after)) :
    verdict.Evaluates program scope frame (span.assign (span.ident name) node) before value
      after := by
  obtain ⟨enough, runs⟩ := evaluates
  refine .of_step (enough + 1) fun fuel bound => ?_
  obtain _ | rest := fuel
  · omega
  have stores : Eval.runTesting verdict program (rest + 1)
      (.store (span.ident name) value scope frame) evaluated = (.ok (), after) := by
    change (Machine.copyStruct value >>= fun value =>
      Eval.storeName program (Eval.runTesting verdict program rest) name value scope frame)
      evaluated = _
    rw [Eval.bind_ok copies]
    unfold Eval.storeName
    rw [Eval.bind_ok assigns]
    rfl
  change (Eval.runTesting verdict program (rest + 1) (.eval node scope frame) >>= fun result =>
    Eval.runTesting verdict program (rest + 1) (.store (span.ident name) result scope frame) >>=
      fun _ => pure result) before = _
  rw [Eval.bind_ok (runs _ (by omega)), Eval.bind_ok stores]
  rfl

namespace EndsAs

variable {rest : Answer → Eval Value} {node : Expr}

theorem eval (node : Expr) (machine : Machine) :
    verdict.EndsAs program scope frame node machine (fun recur => recur (.eval node scope frame))
      machine :=
  ⟨0, 0, fun _ _ => rfl⟩

theorem conditional {cond yes no : Expr} {holds : Bool}
    (chooses : verdict.Evaluates program scope frame cond before (.bool holds) middle)
    (ends : verdict.EndsAs program scope frame (if holds then yes else no) middle rest after) :
    verdict.EndsAs program scope frame (span.conditional cond yes no) before rest after := by
  obtain ⟨condEnough, condRuns⟩ := chooses
  obtain ⟨depth, enough, runs⟩ := ends
  refine ⟨depth + 1, max condEnough enough, fun fuel bound => ?_⟩
  rw [← runs fuel (by omega)]
  change (Eval.runTesting verdict program (fuel + depth) (.eval cond scope frame) >>= fun value =>
    Eval.asBool value >>= fun holds =>
      if holds then Eval.runTesting verdict program (fuel + depth) (.eval yes scope frame)
      else Eval.runTesting verdict program (fuel + depth) (.eval no scope frame)) before = _
  rw [Eval.bind_ok (condRuns _ (by omega))]
  cases holds <;> rfl

theorem seq {effect : Expr}
    (evaluates : verdict.Evaluates program scope frame effect before value middle)
    (ends : verdict.EndsAs program scope frame node middle rest after) :
    verdict.EndsAs program scope frame (span.seq [effect] node) before rest after := by
  obtain ⟨effectEnough, effectRuns⟩ := evaluates
  obtain ⟨depth, enough, runs⟩ := ends
  refine ⟨depth + 1, max effectEnough enough, fun fuel bound => ?_⟩
  rw [← runs fuel (by omega)]
  change (Eval.evalAll (Eval.runTesting verdict program (fuel + depth)) [effect] scope frame >>=
    fun _ => Eval.runTesting verdict program (fuel + depth) (.eval node scope frame)) before = _
  have evaluated : Eval.evalAll (Eval.runTesting verdict program (fuel + depth)) [effect] scope frame
      before = (.ok [value], middle) := by
    unfold Eval.evalAll
    rw [mapM_cons, Eval.bind_ok (effectRuns _ (by omega))]
    rfl
  rw [Eval.bind_ok evaluated]

theorem cast (type : TypeSyntax) (operand : Expr) (machine : Machine) :
    verdict.EndsAs program scope frame (span.cast type operand) machine
      (fun recur => recur (.eval operand scope frame) >>= fun value => program.cast value type)
      machine :=
  ⟨1, 0, fun _ _ => rfl⟩

theorem throw_create {name : String} :
    verdict.EndsAs program scope frame (span.expr (.throw (span.create (.simple name) [operand])))
      machine
      (fun recur => recur (.eval operand scope frame) >>= fun value =>
        Eval.create program recur (.simple name) [value] >>= fun object =>
          Eval.exit (.throw object))
      machine := by
  refine ⟨2, 0, fun fuel _ => ?_⟩
  change ((Eval.evalAll (Eval.runTesting verdict program fuel) [operand] scope frame >>= fun values =>
      Eval.create program (Eval.runTesting verdict program fuel) (.simple name) values >>=
        fun created => pure created) >>= fun object => Eval.exit (.throw object)) machine = _
  unfold Eval.evalAll
  simp only [mapM_cons, mapM_nil, bind_assoc, pure_bind, bind_pure]

theorem of_kind (same : node.kind = other.kind)
    (ends : verdict.EndsAs program scope frame other before rest after) :
    verdict.EndsAs program scope frame node before rest after := by
  obtain ⟨depth, enough, runs⟩ := ends
  obtain ⟨mark, kind⟩ := node
  obtain ⟨otherMark, otherKind⟩ := other
  cases same
  refine ⟨depth, enough, fun fuel bound => ?_⟩
  rw [← runs fuel bound]
  cases fuel + depth with
  | zero => rfl
  | succ bound => cases kind <;> rfl

end EndsAs

end Verdict

end Unsugar
