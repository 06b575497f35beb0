import Unsugar.Proofs.Eval.Tandems

open List

namespace Unsugar

/-! # Members in tandem

What the library does without asking for anything to be evaluated agrees with itself, and so do
members, calls and construction if what answers their requests does.
-/

/-! ## What a program finds depends on objects and sequences only -/

variable {params : List Param} {type : TypeSyntax} {left right function : Value}

namespace Program

variable {program : Program} {machine other : Machine}

theorem isInstance_congr (objects : other.objects = machine.objects)
    (sequences : other.sequences = machine.sequences) {value : Value} :
    (type : TypeSyntax) → program.isInstance other value type = program.isInstance machine value type
  | .nullable inner => by
    rw [isInstance, isInstance, isInstance_congr objects sequences inner]
  | .array _ => by
    unfold isInstance
    rw [sequences]
  | .named .. => by
    unfold isInstance
    rw [sequences, objects]
  | .tuple _ | .var | .dynamic | .void | .absent => rfl

theorem accepts_congr (objects : other.objects = machine.objects)
    (sequences : other.sequences = machine.sequences) {value : Value} :
    (type : TypeSyntax) → program.accepts other value type = program.accepts machine value type
  | .nullable inner => by
    rw [accepts, accepts, accepts_congr objects sequences inner]
  | .named .. => by
    unfold accepts
    simp only [isInstance_congr objects sequences]
  | .array _ | .tuple _ | .void => by
    unfold accepts
    rw [isInstance_congr objects sequences]
  | .var | .dynamic | .absent => rfl

theorem fits_congr (objects : other.objects = machine.objects)
    (sequences : other.sequences = machine.sequences) {args : List Value} :
    program.fits other params args = program.fits machine params args := by
  induction params generalizing args with
  | nil => rfl
  | cons param rest ih =>
    cases args with
    | nil => rfl
    | cons arg args =>
      rw [fits, fits, accepts_congr objects sequences, ih]

theorem overloadScore_congr (objects : other.objects = machine.objects)
    (sequences : other.sequences = machine.sequences) :
    program.overloadScore other = program.overloadScore machine := by
  funext params args
  unfold overloadScore
  rw [fits_congr objects sequences]

theorem findMethod?_congr (objects : other.objects = machine.objects)
    (sequences : other.sequences = machine.sequences) :
    program.findMethod? other = program.findMethod? machine := by
  funext className name args
  unfold findMethod? methodCandidate
  rw [overloadScore_congr objects sequences]

end Program

namespace Eval

/-! ## What calls run one level deeper -/

def memberBody (recur : Answer) (code : Code) (this : Value) (scope : Nat) : Eval Value :=
  let frame : Frame := ⟨this, some code.owner⟩
  match code.body with
  | .none => fault (.missingBody code.owner)
  | .expr value => recur (.eval value scope frame)
  | .block body => do
    match ← outcome (recur (.exec body scope frame)) with
    | .ok _ => return .null
    | .error (.ret value) => return value
    | .error other => exit other

/-- The body of a function value, in a scope that holds its arguments. -/
def closureBody (recur : Answer) (closure : Closure) (args : List Value) : Eval Value := do
  let scope ← Machine.childScope closure.scope
  declareArgs scope closure.params args
  match closure.body with
  | .expr value => recur (.eval value scope closure.frame)
  | .block body =>
    match ← outcome (recur (.exec body scope closure.frame)) with
    | .ok _ => return .null
    | .error (.ret value) => return value
    | .error other => exit other

/-- A constructor: its parameters, the constructor it hands on to, and its body. -/
def ctorBody (program : Program) (recur : Answer) (className : String) (object : Value)
    (args : List Value) (ctor : Ctor) : Eval Unit := do
  let frame : Frame := ⟨object, some className⟩
  let scope ← bindParams program recur ctor.params args frame
  chainCtor program recur className object ctor.initializer scope frame
  match ctor.body with
  | .none => return
  | .expr value => let _ ← recur (.eval value scope frame)
  | .block body =>
    match ← outcome (recur (.exec body scope frame)) with
    | .ok _ | .error (.ret _) => return
    | .error other => exit other

end Eval

variable {value : Value} {address : Nat}

namespace Tandem

variable {tandem : Tandem} [tandem.Lawful] {now later : tandem.Time} {hidden : List String}
  {program : Program}

/-! ## Operations without requests -/

theorem holds_simpleDefault : tandem.Holds now (Program.simpleDefault type) := by
  refine Lawful.plain ?_
  unfold Program.simpleDefault
  split <;> rfl

theorem holds_convertTo (holds : tandem.Holds now value) :
    tandem.Holds now (Program.convertTo type value) := by
  fun_induction Program.convertTo type value with
  | case1 inner value ih => exact ih holds
  | case2 => exact Lawful.plain rfl
  | case3 => exact holds

omit [tandem.Lawful] in
theorem holds_lookup {κ : Type} [BEq κ] [LawfulBEq κ] {key : κ} {entries : List (κ × Value)}
    (holds : ∀ entry ∈ entries, tandem.Holds now entry.2)
    (found : entries.lookup key = some value) : tandem.Holds now value := by
  obtain ⟨before, after, rfl, -⟩ := lookup_eq_some_iff.mp found
  exact holds (key, value) (mem_append_right _ (mem_cons_self ..))

theorem HoldsAll.headD {args : List Value} {default : Value} (holds : tandem.HoldsAll now args)
    (leadsNowhere : default.leadsNowhere = true) : tandem.Holds now (args.headD default) := by
  cases args with
  | nil => exact Lawful.plain leadsNowhere
  | cons arg rest => exact holds arg (mem_cons_self ..)

namespace Agree

open Lawful

variable {value target : Value} {args : List Value}

theorem plain (leadsNowhere : value.leadsNowhere = true) :
    tandem.Agree now (Same tandem.Holds) (Pure.pure value) (Pure.pure value) :=
  Agree.value (Lawful.plain leadsNowhere)

theorem copyStruct (holds : tandem.Holds now value) :
    tandem.Agree now (Same tandem.Holds) (Machine.copyStruct value) (Machine.copyStruct value) := by
  cases value with
  | object address =>
    refine (object holds).bind_same fun later object le fields => ?_
    split
    · exact allocObject fields
    · exact Agree.value (tandem.mono le holds)
  | _ => exact Agree.value holds

theorem raise {α : Type} {Related : tandem.Time → α → α → Prop} (className message : String) :
    tandem.Agree now Related (Machine.raise className message)
      (Machine.raise className message) := by
  have fields : ∀ field ∈ [("Message", Value.str message)], tandem.Holds now field.2 := by
    intro field isField
    obtain rfl := mem_singleton.mp isField
    exact Lawful.plain rfl
  exact (allocObject fields).bind_same fun _ _ _ holds => exit holds

theorem defaultWithin (steps : Nat) (type : TypeSyntax) :
    tandem.Agree now (Same tandem.Holds) (program.defaultWithin steps type)
      (program.defaultWithin steps type) := by
  induction steps generalizing now type with
  | zero => exact Agree.value holds_simpleDefault
  | succ steps ih =>
    unfold Program.defaultWithin
    split
    · exact Agree.value holds_simpleDefault
    · refine (allocObject (forall_mem_nil _)).bind_same fun later object _ holds => ?_
      split
      · refine (forIn fun storage _ => ?_).andThen (Agree.value holds)
        exact (ih storage.1).bind_same fun _ value le holdsValue =>
          (setField (tandem.mono le holds) holdsValue).andThen (pure fun _ _ => ⟨rfl, rfl⟩)
      · exact Agree.value holds

theorem defaultOf (type : TypeSyntax) :
    tandem.Agree now (Same tandem.Holds) (program.defaultOf type) (program.defaultOf type) :=
  defaultWithin _ type

theorem cast (holds : tandem.Holds now value) : (type : TypeSyntax) →
    tandem.Agree now (Same tandem.Holds) (program.cast value type) (program.cast value type)
  | .nullable inner => by
    unfold Program.cast
    split
    · exact Agree.value holds
    · exact cast holds inner
  | .named .. => by
    unfold Program.cast
    split
    case h_6 => split <;> first | exact plain rfl | exact raise _ _
    case h_8 =>
      refine get_bind fun machine same couples enough => ?_
      rw [Program.isInstance_congr (Lawful.objects couples) (Lawful.sequences couples)]
      split
      · exact raise _ _
      · exact Agree.value (tandem.mono enough holds)
    all_goals exact plain rfl
  | .array _ | .tuple _ | .var | .dynamic | .void | .absent => Agree.value holds

theorem iterate (holds : tandem.Holds now value) :
    tandem.Agree now (Same tandem.HoldsAll) (Eval.iterate value) (Eval.iterate value) := by
  unfold Eval.iterate
  split
  · exact (sequence holds).map fun _ _ _ holds _ le => holds.mono le
  · refine pure fun _ _ => ⟨rfl, fun item isItem => ?_⟩
    obtain ⟨char, -, rfl⟩ := mem_map.mp isItem
    exact Lawful.plain rfl
  · exact raise _ _
  · exact unsupported _

omit [tandem.Lawful] in
theorem asBool (value : Value) :
    tandem.Agree now (Same Anything) (Eval.asBool value) (Eval.asBool value) := by
  unfold Eval.asBool
  split
  · exact done _
  · exact unsupported _

theorem numberBinary (op : BinaryOp) (left right : Value) :
    tandem.Agree now (Same tandem.Holds) (Eval.numberBinary op left right)
      (Eval.numberBinary op left right) := by
  unfold Eval.numberBinary
  split
  · unfold Eval.intBinary
    split
    case h_4 | h_5 =>
      split
      · exact raise _ _
      · split <;> exact plain rfl
    case h_13 => exact unsupported _
    all_goals exact plain rfl
  · unfold Eval.doubleBinary
    split
    case h_10 => exact unsupported _
    all_goals exact plain rfl
  · exact unsupported _

theorem unary (op : UnaryOp) (operand : Value) :
    tandem.Agree now (Same tandem.Holds) (Eval.unary op operand) (Eval.unary op operand) := by
  unfold Eval.unary
  split
  case h_5 => exact unsupported _
  all_goals exact plain rfl

omit [tandem.Lawful] in
theorem extremum (larger : Bool) (holdsLeft : tandem.Holds now left)
    (holdsRight : tandem.Holds now right) :
    tandem.Agree now (Same tandem.Holds) (Eval.extremum larger left right)
      (Eval.extremum larger left right) := by
  unfold Eval.extremum
  split
  · dsimp only
    split
    · exact Agree.value holdsLeft
    · exact Agree.value holdsRight
  · exact fault _

theorem substring (text : String) (start : Int) (rest : List Value) :
    tandem.Agree now (Same tandem.Holds) (Eval.substring text start rest)
      (Eval.substring text start rest) := by
  unfold Eval.substring
  extract_lets chars start count
  clear_value chars start count
  split
  · split
    · exact plain rfl
    · exact raise _ _
  · exact raise _ _

theorem slice (holds : tandem.Holds now (.list address)) (start stop : Int) :
    tandem.Agree now (Same tandem.Holds) (Eval.slice address start stop)
      (Eval.slice address start stop) := by
  refine (sequence holds).bind_same fun later list _ holdsItems => ?_
  split
  · split
    · exact allocSequence fun item isItem =>
        holdsItems item (mem_of_mem_drop (mem_of_mem_take isItem))
    · exact raise _ _
  · exact raise _ _

theorem getOffset (holds : tandem.Holds now (.object address)) (length : Int) :
    tandem.Agree now (Same tandem.Holds) (Eval.getOffset address length)
      (Eval.getOffset address length) := by
  refine (object holds).bind_same fun later object _ _ => ?_
  dsimp only
  split
  · exact plain rfl
  · exact plain rfl
  · exact fault _

theorem sortMethod (holds : tandem.Holds now target) (holdsArgs : tandem.HoldsAll now args)
    (method : String) :
    tandem.Agree now (Same tandem.Holds) (Eval.sortMethod target method args)
      (Eval.sortMethod target method args) := by
  have added {later : tandem.Time} {list : Sequence} {items : List Value}
      (holds : tandem.HoldsAll later list.items) (holdsItems : tandem.HoldsAll later items) :
      tandem.HoldsAll later (list.items ++ items) :=
    forall_mem_append.mpr ⟨holds, holdsItems⟩
  unfold Eval.sortMethod
  split
  · exact (object holds).bind_same fun _ _ _ fields => allocObject fields
  · exact getOffset holds _
  · exact substring _ _ _
  · exact plain rfl
  · exact plain rfl
  · exact plain rfl
  · exact plain rfl
  · refine (sequence holds).bind_same fun later list le items => ?_
    exact (setItems (tandem.mono le holds) (added items (holdsArgs.mono le))).andThen (plain rfl)
  · refine (iterate (holdsArgs _ (mem_cons_self ..))).bind_same fun later items le holdsItems => ?_
    refine (sequence (tandem.mono le holds)).bind_same fun last list further olds => ?_
    exact (setItems (tandem.mono (le.trans further) holds)
      (added olds (holdsItems.mono further))).andThen (plain rfl)
  · exact (sequence holds).bind_same fun _ _ _ items => allocSequence items
  · exact (sequence holds).bind_same fun _ _ _ _ => plain rfl
  · exact slice holds _ _
  · exact unsupported _

theorem getIndex (holds : tandem.Holds now target) (args : List Value) :
    tandem.Agree now (Same tandem.Holds) (Eval.getIndex target args)
      (Eval.getIndex target args) := by
  unfold Eval.getIndex
  split
  · refine (sequence holds).bind_same fun later list _ items => ?_
    dsimp only
    split
    · next found =>
        obtain ⟨index, -, isThere⟩ := Option.bind_eq_some_iff.mp found
        exact Agree.value (items _ (mem_of_getElem? isThere))
    · exact raise _ _
  · dsimp only
    split
    · exact plain rfl
    · exact raise _ _
  · exact raise _ _
  · exact unsupported _

theorem storeIndex (holds : tandem.Holds now target) (holdsValue : tandem.Holds now value)
    (args : List Value) :
    tandem.Agree now (Same Anything) (Eval.storeIndex target args value)
      (Eval.storeIndex target args value) := by
  unfold Eval.storeIndex
  split
  · refine (sequence holds).bind_same fun later list le items => ?_
    dsimp only
    split
    · refine setItems (tandem.mono le holds) fun item isItem => ?_
      rcases mem_or_eq_of_mem_set isItem with isOld | rfl
      · exact items item isOld
      · exact tandem.mono le holdsValue
    · exact raise _ _
  · exact fault _

theorem createBuiltin (holdsArgs : tandem.HoldsAll now args) (name : String) :
    tandem.Agree now (Same tandem.Holds) (Eval.createBuiltin name args)
      (Eval.createBuiltin name args) := by
  have holdsRest : tandem.HoldsAll now (args.drop 1) :=
    fun arg isArg => holdsArgs arg (mem_of_mem_drop isArg)
  unfold Eval.createBuiltin
  split
  · dsimp only
    split
    case h_3 => exact allocSequence (forall_mem_nil _)
    all_goals
      next isHead =>
        exact (iterate (holdsArgs _ (mem_of_mem_head? isHead))).bind_same
          fun _ _ _ items => allocSequence items
  · exact allocObject (forall_mem_nil _)
  · refine allocObject fun field isField => ?_
    rcases mem_pair.mp isField with rfl | rfl
    · exact holdsArgs.headD rfl
    · exact holdsRest.headD rfl
  · refine allocObject fun field isField => ?_
    rcases mem_pair.mp isField with rfl | rfl
    · exact holdsArgs.headD rfl
    · exact holdsRest.headD rfl
  · split
    · refine allocObject fun field isField => ?_
      rw [mem_singleton.mp isField]
      exact holdsArgs.headD rfl
    · exact fault _

theorem operandClass? (holdsLeft : tandem.Holds now left) (holdsRight : tandem.Holds now right) :
    tandem.Agree now (Same Anything) (Eval.operandClass? left right)
      (Eval.operandClass? left right) := by
  unfold Eval.operandClass?
  split
  · exact (object holdsLeft).bind_same fun _ _ _ _ => done _
  · exact (object holdsRight).bind_same fun _ _ _ _ => done _
  · exact done _

theorem initBuiltinBase {object : Value} (holds : tandem.Holds now object)
    (holdsArgs : tandem.HoldsAll now args) (className : String) :
    tandem.Agree now (Same Anything) (Eval.initBuiltinBase program className object args)
      (Eval.initBuiltinBase program className object args) := by
  unfold Eval.initBuiltinBase
  split
  · split
    · exact setField holds (holdsArgs _ (mem_cons_self ..))
    · exact done _
  · exact done _

theorem declareArgs {scope other : Nat} {names : List String}
    (visible : ∀ name ∈ names, name ∉ hidden) (twins : tandem.Twins hidden now scope other)
    (holdsArgs : tandem.HoldsAll now args) :
    tandem.Agree now (Same Anything) (Eval.declareArgs scope names args)
      (Eval.declareArgs other names args) := by
  induction names generalizing now args with
  | nil => exact done _
  | cons name rest ih =>
    cases args with
    | nil => exact done _
    | cons arg args =>
      obtain ⟨visibleName, visibleRest⟩ := forall_mem_cons.mp visible
      obtain ⟨holdsArg, holdsRest⟩ := forall_mem_cons.mp holdsArgs
      refine (copyStruct holdsArg).bind_same fun later value le holds => ?_
      have twins := tandem.twins_mono le twins
      exact (declareVar visibleName holds twins).andThen
        (ih visibleRest twins (HoldsAll.mono le holdsRest))

end Agree

/-! ## Requests -/

/-- Code that reads variables runs alike in two scopes. -/
structure Reads (tandem : Tandem) (hidden : List String) (now : tandem.Time) (scope other : Nat)
    (frame : Frame) : Prop where
  sees : tandem.Sees hidden now scope other
  this : tandem.Holds now frame.this

/-- Code that may declare variables too runs alike in two scopes. -/
structure Writes (tandem : Tandem) (hidden : List String) (now : tandem.Time) (scope other : Nat)
    (frame : Frame) : Prop where
  twins : tandem.Twins hidden now scope other
  this : tandem.Holds now frame.this

section Places

variable {tandem : Tandem} {now later : tandem.Time} {scope other : Nat} {frame : Frame}

theorem Reads.mono (reads : tandem.Reads hidden now scope other frame) (le : now ≤ later) :
    tandem.Reads hidden later scope other frame :=
  ⟨tandem.sees_mono le reads.sees, tandem.mono le reads.this⟩

theorem Writes.mono (writes : tandem.Writes hidden now scope other frame) (le : now ≤ later) :
    tandem.Writes hidden later scope other frame :=
  ⟨tandem.twins_mono le writes.twins, tandem.mono le writes.this⟩

theorem Writes.reads (writes : tandem.Writes hidden now scope other frame) :
    tandem.Reads hidden now scope other frame := ⟨tandem.sees writes.twins, writes.this⟩

end Places

/-- Calls that ended with the same value, and left parameters in twin scopes. -/
structure SameCall (tandem : Tandem) (now : tandem.Time) (result other : CallResult) : Prop where
  value : other.value = result.value
  holds : tandem.Holds now result.value
  params : (result.params = none ∧ other.params = none) ∨
    ∃ params inner outer, result.params = some (params, inner) ∧
      other.params = some (params, outer) ∧ tandem.Twins [] now inner outer

/-- Requests of the two runs that look alike. -/
inductive Asks (tandem : Tandem) (now : tandem.Time) : {α : Type} → Request α → Request α → Prop
  | eval {hidden : List String} {node : Expr} {scope other : Nat} {frame : Frame} :
      (Node.expr node).Spares hidden → tandem.Reads hidden now scope other frame →
        Asks tandem now (.eval node scope frame) (.eval node other frame)
  | exec {hidden : List String} {node : Stmt} {scope other : Nat} {frame : Frame} :
      (Node.stmt node).Spares hidden → tandem.Writes hidden now scope other frame →
        Asks tandem now (.exec node scope frame) (.exec node other frame)
  | loop {hidden : List String} {cond : Option Expr} {step : List Expr} {body : Stmt}
      {scope other : Nat} {frame : Frame} :
      (∀ node ∈ Node.ofExpr? cond, node.Spares hidden) →
        (∀ node ∈ Node.ofExprs step, node.Spares hidden) →
          (Node.stmt body).Spares hidden → tandem.Writes hidden now scope other frame →
            Asks tandem now (.loop cond step body scope frame) (.loop cond step body other frame)
  | store {hidden : List String} {target : Expr} {value : Value} {scope other : Nat} {frame : Frame} :
      (Node.expr target).Spares hidden → tandem.Holds now value →
        tandem.Reads hidden now scope other frame →
          Asks tandem now (.store target value scope frame) (.store target value other frame)
  | invoke {target : Value} {method : String} {args : List Value} {start : Option String} :
      tandem.Holds now target → tandem.HoldsAll now args →
        Asks tandem now (.invoke target method args start) (.invoke target method args start)
  | apply {function : Value} {args : List Value} :
      tandem.Holds now function → tandem.HoldsAll now args →
        Asks tandem now (.apply function args) (.apply function args)
  | display {value : Value} :
      tandem.Holds now value → Asks tandem now (.display value) (.display value)
  | construct {className : String} {object : Value} {args : List Value} :
      tandem.Holds now object → tandem.HoldsAll now args →
        Asks tandem now (.construct className object args) (.construct className object args)

/-- How the answers to a request of the two runs are related. -/
def Yields (tandem : Tandem) : {α : Type} → Request α → tandem.Time → α → α → Prop
  | _, .eval .. => Same tandem.Holds
  | _, .invoke .. | _, .apply .. => tandem.SameCall
  | _, .exec .. | _, .loop .. | _, .store .. | _, .display _ | _, .construct .. => Same Anything

/-- Two ways to answer requests that agree on requests that look alike. -/
def Answers (tandem : Tandem) (recur other : Answer) : Prop :=
  ∀ ⦃α : Type⦄ ⦃request same : Request α⦄ ⦃now : tandem.Time⦄, tandem.Asks now request same →
    tandem.Agree now (tandem.Yields request) (recur request) (other same)

namespace Answers

open Agree Lawful

variable {recur other : Answer} (answers : tandem.Answers recur other) {scope outside : Nat}
  {frame : Frame}

include answers

section Asking

omit [tandem.Lawful]

theorem eval {node : Expr} (sparesNode : (Node.expr node).Spares hidden)
    (reads : tandem.Reads hidden now scope outside frame) :
    tandem.Agree now (Same tandem.Holds) (recur (.eval node scope frame))
      (other (.eval node outside frame)) := answers (.eval sparesNode reads)

theorem exec {node : Stmt} (sparesNode : (Node.stmt node).Spares hidden)
    (writes : tandem.Writes hidden now scope outside frame) :
    tandem.Agree now (Same Anything) (recur (.exec node scope frame))
      (other (.exec node outside frame)) := answers (.exec sparesNode writes)

theorem store {target : Expr} (sparesTarget : (Node.expr target).Spares hidden)
    (holds : tandem.Holds now value) (reads : tandem.Reads hidden now scope outside frame) :
    tandem.Agree now (Same Anything) (recur (.store target value scope frame))
      (other (.store target value outside frame)) := answers (.store sparesTarget holds reads)

variable {args : List Value}

theorem invoke {target : Value} {method : String} {start : Option String}
    (holds : tandem.Holds now target) (holdsArgs : tandem.HoldsAll now args) :
    tandem.Agree now tandem.SameCall (recur (.invoke target method args start))
      (other (.invoke target method args start)) := answers (.invoke holds holdsArgs)

theorem apply (holds : tandem.Holds now function) (holdsArgs : tandem.HoldsAll now args) :
    tandem.Agree now tandem.SameCall (recur (.apply function args)) (other (.apply function args)) :=
  answers (.apply holds holdsArgs)

theorem display (holds : tandem.Holds now value) :
    tandem.Agree now (Same Anything) (recur (.display value)) (other (.display value)) :=
  answers (.display holds)

theorem construct {className : String} {object : Value} (holds : tandem.Holds now object)
    (holdsArgs : tandem.HoldsAll now args) :
    tandem.Agree now (Same Anything) (recur (.construct className object args))
      (other (.construct className object args)) := answers (.construct holds holdsArgs)

end Asking

/-! ## Running code -/

theorem returned {body : Stmt} (sparesBody : (Node.stmt body).Spares hidden)
    (writes : tandem.Writes hidden now scope outside frame) :
    tandem.Agree now (Same tandem.Holds)
      (do
        match ← Eval.outcome (recur (.exec body scope frame)) with
        | .ok _ => return .null
        | .error (.ret value) => return value
        | .error other => Eval.exit other)
      (do
        match ← Eval.outcome (other (.exec body outside frame)) with
        | .ok _ => return .null
        | .error (.ret value) => return value
        | .error other => Eval.exit other) := by
  refine (answers.exec sparesBody writes).caught_bind (fun _ _ _ _ _ => plain rfl)
    (fun _ => ⟨rfl, rfl⟩) fun later reason _ holds => ?_
  cases reason with
  | ret value => exact Agree.value holds
  | _ => exact exit holds

variable {code : Code} {this object : Value} {args : List Value} {className : String}

theorem memberBody (writes : tandem.Writes [] now scope outside ⟨this, some code.owner⟩) :
    tandem.Agree now (Same tandem.Holds) (Eval.memberBody recur code this scope)
      (Eval.memberBody other code this outside) := by
  unfold Eval.memberBody
  dsimp only
  cases code.body with
  | none => exact fault _
  | expr value => exact answers.eval (.nothing _) writes.reads
  | block body => exact answers.returned (.nothing _) writes

theorem runBody (twins : tandem.Twins [] now scope outside) (holds : tandem.Holds now this) :
    tandem.Agree now (Same tandem.Holds) (Eval.runBody recur code this scope)
      (Eval.runBody other code this outside) :=
  nested (answers.memberBody ⟨twins, holds⟩)

theorem bindParam {param : Param} (writes : tandem.Writes [] now scope outside frame)
    (holdsArgs : tandem.HoldsAll now args) :
    tandem.Agree now
      (Same fun later taken => tandem.Holds later taken.1 ∧ tandem.HoldsAll later taken.2)
      (Eval.bindParam program recur frame scope param args)
      (Eval.bindParam program other frame outside param args) := by
  have alone : ∀ later value, now ≤ later → tandem.Holds later value → ∀ last, later ≤ last →
      tandem.Holds last value ∧ tandem.HoldsAll last [] :=
    fun _ _ _ holds _ le => ⟨tandem.mono le holds, forall_mem_nil _⟩
  unfold Eval.bindParam
  split
  · exact (allocSequence holdsArgs).map alone
  · split
    · obtain ⟨holdsArg, holdsRest⟩ := forall_mem_cons.mp holdsArgs
      exact pure fun _ le =>
        ⟨rfl, tandem.mono le (holds_convertTo holdsArg), HoldsAll.mono le holdsRest⟩
    · split
      · exact (answers.eval (.nothing _) writes.reads).map alone
      · split
        · exact (defaultOf _).map alone
        · exact pure fun _ le => ⟨rfl, Lawful.plain rfl, forall_mem_nil _⟩

theorem bindParamsIn (writes : tandem.Writes [] now scope outside frame)
    (holdsArgs : tandem.HoldsAll now args) :
    tandem.Agree now (Same Anything) (Eval.bindParamsIn program recur frame scope params args)
      (Eval.bindParamsIn program other frame outside params args) := by
  induction params generalizing now args with
  | nil => exact done _
  | cons param rest ih =>
    refine (answers.bindParam writes holdsArgs).bind_same fun later taken le holds => ?_
    refine (copyStruct holds.1).bind_same fun last value further holdsCopy => ?_
    have writes := writes.mono (le.trans further)
    refine (declareVar not_mem_nil holdsCopy writes.twins).andThen ?_
    exact ih writes (holds.2.mono further)

theorem runMember (holds : tandem.Holds now this) (holdsArgs : tandem.HoldsAll now args) :
    tandem.Agree now tandem.SameCall (Eval.runMember program recur code this args)
      (Eval.runMember program other code this args) := by
  unfold Eval.runMember Eval.bindParams
  simp only [bind_assoc, pure_bind]
  refine rootScope.bind fun later inner outer le twins => ?_
  refine (answers.bindParamsIn ⟨twins, tandem.mono le holds⟩ (holdsArgs.mono le)).andThen ?_
  refine (answers.runBody twins (tandem.mono le holds)).bind_same
    fun last value further holdsValue => pure fun _ beyond => ?_
  exact ⟨rfl, tandem.mono beyond holdsValue, .inr ⟨_, _, _, rfl, rfl,
    tandem.twins_mono (further.trans beyond) twins⟩⟩

theorem closureBody {closure twin : Closure} (same : tandem.SameClosure hidden now closure twin)
    (holdsArgs : tandem.HoldsAll now args) :
    tandem.Agree now (Same tandem.Holds) (Eval.closureBody recur closure args)
      (Eval.closureBody other twin args) := by
  unfold Eval.closureBody
  refine (childScope same.scope).bind fun later inner outer le twins => ?_
  rw [same.params, same.body, same.frame]
  refine (declareArgs same.sparesParams twins (holdsArgs.mono le)).andThen ?_
  have writes : tandem.Writes hidden later inner outer closure.frame := ⟨twins, tandem.mono le same.this⟩
  have sparesBody := same.sparesBody
  cases isBody : closure.body with
  | expr value =>
    rw [isBody] at sparesBody
    exact answers.eval (sparesBody _ (mem_singleton_self _)) writes.reads
  | block block =>
    rw [isBody] at sparesBody
    exact answers.returned (sparesBody _ (mem_singleton_self _)) writes

theorem applyClosure (holds : tandem.Holds now function) (holdsArgs : tandem.HoldsAll now args) :
    tandem.Agree now tandem.SameCall (Eval.applyClosure recur function args)
      (Eval.applyClosure other function args) := by
  unfold Eval.applyClosure
  split
  · next address =>
      refine get_bind fun machine same couples enough => ?_
      have sameClosure := Lawful.closures couples (tandem.mono enough holds)
      generalize machine.closures[address]? = found at sameClosure
      generalize same.closures[address]? = foundOther at sameClosure
      cases sameClosure with
      | none => exact unsupported _
      | some sameClosure =>
        obtain ⟨hidden, sameClosure⟩ := sameClosure
        refine bind_same (nested (answers.closureBody sameClosure (holdsArgs.mono enough)))
          fun _ value _ holdsValue => pure fun _ le => ?_
        exact ⟨rfl, tandem.mono le holdsValue, .inl ⟨rfl, rfl⟩⟩
  · exact unsupported _

omit [tandem.Lawful] answers in
theorem callValue {call same : Eval CallResult} (agree : tandem.Agree now tandem.SameCall call same) :
    tandem.Agree now (Same tandem.Holds) (do return (← call).value) (do return (← same).value) :=
  agree.bind fun _ _ _ _ sameCall => pure fun _ le =>
    ⟨sameCall.value.symm, tandem.mono le sameCall.holds⟩

/-! ## Static members -/

theorem initialValue {init : Option Expr} (holds : tandem.Holds now frame.this) :
    tandem.Agree now (Same tandem.Holds) (Eval.initialValue program recur type init frame)
      (Eval.initialValue program other type init frame) := by
  cases init with
  | none => exact defaultOf type
  | some init =>
    refine rootScope.bind fun later inner outer le twins => ?_
    exact (answers.eval (.nothing _) ⟨tandem.sees twins, tandem.mono le holds⟩).map
      fun _ _ _ holds _ le => tandem.mono le (holds_convertTo holds)

omit [tandem.Lawful] in
theorem evalAll {nodes : List Expr}
    (sparesNodes : ∀ node ∈ Node.ofExprs nodes, node.Spares hidden)
    (reads : tandem.Reads hidden now scope outside frame) :
    tandem.Agree now (Same tandem.HoldsAll) (Eval.evalAll recur nodes scope frame)
      (Eval.evalAll other nodes outside frame) :=
  mapM (fun _ _ _ => tandem.mono) fun _ isIn =>
    answers.eval (sparesNodes _ (mem_map_of_mem isIn)) reads

theorem ensureStatics (className : String) :
    tandem.Agree now (Same Anything) (Eval.ensureStatics program recur className)
      (Eval.ensureStatics program other className) := by
  refine get_bind fun machine same couples enough => ?_
  rw [Lawful.initialized couples]
  split
  · exact done _
  refine andThen (begin className) ?_
  split
  · exact done _
  · next decl found =>
      refine andThen (forIn fun storage isIn => ?_) (done _)
      exact (answers.initialValue (Lawful.plain rfl)).bind_same
        fun _ value _ holds => (setStatic _ _ holds).andThen (pure fun _ _ => ⟨rfl, rfl⟩)

/-! ## Reading and writing members -/

theorem getStaticMember (className name : String) :
    tandem.Agree now (Same tandem.Holds) (Eval.getStaticMember program recur className name)
      (Eval.getStaticMember program other className name) := by
  unfold Eval.getStaticMember
  split
  · refine (answers.ensureStatics className).andThen ?_
    refine (static? className name).bind_same fun later found _ holds => ?_
    cases found with
    | some value => exact Agree.value (holds value rfl)
    | none =>
      dsimp only
      split
      · exact callValue (answers.runMember (Lawful.plain rfl) (forall_mem_nil _))
      · exact fault _
  · exact fault _

theorem getObjectMember (holds : tandem.Holds now (.object address)) (name : String) :
    tandem.Agree now (Same tandem.Holds) (Eval.getObjectMember program recur address name)
      (Eval.getObjectMember program other address name) := by
  refine (Lawful.object holds).bind_same fun later object le fields => ?_
  split
  · next found => exact Agree.value (holds_lookup fields found)
  · split
    · exact callValue (answers.runMember (tandem.mono le holds) (forall_mem_nil _))
    · exact fault _

theorem getMember {target : Value} (holds : tandem.Holds now target) (name : String) :
    tandem.Agree now (Same tandem.Holds) (Eval.getMember program recur target name)
      (Eval.getMember program other target name) := by
  unfold Eval.getMember
  split
  · exact answers.getStaticMember _ name
  · split
    · exact plain rfl
    · exact raise _ _
  · split
    · next found =>
        obtain ⟨index, -, isThere⟩ := Option.bind_eq_some_iff.mp found
        exact Agree.value (Lawful.tuple.mp holds _ (mem_of_getElem? isThere))
    · exact fault _
  · exact answers.getObjectMember holds name
  · split
    case h_2 | h_3 => exact (sequence holds).bind_same fun _ _ _ _ => plain rfl
    case h_9 => exact unsupported _
    all_goals exact plain rfl

theorem setMember {target value : Value} (holds : tandem.Holds now target)
    (holdsValue : tandem.Holds now value) (name : String) :
    tandem.Agree now (Same Anything) (Eval.setMember program recur target name value)
      (Eval.setMember program other target name value) := by
  refine (copyStruct holdsValue).bind_same fun later value le holdsCopy => ?_
  have holds := tandem.mono le holds
  split
  · refine (Lawful.object holds).bind_same fun last object further _ => ?_
    split
    · refine rootScope.bind fun final inner outer beyond twins => ?_
      have grown := further.trans beyond
      refine (declareVar not_mem_nil (tandem.mono grown holdsCopy) twins).andThen ?_
      exact (answers.runBody twins (tandem.mono grown holds)).andThen (done _)
    · exact setField (tandem.mono further holds) (tandem.mono further holdsCopy)
  · exact (answers.ensureStatics _).andThen (setStatic _ _ holdsCopy)
  · exact raise _ _
  · exact unsupported _

/-! ## Construction -/

theorem initFields (holds : tandem.Holds now (.object address)) (className : String) :
    tandem.Agree now (Same Anything) (Eval.initFields program recur className address)
      (Eval.initFields program other className address) := by
  refine andThen (forIn fun decl inChain => ?_) (done _)
  refine andThen (forIn fun storage isIn => ?_) (pure fun _ _ => ⟨rfl, rfl⟩)
  refine (answers.initialValue holds).bind_same fun _ value le holdsValue => ?_
  exact (setField (tandem.mono le holds) holdsValue).andThen (pure fun _ _ => ⟨rfl, rfl⟩)

theorem create (holdsArgs : tandem.HoldsAll now args) (type : TypeSyntax) :
    tandem.Agree now (Same tandem.Holds) (Eval.create program recur type args)
      (Eval.create program other type args) := by
  unfold Eval.create
  split
  · split
    · exact createBuiltin holdsArgs _
    · refine (allocObject (forall_mem_nil _)).bind_same fun later object le holds => ?_
      have holdsArgs := holdsArgs.mono le
      dsimp only
      split
      · refine (answers.initFields holds _).andThen ?_
        exact (answers.construct holds holdsArgs).andThen (Agree.value holds)
      · exact (answers.construct holds holdsArgs).andThen (Agree.value holds)
  · exact unsupported _

theorem chainCtor {initializer : Option CtorInitializer}
    (reads : tandem.Reads [] now scope outside frame) (holds : tandem.Holds now object) :
    tandem.Agree now (Same Anything)
      (Eval.chainCtor program recur className object initializer scope frame)
      (Eval.chainCtor program other className object initializer outside frame) := by
  unfold Eval.chainCtor
  cases initializer with
  | some init =>
    refine (answers.evalAll (fun _ _ => .nothing _) reads).bind_same fun later args le holdsArgs => ?_
    have holds := tandem.mono le holds
    split
    · exact answers.construct holds holdsArgs
    · split
      · exact answers.construct holds holdsArgs
      · exact initBuiltinBase holds holdsArgs _
  | none =>
    dsimp only
    split
    · exact answers.construct holds (forall_mem_nil _)
    · exact done _

theorem ctorBody {ctor : Eval.Ctor} (holds : tandem.Holds now object)
    (holdsArgs : tandem.HoldsAll now args) :
    tandem.Agree now (Same Anything) (Eval.ctorBody program recur className object args ctor)
      (Eval.ctorBody program other className object args ctor) := by
  unfold Eval.ctorBody Eval.bindParams
  simp only [bind_assoc, pure_bind]
  refine rootScope.bind fun later inner outer le twins => ?_
  have holds := tandem.mono le holds
  have writes : tandem.Writes [] later inner outer ⟨object, some className⟩ := ⟨twins, holds⟩
  refine (answers.bindParamsIn writes (holdsArgs.mono le)).andThen ?_
  refine (answers.chainCtor writes.reads holds).andThen ?_
  cases ctor.body with
  | none => exact done _
  | expr value => exact (answers.eval (.nothing _) writes.reads).andThen (done _)
  | block block =>
    refine (answers.exec (.nothing _) writes).caught_bind
      (fun _ _ _ _ _ => done _) (fun _ => ⟨rfl, rfl⟩) fun _ reason _ holds => ?_
    cases reason with
    | ret => exact done _
    | _ => exact exit holds

theorem runCtor (holds : tandem.Holds now object) (holdsArgs : tandem.HoldsAll now args) :
    tandem.Agree now (Same Anything) (Eval.runCtor program recur className object args)
      (Eval.runCtor program other className object args) := by
  unfold Eval.runCtor
  split
  · exact done _
  · next decl found =>
      refine get_bind fun machine same couples enough => ?_
      have sameCandidate : Eval.ctorCandidate program same args =
          Eval.ctorCandidate program machine args := by
        unfold Eval.ctorCandidate
        rw [Program.overloadScore_congr (Lawful.objects couples) (Lawful.sequences couples)]
      rw [sameCandidate]
      have holds := tandem.mono enough holds
      split
      · dsimp only
        split
        · exact fault_bind
        · split
          · exact answers.construct holds (forall_mem_nil _)
          · exact done _
      · exact nested (answers.ctorBody holds (holdsArgs.mono enough))

end Answers

end Tandem

end Unsugar
