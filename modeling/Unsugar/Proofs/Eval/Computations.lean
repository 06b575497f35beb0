import Unsugar.Proofs.Patterns.NullTests

open List

namespace Unsugar

/-! # Computations without fuel

A computation that makes requests ends in one way under every bound on nesting that
is large enough.  `Runs` says which way that is, normal or early, and has one rule
for each way to put computations together; no rule mentions the bound.
-/

theorem Eval.raise_eq {α : Type} (className message : String) (machine : Machine) :
    (Machine.raise className message : Eval α) machine =
      (.error (.throw (.object machine.objects.size)), { machine with
          objects := machine.objects.push ⟨className, [("Message", .str message)], false⟩ }) :=
  rfl

/-- A computation ends like this under every bound that is large enough. -/
def Runs (program : Program) {α : Type} (action : Answer → Eval α) (before : Machine)
    (outcome : Except Exit α) (after : Machine) : Prop :=
  ∃ enough, ∀ fuel, enough ≤ fuel → action (Eval.run program fuel) before = (outcome, after)

/-! ## Sequencing -/

variable {outcome : Except Exit Unit} {reason : Exit} {body : List Stmt} (machine : Machine)

namespace Runs

section Sequencing

variable {program : Program} {α β : Type} {action : Answer → Eval α} {next : Answer → α → Eval β}
  {before middle after : Machine} {outcome : Except Exit α} {value : α}

theorem of_eq (always : ∀ recur : Answer, action recur before = (outcome, after)) :
    Runs program action before outcome after :=
  ⟨0, fun _ _ => always _⟩

theorem pure (value : α) (machine : Machine) :
    Runs program (fun _ => Pure.pure value) machine (.ok value) machine :=
  of_eq fun _ => rfl

theorem bind {last : Except Exit β} (first : Runs program action before (.ok value) middle)
    (rest : Runs program (fun recur => next @recur value) middle last after) :
    Runs program (fun recur => action @recur >>= next @recur) before last after := by
  obtain ⟨firstEnough, firstRuns⟩ := first
  obtain ⟨restEnough, restRuns⟩ := rest
  refine ⟨max firstEnough restEnough, fun fuel enough => ?_⟩
  exact (Eval.bind_ok (firstRuns fuel (by omega))).trans (restRuns fuel (by omega))

theorem bind_error (first : Runs program action before (.error reason) after) :
    Runs program (fun recur => action @recur >>= next @recur) before (.error reason) after := by
  obtain ⟨enough, runs⟩ := first
  exact ⟨enough, fun fuel bound => Eval.bind_error (runs fuel bound)⟩

theorem bind_pure (make : α → β) (first : Runs program action before outcome after) :
    Runs program (fun recur => action @recur >>= fun value => Pure.pure (make value)) before
      (outcome.map make) after := by
  obtain ⟨enough, runs⟩ := first
  exact ⟨enough, fun fuel bound => Eval.bind_pure make (runs fuel bound)⟩

/-- A computation that ends in the same way with any number of further requests. -/
theorem of_add (enough : Nat)
    (same : ∀ rest, action (Eval.run program (rest + enough)) before = (outcome, after)) :
    Runs program action before outcome after :=
  ⟨enough, fun fuel bound => by rw [← Nat.sub_add_cancel bound]; exact same _⟩

theorem request {request : Request α}
    (steps : Runs program (fun recur => Eval.step program @recur request) before outcome after) :
    Runs program (fun recur => recur request) before outcome after := by
  obtain ⟨enough, runs⟩ := steps
  refine ⟨enough + 1, fun fuel bound => ?_⟩
  obtain _ | rest := fuel
  · omega
  exact runs rest (by omega)

theorem unique {other : Except Exit α} {last : Machine}
    (first : Runs program action before outcome after)
    (second : Runs program action before other last) : outcome = other ∧ after = last := by
  obtain ⟨firstEnough, firstRuns⟩ := first
  obtain ⟨secondEnough, secondRuns⟩ := second
  exact Prod.mk.inj ((firstRuns (max firstEnough secondEnough) (by omega)).symm.trans
    (secondRuns _ (by omega)))

theorem caught (runs : Runs program action before outcome after) :
    Runs program (fun recur => Eval.outcome (action @recur)) before (.ok outcome) after := by
  obtain ⟨enough, runs⟩ := runs
  refine ⟨enough, fun fuel bound => ?_⟩
  change (Except.ok (action (Eval.run program fuel) before).1,
    (action (Eval.run program fuel) before).2) = _
  rw [runs fuel bound]

end Sequencing

end Runs

/-! ## Calls -/

namespace Machine

def deeper (machine : Machine) : Machine := { machine with depth := machine.depth + 1 }

def shallower (machine : Machine) : Machine := { machine with depth := machine.depth - 1 }

def withScope (machine : Machine) (entry : Scope) : Machine :=
  { machine with scopes := machine.scopes.push entry }

end Machine

/-- What the body of a call yields, by how its statements end. -/
def Eval.returned : Except Exit Unit → Except Exit Value
  | .ok _ => .ok .null
  | .error (.ret value) => .ok value
  | .error other => .error other

namespace Runs

section Calls

variable {program : Program} {α : Type} {before middle after : Machine} {action : Answer → Eval α}

theorem nested {outcome : Except Exit α} (room : before.depth < Machine.maxDepth)
    (runs : Runs program action before.deeper outcome after) :
    Runs program (fun recur => Machine.nested (action @recur)) before outcome after.shallower := by
  obtain ⟨enough, caught⟩ := runs.caught
  refine ⟨enough, fun fuel bound => ?_⟩
  have asked : (get : Eval Machine) before = (.ok before, before) := rfl
  have goesDown : (modify fun machine => { machine with depth := machine.depth + 1 } : Eval Unit)
      before = (.ok (), before.deeper) := rfl
  refine (Eval.bind_ok asked).trans ?_
  dsimp only
  rw [if_neg (Nat.not_le.2 room)]
  refine (Eval.bind_ok goesDown).trans ((Eval.bind_ok (caught fuel bound)).trans ?_)
  cases outcome <;> rfl

theorem nested_limit (noRoom : Machine.maxDepth ≤ before.depth) :
    Runs program (fun recur => Machine.nested (action @recur)) before
      (.error (.fault .callDepth)) before := by
  refine of_eq fun recur => ?_
  have asked : (get : Eval Machine) before = (.ok before, before) := rfl
  refine (Eval.bind_ok asked).trans ?_
  dsimp only
  rw [if_pos noRoom]
  rfl

/-! ### Statements -/

section Statements

variable {scope : Nat} {frame : Frame} {span : Span} {node : Stmt} {rest : List Stmt}

theorem execAll_cons
    (first : Runs program (fun recur => recur (.exec node scope frame)) before (.ok ()) middle)
    (others : Runs program (fun recur => Eval.execAll recur rest scope frame) middle outcome after) :
    Runs program (fun recur => Eval.execAll recur (node :: rest) scope frame) before outcome after :=
  first.bind others

/-- A statement that does not end normally ends the list. -/
theorem execAll_stops
    (first : Runs program (fun recur => recur (.exec node scope frame)) before (.error reason)
      after) :
    Runs program (fun recur => Eval.execAll recur (node :: rest) scope frame) before
      (.error reason) after :=
  first.bind_error

variable {value : Expr}

theorem evalStmt {outcome : Except Exit Value}
    (evaluated : Runs program (fun recur => recur (.eval value scope frame)) before outcome after) :
    Runs program (fun recur => recur (.exec (span.evalStmt value) scope frame)) before
      (outcome.map fun _ => ()) after :=
  .request (.bind_pure (fun _ => ()) evaluated)

theorem ret {result : Value}
    (evaluated : Runs program (fun recur => recur (.eval value scope frame)) before (.ok result)
      after) :
    Runs program (fun recur => recur (.exec (span.ret value) scope frame)) before
      (.error (.ret result)) after :=
  .request (evaluated.bind (.of_eq fun _ => rfl))

theorem ret_error
    (fails : Runs program (fun recur => recur (.eval value scope frame)) before (.error reason) after) :
    Runs program (fun recur => recur (.exec (span.ret value) scope frame)) before (.error reason)
      after :=
  .request fails.bind_error

theorem block (runs : Runs program (fun recur => Eval.execAll recur body before.scopes.size frame)
      (before.withScope ⟨[], some scope⟩) outcome after) :
    Runs program (fun recur => recur (.exec (span.block body) scope frame)) before outcome after :=
  .request (.bind (of_eq fun _ => rfl) runs)

end Statements

end Calls

end Runs

/-! ## What stays in place -/

/-- Between two moments objects and scopes were made, and nothing else happened. -/
structure Machine.Grows (before after : Machine) : Prop where
  objects : ∀ (address : Nat) (object : Object), before.objects[address]? = some object →
    after.objects[address]? = some object
  scopes : ∀ (address : Nat) (entry : Scope), before.scopes[address]? = some entry →
    after.scopes[address]? = some entry
  sequences : after.sequences = before.sequences
  closures : after.closures = before.closures
  statics : after.statics = before.statics
  initialized : after.initialized = before.initialized
  output : after.output = before.output
  depth : after.depth = before.depth

theorem Array.getElem?_push_of_some {α : Type} {items : Array α} {index : Nat} {item other : α}
    (present : items[index]? = some item) : (items.push other)[index]? = some item := by
  obtain ⟨inBounds, _⟩ := Array.getElem?_eq_some_iff.1 present
  rw [← present]
  exact (Array.getElem?_push_lt inBounds).trans (Array.getElem?_eq_getElem inBounds).symm

namespace Machine.Grows

variable {before middle after : Machine}

theorem refl : machine.Grows machine :=
  ⟨fun _ _ present => present, fun _ _ present => present, rfl, rfl, rfl, rfl, rfl, rfl⟩

theorem trans (first : before.Grows middle) (second : middle.Grows after) : before.Grows after where
  objects address object present := second.objects address object (first.objects _ _ present)
  scopes address entry present := second.scopes address entry (first.scopes _ _ present)
  sequences := second.sequences.trans first.sequences
  closures := second.closures.trans first.closures
  statics := second.statics.trans first.statics
  initialized := second.initialized.trans first.initialized
  output := second.output.trans first.output
  depth := second.depth.trans first.depth

theorem withScope (grows : before.Grows middle) (entry : Scope) :
    before.Grows (middle.withScope entry) :=
  { grows with
    scopes := fun _ _ present => Array.getElem?_push_of_some (grows.scopes _ _ present) }

theorem withObject (grows : before.Grows middle) (object : Object) :
    before.Grows { middle with objects := middle.objects.push object } :=
  { grows with
    objects := fun _ _ present => Array.getElem?_push_of_some (grows.objects _ _ present) }

theorem shallower (grows : before.deeper.Grows after) : before.Grows after.shallower :=
  { grows with
    depth := by
      have sameDepth : after.depth = before.depth + 1 := grows.depth
      change after.depth - 1 = _
      omega }

end Machine.Grows

/-! ## Variables of a scope of its own -/

namespace Machine

def declared (machine : Machine) (scope : Nat) (name : String) (value : Value) : Machine :=
  { machine with scopes := setIn machine.scopes scope name value }

variable {before machine : Machine} {home : Nat} {name : String} {entry : Scope}

theorem Grows.declared (grows : before.Grows machine) (isNew : before.scopes.size ≤ home)
    (name : String) (value : Value) : before.Grows (machine.declared home name value) :=
  { grows with
    scopes := fun address entry present => by
      have isOld : address < before.scopes.size := (Array.getElem?_eq_some_iff.1 present).1
      have other : address ≠ home := by omega
      change (setIn machine.scopes home name value)[address]? = _
      rw [getElem?_setIn, grows.scopes _ _ present]
      simp [other] }

variable (present : machine.scopes[home]? = some entry)

include present

theorem getElem?_declared (value : Value) : (machine.declared home name value).scopes[home]? =
      some { entry with vars := assocSet name value entry.vars } := by
  change (setIn machine.scopes home name value)[home]? = _
  rw [getElem?_setIn, present]
  simp

theorem valueOf?_own {value : Value} (isBound : entry.vars.lookup name = some value) :
    machine.valueOf? home name = some value := by
  have found : findScope? machine.scopes name (home + 1) home = some home := by
    simp [findScope?, present, isBound]
  unfold valueOf?
  rw [found]
  simp [Array.getD_eq_getD_getElem?, present, isBound]

theorem assign_own (isBound : (entry.vars.lookup name).isSome) {value : Value} :
    machine.assign home name value = machine.declared home name value := by
  have found : findScope? machine.scopes name (home + 1) home = some home := by
    simp [findScope?, present, isBound]
  unfold assign
  rw [found]
  rfl

end Machine

/-! ## Copies -/

namespace Machine

def copied (machine : Machine) (value : Value) : Value × Machine :=
  match value with
  | .object address =>
    let object := machine.objects.getD address default
    if object.isStruct then
      (.object machine.objects.size, { machine with objects := machine.objects.push object })
    else (value, machine)
  | _ => (value, machine)

theorem copyStruct_copied (value : Value) :
    copyStruct value machine = (.ok (machine.copied value).1, (machine.copied value).2) := by
  cases value with
  | object address =>
    have read : object address machine = (.ok (machine.objects.getD address default), machine) := rfl
    refine (Eval.bind_ok read).trans ?_
    unfold copied
    dsimp only
    generalize machine.objects.getD address default = object
    obtain ⟨className, fields, isStruct⟩ := object
    cases isStruct <;> rfl
  | _ => rfl

theorem copied_cases (value : Value) : machine.copied value = (value, machine) ∨
      ∃ address object, value = .object address ∧ machine.objects[address]? = some object ∧
        object.isStruct = true ∧ machine.copied value =
          (.object machine.objects.size, { machine with objects := machine.objects.push object }) := by
  cases value with
  | object address =>
    cases present : machine.objects[address]? with
    | none =>
      have plain : (default : Object).isStruct = false := rfl
      simp [copied, Array.getD_eq_getD_getElem?, present, plain]
    | some object =>
      cases isStruct : object.isStruct with
      | false => simp [copied, Array.getD_eq_getD_getElem?, present, isStruct]
      | true =>
        exact .inr ⟨address, object, rfl, present, isStruct, by
          simp [copied, Array.getD_eq_getD_getElem?, present, isStruct]⟩
  | _ => exact .inl rfl

theorem grows_copied (machine : Machine) (value : Value) :
    machine.Grows (machine.copied value).2 := by
  rcases machine.copied_cases value with same | ⟨address, object, -, -, -, copied⟩
  · rw [same]
    exact .refl machine
  · rw [copied]
    exact (Grows.refl machine).withObject object

def copiedAll (machine : Machine) : List Value → List Value × Machine
  | [] => ([], machine)
  | value :: rest =>
    let first := machine.copied value
    let others := first.2.copiedAll rest
    (first.1 :: others.1, others.2)

theorem grows_copiedAll (values : List Value) : machine.Grows (machine.copiedAll values).2 := by
  induction values generalizing machine with
  | nil => exact .refl machine
  | cons value rest ih =>
    exact (machine.grows_copied value).trans (ih _)

theorem scopes_copied {value : Value} : (machine.copied value).2.scopes = machine.scopes := by
  rcases machine.copied_cases value with same | ⟨_, _, -, -, -, copied⟩
  · rw [same]
  · rw [copied]

theorem scopes_copiedAll {values : List Value} :
    (machine.copiedAll values).2.scopes = machine.scopes := by
  induction values generalizing machine with
  | nil => rfl
  | cons value rest ih =>
    exact (ih _).trans machine.scopes_copied

theorem copied_withScope {entry : Scope} {value : Value} : (machine.withScope entry).copied value =
      ((machine.copied value).1, (machine.copied value).2.withScope entry) := by
  cases value with
  | object address =>
    unfold copied
    dsimp only [withScope]
    split <;> rfl
  | _ => rfl

theorem declareVar_withScope (entry : Scope) (name : String) (value : Value) :
    declareVar machine.scopes.size name value (machine.withScope entry) =
      (.ok (), machine.withScope { entry with vars := assocSet name value entry.vars }) := by
  have changed (entries : Array Scope) (change : Scope → Scope) :
      (entries.push entry).modify entries.size change = entries.push (change entry) := by
    ext index bound bound'
    · simp
    · simp only [Array.getElem_modify, Array.getElem_push]
      grind
  change (Except.ok (), { machine with scopes := (machine.scopes.push entry).modify _ _ }) = _
  rw [changed]
  rfl

end Machine

/-! ## Members -/

def bindVars : List Param → List Value → List (String × Value) → List (String × Value)
  | param :: params, value :: values, vars => bindVars params values (assocSet param.name value vars)
  | _, _, vars => vars

def Param.Takes (param : Param) (arg : Value) : Prop :=
  param.passing = .byValue ∧ Program.convertTo param.type arg = arg

namespace Runs

variable {program : Program} {frame : Frame} {before after : Machine}

theorem bindParamsIn {params : List Param} {args : List Value}
    (taken : Forall₂ Param.Takes params args) (vars : List (String × Value)) :
    Runs program (fun recur => Eval.bindParamsIn program recur frame before.scopes.size params args)
      (before.withScope ⟨vars, none⟩) (.ok ())
      ((before.copiedAll args).2.withScope
        ⟨bindVars params (before.copiedAll args).1 vars, none⟩) := by
  induction taken generalizing before vars with
  | nil => exact .pure () _
  | @cons param arg params args takes _ ih =>
    obtain ⟨byValue, isKept⟩ := takes
    have bound : Runs program (fun recur => Eval.bindParam program recur frame before.scopes.size
        param (arg :: args)) (before.withScope ⟨vars, none⟩) (.ok (arg, args))
        (before.withScope ⟨vars, none⟩) := by
      refine .of_eq fun recur => ?_
      simp only [Eval.bindParam, byValue, isKept]
      rfl
    have stored : Machine.copyStruct arg (before.withScope ⟨vars, none⟩) =
        (.ok (before.copied arg).1, (before.copied arg).2.withScope ⟨vars, none⟩) := by
      rw [Machine.copyStruct_copied, Machine.copied_withScope]
    have declared := (before.copied arg).2.declareVar_withScope ⟨vars, none⟩ param.name
      (before.copied arg).1
    have others := @ih (before.copied arg).2 (assocSet param.name (before.copied arg).1 vars)
    rw [before.scopes_copied] at declared others
    exact .bind bound (.bind (.of_eq fun _ => stored) (.bind (.of_eq fun _ => declared) others))

variable {scope : Nat} {span : Span}

theorem declare {type : TypeSyntax} {name : String} {init : Expr} {value : Value}
    (evaluated : Runs program (fun recur => recur (.eval init scope frame)) before
      (.ok value) after) :
    Runs program (fun recur => recur (.exec (span.declare type name (some init)) scope frame)) before
      (.ok ())
      ((after.copied (Program.convertTo type value)).2.declared scope name
        (after.copied (Program.convertTo type value)).1) := by
  have stored := after.copyStruct_copied (Program.convertTo type value)
  exact .request (.bind evaluated (.bind (.pure _ _) (.bind (.of_eq fun _ => stored)
    (.of_eq fun _ => rfl))))

theorem assign_error {target value : Expr}
    (fails : Runs program (fun recur => recur (.eval value scope frame)) before (.error reason) after) :
    Runs program (fun recur => recur (.eval (span.assign target value) scope frame)) before
      (.error reason) after :=
  .request fails.bind_error

theorem bindParams {params : List Param} {args : List Value}
    (taken : Forall₂ Param.Takes params args) :
    Runs program (fun recur => Eval.bindParams program recur params args frame) before
      (.ok before.scopes.size)
      ((before.copiedAll args).2.withScope ⟨bindVars params (before.copiedAll args).1 [], none⟩) :=
  .bind (.of_eq fun _ => rfl) ((bindParamsIn taken []).bind (.pure _ _))

theorem runBody {code : Code} {this : Value} (isBody : code.body = .block (span.block body))
    (room : before.depth < Machine.maxDepth)
    (runs : Runs program
      (fun recur => Eval.execAll recur body before.scopes.size ⟨this, some code.owner⟩)
      (before.deeper.withScope ⟨[], some scope⟩) outcome after) :
    Runs program (fun recur => Eval.runBody recur code this scope) before (Eval.returned outcome)
      after.shallower := by
  unfold Eval.runBody
  refine .nested room ?_
  rw [isBody]
  have blockRuns : Runs program (fun recur => recur (.exec (span.block body) scope
    ⟨this, some code.owner⟩)) before.deeper outcome after := block runs
  refine .bind blockRuns.caught ?_
  cases outcome with
  | ok _ => exact .pure _ _
  | error reason => cases reason <;> exact .of_eq fun _ => rfl

end Runs

namespace Machine

def called (machine : Machine) (params : List Param) (args : List Value) : Machine :=
  let copies := machine.copiedAll args
  (copies.2.withScope ⟨bindVars params copies.1 [], none⟩).deeper.withScope
    ⟨[], some machine.scopes.size⟩

variable {machine later : Machine} {params : List Param} {args : List Value}

theorem grows_called (machine : Machine) (params : List Param) (args : List Value) :
    machine.deeper.Grows (machine.called params args) := by
  have grows := ((machine.grows_copiedAll args).withScope
    ⟨bindVars params (machine.copiedAll args).1 [], none⟩)
  refine Grows.withScope ?_ ⟨[], some machine.scopes.size⟩
  exact { grows with depth := congrArg (· + 1) grows.depth }

theorem getElem?_called (machine : Machine) (params : List Param) (args : List Value) :
    (machine.called params args).scopes[machine.scopes.size + 1]? =
      some ⟨[], some machine.scopes.size⟩ := by
  have size : (machine.copiedAll args).2.scopes.size = machine.scopes.size := by
    rw [scopes_copiedAll]
  change ((Array.push _ _).push _)[_]? = _
  rw [Array.getElem?_push, if_pos (by simp [size])]

theorem valueOf?_called {name : String} {value : Value}
    (grows : (machine.called params args).Grows later)
    (isBound : (bindVars params (machine.copiedAll args).1 []).lookup name = some value) :
    later.valueOf? (machine.scopes.size + 1) name = some value := by
  have inner : later.scopes[machine.scopes.size + 1]? = some ⟨[], some machine.scopes.size⟩ :=
    grows.scopes _ _ (machine.getElem?_called params args)
  have outer : later.scopes[machine.scopes.size]? =
      some ⟨bindVars params (machine.copiedAll args).1 [], none⟩ :=
    grows.scopes _ _ (by
      change ((Array.push _ _).push _)[_]? = _
      rw [Array.getElem?_push, if_neg (by simp [scopes_copiedAll]), Array.getElem?_push,
        if_pos (by simp [scopes_copiedAll])])
  have found : findScope? later.scopes name (machine.scopes.size + 2) (machine.scopes.size + 1) =
      some machine.scopes.size := by
    simp [findScope?, inner, outer, isBound]
  unfold valueOf?
  rw [found]
  simp [Array.getD_eq_getD_getElem?, outer, isBound]

end Machine

namespace Runs

variable {program : Program} {frame : Frame} {scope : Nat} {before middle after : Machine}

section Members

variable {code : Code} {span : Span} {this : Value} {args : List Value}

theorem runMember (isBody : code.body = .block (span.block body))
    (taken : Forall₂ Param.Takes code.params args) (room : before.depth < Machine.maxDepth)
    (runs : Runs program
      (fun recur => Eval.execAll recur body (before.scopes.size + 1) ⟨this, some code.owner⟩)
      (before.called code.params args) outcome after) :
    Runs program (fun recur => Eval.runMember program recur code this args) before
      ((Eval.returned outcome).map fun value => ⟨value, some (code.params, before.scopes.size)⟩)
      after.shallower := by
  let bound := (before.copiedAll args).2.withScope
    ⟨bindVars code.params (before.copiedAll args).1 [], none⟩
  have isRoom : bound.depth < Machine.maxDepth :=
    (before.grows_copiedAll args).depth.trans_lt room
  have size : bound.scopes.size = before.scopes.size + 1 := by
    simp [bound, Machine.withScope, Machine.scopes_copiedAll]
  exact .bind (bindParams taken) (.bind_pure _ (runBody isBody isRoom (by rwa [size])))

theorem runMember_limit {program : Program} {this : Value} (taken : Forall₂ Param.Takes code.params args)
    (noRoom : Machine.maxDepth ≤ before.depth) :
    ∃ after, before.Grows after ∧ Runs program
      (fun recur => Eval.runMember program recur code this args) before
      (.error (.fault .callDepth)) after := by
  let bound := (before.copiedAll args).2.withScope
    ⟨bindVars code.params (before.copiedAll args).1 [], none⟩
  have grows : before.Grows bound := (before.grows_copiedAll args).withScope _
  have isLimit : Machine.maxDepth ≤ bound.depth := by rwa [grows.depth]
  exact ⟨bound, grows, .bind (bindParams taken) (nested_limit isLimit).bind_error⟩

end Members

/-! ## Calls of methods -/

section MethodCalls

variable {span : Span} {receiver : Expr} {name : String} {args : List Expr} {target : Value}
  {values : List Value}

theorem writeBack_values (callee : Nat) (areValues : ∀ arg ∈ args, ∀ inner, arg.kind ≠ .out inner)
    (params : List Param) (recur : Answer) :
    Eval.writeBack recur callee scope frame args params = Pure.pure () := by
  induction args generalizing params with
  | nil => rfl
  | cons arg args ih =>
    cases params with
    | nil => rfl
    | cons param params =>
      rw [Eval.writeBack]
      split
      · rename_i inner isOut
        exact absurd isOut (areValues arg mem_cons_self inner)
      · exact ih (fun other present => areValues other (.tail _ present)) params

theorem methodCall {outcome : Except Exit CallResult}
    (argsEval : Runs program (fun recur => Eval.evalAll recur args scope frame) before (.ok values)
      middle)
    (notBase : receiver.kind ≠ .base) (areValues : ∀ arg ∈ args, ∀ inner, arg.kind ≠ .out inner)
    (called : Runs program (fun recur => recur (.eval receiver scope frame) >>= fun target =>
        recur (.invoke target name values none)) middle outcome after) :
    Runs program (fun recur => recur (.eval (span.methodCall receiver name args) scope frame)) before
      (outcome.map (·.value)) after := by
  have called : Runs program (fun recur => Eval.callMember program recur receiver name values scope
      frame) middle outcome after := by
    obtain ⟨enough, runs⟩ := called
    refine ⟨enough, fun fuel bound => ?_⟩
    dsimp only
    rw [Eval.callMember_eq notBase]
    exact runs fuel bound
  refine .request (.bind argsEval ?_)
  cases outcome with
  | error reason => exact called.bind_error
  | ok result =>
    refine .bind called (.of_eq fun recur => ?_)
    obtain ⟨value, params⟩ := result
    cases params with
    | none => rfl
    | some entry =>
      dsimp only
      rw [writeBack_values _ areValues]
      rfl

theorem methodCall_stops
    (fails : Runs program (fun recur => Eval.evalAll recur args scope frame) before (.error reason)
      after) :
    Runs program (fun recur => recur (.eval (span.methodCall receiver name args) scope frame)) before
      (.error reason) after :=
  .request fails.bind_error

theorem invoke {address : Nat} {object : Object} {code : Code} {values : List Value}
    {outcome : Except Exit CallResult} (present : before.objects[address]? = some object)
    (found : program.findMethod? before object.className name values = some (code, false))
    (runs : Runs program (fun recur => Eval.runMember program recur code (.object address) values)
      before outcome after) :
    Runs program (fun recur => recur (.invoke (.object address) name values none)) before outcome
      after := by
  have asked : (get : Eval Machine) before = (.ok before, before) := rfl
  obtain ⟨enough, runs⟩ := runs
  refine .request ⟨enough, fun fuel bound => ?_⟩
  dsimp only [Eval.step]
  unfold Eval.invoke
  dsimp only
  rw [Eval.bind_ok (Eval.object_eq present), pure_bind, Eval.bind_ok asked, Option.getD_none,
    Option.bind_some, found]
  exact runs fuel bound

end MethodCalls

end Runs

/-! ## Casts of functions -/

theorem Program.cast_closure {program : Program} {address : Nat} {args : List TypeSyntax}
    {machine : Machine} : program.cast (.closure address) (.named "Func" args) machine =
      (.ok (.closure address), machine) := by
  have isInstance : program.isInstance machine (.closure address) (.named "Func" args) = true := rfl
  change (if program.knows "Func" && !program.isInstance machine (.closure address)
    (.named "Func" args) then Machine.raiseCast else pure (.closure address) : Eval Value) machine = _
  rw [isInstance, Bool.not_true, Bool.and_false]
  rfl

end Unsugar
