import Unsugar.Proofs.Eval.Computations
import Unsugar.Proofs.Expressions.GuardedChains

open List

namespace Unsugar

/-! # Null-conditional access

The receivers of a chain are tested from left to right, up to the first that is found
to be `null`.  In each place that a chain can stand, nothing is left to do after the
tests but what the access behind them takes, if all of them found something, and what
stands for it otherwise.
-/

open Pass

/-! ## How evaluation ends -/

variable {reason : Exit} {link : ChainLink} {first cond yes no : Expr} {fuel : Nat}
  {span : Span} {machine : Machine} {links : List ChainLink} {view : View}
  {node final : Expr} {type : Ty}

namespace Verdict

section Rules

variable (verdict : Verdict) (program : Program) (scope : Nat) (frame : Frame)

def Ends (node : Expr) (before : Machine) (outcome : Except Exit Value) (after : Machine) : Prop :=
  ∃ enough, ∀ fuel, enough ≤ fuel →
    Eval.runTesting verdict program fuel (.eval node scope frame) before = (outcome, after)

/-- A request is answered by what is left to do, however that ends, once the bound on
    nesting is large enough. -/
def AnswersAs {α : Type} (request : Request α) (before : Machine) (rest : Answer → Eval α)
    (after : Machine) : Prop :=
  ∃ depth enough, ∀ fuel, enough ≤ fuel →
    Eval.runTesting verdict program (fuel + depth) request before =
      rest (Eval.runTesting verdict program fuel) after

def ComparesNull (value : Value) (before : Machine) (outcome : Except Exit Value)
    (after : Machine) : Prop :=
  ∃ enough, ∀ fuel, enough ≤ fuel →
    Eval.binary program (Eval.runTesting verdict program fuel) .notEq value .null before =
      (outcome, after)

end Rules

variable {verdict : Verdict} {program : Program} {scope : Nat} {frame : Frame} {span : Span}
  {before middle after : Machine}
  {node left right : Expr} {outcome : Except Exit Value} {value : Value}

theorem Ends.of_step (enough : Nat) (steps : ∀ fuel, enough ≤ fuel →
      Eval.stepTesting verdict program (Eval.runTesting verdict program fuel)
        (.eval node scope frame) before = (outcome, after)) :
    verdict.Ends program scope frame node before outcome after := by
  refine ⟨enough + 1, fun fuel bound => ?_⟩
  obtain _ | rest := fuel
  · omega
  exact steps rest (by omega)

theorem Ends.and_stops {outcome : Except Exit Bool}
    (ends : verdict.Ends program scope frame left before (outcome.map .bool) after)
    (stops : outcome ≠ .ok true) :
    verdict.Ends program scope frame (span.binary .and left right) before (outcome.map .bool)
      after := by
  obtain ⟨enough, runs⟩ := ends
  refine .of_step enough fun fuel bound => ?_
  cases outcome with
  | error reason => exact Eval.bind_error (runs fuel bound)
  | ok holds =>
    cases holds with
    | true => exact absurd rfl stops
    | false => exact Eval.evalBinary_stops false (runs fuel bound)

theorem Ends.and_goes {outcome : Except Exit Bool}
    (holds : verdict.Evaluates program scope frame left before (.bool true) middle)
    (ends : verdict.Ends program scope frame right middle (outcome.map .bool) after) :
    verdict.Ends program scope frame (span.binary .and left right) before (outcome.map .bool)
      after := by
  obtain ⟨leftEnough, leftRuns⟩ := holds
  obtain ⟨rightEnough, rightRuns⟩ := ends
  exact .of_step (max leftEnough rightEnough) fun fuel bound =>
    (Eval.evalBinary_goes false (leftRuns fuel (by omega))).trans (rightRuns fuel (by omega))

theorem ComparesNull.notEq_null
    (evaluates : verdict.Evaluates program scope frame node before value middle)
    (compares : verdict.ComparesNull program value middle outcome after) :
    verdict.Ends program scope frame (span.binary .notEq node span.nullLit) before outcome
      after := by
  obtain ⟨nodeEnough, nodeRuns⟩ := evaluates
  obtain ⟨enough, runs⟩ := compares
  refine .of_step (max (max nodeEnough enough) 1) fun fuel bound => ?_
  obtain _ | rest := fuel
  · omega
  change Eval.evalBinary program (Eval.runTesting verdict program (rest + 1)) .notEq node
    span.nullLit scope frame before = _
  unfold Eval.evalBinary
  rw [Eval.bind_ok (nodeRuns (rest + 1) (by omega))]
  exact runs (rest + 1) (by omega)

theorem Ends.binary_fails {op : BinaryOp}
    (fails : verdict.Ends program scope frame left before (.error reason) after) :
    verdict.Ends program scope frame (span.binary op left right) before (.error reason) after := by
  obtain ⟨enough, runs⟩ := fails
  exact .of_step enough fun fuel bound => Eval.bind_error (runs fuel bound)

theorem Ends.assign_fails {target : Expr}
    (fails : verdict.Ends program scope frame node before (.error reason) after) :
    verdict.Ends program scope frame (span.assign target node) before (.error reason) after := by
  obtain ⟨enough, runs⟩ := fails
  exact .of_step enough fun fuel bound => Eval.bind_error (runs fuel bound)

theorem Ends.forget (isSimple : node.isSimple = true)
    (ends : verdict.Ends program scope frame node before outcome after) :
    verdict.Ends program scope frame node.forget before outcome after := by
  obtain ⟨enough, runs⟩ := ends
  refine ⟨enough, fun fuel bound => ?_⟩
  rw [Eval.runTesting_forget isSimple]
  exact runs fuel bound

theorem ComparesNull.of_undecided (undecided : program.nullOperator? machine true value = none) :
    verdict.ComparesNull program value machine (.ok (.bool (!value.isNull))) machine := by
  refine ⟨0, fun fuel _ => ?_⟩
  have compares := comparesNull_iff.2 undecided (Eval.runTesting verdict program fuel)
  rw [Bool.bne_true] at compares
  exact compares

theorem ComparesNull.finds (undecided : program.nullOperator? machine true value = none)
    (notNull : value.isNull = false) :
    verdict.ComparesNull program value machine ((Except.ok true).map .bool) machine := by
  have compares : verdict.ComparesNull program value machine _ machine := .of_undecided undecided
  rw [notNull] at compares
  exact compares

end Verdict

/-! ## Links in order -/

section Tests

variable (verdict : Verdict) (program : Program) (scope : Nat) (frame : Frame)

/-- The value of a receiver is kept in the variable for it, if there is one. -/
inductive ChainLink.Keeps (link : ChainLink) (value : Value) : Machine → Machine → Prop where
  | simple (isSimple : link.holder = none) (machine : Machine) : Keeps link value machine machine
  | held {name : String} {stored : Value} {before copied after : Machine}
      (isHeld : link.holder = some name)
      (copies : Machine.copyStruct value before = (.ok stored, copied))
      (assigns : Machine.assignVar scope name stored copied = (.ok true, after)) :
      Keeps link value before after

/-- A receiver is evaluated, once, kept, and then compared with `null`; whether it is found
    to be something else. -/
inductive ChainLink.Tests (link : ChainLink) : Machine → Except Exit Bool → Machine → Prop where
  | failed {before after : Machine} {reason : Exit}
      (ends : verdict.Ends program scope frame link.receiver before (.error reason) after) :
      Tests link before (.error reason) after
  | compared {value : Value} {before evaluated kept after : Machine} {outcome : Except Exit Bool}
      (evaluates : verdict.Evaluates program scope frame link.receiver before value evaluated)
      (keeps : link.Keeps scope value evaluated kept)
      (compares : verdict.ComparesNull program value kept (outcome.map .bool) after) :
      Tests link before outcome after

/-- Receivers are tested in order, up to the first that is not found to be something else
    than `null`. -/
inductive NullTests : List ChainLink → Machine → Except Exit Bool → Machine → Prop where
  | passed (machine : Machine) : NullTests [] machine (.ok true) machine
  | stops {link : ChainLink} {links : List ChainLink} {before after : Machine}
      {outcome : Except Exit Bool} (notFound : outcome ≠ .ok true)
      (tests : link.Tests verdict program scope frame before outcome after) :
      NullTests (link :: links) before outcome after
  | goesOn {link : ChainLink} {links : List ChainLink} {before middle after : Machine}
      {outcome : Except Exit Bool}
      (tests : link.Tests verdict program scope frame before (.ok true) middle)
      (others : NullTests links middle outcome after) :
      NullTests (link :: links) before outcome after

end Tests

section Runs

variable {verdict : Verdict} {program : Program} {scope : Nat} {frame : Frame}
  {before middle after : Machine} {outcome : Except Exit Bool}

theorem ChainLink.Tests.guard (isHolder : link.holder.isNone = link.receiver.isSimple)
    (tests : link.Tests verdict program scope frame before outcome after) :
    verdict.Ends program scope frame link.guard before (outcome.map .bool) after := by
  unfold ChainLink.guard ChainLink.tested ChainLink.stable Expr.keptIn? Expr.heldIn
  cases tests with
  | failed ends =>
    refine .binary_fails ?_
    cases held : link.holder with
    | none =>
      rw [held] at isHolder
      exact ends.forget isHolder.symm
    | some name => exact ends.assign_fails
  | compared evaluates keeps compares =>
    refine Verdict.ComparesNull.notEq_null ?_ compares
    cases keeps with
    | simple isSimple =>
      rw [isSimple] at isHolder ⊢
      exact Verdict.Ends.forget isHolder.symm evaluates
    | held isHeld copies assigns =>
      rw [isHeld]
      exact evaluates.assign copies assigns

theorem Verdict.Ends.foldl_stops
    (ends : verdict.Ends program scope frame first before (outcome.map .bool) after)
    (stops : outcome ≠ .ok true) {guards : List Expr} :
    verdict.Ends program scope frame (guards.foldl (span.binary .and) first) before
      (outcome.map .bool) after := by
  induction guards generalizing first with
  | nil => exact ends
  | cons guard guards ih => exact ih (ends.and_stops stops)

theorem NullTests.foldl (span : Span)
    (areHolders : ∀ link ∈ links, link.holder.isNone = link.receiver.isSimple)
    (holds : verdict.Evaluates program scope frame first before (.bool true) middle)
    (tests : NullTests verdict program scope frame links middle outcome after) :
    verdict.Ends program scope frame ((links.map (·.guard)).foldl (span.binary .and) first) before
      (outcome.map .bool) after := by
  induction tests generalizing first with
  | passed machine => exact holds
  | @stops link links middle after outcome notFound tests =>
    have ends := tests.guard (areHolders link mem_cons_self)
    exact (Verdict.Ends.and_goes holds ends).foldl_stops notFound
  | @goesOn link links middle next after outcome tests others ih =>
    have ends := tests.guard (areHolders link mem_cons_self)
    exact ih (fun link isLink => areHolders link (mem_cons_of_mem _ isLink)) (.and_true holds ends)

theorem NullTests.conjunction (span : Span)
    (areHolders : ∀ link ∈ links, link.holder.isNone = link.receiver.isSimple)
    (tests : NullTests verdict program scope frame links before outcome after) :
    verdict.Ends program scope frame (span.conjunction (links.map (·.guard))) before
      (outcome.map .bool) after := by
  match links, tests with
  | [], .passed machine => exact Verdict.Evaluates.of_run 1 fun _ => rfl
  | link :: links, .stops notFound tests =>
    exact (tests.guard (areHolders link mem_cons_self)).foldl_stops notFound
  | link :: links, .goesOn tests others =>
    exact others.foldl span (fun link isLink => areHolders link (mem_cons_of_mem _ isLink))
      (tests.guard (areHolders link mem_cons_self))

end Runs

/-! ## What is left to do -/

namespace Eval

/-- Evaluate the access behind the tests, and convert it where its type can be `null`. -/
def accessed (program : Program) (view : View) (type : Ty) (final : Expr) (scope : Nat)
    (frame : Frame) (recur : Answer) : Eval Value := do
  let value ← recur (.eval final scope frame)
  if type.isNullable then program.cast value (view.types.names.syntaxOf type) else return value

/-- What stands for a value where a test found `null`. -/
def absent (program : Program) (view : View) (type : Ty) : Eval Value :=
  if view.types.isPlainValue type then program.defaultOf (view.types.names.syntaxOf type)
  else return .null

/-- The function that an access without a value runs in, inside of an expression. -/
def accessBody (span : Span) (final : Expr) : LambdaBody :=
  .block (span.block [span.evalStmt final, span.ret (span.boolLit true)])

/-- How the body of that function is left. -/
def leaves : Except Exit Value → Exit
  | .ok _ => .ret (.bool true)
  | .error reason => reason

/-- Run an access without a value in a function that is called at once, which yields `true`. -/
def ranInside (span : Span) (final : Expr) (scope : Nat) (frame : Frame) (recur : Answer) :
    Eval Value := do
  let _ ← Machine.allocClosure ⟨[], accessBody span final, scope, frame⟩
  Machine.nested do
    let inner ← Machine.childScope (← Machine.childScope scope)
    match ← outcome (recur (.eval final inner frame)) with
    | .ok _ => return .bool true
    | .error (.ret value) => return value
    | .error other => exit other

def effect (final : Expr) (scope : Nat) (frame : Frame) (recur : Answer) : Eval Unit := do
  let _ ← recur (.eval final scope frame)

end Eval

section Runs

variable {verdict : Verdict} {program : Program} {scope : Nat} {frame : Frame}

theorem endsAs_default {view : View} {span : Span} {type : Ty} {machine : Machine} :
    verdict.EndsAs program scope frame (view.defaultValue span type) machine
      (fun _ => Eval.absent program view type) machine := by
  unfold View.defaultValue Eval.absent
  split
  · exact ⟨1, 0, fun _ _ => rfl⟩
  · exact ⟨1, 0, fun _ _ => rfl⟩

theorem endsAs_accessed {view : View} {span : Span} (isNullable : type.isNullable = true)
    {final : Expr} {machine : Machine} :
    verdict.EndsAs program scope frame (span.cast (view.types.names.syntaxOf type) final) machine
      (Eval.accessed program view type final scope frame) machine := by
  refine ⟨1, 0, fun fuel _ => ?_⟩
  unfold Eval.accessed
  rw [isNullable]
  rfl

theorem Eval.outcome_ok {α : Type} {action : Eval α} {before after : Machine} {result : Except Exit α}
    (ran : action before = (result, after)) : Eval.outcome action before = (.ok result, after) := by
  change (Except.ok (action before).1, (action before).2) = _
  rw [ran]

/-- Make a scope below another. -/
def Machine.opened (machine : Machine) (scope : Nat) : Machine :=
  { machine with scopes := machine.scopes.push ⟨[], some scope⟩ }

theorem exec_accessBody {final : Expr} {machine last : Machine} {result : Except Exit Value}
    (ran : Eval.runTesting verdict program (fuel + 1) (.eval final machine.scopes.size frame)
      (machine.opened scope) = (result, last)) :
    Eval.runTesting verdict program (fuel + 3) (.exec (span.block [span.evalStmt final,
      span.ret (span.boolLit true)]) scope frame) machine =
        (.error (Eval.leaves result), last) := by
  let inner := machine.scopes.size
  change (Eval.runTesting verdict program (fuel + 2) (.exec (span.evalStmt final) inner frame) >>=
    fun _ => Eval.runTesting verdict program (fuel + 2)
      (.exec (span.ret (span.boolLit true)) inner frame) >>= fun _ => pure ())
    (machine.opened scope) = _
  cases result with
  | ok value =>
    have runs : Eval.runTesting verdict program (fuel + 2) (.exec (span.evalStmt final) inner
        frame) (machine.opened scope) = (.ok (), last) := by
      change (Eval.runTesting verdict program (fuel + 1) (.eval final inner frame) >>=
        fun _ => pure ()) (machine.opened scope) = _
      rw [Eval.bind_ok ran]
      rfl
    rw [Eval.bind_ok runs]
    rfl
  | error reason =>
    have fails : Eval.runTesting verdict program (fuel + 2) (.exec (span.evalStmt final) inner
        frame) (machine.opened scope) = (.error reason, last) := by
      change (Eval.runTesting verdict program (fuel + 1) (.eval final inner frame) >>=
        fun _ => pure ()) (machine.opened scope) = _
      rw [Eval.bind_error ran]
    rw [Eval.bind_error fails]
    rfl

theorem apply_accessBody {span : Span} {final : Expr} :
    (do
      let inner ← Machine.childScope scope
      Eval.declareArgs inner [] []
      match ← Eval.outcome (Eval.runTesting verdict program (fuel + 3) (.exec (span.block
        [span.evalStmt final, span.ret (span.boolLit true)]) inner frame)) with
      | .ok _ => return .null
      | .error (.ret value) => return value
      | .error other => Eval.exit other : Eval Value) =
    (do
      let inner ← Machine.childScope (← Machine.childScope scope)
      match ← Eval.outcome (Eval.runTesting verdict program (fuel + 1) (.eval final inner frame)) with
      | .ok _ => return .bool true
      | .error (.ret value) => return value
      | .error other => Eval.exit other) := by
  funext machine
  let first := machine.opened scope
  rcases ran : Eval.runTesting verdict program (fuel + 1) (.eval final first.scopes.size frame)
    (first.opened machine.scopes.size) with ⟨result, last⟩
  have opens : Machine.childScope scope machine = (.ok machine.scopes.size, first) := rfl
  have opensInner : Machine.childScope machine.scopes.size first =
    (.ok first.scopes.size, first.opened machine.scopes.size) := rfl
  rw [Eval.bind_ok opens, Eval.bind_ok opens, Eval.bind_ok opensInner,
    Eval.bind_ok (Eval.outcome_ok ran),
    Eval.bind_ok (show Eval.declareArgs machine.scopes.size [] [] first = (.ok (), first) from rfl),
    Eval.bind_ok (Eval.outcome_ok (exec_accessBody ran))]
  cases result with
  | ok value => rfl
  | error reason => cases reason <;> rfl

theorem endsAs_immediate {span : Span} {final : Expr} {machine : Machine} :
    verdict.EndsAs program scope frame
      (span.immediate (.simple "bool") [span.evalStmt final, span.ret (span.boolLit true)]) machine
      (Eval.ranInside span final scope frame) machine := by
  refine ⟨4, 1, fun fuel bound => ?_⟩
  obtain _ | fuel := fuel
  · omega
  let closure : Closure := ⟨[], Eval.accessBody span final, scope, frame⟩
  let made : Machine := { machine with closures := machine.closures.push closure }
  let function := Value.closure machine.closures.size
  have evaluates : Eval.runTesting verdict program (fuel + 4) (.eval (span.cast
      (.named "Func" [.simple "bool"]) (span.lambda [] (Eval.accessBody span final))) scope frame)
      machine = (.ok function, made) := Program.cast_closure
  have present : made.closures[machine.closures.size]? = some closure := by
    simp [made]
  change (Eval.runTesting verdict program (fuel + 4) (.eval (span.cast
      (.named "Func" [.simple "bool"]) (span.lambda [] (Eval.accessBody span final))) scope frame) >>=
    fun function => Eval.runTesting verdict program (fuel + 4) (.apply function []) >>= fun result =>
      _) machine = _
  rw [Eval.bind_ok evaluates]
  have applies : Eval.runTesting verdict program (fuel + 4) (.apply function []) made =
      (Machine.nested (do
        let inner ← Machine.childScope scope
        Eval.declareArgs inner [] []
        match ← Eval.outcome (Eval.runTesting verdict program (fuel + 3) (.exec (span.block
          [span.evalStmt final, span.ret (span.boolLit true)]) inner frame)) with
        | .ok _ => return .null
        | .error (.ret value) => return value
        | .error other => Eval.exit other) >>= fun value =>
          (pure { value } : Eval CallResult)) made := by
    change Eval.applyClosure (Eval.runTesting verdict program (fuel + 3)) function [] made = _
    refine (Eval.bind_ok rfl).trans ?_
    rw [present]
    rfl
  rw [apply_accessBody] at applies
  have goesOn : Eval.ranInside span final scope frame (Eval.runTesting verdict program (fuel + 1))
      machine = Machine.nested (do
        let inner ← Machine.childScope (← Machine.childScope scope)
        match ← Eval.outcome (Eval.runTesting verdict program (fuel + 1)
          (.eval final inner frame)) with
        | .ok _ => return .bool true
        | .error (.ret value) => return value
        | .error other => Eval.exit other) made := rfl
  rw [goesOn]
  generalize Machine.nested _ = runs at applies ⊢
  rcases ran : runs made with ⟨result, last⟩
  cases result with
  | ok value =>
    rw [Eval.bind_ok ran] at applies
    rw [Eval.bind_ok applies]
    rfl
  | error reason =>
    rw [Eval.bind_error ran] at applies
    rw [Eval.bind_error applies]

end Runs

/-! ## The same guard in every place -/

/-- What a request does depends on how tests end that start from a machine: if they all find
    something, one thing is left to do, if one finds `null`, another, and a test that fails
    ends the request. -/
structure Verdict.Guards {α : Type} (verdict : Verdict) (program : Program) (scope : Nat)
    (frame : Frame) (links : List ChainLink) (start : Machine) (request : Request α)
    (before : Machine) (found absent : Answer → Eval α) : Prop where
  found : ∀ after, NullTests verdict program scope frame links start (.ok true) after →
    verdict.AnswersAs program request before found after
  absent : ∀ after, NullTests verdict program scope frame links start (.ok false) after →
    verdict.AnswersAs program request before absent after
  failed : ∀ reason after, NullTests verdict program scope frame links start (.error reason) after →
    verdict.AnswersAs program request before (fun _ => Eval.exit reason) after

section Guards

variable {verdict : Verdict} {program : Program} {scope : Nat} {frame : Frame}
  {links : List ChainLink} {before after : Machine}
  {span : Span}

theorem Verdict.EndsAs.conditional_fails
    (fails : verdict.Ends program scope frame cond before (.error reason) after) :
    verdict.EndsAs program scope frame (span.conditional cond yes no) before
      (fun _ => Eval.exit reason) after := by
  obtain ⟨enough, runs⟩ := fails
  exact ⟨1, enough, fun fuel bound => Eval.bind_error (runs fuel bound)⟩

theorem guards_conditional {node : Expr} {found absent : Answer → Eval Value}
    (areHolders : ∀ link ∈ links, link.holder.isNone = link.receiver.isSimple)
    (isNode : node.kind = (span.conditional (span.conjunction (links.map (·.guard))) yes no).kind)
    (isFound : ∀ machine, verdict.EndsAs program scope frame yes machine found machine)
    (isAbsent : ∀ machine, verdict.EndsAs program scope frame no machine absent machine) :
    verdict.Guards program scope frame links before (.eval node scope frame) before found absent where
  found after tests :=
    Verdict.EndsAs.of_kind isNode (.conditional (tests.conjunction span areHolders) (isFound after))
  absent after tests :=
    Verdict.EndsAs.of_kind isNode (.conditional (tests.conjunction span areHolders) (isAbsent after))
  failed _ _ tests :=
    Verdict.EndsAs.of_kind isNode (.conditional_fails (tests.conjunction span areHolders))

theorem Verdict.Ends.condition {outcome : Except Exit Bool}
    (ends : verdict.Ends program scope frame cond before (outcome.map .bool) after) :
    ∃ enough, ∀ fuel, enough ≤ fuel →
      Eval.condition (Eval.runTesting verdict program fuel) (some cond) scope frame before =
        (outcome, after) := by
  obtain ⟨enough, runs⟩ := ends
  refine ⟨enough, fun fuel bound => ?_⟩
  change (Eval.runTesting verdict program fuel (.eval cond scope frame) >>= Eval.asBool) before = _
  cases outcome with
  | ok holds =>
    rw [Eval.bind_ok (runs fuel bound)]
    rfl
  | error reason => exact Eval.bind_error (runs fuel bound)

theorem guards_effect {mark : Mark} {final : Expr}
    (areHolders : ∀ link ∈ links, link.holder.isNone = link.receiver.isSimple) :
    verdict.Guards program scope frame links before
      (.exec ⟨mark, guardedEffect span (links.map (·.guard)) final⟩ scope frame) before
      (Eval.effect final scope frame) (fun _ => pure ()) where
  found after tests := by
    obtain ⟨enough, holds⟩ := (tests.conjunction span areHolders).condition
    refine ⟨2, enough, fun fuel bound => ?_⟩
    exact Eval.bind_ok (holds (fuel + 1) (by omega))
  absent after tests := by
    obtain ⟨enough, fails⟩ := (tests.conjunction span areHolders).condition
    exact ⟨1, enough, fun fuel bound => Eval.bind_ok (fails fuel bound)⟩
  failed reason after tests := by
    obtain ⟨enough, ends⟩ := (tests.conjunction span areHolders).condition
    exact ⟨1, enough, fun fuel bound => Eval.bind_error (ends fuel bound)⟩

theorem Verdict.AnswersAs.block {node : Stmt} {rest : Answer → Eval Unit}
    (answers : verdict.AnswersAs program (.exec node before.scopes.size frame) (before.opened scope)
      rest after) :
    verdict.AnswersAs program (.exec (span.block [node]) scope frame) before rest after := by
  obtain ⟨depth, enough, runs⟩ := answers
  refine ⟨depth + 1, enough, fun fuel bound => ?_⟩
  rw [← runs fuel bound]
  change (Eval.runTesting verdict program (fuel + depth) (.exec node before.scopes.size frame) >>=
    fun _ => pure ()) (before.opened scope) = _
  rw [bind_pure_unit]

theorem Verdict.Guards.block {node : Stmt} {found absent : Answer → Eval Unit}
    (guards : verdict.Guards program before.scopes.size frame links (before.opened scope)
      (.exec node before.scopes.size frame) (before.opened scope) found absent) :
    verdict.Guards program before.scopes.size frame links (before.opened scope)
      (.exec (span.block [node]) scope frame) before found absent where
  found after tests := (guards.found after tests).block
  absent after tests := (guards.absent after tests).block
  failed reason after tests := (guards.failed reason after tests).block

end Guards

/-! ## What an access yields -/

section Yields

variable {verdict : Verdict} {program : Program} {scope : Nat} {frame : Frame}
  {before after : Machine}
  {value : Value}

theorem Program.cast_of_isInstance : (type : TypeSyntax) →
    program.isInstance machine value type = true →
    program.cast value type machine = (.ok value, machine)
  | .nullable inner, isInstance => by
    rw [Program.isInstance, Bool.and_eq_true] at isInstance
    rw [Program.cast]
    split
    · rfl
    · exact Program.cast_of_isInstance inner isInstance.2
  | .named name args, isInstance => by
    unfold Program.cast
    split
    · cases isInstance
    · cases isInstance
    · cases isInstance
    · cases isInstance
    · cases isInstance
    · cases isInstance
    · rfl
    · change (if program.knows name && !program.isInstance machine value (.named name args) then
        Machine.raiseCast else pure value : Eval Value) machine = _
      rw [isInstance, Bool.not_true, Bool.and_false]
      rfl
  | .array _, _ | .tuple _, _ | .var, _ | .dynamic, _ | .void, _ | .absent, _ => rfl

theorem cast_null (isNullable : type.isNullable = true) (isNull : value.isNull = true) :
    program.cast value (view.types.names.syntaxOf type) machine = (.ok value, machine) := by
  cases type with
  | nullable inner =>
    rw [TypeNames.syntaxOf, Program.cast, if_pos isNull]
    rfl
  | _ => cases isNullable

theorem Verdict.AnswersAs.yields {tested : Machine}
    (answers : verdict.AnswersAs program (.eval node scope frame) before
      (Eval.accessed program view type final scope frame) tested)
    (evaluates : verdict.Evaluates program scope frame final tested value after)
    (fits : type.isNullable = true → value.isNull = true ∨
      program.isInstance after value (view.types.names.syntaxOf type) = true) :
    verdict.Evaluates program scope frame node before value after := by
  obtain ⟨depth, enough, runs⟩ := answers
  obtain ⟨finalEnough, finalRuns⟩ := evaluates
  refine ⟨max enough finalEnough + depth, fun fuel bound => ?_⟩
  obtain ⟨rest, rfl⟩ : ∃ rest, fuel = rest + depth := ⟨fuel - depth, by omega⟩
  rw [runs rest (by omega)]
  unfold Eval.accessed
  rw [Eval.bind_ok (finalRuns rest (by omega))]
  cases isNullable : type.isNullable with
  | true =>
    rcases fits isNullable with isNull | isInstance
    · exact cast_null isNullable isNull
    · exact Program.cast_of_isInstance _ isInstance
  | false => rfl

theorem Verdict.Ends.member {node : Expr} {name : String} {target : Value} {middle : Machine}
    {outcome : Except Exit Value}
    (evaluates : verdict.Evaluates program scope frame node before target middle)
    (reads : ∀ recur : Answer, Eval.getMember program recur target name middle = (outcome, after)) :
    verdict.Ends program scope frame (span.member node name) before outcome after := by
  obtain ⟨enough, runs⟩ := evaluates
  refine .of_step enough fun fuel bound => ?_
  change (Eval.runTesting verdict program fuel (.eval node scope frame) >>= fun target =>
    Eval.getMember program (Eval.runTesting verdict program fuel) target name) before = _
  rw [Eval.bind_ok (runs fuel bound)]
  exact reads _

def Value.isScalar : Value → Bool
  | .int _ | .double _ | .bool _ | .char _ => true
  | _ => false

/-- What a receiver of a type that can be `null` is read through: a number, a `bool` or a
    `char` is found there, but no tuple, and no struct unless it has a `Value` of its own. -/
structure ChainLink.Reads (verdict : Verdict) (program : Program) (scope : Nat) (frame : Frame)
    (link : ChainLink) (value : Value) (before after : Machine) : Prop where
  scalar : value.isScalar = true →
    verdict.Evaluates program scope frame link.template before value after
  tuple : ∀ items, value = .tuple items → verdict.Ends program scope frame link.template before
    (.error (.fault (.noTupleMember "Value"))) after
  object : ∀ address, value = .object address →
    let object := after.objects.getD address default
    object.fields.lookup "Value" = none → program.findGetter? object.className "Value" = none →
      verdict.Ends program scope frame link.template before
        (.error (.fault (.noMember "Value" object.className))) after

theorem ChainLink.reads (isHolder : link.holder.isNone = link.receiver.isSimple)
    (isNullable : link.isNullable = true)
    (evaluates : verdict.Evaluates program scope frame link.stable before value after) :
    link.Reads verdict program scope frame value before after := by
  have isTemplate : link.template = link.span.member link.stable.forget "Value" :=
    if_pos isNullable
  have copied : verdict.Evaluates program scope frame link.stable.forget before value after :=
    Verdict.Ends.forget (Expr.isSimple_heldIn isHolder) evaluates
  refine ⟨fun isScalar => ?_, ?_, ?_⟩
  · rw [isTemplate]
    refine Verdict.Ends.member copied fun recur => ?_
    cases value with
    | int _ | double _ | bool _ | char _ => rfl
    | _ => cases isScalar
  · rintro items rfl
    rw [isTemplate]
    exact .member copied fun recur => rfl
  · rintro address rfl
    intro object noField noGetter
    rw [isTemplate]
    refine .member copied fun recur => ?_
    change Eval.getObjectMember program recur address "Value" after = _
    refine (Eval.bind_ok rfl).trans ?_
    rw [noField]
    dsimp only
    rw [noGetter]
    rfl

end Yields

/-! ## Chains in their places -/

theorem Linked.areHolders {receiver access final : Expr}
    (linked : Linked view span receiver access links final) :
    ∀ link ∈ links, link.holder.isNone = link.receiver.isSimple := by
  induction linked with
  | last guards =>
    rintro link isLink
    obtain rfl := mem_singleton.1 isLink
    rw [guards.holder, guards.receiver]
  | more guards others ih =>
    rintro link isLink
    rcases mem_cons.1 isLink with rfl | isLink
    · rw [guards.holder, guards.receiver]
    · exact ih link isLink

section Places

variable {verdict : Verdict} {program : Program} {scope : Nat} {frame : Frame}
  {links : List ChainLink} {before : Machine}

theorem guards_void (areHolders : ∀ link ∈ links, link.holder.isNone = link.receiver.isSimple)
    (isNode : node.kind = (view.guardedValue span .void (links.map (·.guard)) final).kind) :
    verdict.Guards program scope frame links before (.eval node scope frame) before
      (Eval.ranInside span final scope frame) (fun _ => pure (.bool false)) :=
  guards_conditional areHolders isNode (fun _ => endsAs_immediate)
    fun _ => ⟨1, 0, fun _ _ => rfl⟩

theorem guards_value (hasValue : type ≠ .void)
    (areHolders : ∀ link ∈ links, link.holder.isNone = link.receiver.isSimple)
    (isNode : node.kind = (view.guardedValue span type (links.map (·.guard)) final).kind) :
    verdict.Guards program scope frame links before (.eval node scope frame) before
      (Eval.accessed program view type final scope frame)
      (fun _ => Eval.absent program view type) := by
  cases isNullable : type.isNullable with
  | true =>
    cases type with
    | nullable inner =>
      exact guards_conditional areHolders isNode (fun machine => endsAs_accessed isNullable)
        fun machine => endsAs_default
    | _ => cases isNullable
  | false =>
    have isPlain : view.guardedValue span type (links.map (·.guard)) final =
        span.conditional (span.conjunction (links.map (·.guard))) final
          (view.defaultValue span type) := by
      unfold View.guardedValue
      dsimp only
      split
      · exact absurd rfl hasValue
      · cases isNullable
      · rfl
    rw [isPlain] at isNode
    refine guards_conditional areHolders isNode (fun machine => ?_) fun machine => endsAs_default
    unfold Eval.accessed
    rw [isNullable]
    simpa using Verdict.EndsAs.eval final machine

end Places

/-- A chain of conditional accesses is tested link by link.  Whatever the accesses of a
    chain, members, calls and plain subscripts, and however its tests turn out, it has links
    and an access behind them, of which each receiver is read through the one before.  Inside
    of an expression, as a whole statement and as the body of a lambda, the receivers are
    evaluated and tested in order, up to the first that is not found to be something; nothing
    is left to do then but, where all were found, what the access takes, and otherwise what
    stands for its absence.  A receiver of a type that can be `null` is read through `Value`,
    which a number, a `bool` and a `char` have, but no tuple and no struct. -/
theorem conditionalAccess_runs {env : PassEnv} {mark : Mark} {receiver access : Expr}
    (plain : env.isPlainChain access = true) :
    let node : Expr := ⟨mark, .conditionalAccess receiver access⟩
    let type := env.view.typeOf node
    (∀ site start lowered finish, continuesChain site node = false →
      (parentTakesIf site node && env.isVoidAccess node) = false →
      node.rebuild desugarRules site env start = .ok (lowered, finish) →
      ∃ links final, Chained env site mark receiver access start links final ∧
        lowered.kind =
          (env.view.guardedValue mark.span type (links.map (·.guard)) final).kind ∧
        ∀ (verdict : Verdict) program scope frame before,
          (type = .void → verdict.Guards program scope frame links before
            (.eval lowered scope frame) before (Eval.ranInside mark.span final scope frame)
            (fun _ => pure (.bool false))) ∧
          (type ≠ .void → verdict.Guards program scope frame links before
            (.eval lowered scope frame) before
            (Eval.accessed program env.view type final scope frame)
            (fun _ => Eval.absent program env.view type)) ∧
          (∀ tested value after, type ≠ .void →
            NullTests verdict program scope frame links before (.ok true) tested →
            verdict.Evaluates program scope frame final tested value after →
            (type.isNullable = true → value.isNull = true ∨
              program.isInstance after value (env.view.types.names.syntaxOf type) = true) →
            verdict.Evaluates program scope frame lowered before value after) ∧
          ∀ link ∈ links, link.isNullable = true → ∀ value start after,
            verdict.Evaluates program scope frame link.stable start value after →
            link.Reads verdict program scope frame value start after) ∧
    (env.isVoidAccess node = true → ∀ site stmtMark start lowered finish,
      Stmt.rebuildMany desugarRules site ⟨stmtMark, .eval node⟩ env start = .ok (lowered, finish) →
      ∃ links final,
        let statement : Stmt := ⟨stmtMark, guardedEffect mark.span (links.map (·.guard)) final⟩
        Chained env (site.below (.stmt ⟨stmtMark, .eval node⟩)) mark receiver access start links
          final ∧
        lowered = [statement] ∧ ∀ (verdict : Verdict) program scope frame before,
          verdict.Guards program scope frame links before (.exec statement scope frame) before
            (Eval.effect final scope frame) (fun _ => pure ())) ∧
    (env.isVoidAccess node = true → ∀ site lambdaMark id params isAsync start lowered finish,
      let function : Expr := ⟨lambdaMark, .lambda id params isAsync (.expr node)⟩
      function.rebuild desugarRules site env start = .ok (lowered, finish) →
      ∃ madeParams middle links final,
        let block := mark.span.block
          [mark.span.stmt (guardedEffect mark.span (links.map (·.guard)) final)]
        rebuildParams desugarRules (site.below (.expr function)) params env start =
          .ok (madeParams, middle) ∧
        Chained env (site.below (.expr function)) mark receiver access middle links final ∧
        lowered = ⟨lambdaMark, .lambda id madeParams isAsync (.block block)⟩ ∧
        ∀ (verdict : Verdict) program scope frame before,
          verdict.Guards program before.scopes.size frame links (before.opened scope)
            (.exec block scope frame) before (Eval.effect final before.scopes.size frame)
            (fun _ => pure ())) := by
  intro node type
  refine ⟨?_, ?_, ?_⟩
  · intro site start lowered finish outermost notTaken ran
    obtain ⟨links, final, chained, isLowered⟩ := chain_value plain outermost notTaken ran
    have ⟨_, _, _, _, _, _, linked⟩ := chained
    have areHolders := linked.areHolders
    refine ⟨links, final, chained, isLowered,
      fun verdict program scope frame before => ⟨?_, ?_, ?_, ?_⟩⟩
    · intro isVoid
      change lowered.kind = (env.view.guardedValue mark.span type _ final).kind at isLowered
      rw [isVoid] at isLowered
      exact guards_void areHolders isLowered
    · intro hasValue
      exact guards_value hasValue areHolders isLowered
    · intro tested value after hasValue tests evaluates fits
      exact ((guards_value hasValue areHolders isLowered).found tested tests).yields evaluates fits
    · intro link isLink isNullable value start after evaluates
      exact ChainLink.reads (areHolders link isLink) isNullable evaluates
  · intro isVoid site stmtMark start lowered finish ran
    obtain ⟨links, final, chained, isLowered⟩ := chain_statement plain isVoid ran
    have ⟨_, _, _, _, _, _, linked⟩ := chained
    exact ⟨links, final, chained, isLowered, fun verdict program scope frame before =>
      guards_effect linked.areHolders⟩
  · intro isVoid site lambdaMark id params isAsync start lowered finish function ran
    obtain ⟨madeParams, middle, links, final, areParams, chained, isLowered⟩ :=
      chain_lambda plain isVoid ran
    have ⟨_, _, _, _, _, _, linked⟩ := chained
    exact ⟨madeParams, middle, links, final, areParams, chained, isLowered,
      fun verdict program scope frame before => (guards_effect linked.areHolders).block⟩

/-! ## Tests in order -/

def namedAccess : Expr :=
  ⟨.numbered 3, .conditionalAccess ⟨.numbered 1, .memberBinding "Name"⟩
    ⟨.numbered 2, .memberBinding "Length"⟩⟩

def namedChain : Expr := ⟨.numbered 4, .conditionalAccess ⟨.numbered 0, .ident "n"⟩ namedAccess⟩

def namedReturn : Stmt := ⟨.numbered 5, .ret (some namedChain)⟩

def namedUnit : CompilationUnit :=
  let span : Span := ⟨0, 0⟩
  let field : Member := ⟨.field (.simple "string") "Name" none, [], span⟩
  let method : Member := ⟨.method "M" [] [.plain (.simple "Node") "n"] (.nullable (.simple "int"))
    (.block ⟨.numbered 6, .block [namedReturn]⟩), [], span⟩
  ⟨[], none, [⟨"Node", .classType, [], [], none, [], none, [field, method], span⟩]⟩

def namedEnv : PassEnv :=
  { pass := "desugar", unit := namedUnit, view := namedUnit.analyze 7 namedUnit.vocabulary }

def namedLowered : Expr :=
  let span : Span := ⟨0, 0⟩
  let read : Expr := ⟨.numbered 1, .member (span.ident "n") "Name"⟩
  let first := span.binary .notEq (span.ident "n") span.nullLit
  let second := span.binary .notEq (span.assign (span.ident "__n0") read) span.nullLit
  let length : Expr := ⟨.numbered 2, .member (span.ident "__n0") "Length"⟩
  ⟨.numbered 4, .conditional (span.binary .and first second)
    (span.cast (.nullable (.simple "int")) length) span.nullLit⟩

set_option maxRecDepth 8000 in
theorem namedChain_lowered : ∃ finish,
    namedChain.rebuild desugarRules ⟨.member 0 1, [.stmt namedReturn]⟩ namedEnv
      { nextName := 0, nextId := 7 } = .ok (namedLowered, finish) := ⟨_, rfl⟩

def namedMachine : Machine :=
  { objects := #[⟨"Node", [("Name", .str "abc")], false⟩],
    scopes := #[⟨[("n", .object 0), ("__n0", .null)], none⟩] }

/-- Both receivers are found, and the length is read through the second. -/
theorem conditionalAccess_runs_named :
    namedEnv.isPlainChain namedAccess = true ∧
    (∃ finish, namedChain.rebuild desugarRules ⟨.member 0 1, [.stmt namedReturn]⟩ namedEnv
      { nextName := 0, nextId := 7 } = .ok (namedLowered, finish)) ∧
    ∃ after, Verdict.Evaluates (fun _ _ _ _ => pure false) ⟨[]⟩ 0 ⟨.null, none⟩ namedLowered
      namedMachine (.int 3) after := by
  have plain : namedEnv.isPlainChain namedAccess = true := rfl
  refine ⟨plain, namedChain_lowered, ?_⟩
  obtain ⟨finish, ran⟩ := namedChain_lowered
  obtain ⟨value, -, -⟩ := conditionalAccess_runs plain
  obtain ⟨links, final, chained, isLowered, runs⟩ := value _ _ _ _ rfl rfl ran
  obtain ⟨_, _, _, _, isReceiver, isAccess, linked⟩ := chained
  cases isReceiver
  cases isAccess
  cases linked with
  | last guards isLast => exact absurd rfl (isLast _ _)
  | more first others =>
    cases others with
    | last second isLast =>
      rename_i one two
      obtain ⟨span, receiver, holder, isNullable⟩ := one
      obtain ⟨rfl, rfl, isHolder, rfl⟩ := first
      obtain ⟨otherSpan, otherReceiver, otherHolder, otherNullable⟩ := two
      obtain ⟨rfl, rfl, isOther, rfl⟩ := second
      obtain rfl := Option.isNone_iff_eq_none.1 isHolder
      obtain ⟨name, rfl⟩ := Option.isSome_iff_exists.1 (Option.isNone_eq_false_iff.1 isOther)
      cases isLowered
      obtain ⟨-, -, yields, -⟩ := runs (fun _ _ _ _ => pure false) ⟨[]⟩ 0 ⟨.null, none⟩ namedMachine
      let tested : Machine :=
        { namedMachine with
          scopes := #[⟨[("n", .object 0), ("__n0", .str "abc")], none⟩] }
      refine ⟨tested, yields tested (.int 3) tested nofun ?_ (.of_run 2 fun _ => rfl)
        fun _ => .inr rfl⟩
      exact .goesOn
        (.compared (.of_run 1 fun _ => rfl) (.simple rfl _) (.finds rfl rfl))
        (.goesOn (.compared (.of_run 2 fun _ => rfl) (.held rfl rfl rfl)
          (.finds rfl rfl)) (.passed tested))

end Unsugar
