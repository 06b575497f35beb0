import Unsugar.Proofs.Eval.Computations

open List

namespace Unsugar

/-! # Expected ends

Members that compare and hash only make objects and scopes, and end in one of a few
ways.  `Achieves` says how such a computation ends and leaves out what it makes;
`Provides` says the same of an expression, now and at any later moment.
-/

variable {failure : Failure} {reason : Exit} {recur : Answer} {op : BinaryOp}

/-- Why a computation of this kind ends early. -/
inductive Failure where
  | callDepth
  | nullReference
  deriving DecidableEq, Repr

/-- Whether a failure shows as this early end. -/
def Failure.Explains (failure : Failure) (reason : Exit) (machine : Machine) : Prop :=
  match failure with
  | .callDepth => reason = .fault .callDepth
  | .nullReference => ∃ address object, reason = .throw (.object address) ∧
      machine.objects[address]? = some object ∧ object.className = "NullReferenceException"

/-- Whether a computation ended as expected. -/
def Meets {α : Type} (expected : Except Failure α) (outcome : Except Exit α) (after : Machine) :
    Prop :=
  match expected with
  | .ok value => outcome = .ok value
  | .error failure => ∃ reason, outcome = .error reason ∧ failure.Explains reason after

/-- A computation ends as expected and changes nothing that was there. -/
def Achieves (program : Program) {α : Type} (action : Answer → Eval α) (before : Machine)
    (expected : Except Failure α) : Prop :=
  ∃ outcome after, Runs program action before outcome after ∧ before.Grows after ∧
    Meets expected outcome after

variable {before after : Machine} {program : Program}

theorem Failure.Explains.mono (explains : failure.Explains reason before)
    (kept : ∀ (address : Nat) (object : Object), before.objects[address]? = some object →
      after.objects[address]? = some object) : failure.Explains reason after := by
  cases failure with
  | callDepth => exact explains
  | nullReference =>
    obtain ⟨address, object, thrown, present, isNull⟩ := explains
    exact ⟨address, object, thrown, kept _ _ present, isNull⟩

theorem Failure.Explains.returned {machine : Machine} (explains : failure.Explains reason machine) :
    Eval.returned (.error reason) = .error reason := by
  cases failure with
  | callDepth =>
    obtain rfl : reason = .fault .callDepth := explains
    rfl
  | nullReference =>
    obtain ⟨_, _, rfl, _⟩ := explains
    rfl

theorem Meets.mono {α : Type} {expected : Except Failure α} {outcome : Except Exit α}
    (meets : Meets expected outcome before)
    (kept : ∀ (address : Nat) (object : Object), before.objects[address]? = some object →
      after.objects[address]? = some object) : Meets expected outcome after := by
  cases expected with
  | ok value => exact meets
  | error failure =>
    obtain ⟨reason, isError, explains⟩ := meets
    exact ⟨reason, isError, explains.mono kept⟩

theorem Meets.map {α β : Type} {expected : Except Failure α} {outcome : Except Exit α}
    {after : Machine} (meets : Meets expected outcome after) (make : α → β) :
    Meets (expected.map make) (outcome.map make) after := by
  cases expected with
  | ok value =>
    obtain rfl : outcome = .ok value := meets
    rfl
  | error failure =>
    obtain ⟨reason, rfl, explains⟩ := meets
    exact ⟨reason, rfl, explains⟩

namespace Achieves

section Sequencing

variable {program : Program} {α β : Type} {action : Answer → Eval α} {next : Answer → α → Eval β}
  {before after : Machine} {expected : Except Failure α} {value : α} {other : Answer → Eval α}

theorem of_runs (runs : Runs program action before (.ok value) after) (grows : before.Grows after) :
    Achieves program action before (.ok value) :=
  ⟨_, _, runs, grows, rfl⟩

theorem of_eq (always : ∀ recur : Answer, action recur before = (.ok value, before)) :
    Achieves program action before (.ok value) :=
  of_runs (.of_eq always) (.refl before)

theorem pure (value : α) (machine : Machine) :
    Achieves program (fun _ => Pure.pure value) machine (.ok value) :=
  of_eq fun _ => rfl

theorem bind (rest : α → Except Failure β) (first : Achieves program action before expected)
    (others : ∀ value later, expected = .ok value → before.Grows later →
      Achieves program (fun recur => next @recur value) later (rest value)) :
    Achieves program (fun recur => action @recur >>= next @recur) before (expected >>= rest) := by
  obtain ⟨outcome, middle, runs, grows, meets⟩ := first
  cases expected with
  | ok value =>
    obtain rfl : outcome = .ok value := meets
    obtain ⟨last, after, restRuns, restGrows, restMeets⟩ := others value middle rfl grows
    exact ⟨last, after, runs.bind restRuns, grows.trans restGrows, restMeets⟩
  | error failure =>
    obtain ⟨reason, rfl, explains⟩ := meets
    exact ⟨.error reason, middle, runs.bind_error, grows, reason, rfl, explains⟩

theorem after_ok {rest : Except Failure β} (first : Achieves program action before (.ok value))
    (others : ∀ later, before.Grows later →
      Achieves program (fun recur => next @recur value) later rest) :
    Achieves program (fun recur => action @recur >>= next @recur) before rest :=
  bind (fun _ => rest) first fun _ later isValue grows => by
    cases isValue
    exact others later grows

theorem bind_bool {truth : Answer → Eval Value} {next : Answer → Value → Eval β}
    {verdict : Except Failure Bool} (rest : Bool → Except Failure β)
    (first : Achieves program truth before (verdict.map .bool))
    (others : ∀ holds later, verdict = .ok holds → before.Grows later →
      Achieves program (fun recur => next @recur (.bool holds)) later (rest holds)) :
    Achieves program (fun recur => truth @recur >>= next @recur) before (verdict >>= rest) := by
  cases verdict with
  | ok holds => exact first.after_ok fun later grows => others holds later rfl grows
  | error failure =>
    exact bind (fun _ => .error failure) first fun _ _ isValue _ => by
      cases isValue

theorem map (make : α → β) (first : Achieves program action before expected) :
    Achieves program (fun recur => action @recur >>= fun value => Pure.pure (make value)) before
      (expected.map make) := by
  obtain ⟨outcome, after, runs, grows, meets⟩ := first
  exact ⟨_, after, .bind_pure make runs, grows, meets.map make⟩

theorem request {request : Request α}
    (steps : Achieves program (fun recur => Eval.step program @recur request) before expected) :
    Achieves program (fun recur => recur request) before expected := by
  obtain ⟨outcome, after, runs, grows, meets⟩ := steps
  exact ⟨outcome, after, .request runs, grows, meets⟩

section

variable (computes : Achieves program action before expected)

include computes

theorem of_here (same : ∀ recur : Answer, other recur before = action recur before) :
    Achieves program other before expected := by
  obtain ⟨outcome, after, ⟨enough, runs⟩, grows, meets⟩ := computes
  exact ⟨outcome, after, ⟨enough, fun fuel bound => (same _).trans (runs fuel bound)⟩, grows, meets⟩

theorem of_same (same : ∀ recur : Answer, other recur = action recur) :
    Achieves program other before expected :=
  computes.of_here fun recur => congrFun (same recur) before

theorem congr {other : Except Failure α} (same : expected = other) :
    Achieves program action before other :=
  same ▸ computes

end

theorem raiseNull (machine : Machine) :
    Achieves program (fun _ => (Machine.raiseNull : Eval α)) machine (.error .nullReference) := by
  have raised := Eval.raise_eq (α := α) "NullReferenceException"
    "Object reference not set to an instance of an object." machine
  exact ⟨_, _, .of_eq fun _ => raised, (Machine.Grows.refl machine).withObject _, _, rfl, _, _, rfl,
    Array.getElem?_push_size, rfl⟩

end Sequencing

end Achieves

/-! ## Expressions -/

def Provides (program : Program) (scope : Nat) (frame : Frame) (start : Machine) (node : Expr)
    (expected : Except Failure Value) : Prop :=
  ∀ later, start.Grows later →
    Achieves program (fun recur => recur (.eval node scope frame)) later expected

theorem Machine.Grows.valueOf? (grows : before.Grows after) {scope : Nat} {name : String}
    {value : Value} (found : before.valueOf? scope name = some value) :
    after.valueOf? scope name = some value := by
  have sameHome (steps start home : Nat)
      (isFound : findScope? before.scopes name steps start = some home) :
      findScope? after.scopes name steps start = some home := by
    induction steps generalizing start with
    | zero => cases isFound
    | succ steps ih =>
      unfold findScope? at isFound ⊢
      cases present : before.scopes[start]? with
      | none => simp [present] at isFound
      | some entry =>
        rw [present] at isFound
        rw [grows.scopes _ _ present]
        dsimp only at isFound ⊢
        split at isFound
        · rename_i declares
          rw [if_pos declares]
          exact isFound
        · rename_i absent
          rw [if_neg absent]
          cases isParent : entry.parent with
          | none => simp [isParent] at isFound
          | some parent =>
            rw [isParent] at isFound
            exact ih _ isFound
  unfold Machine.valueOf? at found ⊢
  cases isHome : findScope? before.scopes name (scope + 1) scope with
  | none => simp [isHome] at found
  | some home =>
    rw [isHome] at found
    rw [sameHome _ _ _ isHome]
    dsimp only at found ⊢
    obtain ⟨entry, present, -⟩ := Machine.findScope?_declares isHome
    rw [Array.getD_eq_getD_getElem?, present] at found
    rw [Array.getD_eq_getD_getElem?, grows.scopes _ _ present]
    exact found

theorem Eval.evalBinary_eager {left right : Expr} {scope : Nat}
    {frame : Frame} (eager : op ≠ .and ∧ op ≠ .or ∧ op ≠ .coalesce) :
    Eval.evalBinary program recur op left right scope frame =
      recur (.eval left scope frame) >>= fun leftValue =>
        recur (.eval right scope frame) >>= fun rightValue =>
          Eval.binary program recur op leftValue rightValue := by
  obtain ⟨notAnd, notOr, notCoalesce⟩ := eager
  unfold Eval.evalBinary
  congr 1
  funext leftValue
  split
  · exact absurd rfl notAnd
  · exact absurd rfl notOr
  · exact absurd rfl notCoalesce
  · exact absurd rfl notCoalesce
  · rfl

namespace Provides

section Expressions

variable {program : Program} {scope : Nat} {frame : Frame} {start : Machine} {span : Span}
  {node left right receiver : Expr} {name : String} {value target : Value}
  {expected : Except Failure Value}

theorem of_evaluates
    (evaluates : ∀ later, start.Grows later → Evaluates program scope frame node later value later) :
    Provides program scope frame start node (.ok value) :=
  fun later grows => .of_runs (evaluates later grows) (.refl later)

theorem ident (found : start.valueOf? scope name = some value) :
    Provides program scope frame start (span.ident name) (.ok value) :=
  of_evaluates fun _ grows => .ident (grows.valueOf? found)

theorem self : Provides program scope frame start span.self (.ok frame.this) :=
  of_evaluates fun _ _ => .of_step 0 fun _ _ => rfl

theorem literal (value : Literal) :
    Provides program scope frame start (span.expr (.literal value)) (.ok (Eval.literalValue value)) :=
  of_evaluates fun later _ => .literal span value later

theorem typeRef (name : String) (args : List TypeSyntax) :
    Provides program scope frame start (span.typeRef (.named name args)) (.ok (.type name)) :=
  of_evaluates fun _ _ => .of_step 0 fun _ _ => rfl

theorem paren (yields : Provides program scope frame start node expected) :
    Provides program scope frame start (span.paren node) expected :=
  fun later grows => .request (yields later grows)

theorem member {result : Except Failure Value}
    (receives : Provides program scope frame start receiver (.ok target))
    (reads : ∀ later, start.Grows later →
      Achieves program (fun recur => Eval.getMember program recur target name) later result) :
    Provides program scope frame start (span.member receiver name) result :=
  fun later grows => .request <| (receives later grows).after_ok fun last more =>
    reads last (grows.trans more)

theorem stored {address : Nat} {object : Object}
    (receives : Provides program scope frame start receiver (.ok (.object address)))
    (present : start.objects[address]? = some object)
    (isStored : object.fields.lookup name = some value) :
    Provides program scope frame start (span.member receiver name) (.ok value) := by
  refine member receives fun later grows => .of_eq fun recur => ?_
  refine (Eval.bind_ok (Eval.object_eq (grows.objects _ _ present))).trans ?_
  dsimp only
  rw [isStored]
  rfl

section Conditions

variable {cond yes no : Expr} {verdict other : Except Failure Bool} {negative : Except Failure Value}

theorem not (yields : Provides program scope frame start node (verdict.map .bool)) :
    Provides program scope frame start (span.unary .not node)
      (verdict.map fun value => .bool (!value)) := by
  intro later grows
  refine .congr (.request (.bind_bool (fun value => .ok (.bool (!value))) (yields later grows)
    fun value last _ _ => .of_eq fun _ => rfl)) ?_
  cases verdict <;> rfl

theorem and (leftYields : Provides program scope frame start left (verdict.map .bool))
    (rightYields : Provides program scope frame start right (other.map .bool)) :
    Provides program scope frame start (span.binary .and left right)
      ((verdict >>= fun holds => if holds then other else .ok false).map .bool) := by
  intro later grows
  refine .congr (.request (.bind_bool
    (fun holds => if holds then other.map .bool else .ok (.bool false)) (leftYields later grows)
    fun holds last _ more => ?_)) ?_
  · cases holds with
    | false => exact .pure _ _
    | true =>
      have evaluated := rightYields last (grows.trans more)
      refine .congr (.bind (fun value => .ok value) evaluated
        fun value final _ _ => .of_eq fun _ => rfl) ?_
      cases other <;> rfl
  · cases verdict with
    | error failure => rfl
    | ok holds => cases holds <;> rfl

theorem and_stops (stops : Provides program scope frame start left (.ok (.bool false))) :
    Provides program scope frame start (span.binary .and left right) (.ok (.bool false)) :=
  fun later grows => .request <| (stops later grows).after_ok fun _ _ => .pure _ _

theorem typeTest {type : TypeSyntax} {holds : Bool}
    (yields : Provides program scope frame start node (.ok value))
    (belongs : ∀ later, start.Grows later → program.isInstance later value type = holds) :
    Provides program scope frame start (span.typeTest node type) (.ok (.bool holds)) := by
  refine fun later grows => .request <| (yields later grows).after_ok fun last more => .of_eq fun _ => ?_
  have asked : (get : Eval Machine) last = (.ok last, last) := rfl
  refine (Eval.bind_ok asked).trans ?_
  rw [belongs last (grows.trans more)]
  rfl

theorem conditional (condYields : Provides program scope frame start cond (verdict.map .bool))
    (yesYields : Provides program scope frame start yes expected)
    (noYields : Provides program scope frame start no negative) :
    Provides program scope frame start (span.conditional cond yes no)
      (verdict >>= fun holds => if holds then expected else negative) := by
  intro later grows
  refine .request (.bind_bool _ (condYields later grows) fun holds last _ more => ?_)
  have asked : Achieves program (fun _ => Eval.asBool (.bool holds)) last (.ok holds) :=
    .of_eq fun _ => rfl
  refine asked.after_ok fun final further => ?_
  cases holds with
  | false => exact noYields final (grows.trans (more.trans further))
  | true => exact yesYields final (grows.trans (more.trans further))

theorem conditional_true (condYields : Provides program scope frame start cond (.ok (.bool true)))
    (yesYields : Provides program scope frame start yes expected) :
    Provides program scope frame start (span.conditional cond yes no) expected := by
  intro later grows
  refine .request ((condYields later grows).after_ok fun last more => ?_)
  have asked : Achieves program (fun _ => Eval.asBool (.bool true)) last (.ok true) :=
    .of_eq fun _ => rfl
  exact asked.after_ok fun final further => yesYields final (grows.trans (more.trans further))

end Conditions

theorem binary_bind (rest : Value → Except Failure Value)
    (eager : op ≠ .and ∧ op ≠ .or ∧ op ≠ .coalesce)
    (leftYields : Provides program scope frame start left (.ok value))
    (rightYields : Provides program scope frame start right expected)
    (applied : ∀ rightValue later, expected = .ok rightValue → start.Grows later →
      Achieves program (fun recur => Eval.binary program recur op value rightValue) later
        (rest rightValue)) :
    Provides program scope frame start (span.binary op left right) (expected >>= rest) := by
  intro later grows
  have evaluated : Achieves program (fun recur => recur (.eval left scope frame) >>= fun leftValue =>
      recur (.eval right scope frame) >>= fun rightValue =>
        Eval.binary program recur op leftValue rightValue) later (expected >>= rest) :=
    (leftYields later grows).after_ok fun middle more =>
      .bind rest (rightYields middle (grows.trans more)) fun rightValue last isRight further =>
        applied rightValue last isRight (grows.trans (more.trans further))
  exact .request (evaluated.of_same fun recur => Eval.evalBinary_eager eager)

theorem binary {op : BinaryOp} {rightValue : Value} (eager : op ≠ .and ∧ op ≠ .or ∧ op ≠ .coalesce)
    (leftYields : Provides program scope frame start left (.ok value))
    (rightYields : Provides program scope frame start right (.ok rightValue))
    (applied : ∀ later, start.Grows later →
      Achieves program (fun recur => Eval.binary program recur op value rightValue) later expected) :
    Provides program scope frame start (span.binary op left right) expected :=
  binary_bind (fun _ => expected) eager leftYields rightYields fun other later isRight grows => by
    cases isRight
    exact applied later grows

end Expressions

end Provides

theorem Achieves.evalAll {scope : Nat} {frame : Frame} {start later : Machine} {nodes : List Expr}
    {expected : List (Except Failure Value)}
    (yields : Forall₂ (Provides program scope frame start) nodes expected)
    (grows : start.Grows later) :
    Achieves program (fun recur => Eval.evalAll recur nodes scope frame) later (expected.mapM id) := by
  induction yields generalizing later with
  | nil => exact .pure [] later
  | @cons node first nodes rest head _ ih =>
    rw [mapM_cons]
    have evaluated : Achieves program (fun recur => recur (.eval node scope frame) >>= fun value =>
        Eval.evalAll recur nodes scope frame >>= fun values => Pure.pure (value :: values)) later
        (first >>= fun value => (rest.mapM id).map (value :: ·)) :=
      .bind _ (head later grows) fun value last _ more =>
        (ih (grows.trans more)).map (value :: ·)
    exact evaluated.of_same fun recur => mapM_cons

/-! ## Calls -/

def Calls (program : Program) (action : Answer → Eval CallResult) (before : Machine)
    (expected : Except Failure Value) : Prop :=
  ∃ outcome after, Runs program action before outcome after ∧ before.Grows after ∧
    Meets expected (outcome.map CallResult.value) after

def Eval.startClass? (program : Program) (machine : Machine) : Value → Option String
  | .object address => some (machine.objects.getD address default).className
  | .type name => if program.declares name then some name else none
  | _ => none

theorem Eval.invoke_missing {before : Machine} {target : Value} {name : String}
    {values : List Value}
    (missing : ((startClass? program before target).bind fun className =>
      program.findMethod? before className name values) = none) :
    invoke program recur target name values none before =
      (builtinMethod program recur target name values >>= fun value =>
        (pure { value } : Eval CallResult)) before := by
  have asked : (get : Eval Machine) before = (.ok before, before) := rfl
  cases target with
  | object address =>
    have read : Machine.object address before =
      (.ok (before.objects.getD address default), before) := rfl
    unfold invoke
    dsimp only
    rw [bind_ok read, pure_bind, bind_ok asked]
    simp only [startClass?, Option.bind_some] at missing
    rw [Option.getD_none, Option.bind_some, missing]
  | type className =>
    unfold invoke
    dsimp only
    rw [pure_bind, bind_ok asked]
    simp only [startClass?] at missing
    rw [missing]
  | _ => rfl

namespace Calls

variable {program : Program} {before : Machine} {address : Nat} {object : Object} {name : String}
  {values : List Value} {target : Value} {expected : Except Failure Value} {code : Code} {this : Value}

theorem invoke (present : before.objects[address]? = some object)
    (found : program.findMethod? before object.className name values = some (code, false))
    (calls : Calls program (fun recur => Eval.runMember program recur code (.object address) values)
      before expected) :
    Calls program (fun recur => recur (.invoke (.object address) name values none)) before expected := by
  obtain ⟨outcome, after, runs, grows, meets⟩ := calls
  exact ⟨outcome, after, runs.invoke present found, grows, meets⟩

theorem builtin (missing : ((Eval.startClass? program before target).bind fun className =>
      program.findMethod? before className name values) = none)
    (computes : Achieves program (fun recur => Eval.builtinMethod program recur target name values)
      before expected) :
    Calls program (fun recur => recur (.invoke target name values none)) before expected := by
  obtain ⟨outcome, after, runs, grows, meets⟩ := computes
  obtain ⟨enough, answers⟩ := Runs.bind_pure (fun value => ({ value } : CallResult)) runs
  refine ⟨outcome.map fun value => { value }, after, .request ⟨enough, fun fuel bound => ?_⟩, grows, ?_⟩
  · exact (Eval.invoke_missing missing).trans (answers fuel bound)
  · cases outcome <;> exact meets

theorem member {span : Span} {body : List Stmt} {outcome : Except Exit Unit} {after : Machine}
    (isBody : code.body = .block (span.block body)) (taken : Forall₂ Param.Takes code.params values)
    (room : before.depth < Machine.maxDepth)
    (runs : Runs program
      (fun recur => Eval.execAll recur body (before.scopes.size + 1) ⟨this, some code.owner⟩)
      (before.called code.params values) outcome after)
    (grows : before.deeper.Grows after) (meets : Meets expected (Eval.returned outcome) after) :
    Calls program (fun recur => Eval.runMember program recur code this values) before expected := by
  refine ⟨_, after.shallower, runs.runMember isBody taken room, grows.shallower, ?_⟩
  have same : ((Eval.returned outcome).map fun value =>
      (⟨value, some (code.params, before.scopes.size)⟩ : CallResult)).map CallResult.value =
        Eval.returned outcome := by
    cases Eval.returned outcome <;> rfl
  rw [same]
  exact meets.mono fun _ _ present => present

theorem returns (span : Span) {value : Expr} (isBody : code.body = .block (span.block [span.ret value]))
    (taken : Forall₂ Param.Takes code.params values) (room : before.depth < Machine.maxDepth)
    (computes : Achieves program
      (fun recur => recur (.eval value (before.scopes.size + 1) ⟨this, some code.owner⟩))
      (before.called code.params values) expected) :
    Calls program (fun recur => Eval.runMember program recur code this values) before expected := by
  obtain ⟨outcome, after, runs, grows, meets⟩ := computes
  have bodyGrows := (before.grows_called code.params values).trans grows
  cases expected with
  | ok result =>
    obtain rfl : outcome = .ok result := meets
    exact .member isBody taken room (.execAll_stops runs.ret) bodyGrows rfl
  | error failure =>
    obtain ⟨reason, rfl, explains⟩ := meets
    exact .member isBody taken room (.execAll_stops runs.ret_error) bodyGrows
      ⟨reason, explains.returned, explains⟩

theorem limit (taken : Forall₂ Param.Takes code.params values)
    (noRoom : Machine.maxDepth ≤ before.depth) :
    Calls program (fun recur => Eval.runMember program recur code this values) before
      (.error .callDepth) := by
  obtain ⟨after, grows, runs⟩ := Runs.runMember_limit taken noRoom
  exact ⟨_, after, runs, grows, _, rfl, rfl⟩

theorem bind {α : Type} {action : Answer → Eval CallResult} {next : Answer → Value → Eval α}
    (rest : Value → Except Failure α) (calls : Calls program action before expected)
    (others : ∀ value later, expected = .ok value → before.Grows later →
      Achieves program (fun recur => next @recur value) later (rest value)) :
    Achieves program (fun recur => action @recur >>= fun result => next @recur result.value) before
      (expected >>= rest) := by
  obtain ⟨outcome, middle, runs, grows, meets⟩ := calls
  cases outcome with
  | ok result =>
    cases expected with
    | ok value =>
      obtain rfl : result.value = value := Except.ok.inj meets
      obtain ⟨last, after, restRuns, restGrows, restMeets⟩ := others _ middle rfl grows
      exact ⟨last, after, .bind runs restRuns, grows.trans restGrows, restMeets⟩
    | error failure =>
      obtain ⟨reason, isError, -⟩ := meets
      cases isError
  | error reason =>
    cases expected with
    | ok value => cases meets
    | error failure =>
      obtain ⟨other, isError, explains⟩ := meets
      cases isError
      exact ⟨.error reason, middle, runs.bind_error, grows, reason, rfl, explains⟩

end Calls

namespace Provides

section MethodCalls

variable {program : Program} {scope : Nat} {frame : Frame} {start : Machine} {span : Span}
  {receiver : Expr} {args : List Expr} {expected : List (Except Failure Value)} {name : String}
  {target : Value}

theorem methodCall (rest : List Value → Except Failure Value)
    (argsYield : Forall₂ (Provides program scope frame start) args expected)
    (receives : Provides program scope frame start receiver (.ok target))
    (notBase : receiver.kind ≠ .base) (areValues : ∀ arg ∈ args, ∀ inner, arg.kind ≠ .out inner)
    (calls : ∀ values later, expected.mapM id = .ok values → start.Grows later →
      Calls program (fun recur => recur (.invoke target name values none)) later (rest values)) :
    Provides program scope frame start (span.methodCall receiver name args)
      (expected.mapM id >>= rest) := by
  intro later grows
  obtain ⟨outcome, middle, argsRun, argsGrow, argsMeet⟩ := Achieves.evalAll argsYield grows
  generalize isExpected : expected.mapM id = values at argsMeet
  cases values with
  | error failure =>
    obtain ⟨reason, rfl, explains⟩ := argsMeet
    exact ⟨.error reason, middle, argsRun.methodCall_stops, argsGrow, reason, rfl, explains⟩
  | ok values =>
    obtain rfl : outcome = .ok values := argsMeet
    obtain ⟨got, last, receiverRuns, receiverGrows, receiverMeets⟩ :=
      receives middle (grows.trans argsGrow)
    obtain rfl : got = .ok target := receiverMeets
    obtain ⟨result, after, callRuns, callGrows, callMeets⟩ :=
      calls values last isExpected (grows.trans (argsGrow.trans receiverGrows))
    exact ⟨_, after, argsRun.methodCall notBase areValues (.bind receiverRuns callRuns),
      argsGrow.trans (receiverGrows.trans callGrows), callMeets⟩

end MethodCalls

end Provides

end Unsugar
