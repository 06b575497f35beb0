import Unsugar.Proofs.Eval.Evolution

namespace Unsugar

/-! # The depth of calls

A call goes one level deeper and comes back, however it ends, so the counter of the machine is
where it was after anything that ran, and one run leaves nothing of its depth to the next.
-/

/-- Every value may be passed around. -/
def Validity.all : Validity where
  Valid _ _ := True
  least := 0
  mono _ _ := trivial
  object _ _ := trivial
  tuple := ⟨fun _ _ _ => trivial, fun _ => trivial⟩
  atom _ := trivial

theorem Validity.sound_all (machine : Machine) : Validity.all.Sound machine where
  begun := Nat.zero_le _
  objects _ _ _ _ := trivial
  sequences _ _ _ _ := trivial
  closures _ _ := trivial
  scopes _ _ _ _ := trivial
  statics _ _ := trivial

theorem Validity.valid_all (value : Value) : Validity.all.Valid 0 value := trivial

variable {machine : Machine} {α : Type}

theorem Validity.asks_all (request : Request α) : Validity.all.Asks 0 request := by
  cases request with
  | store | invoke | construct => exact ⟨trivial, by intros; trivial⟩
  | apply => exact fun _ _ => trivial
  | eval | exec | loop | display => trivial

namespace Eval

/-! ## Coming back -/

/-- A computation that leaves the depth of calls as it was, whatever way it ends. -/
def Balanced {α : Type} (action : Eval α) : Prop :=
  ∀ machine : Machine, machine.depth ≤ Machine.maxDepth → (action machine).2.depth = machine.depth

/-- The computations that are run one level deeper. -/
inductive Nests (program : Program) (recur : Answer) : {α : Type} → Eval α → Prop
  | member (code : Code) (this : Value) (scope : Nat) :
      Nests program recur (memberBody recur code this scope)
  | closure (closure : Closure) (args : List Value) :
      Nests program recur (closureBody recur closure args)
  | ctor (className : String) (object : Value) (args : List Value) (ctor : Ctor) :
      Nests program recur (ctorBody program recur className object args ctor)

variable {program : Program} {fuel : Nat}

theorem Balanced.of_agree {Related : Nat → α → α → Prop} {action other : Eval α}
    (agree : (Validity.all.tandem 0).Agree 0 Related action other) : Balanced action :=
  fun machine shallow => (Validity.after_of_agree agree (Validity.sound_all machine) (Nat.zero_le _)
    (Nat.zero_le _) shallow).leads.depth

theorem balanced_run (request : Request α) : Balanced (Eval.run program fuel request) :=
  .of_agree (Validity.agree_run (Validity.asks_all request) program fuel)

/-- What runs one level deeper ends at that level, so there is a level to come back from. -/
theorem Nests.balanced {body : Eval α} (nests : Nests program (Eval.run program fuel) body) :
    Balanced body := by
  have answers := Validity.all.answers_run 0 program fuel
  cases nests with
  | member => exact .of_agree (answers.memberBody ⟨rfl, trivial⟩)
  | closure closure =>
    exact .of_agree (answers.closureBody (Validity.sameClosure_self trivial) fun _ _ => trivial)
  | ctor => exact .of_agree (answers.ctorBody trivial fun _ _ => trivial)

/-! ## Watching the requests of a run -/

/-- A request is asked no less deep than the one it is made for, never above the greatest depth,
    and comes back to the depth it was asked at. -/
def withinDepths (asking asked answered : Machine) : Bool :=
  asking.depth ≤ asked.depth && asked.depth ≤ Machine.maxDepth && answered.depth == asked.depth

theorem watchedRun_withinDepths {alarm : Exit} {request : Request α}
    (shallow : machine.depth ≤ Machine.maxDepth) :
    watchedRun alarm withinDepths program fuel request machine =
      Eval.run program fuel request machine := by
  refine watchedRun_eq .all ?_ (Validity.asks_mono (Nat.zero_le _) (Validity.asks_all request))
    (Validity.sound_all machine) shallow
  intro asking asked answered deep shallow _ _ evolves
  simp [withinDepths, deep, shallow, evolves.depth]

end Eval

/-! ## Calls of a program -/

namespace Program

variable {program : Program}

def afterCalls (program : Program) (machine : Machine) (calls : List (String × String × List Value)) :
    Machine :=
  calls.foldl (fun machine call => (program.callStatic call.1 call.2.1 call.2.2 machine).2) machine

theorem depth_callStatic (typeName method : String) (args : List Value)
    (shallow : machine.depth ≤ Machine.maxDepth) :
    (program.callStatic typeName method args machine).2.depth = machine.depth := by
  have balanced : (Eval.run program nestingBound (.invoke (.type typeName) method args none)
      machine).2.depth = machine.depth := Eval.balanced_run _ machine shallow
  unfold callStatic
  cases ran : Eval.run program nestingBound (.invoke (.type typeName) method args none) machine with
  | mk result after =>
    rw [ran] at balanced
    simp only [ran]
    cases result with
    | ok => exact balanced
    | error reason => cases reason <;> exact balanced

theorem depth_afterCalls {calls : List (String × String × List Value)}
    (shallow : machine.depth ≤ Machine.maxDepth) :
    (program.afterCalls machine calls).depth = machine.depth := by
  induction calls generalizing machine with
  | nil => rfl
  | cons call rest ih =>
    have depth := program.depth_callStatic call.1 call.2.1 call.2.2 shallow
    exact (ih (depth.trans_le shallow)).trans depth

/-- Whatever is run leaves the depth of calls as it was, and so does all that runs within it, a
    level down included; what it asks for is asked no less deep and never above the greatest depth.
    So a call of a static method starts from the same depth whatever was called before it. -/
theorem calls_balanced (program : Program) (fuel : Nat) :
    (∀ {α : Type} (request : Request α), Eval.Balanced (Eval.run program fuel request)) ∧
      (∀ target name,
        Eval.Balanced (Eval.getMember program (Eval.run program fuel) target name)) ∧
      (∀ target name value,
        Eval.Balanced (Eval.setMember program (Eval.run program fuel) target name value)) ∧
      (∀ op left right,
        Eval.Balanced (Eval.binary program (Eval.run program fuel) op left right)) ∧
      (∀ {α : Type} (body : Eval α), Eval.Nests program (Eval.run program fuel) body →
        Eval.Balanced body) ∧
      (∀ (alarm : Exit) {α : Type} (request : Request α) (machine : Machine),
        machine.depth ≤ Machine.maxDepth →
          Eval.watchedRun alarm Eval.withinDepths program fuel request machine =
            Eval.run program fuel request machine) ∧
      ∀ (calls : List (String × String × List Value)) (machine : Machine),
        machine.depth ≤ Machine.maxDepth →
          (program.afterCalls machine calls).depth = machine.depth := by
  have answers := Validity.all.answers_run 0 program fuel
  refine ⟨Eval.balanced_run, fun target name => ?_, fun target name value => ?_,
    fun op left right => ?_, fun body nests => nests.balanced,
    fun alarm _ request _ => Eval.watchedRun_withinDepths,
    fun calls _ => program.depth_afterCalls⟩
  · exact .of_agree (answers.getMember (Validity.valid_all target) name)
  · exact .of_agree
      (answers.setMember (Validity.valid_all target) (Validity.valid_all value) name)
  · exact .of_agree
      (answers.binary op (Validity.valid_all left) (Validity.valid_all right))

def spinning : Program :=
  let mark : Mark := ⟨⟨0, 0⟩, none⟩
  ⟨[⟨"P", .classType, [], [], none, [], none,
    [⟨.method "Spin" [] [] .void (.expr ⟨mark, .call ⟨mark, .ident "Spin"⟩ []⟩), [.isStatic],
      ⟨0, 0⟩⟩], ⟨0, 0⟩⟩]⟩

/-- Calls that reached the limit leave nothing of their depth behind. -/
theorem calls_balanced_spinning :
    (spinning.callStatic "P" "Spin" [] { depth := 254 }).1 = .fault .callDepth ∧
      (spinning.afterCalls { depth := 254 } [("P", "Spin", []), ("P", "Spin", [])]).depth = 254 ∧
      Eval.watchedRun .breakLoop Eval.withinDepths spinning 5 (.invoke (.type "P") "Spin" [] none)
          { depth := 254 } =
        Eval.run spinning 5 (.invoke (.type "P") "Spin" [] none) { depth := 254 } := by
  have shallow : Machine.depth { depth := 254 } ≤ Machine.maxDepth := by decide
  obtain ⟨-, -, -, -, -, watched, after⟩ := calls_balanced spinning 5
  exact ⟨rfl, after _ _ shallow, watched _ _ _ shallow⟩

end Program

end Unsugar
