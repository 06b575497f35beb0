import Unsugar.Proofs.Eval.Computations
import Unsugar.Proofs.Syntax.Subtrees

open List

namespace Unsugar

/-! # Runs in tandem

Two runs of the same code go on in tandem: a `Tandem` says what relates their machines, what both
may hold as values, and what the machine of the first goes through.  Computations that agree
stay related and end alike, and they can be put together.  What each operation of the machine
does is assumed (`Tandem.Lawful`); what the library does without asking for anything to be
evaluated follows.
-/

/-! ## Variables that code does not name

Code spares some variables if nothing in it names one of them; then so does what is in it.
-/

def Node.spelled : Node → List String
  | .expr ⟨_, .ident name⟩ => [name]
  | .expr ⟨_, .lambda _ params _ _⟩ => params.map (·.name)
  | .stmt ⟨_, .declare _ name _⟩ => [name]
  | .stmt ⟨_, .forEach _ name _ _⟩ => [name]
  | _ => []

def Node.Spares (hidden : List String) (node : Node) : Prop :=
  ∀ below ∈ node.reachable true, ∀ name ∈ below.spelled, name ∉ hidden

instance (node : Node) (hidden : List String) : Decidable (node.Spares hidden) :=
  inferInstanceAs (Decidable (∀ below ∈ node.reachable true, ∀ name ∈ below.spelled, name ∉ hidden))

namespace Node.Spares

variable {hidden : List String} {node child : Node}

theorem self (spares : node.Spares hidden) : ∀ name ∈ node.spelled, name ∉ hidden := by
  refine spares node ?_
  rw [node.reachable_eq]
  exact mem_cons_self ..

theorem of_child (spares : node.Spares hidden) (isChild : child ∈ node.children) :
    child.Spares hidden := by
  intro below isBelow
  refine spares below ?_
  rw [node.reachable_eq]
  exact mem_cons_of_mem _ (mem_flatMap.mpr ⟨child, isChild, isBelow⟩)

theorem nothing (node : Node) : node.Spares [] := fun _ _ _ _ => not_mem_nil

end Node.Spares

/-! ## Related results -/

section

variable {Time α : Type}

def Anything (_ : Time) (_ : α) : Prop := True

def Same (Holds : Time → α → Prop) (now : Time) (result other : α) : Prop :=
  result = other ∧ Holds now result

end

def Value.leadsNowhere : Value → Bool
  | .object _ | .list _ | .closure _ | .tuple _ => false
  | _ => true

/-- Function values that are the same but for where they were made, and that name none of some
    variables. -/
structure Closure.Twin (hidden : List String) (Sees : Nat → Nat → Prop) (Holds : Value → Prop)
    (closure other : Closure) : Prop where
  params : other.params = closure.params
  body : other.body = closure.body
  frame : other.frame = closure.frame
  scope : Sees closure.scope other.scope
  this : Holds closure.frame.this
  sparesParams : ∀ name ∈ closure.params, name ∉ hidden
  sparesBody : ∀ node ∈ Node.ofLambdaBody closure.body, node.Spares hidden

theorem Closure.Twin.imp {hidden : List String} {Sees SeesLater : Nat → Nat → Prop}
    {Holds HoldsLater : Value → Prop} {closure other : Closure}
    (twin : Closure.Twin hidden Sees Holds closure other)
    (sees : Sees closure.scope other.scope → SeesLater closure.scope other.scope)
    (holds : Holds closure.frame.this → HoldsLater closure.frame.this) :
    Closure.Twin hidden SeesLater HoldsLater closure other :=
  { twin with scope := sees twin.scope, this := holds twin.this }

structure Tandem where
  Couples : Machine → Machine → Prop
  /-- What two computations may make of the machines they start from. -/
  Leads : Machine × Machine → Machine × Machine → Prop
  Time : Type
  order : Preorder Time
  time : Machine × Machine → Time
  Holds : Time → Value → Prop
  /-- From these scopes, code that names none of some variables sees the same. -/
  Sees : List String → Time → Nat → Nat → Prop
  /-- Such code may declare variables in these scopes. -/
  Twins : List String → Time → Nat → Nat → Prop
  /-- Whether it is the second run that may run out of fuel, if one of them may. -/
  lags : Option Bool
  refl : ∀ machines, Leads machines machines
  trans : ∀ {before middle after}, Leads before middle → Leads middle after → Leads before after
  further : ∀ {before after}, Leads before after → time before ≤ time after
  mono : ∀ {now later value}, now ≤ later → Holds now value → Holds later value
  sees_mono : ∀ {hidden now later scope other},
    now ≤ later → Sees hidden now scope other → Sees hidden later scope other
  twins_mono : ∀ {hidden now later scope other},
    now ≤ later → Twins hidden now scope other → Twins hidden later scope other
  sees : ∀ {hidden now scope other}, Twins hidden now scope other → Sees hidden now scope other

namespace Tandem

attribute [instance] order

variable (tandem : Tandem)

def HoldsAll (now : tandem.Time) (values : List Value) : Prop := ∀ value ∈ values, tandem.Holds now value

/-- An early end that hands out only what both runs may hold. -/
def HoldsExit (now : tandem.Time) : Exit → Prop
  | .ret value | .throw value => tandem.Holds now value
  | .breakLoop | .continueLoop | .fault _ => True

/-- Two computations ended in the same way, with related results. -/
def SameEnd {α β : Type} (Related : tandem.Time → α → β → Prop) (now : tandem.Time) :
    Except Exit α → Except Exit β → Prop
  | .ok result, .ok other => Related now result other
  | .error reason, .error other => reason = other ∧ tandem.HoldsExit now reason
  | _, _ => False

/-- One of two computations ran out of fuel, so that nothing is known about the other. -/
def Starved {α β : Type} (result : Except Exit α) (other : Except Exit β) : Prop :=
  (tandem.lags = some true ∧ other = .error (.fault .outOfFuel)) ∨
    tandem.lags = some false ∧ result = .error (.fault .outOfFuel)

/-- How two computations leave the machines. -/
structure After {α β : Type} (Related : tandem.Time → α → β → Prop) (before : Machine × Machine)
    (ended : Except Exit α × Machine) (other : Except Exit β × Machine) : Prop where
  couples : tandem.Couples ended.2 other.2
  leads : tandem.Leads before (ended.2, other.2)
  ends : tandem.SameEnd Related (tandem.time (ended.2, other.2)) ended.1 other.1

def Agree {α : Type} (now : tandem.Time) (Related : tandem.Time → α → α → Prop)
    (action other : Eval α) : Prop :=
  ∀ machine same, tandem.Couples machine same → now ≤ tandem.time (machine, same) →
    tandem.Starved (action machine).1 (other same).1 ∨
      tandem.After Related (machine, same) (action machine) (other same)

variable {tandem} {now later : tandem.Time}

theorem HoldsAll.mono {values : List Value} (le : now ≤ later) (holds : tandem.HoldsAll now values) :
    tandem.HoldsAll later values := fun value isIn => tandem.mono le (holds value isIn)

theorem holdsAll_pair {left right : Value} :
    tandem.HoldsAll now [left, right] ↔ tandem.Holds now left ∧ tandem.Holds now right := by
  simp [HoldsAll]

theorem HoldsExit.mono {reason : Exit} (le : now ≤ later) (holds : tandem.HoldsExit now reason) :
    tandem.HoldsExit later reason := by
  cases reason with
  | ret | throw => exact tandem.mono le holds
  | breakLoop | continueLoop | fault => trivial

theorem Starved.imp {α β γ δ : Type} {result : Except Exit α} {other : Except Exit β}
    {last : Except Exit γ} {ending : Except Exit δ} (starved : tandem.Starved result other)
    (first : result = .error (.fault .outOfFuel) → last = .error (.fault .outOfFuel))
    (second : other = .error (.fault .outOfFuel) → ending = .error (.fault .outOfFuel)) :
    tandem.Starved last ending :=
  Or.imp (And.imp_right second) (And.imp_right first) starved

theorem SameEnd.eq {α : Type} {Holds : tandem.Time → α → Prop} {result other : Except Exit α}
    (same : tandem.SameEnd (Same Holds) now result other) : other = result := by
  cases result <;> cases other
  · exact congrArg Except.error same.1.symm
  · cases same
  · cases same
  · exact congrArg Except.ok same.1.symm

theorem SameEnd.imp {α β : Type} {Related Weaker : tandem.Time → α → β → Prop} {result : Except Exit α}
    {other : Except Exit β} (same : tandem.SameEnd Related now result other)
    (weaken : ∀ result other, Related now result other → Weaker now result other) :
    tandem.SameEnd Weaker now result other := by
  cases result <;> cases other
  · exact same
  · exact same
  · exact same
  · exact weaken _ _ same

/-! ## Putting computations together -/

namespace Agree

section Rules

variable {α β : Type} {Related : tandem.Time → α → α → Prop}
  {Follows : tandem.Time → β → β → Prop} {Holds : tandem.Time → α → Prop}
  {action other : Eval α} {next following : α → Eval β}

theorem still {result same : Except Exit α}
    (ends : ∀ later, now ≤ later → tandem.SameEnd Related later result same) :
    tandem.Agree now Related (fun machine => (result, machine)) (fun machine => (same, machine)) :=
  fun _ _ couples enough => .inr ⟨couples, tandem.refl _, ends _ enough⟩

theorem pure {result same : α} (related : ∀ later, now ≤ later → Related later result same) :
    tandem.Agree now Related (Pure.pure result) (Pure.pure same) := still related

theorem value {result : Value} (holds : tandem.Holds now result) :
    tandem.Agree now (Same tandem.Holds) (Pure.pure result) (Pure.pure result) :=
  pure fun _ le => ⟨rfl, tandem.mono le holds⟩

theorem done (result : α) :
    tandem.Agree now (Same Anything) (Pure.pure result) (Pure.pure result) :=
  pure fun _ _ => ⟨rfl, trivial⟩

theorem exit {reason : Exit} (holds : tandem.HoldsExit now reason) :
    tandem.Agree now Related (Eval.exit reason) (Eval.exit reason) :=
  still fun _ le => ⟨rfl, holds.mono le⟩

theorem fault (cause : Fault) : tandem.Agree now Related (Eval.fault cause) (Eval.fault cause) :=
  exit trivial

theorem unsupported (what : String) :
    tandem.Agree now Related (Eval.unsupported what) (Eval.unsupported what) := fault _

theorem widen (agree : tandem.Agree now Related action other) (le : now ≤ later) :
    tandem.Agree later Related action other :=
  fun machine same couples enough => agree machine same couples (le.trans enough)

theorem bind (first : tandem.Agree now Related action other)
    (rest : ∀ later result same, now ≤ later → Related later result same →
      tandem.Agree later Follows (next result) (following same)) :
    tandem.Agree now Follows (action >>= next) (other >>= following) := by
  intro machine same couples enough
  have agree := first machine same couples enough
  cases ran : action machine with
  | mk result after =>
  cases ranOther : other same with
  | mk otherResult otherAfter =>
  rw [ran, ranOther] at agree
  rcases agree with starved | ⟨couplesNow, leads, ends⟩
  · refine .inl (starved.imp ?_ ?_)
    · rintro rfl
      rw [Eval.bind_error ran]
    · rintro rfl
      rw [Eval.bind_error ranOther]
  cases result with
  | ok value =>
    cases otherResult with
    | ok otherValue =>
      rw [Eval.bind_ok ran, Eval.bind_ok ranOther]
      refine (rest _ value otherValue (enough.trans (tandem.further leads)) ends after otherAfter
        couplesNow le_rfl).imp_right fun agree => ?_
      exact ⟨agree.couples, tandem.trans leads agree.leads, agree.ends⟩
    | error _ => cases ends
  | error reason =>
    cases otherResult with
    | ok _ => cases ends
    | error _ =>
      rw [Eval.bind_error ran, Eval.bind_error ranOther]
      exact .inr ⟨couplesNow, leads, ends⟩

section

variable (first : tandem.Agree now (Same Holds) action other)

include first

theorem bind_same (rest : ∀ later result, now ≤ later → Holds later result →
      tandem.Agree later Follows (next result) (following result)) :
    tandem.Agree now Follows (action >>= next) (other >>= following) := by
  refine first.bind fun later result same le related => ?_
  obtain ⟨rfl, holds⟩ := related
  exact rest later result le holds

theorem andThen {last ending : Eval β} (rest : tandem.Agree now Follows last ending) :
    tandem.Agree now Follows (action >>= fun _ => last) (other >>= fun _ => ending) :=
  first.bind_same fun _ _ le _ => rest.widen le

theorem map {make : α → β} {Makes : tandem.Time → β → Prop}
    (makes : ∀ later result, now ≤ later → Holds later result → ∀ last, later ≤ last →
      Makes last (make result)) :
    tandem.Agree now (Same Makes) (action >>= fun result => Pure.pure (make result))
      (other >>= fun result => Pure.pure (make result)) :=
  first.bind_same fun later result le holds =>
    pure fun last further => ⟨rfl, makes later result le holds last further⟩

end

theorem mono {Weaker : tandem.Time → α → α → Prop} (agree : tandem.Agree now Related action other)
    (weaken : ∀ later result same, Related later result same → Weaker later result same) :
    tandem.Agree now Weaker action other :=
  fun machine same couples enough => (agree machine same couples enough).imp_right fun after =>
    ⟨after.couples, after.leads, after.ends.imp (weaken _)⟩

theorem fault_bind {cause : Fault} :
    tandem.Agree now Follows (Eval.fault cause >>= next) (Eval.fault cause >>= following) :=
  still fun _ _ => ⟨rfl, trivial⟩

theorem get_bind {next following : Machine → Eval β}
    (rest : ∀ machine same, tandem.Couples machine same → now ≤ tandem.time (machine, same) →
      tandem.Agree (tandem.time (machine, same)) Follows (next machine) (following same)) :
    tandem.Agree now Follows (MonadState.get >>= next) (MonadState.get >>= following) :=
  fun machine same couples enough =>
    rest machine same couples enough machine same couples le_rfl

theorem modified {change otherChange : Machine → Machine}
    (couples : ∀ machine same, tandem.Couples machine same → now ≤ tandem.time (machine, same) →
      tandem.Couples (change machine) (otherChange same))
    (leads : ∀ machine same, tandem.Leads (machine, same) (change machine, otherChange same)) :
    tandem.Agree now (Same Anything) (modify change : Eval Unit) (modify otherChange) :=
  fun machine same areCoupled enough =>
    .inr ⟨couples machine same areCoupled enough, leads machine same, rfl, trivial⟩

theorem caught_bind {handle following : Except Exit α → Eval β}
    (agree : tandem.Agree now Related action other)
    (ok : ∀ later result same, now ≤ later → Related later result same →
      tandem.Agree later Follows (handle (.ok result)) (following (.ok same)))
    (starves : ∀ machine,
      (handle (.error (.fault .outOfFuel)) machine).1 = .error (.fault .outOfFuel) ∧
        (following (.error (.fault .outOfFuel)) machine).1 = .error (.fault .outOfFuel))
    (error : ∀ later reason, now ≤ later → tandem.HoldsExit later reason →
      tandem.Agree later Follows (handle (.error reason)) (following (.error reason))) :
    tandem.Agree now Follows (Eval.outcome action >>= handle)
      (Eval.outcome other >>= following) := by
  intro machine same couples enough
  have agrees := agree machine same couples enough
  change tandem.Starved (handle (action machine).1 (action machine).2).1
    (following (other same).1 (other same).2).1 ∨ tandem.After _ (machine, same)
      (handle (action machine).1 (action machine).2) (following (other same).1 (other same).2)
  rcases agrees with starved | ⟨couplesNow, leads, ends⟩
  · refine .inl (starved.imp (fun isOut => ?_) fun isOut => ?_)
    · rw [isOut]
      exact (starves _).1
    · rw [isOut]
      exact (starves _).2
  have le := enough.trans (tandem.further leads)
  have handled : tandem.Agree (tandem.time ((action machine).2, (other same).2)) Follows
      (handle (action machine).1) (following (other same).1) := by
    cases ended : (action machine).1 <;> cases otherEnded : (other same).1 <;>
      rw [ended, otherEnded] at ends
    · obtain ⟨rfl, holds⟩ := ends
      exact error _ _ le holds
    · cases ends
    · cases ends
    · exact ok _ _ _ le ends
  refine (handled _ _ couplesNow le_rfl).imp_right fun after => ?_
  exact ⟨after.couples, tandem.trans leads after.leads, after.ends⟩

end Rules

section Lists

variable {α β : Type} {items : List α}

theorem mapM {Holds : tandem.Time → β → Prop} {action other : α → Eval β}
    (mono : ∀ now later result, now ≤ later → Holds now result → Holds later result)
    (each : ∀ item ∈ items, tandem.Agree now (Same Holds) (action item) (other item)) :
    tandem.Agree now (Same fun later results => ∀ result ∈ results, Holds later result)
      (items.mapM action) (items.mapM other) := by
  induction items generalizing now with
  | nil => exact pure fun _ _ => ⟨rfl, forall_mem_nil _⟩
  | cons item rest ih =>
    obtain ⟨ofItem, ofRest⟩ := forall_mem_cons.mp each
    rw [mapM_cons, mapM_cons]
    refine ofItem.bind_same fun later result le holds => ?_
    refine (ih fun item isItem => (ofRest item isItem).widen le).bind_same
      fun later results le others => pure fun last beyond => ⟨rfl, ?_⟩
    refine forall_mem_cons.mpr ⟨mono _ _ _ (le.trans beyond) holds, fun result isResult => ?_⟩
    exact mono _ _ _ beyond (others result isResult)

theorem forM {action other : α → Eval Unit}
    (each : ∀ item ∈ items, tandem.Agree now (Same Anything) (action item) (other item)) :
    tandem.Agree now (Same Anything) (items.forM action) (items.forM other) := by
  induction items with
  | nil => exact done _
  | cons item rest ih =>
    obtain ⟨ofItem, ofRest⟩ := forall_mem_cons.mp each
    exact ofItem.andThen (ih ofRest)

theorem forIn {body other : α → PUnit → Eval (ForInStep PUnit)}
    (each : ∀ item ∈ items, tandem.Agree now (Same fun _ step => step = .yield .unit)
      (body item .unit) (other item .unit)) :
    tandem.Agree now (Same Anything) (ForIn.forIn items PUnit.unit body)
      (ForIn.forIn items PUnit.unit other) := by
  induction items generalizing now with
  | nil => exact done _
  | cons item rest ih =>
    obtain ⟨ofItem, ofRest⟩ := forall_mem_cons.mp each
    rw [forIn_cons, forIn_cons]
    refine ofItem.bind_same fun later step le isYield => ?_
    rw [isYield]
    exact ih fun item isItem => (ofRest item isItem).widen le

end Lists

end Agree

/-! ## The operations of the machine -/

/-- A call goes one level deeper and comes back to where it was made. -/
theorem nested_apply {α : Type} {call : Eval α} {machine : Machine} : Machine.nested call machine =
      if Machine.maxDepth ≤ machine.depth then (.error (.fault .callDepth), machine)
      else
        ((call { machine with depth := machine.depth + 1 }).1,
          { (call { machine with depth := machine.depth + 1 }).2 with
            depth := (call { machine with depth := machine.depth + 1 }).2.depth - 1 }) := by
  unfold Machine.nested
  by_cases full : Machine.maxDepth ≤ machine.depth
  · rw [if_pos full]
    change (if _ then _ else _ : Eval α) machine = _
    rw [if_pos full]
    rfl
  · rw [if_neg full]
    change (if _ then _ else _ : Eval α) machine = _
    rw [if_neg full]
    change Eval.resume (call _).1 _ = _
    cases (call { machine with depth := machine.depth + 1 }).1 <;> rfl

/-- The same function value, made in scopes from which code sees the same. -/
abbrev SameClosure (tandem : Tandem) (hidden : List String) (now : tandem.Time) :
    Closure → Closure → Prop :=
  Closure.Twin hidden (tandem.Sees hidden now) (tandem.Holds now)

def Finds (tandem : Tandem) (now : tandem.Time) (found : Option Value) : Prop :=
  ∀ value ∈ found, tandem.Holds now value

/-- Every operation of the machine agrees with itself. -/
class Lawful (tandem : Tandem) : Prop where
  objects : ∀ {machine same}, tandem.Couples machine same → same.objects = machine.objects
  sequences : ∀ {machine same}, tandem.Couples machine same → same.sequences = machine.sequences
  initialized : ∀ {machine same},
    tandem.Couples machine same → same.initialized = machine.initialized
  plain : ∀ {now value}, value.leadsNowhere = true → tandem.Holds now value
  tuple : ∀ {now items}, tandem.Holds now (.tuple items) ↔ tandem.HoldsAll now items
  object : ∀ {now address}, tandem.Holds now (.object address) →
    tandem.Agree now (Same fun later object => ∀ field ∈ object.fields, tandem.Holds later field.2)
      (Machine.object address) (Machine.object address)
  allocObject : ∀ {now className isStruct fields}, (∀ field ∈ fields, tandem.Holds now field.2) →
      tandem.Agree now (Same tandem.Holds) (Machine.allocObject className isStruct fields)
        (Machine.allocObject className isStruct fields)
  setField : ∀ {now address name value}, tandem.Holds now (.object address) →
    tandem.Holds now value → tandem.Agree now (Same Anything) (Machine.setField address name value)
      (Machine.setField address name value)
  sequence : ∀ {now address}, tandem.Holds now (.list address) →
    tandem.Agree now (Same fun later list => tandem.HoldsAll later list.items)
      (Machine.sequence address) (Machine.sequence address)
  allocSequence : ∀ {now isArray items}, tandem.HoldsAll now items →
    tandem.Agree now (Same tandem.Holds) (Machine.allocSequence isArray items)
      (Machine.allocSequence isArray items)
  setItems : ∀ {now address items}, tandem.Holds now (.list address) → tandem.HoldsAll now items →
    tandem.Agree now (Same Anything) (Machine.setItems address items)
      (Machine.setItems address items)
  closures : ∀ {machine same address}, tandem.Couples machine same →
    tandem.Holds (tandem.time (machine, same)) (.closure address) →
      Option.Rel (fun closure other =>
        ∃ hidden, tandem.SameClosure hidden (tandem.time (machine, same)) closure other)
        machine.closures[address]? same.closures[address]?
  allocClosure : ∀ {hidden now closure other}, tandem.SameClosure hidden now closure other →
    tandem.Agree now (Same tandem.Holds) (Machine.allocClosure closure) (Machine.allocClosure other)
  rootScope : ∀ {now}, tandem.Agree now (tandem.Twins []) Machine.rootScope Machine.rootScope
  childScope : ∀ {hidden now scope other}, tandem.Sees hidden now scope other →
    tandem.Agree now (tandem.Twins hidden) (Machine.childScope scope) (Machine.childScope other)
  lookupVar? : ∀ {hidden now scope other name}, name ∉ hidden → tandem.Sees hidden now scope other →
    tandem.Agree now (Same tandem.Finds) (Machine.lookupVar? scope name)
      (Machine.lookupVar? other name)
  declareVar : ∀ {hidden now scope other name value}, name ∉ hidden → tandem.Holds now value →
    tandem.Twins hidden now scope other → tandem.Agree now (Same Anything)
      (Machine.declareVar scope name value) (Machine.declareVar other name value)
  assignVar : ∀ {hidden now scope other name value}, name ∉ hidden → tandem.Holds now value →
    tandem.Sees hidden now scope other → tandem.Agree now (Same Anything)
      (Machine.assignVar scope name value) (Machine.assignVar other name value)
  static? : ∀ {now} (typeName name : String), tandem.Agree now (Same tandem.Finds)
    (Machine.static? typeName name) (Machine.static? typeName name)
  setStatic : ∀ {now value} (typeName name : String), tandem.Holds now value →
    tandem.Agree now (Same Anything) (Machine.setStatic typeName name value)
      (Machine.setStatic typeName name value)
  begin : ∀ {now} (className : String), tandem.Agree now (Same Anything)
    (modify fun machine : Machine => { machine with initialized := className :: machine.initialized } :
      Eval Unit)
    (modify fun machine : Machine => { machine with initialized := className :: machine.initialized })
  print : ∀ {now} (text : String),
    tandem.Agree now (Same Anything) (Machine.print text) (Machine.print text)
  depth : ∀ {machine same}, tandem.Couples machine same → same.depth = machine.depth
  time_depth : ∀ (machine same : Machine) (depth other : Nat),
    tandem.time ({ machine with depth }, { same with depth := other }) = tandem.time (machine, same)
  enter : ∀ {machine same}, tandem.Couples machine same → machine.depth < Machine.maxDepth →
    tandem.Couples { machine with depth := machine.depth + 1 } { same with depth := machine.depth + 1 }
  leave : ∀ {machine same after later}, tandem.Couples machine same → tandem.Couples after later →
    tandem.Leads ({ machine with depth := machine.depth + 1 }, { same with depth := machine.depth + 1 })
      (after, later) →
      tandem.Couples { after with depth := after.depth - 1 } { later with depth := later.depth - 1 } ∧
        tandem.Leads (machine, same)
          ({ after with depth := after.depth - 1 }, { later with depth := later.depth - 1 })

theorem Agree.nested [tandem.Lawful] {α : Type} {Related : tandem.Time → α → α → Prop}
    {call other : Eval α}
    (agree : tandem.Agree now Related call other) :
    tandem.Agree now Related (Machine.nested call) (Machine.nested other) := by
  intro machine same couples enough
  rw [nested_apply, nested_apply, Lawful.depth couples]
  split
  · exact .inr ⟨couples, tandem.refl _, rfl, trivial⟩
  · next room =>
      have inside := Lawful.enter couples (Nat.lt_of_not_le room)
      refine (agree _ _ inside (enough.trans_eq (Lawful.time_depth ..).symm)).imp_right fun after => ?_
      obtain ⟨coupled, leads⟩ := Lawful.leave couples after.couples after.leads
      refine ⟨coupled, leads, ?_⟩
      rw [Lawful.time_depth]
      exact after.ends

end Tandem

end Unsugar
