import Unsugar.Proofs.Eval.Veils

open List

namespace Unsugar

/-! # What every computation keeps up

A run may change what objects, sequences and scopes hold, but not what they are, and it comes
back to the depth of calls that it began at.  `Validity` says which values may be passed around
once there are so many objects.  A run goes on in tandem with itself: it hands on only such values,
leaves a sound machine, and makes its requests between two depths of calls, so that an answer that
is given outside of them makes no difference to it.
-/

/-! ## Machines over time -/

structure Machine.Evolves (before after : Machine) : Prop where
  objects : ∀ (address : Nat) (object : Object), before.objects[address]? = some object →
    ∃ later, after.objects[address]? = some later ∧ later.className = object.className ∧
      later.isStruct = object.isStruct
  sequences : ∀ (address : Nat) (list : Sequence), before.sequences[address]? = some list →
    ∃ later, after.sequences[address]? = some later ∧ later.isArray = list.isArray
  closures : ∀ (address : Nat) (closure : Closure), before.closures[address]? = some closure →
    after.closures[address]? = some closure
  scopes : ∀ (address : Nat) (entry : Scope), before.scopes[address]? = some entry →
    ∃ later, after.scopes[address]? = some later ∧ later.parent = entry.parent
  depth : after.depth = before.depth

namespace Machine.Evolves

variable {before middle after : Machine}

theorem refl (machine : Machine) : machine.Evolves machine where
  objects _ object present := ⟨object, present, rfl, rfl⟩
  sequences _ list present := ⟨list, present, rfl⟩
  closures _ _ present := present
  scopes _ entry present := ⟨entry, present, rfl⟩
  depth := rfl

theorem trans (first : before.Evolves middle) (second : middle.Evolves after) :
    before.Evolves after where
  objects address object present := by
    obtain ⟨later, isLater, sameClass, sameSort⟩ := first.objects address object present
    obtain ⟨last, isLast, lastClass, lastSort⟩ := second.objects address later isLater
    exact ⟨last, isLast, lastClass.trans sameClass, lastSort.trans sameSort⟩
  sequences address list present := by
    obtain ⟨later, isLater, sameSort⟩ := first.sequences address list present
    obtain ⟨last, isLast, lastSort⟩ := second.sequences address later isLater
    exact ⟨last, isLast, lastSort.trans sameSort⟩
  closures address closure present := second.closures address closure (first.closures address closure present)
  scopes address entry present := by
    obtain ⟨later, isLater, sameParent⟩ := first.scopes address entry present
    obtain ⟨last, isLast, lastParent⟩ := second.scopes address later isLater
    exact ⟨last, isLast, lastParent.trans sameParent⟩
  depth := second.depth.trans first.depth

theorem size_objects (evolves : before.Evolves after) :
    before.objects.size ≤ after.objects.size := by
  rcases Nat.eq_zero_or_pos before.objects.size with isEmpty | positive
  · omega
  · have inside : before.objects.size - 1 < before.objects.size := by omega
    obtain ⟨later, isLater, -⟩ := evolves.objects _ _ (Array.getElem?_eq_getElem inside)
    have := (Array.getElem?_eq_some_iff.mp isLater).1
    omega

end Machine.Evolves

variable {α : Type} {machine : Machine} {request : Request α} {Holds : Nat → α → Prop}

theorem Array.getElem?_modify_of_some {items : Array α} {index target : Nat} {item : α}
    {change : α → α} (present : items[index]? = some item) :
    (items.modify target change)[index]? = some (if target = index then change item else item) := by
  rw [Array.getElem?_modify, present]
  split <;> rfl

/-! ## Values that are valid -/

def Value.isAtom : Value → Bool
  | .object _ | .tuple _ => false
  | _ => true

/-- Which values may be passed around, once there are so many objects.  There are `least` objects
    from the beginning, and those made later may be. -/
structure Validity where
  Valid : (objects : Nat) → Value → Prop
  least : Nat
  mono : ∀ {few many : Nat} {value : Value}, few ≤ many → Valid few value → Valid many value
  object : ∀ {objects address : Nat}, least ≤ address → address < objects →
    Valid objects (.object address)
  tuple : ∀ {objects : Nat} {items : List Value},
    Valid objects (.tuple items) ↔ ∀ item ∈ items, Valid objects item
  atom : ∀ {objects : Nat} {value : Value}, value.isAtom = true → Valid objects value

namespace Validity

variable (validity : Validity)

/-- A machine stores valid values only. -/
structure Sound (machine : Machine) : Prop where
  begun : validity.least ≤ machine.objects.size
  objects : ∀ object ∈ machine.objects, ∀ field ∈ object.fields,
    validity.Valid machine.objects.size field.2
  sequences : ∀ list ∈ machine.sequences, ∀ item ∈ list.items,
    validity.Valid machine.objects.size item
  closures : ∀ closure ∈ machine.closures, validity.Valid machine.objects.size closure.frame.this
  scopes : ∀ entry ∈ machine.scopes, ∀ var ∈ entry.vars, validity.Valid machine.objects.size var.2
  statics : ∀ entry ∈ machine.statics, validity.Valid machine.objects.size entry.2

/-- What leaves a computation early carries a valid value. -/
def ValidExit (objects : Nat) : Exit → Prop
  | .ret value | .throw value => validity.Valid objects value
  | .breakLoop | .continueLoop | .fault _ => True

/-- A computation ended with a result of which something holds, or left early. -/
def Ends {α : Type} (Holds : Nat → α → Prop) (objects : Nat) : Except Exit α → Prop
  | .ok result => Holds objects result
  | .error reason => validity.ValidExit objects reason

structure After {α : Type} (Holds : Nat → α → Prop) (before : Machine)
    (ended : Except Exit α × Machine) : Prop where
  evolves : before.Evolves ended.2
  sound : validity.Sound ended.2
  ends : validity.Ends Holds ended.2.objects.size ended.1

end Validity

/-! ## What a sound machine holds -/

namespace Validity

variable {validity : Validity} {machine : Machine}

section

variable {objects : Nat} {κ : Type} {entries : List (κ × Value)}
  (valid : ∀ entry ∈ entries, validity.Valid objects entry.2)

include valid

theorem Valid.of_lookup [BEq κ] [LawfulBEq κ] {key : κ} {value : Value}
    (found : entries.lookup key = some value) : validity.Valid objects value := by
  obtain ⟨before, after, rfl, -⟩ := lookup_eq_some_iff.mp found
  exact valid (key, value) (mem_append_right _ (mem_cons_self ..))

theorem valid_assocSet [BEq κ] {key : κ} {value : Value} (isValid : validity.Valid objects value) :
    ∀ entry ∈ assocSet key value entries, validity.Valid objects entry.2 := by
  intro entry isIn
  rcases Veil.mem_assocSet isIn with rfl | isOld
  · exact isValid
  · exact valid entry isOld

end

namespace Sound

variable (sound : validity.Sound machine)

include sound

theorem fields (address : Nat) : ∀ field ∈ (machine.objects.getD address default).fields,
      validity.Valid machine.objects.size field.2 := by
  rw [Array.getD_eq_getD_getElem?]
  cases present : machine.objects[address]? with
  | none => exact forall_mem_nil _
  | some object => exact sound.objects object (Array.mem_of_getElem? present)

theorem items (address : Nat) : ∀ item ∈ (machine.sequences.getD address default).items,
      validity.Valid machine.objects.size item := by
  rw [Array.getD_eq_getD_getElem?]
  cases present : machine.sequences[address]? with
  | none => exact forall_mem_nil _
  | some list => exact sound.sequences list (Array.mem_of_getElem? present)

theorem vars (address : Nat) : ∀ var ∈ (machine.scopes.getD address default).vars,
      validity.Valid machine.objects.size var.2 := by
  rw [Array.getD_eq_getD_getElem?]
  cases present : machine.scopes[address]? with
  | none => exact forall_mem_nil _
  | some entry => exact sound.scopes entry (Array.mem_of_getElem? present)

theorem push_valid {other : Validity} {object : Object}
    (begun : other.least ≤ machine.objects.size + 1)
    (weaken : ∀ value, validity.Valid machine.objects.size value →
      other.Valid (machine.objects.size + 1) value)
    (valid : ∀ field ∈ object.fields, validity.Valid machine.objects.size field.2) :
    other.Sound { machine with objects := machine.objects.push object } := by
  have size : (machine.objects.push object).size = machine.objects.size + 1 := Array.size_push ..
  refine ⟨?_, ?_, ?_, ?_, ?_, ?_⟩ <;> dsimp only <;> rw [size]
  · exact begun
  · intro present isIn field isField
    rcases Array.mem_push.mp isIn with isOld | rfl
    · exact weaken _ (sound.objects present isOld field isField)
    · exact weaken _ (valid field isField)
  · exact fun list isIn item isItem => weaken _ (sound.sequences list isIn item isItem)
  · exact fun closure isIn => weaken _ (sound.closures closure isIn)
  · exact fun entry isIn var isVar => weaken _ (sound.scopes entry isIn var isVar)
  · exact fun entry isIn => weaken _ (sound.statics entry isIn)

theorem push_object {object : Object}
    (valid : ∀ field ∈ object.fields, validity.Valid machine.objects.size field.2) :
    validity.Sound { machine with objects := machine.objects.push object } :=
  sound.push_valid (Nat.le_succ_of_le sound.begun) (fun _ => validity.mono (Nat.le_succ _)) valid

end Sound

end Validity

theorem Array.mem_modify {items : Array α} {target : Nat} {change : α → α} {item : α}
    (isIn : item ∈ items.modify target change) :
    item ∈ items ∨ ∃ old ∈ items, item = change old := by
  obtain ⟨index, isThere⟩ := Array.getElem?_of_mem isIn
  rw [Array.getElem?_modify] at isThere
  split at isThere
  · obtain ⟨old, isOld, rfl⟩ := Option.map_eq_some_iff.mp isThere
    exact .inr ⟨old, Array.mem_of_getElem? isOld, rfl⟩
  · exact .inl (Array.mem_of_getElem? isThere)

/-! ## Sound machines in tandem with themselves -/

namespace Validity

variable {validity : Validity} {low now : Nat} {name : String} {value : Value} {address : Nat}

/-- A machine that is sound, and whose calls are between `low` and the greatest depth. -/
structure Stands (validity : Validity) (low : Nat) (machine other : Machine) : Prop where
  same : other = machine
  sound : validity.Sound machine
  deep : low ≤ machine.depth
  shallow : machine.depth ≤ Machine.maxDepth

/-- A run beside itself.  Objects are counted, since values are valid once theirs are made. -/
@[reducible]
def tandem (validity : Validity) (low : Nat) : Tandem where
  Couples := validity.Stands low
  Leads before after := before.1.Evolves after.1
  Time := Nat
  order := inferInstance
  time machines := machines.1.objects.size
  Holds := validity.Valid
  Sees _ _ scope other := other = scope
  Twins _ _ scope other := other = scope
  lags := none
  refl machines := .refl machines.1
  trans := .trans
  further := Machine.Evolves.size_objects
  mono := validity.mono
  sees_mono _ := id
  twins_mono _ := id
  sees := id

theorem sameEnd_self {result : Except Exit α} :
    (validity.tandem low).SameEnd (Same Holds) now result result ↔ validity.Ends Holds now result := by
  cases result with
  | ok => exact and_iff_right rfl
  | error reason => cases reason <;> exact and_iff_right rfl

theorem after_of_agree {Related : Nat → α → α → Prop} {action other : Eval α}
    (agree : (validity.tandem low).Agree now Related action other)
    (sound : validity.Sound machine) (enough : now ≤ machine.objects.size)
    (deep : low ≤ machine.depth) (shallow : machine.depth ≤ Machine.maxDepth) :
    (validity.tandem low).After Related (machine, machine) (action machine) (other machine) := by
  rcases agree machine machine ⟨rfl, sound, deep, shallow⟩ enough with starved | after
  · rcases starved with ⟨lags, -⟩ | ⟨lags, -⟩ <;> cases lags
  · exact after

theorem kept {action other : Eval α}
    (agree : (validity.tandem low).Agree now (Same Holds) action other)
    (sound : validity.Sound machine) (enough : now ≤ machine.objects.size)
    (deep : low ≤ machine.depth) (shallow : machine.depth ≤ Machine.maxDepth) :
    other machine = action machine ∧ validity.After Holds machine (action machine) := by
  have after := after_of_agree agree sound enough deep shallow
  have ends := after.ends
  have same := Tandem.SameEnd.eq ends
  rw [same] at ends
  exact ⟨Prod.ext same after.couples.same, after.leads, after.couples.sound, sameEnd_self.mp ends⟩

theorem agree_self {action : Eval α}
    (after : ∀ machine, validity.Sound machine → now ≤ machine.objects.size →
      validity.After Holds machine (action machine)) :
    (validity.tandem low).Agree now (Same Holds) action action := by
  intro machine same stands enough
  obtain rfl := stands.same
  obtain ⟨evolves, sound, ends⟩ := after _ stands.sound enough
  exact .inr ⟨⟨rfl, sound, stands.deep.trans_eq evolves.depth.symm,
    evolves.depth.trans_le stands.shallow⟩, evolves, sameEnd_self.mpr ends⟩

theorem modified_self {change : Machine → Machine}
    (evolves : ∀ machine : Machine, machine.Evolves (change machine))
    (sound : ∀ machine, validity.Sound machine → now ≤ machine.objects.size →
      validity.Sound (change machine)) :
    (validity.tandem low).Agree now (Same Anything) (modify change : Eval Unit) (modify change) :=
  agree_self fun machine isSound enough => ⟨evolves machine, sound machine isSound enough, trivial⟩

/-! ### Objects -/

theorem allocObject_self {className : String} {isStruct : Bool} {fields : List (String × Value)}
    (valid : ∀ field ∈ fields, validity.Valid now field.2) :
    (validity.tandem low).Agree now (Same validity.Valid)
      (Machine.allocObject className isStruct fields)
      (Machine.allocObject className isStruct fields) := by
  refine agree_self fun machine sound enough => ⟨{ Machine.Evolves.refl machine with objects := ?_ },
    sound.push_object fun field isField => validity.mono enough (valid field isField), ?_⟩
  · exact fun _ object present => ⟨object, Array.getElem?_push_of_some present, rfl, rfl⟩
  · refine validity.object sound.begun ?_
    change _ < (machine.objects.push _).size
    rw [Array.size_push]
    exact Nat.lt_succ_self _

theorem setField_self (valid : validity.Valid now value) :
    (validity.tandem low).Agree now (Same Anything) (Machine.setField address name value)
      (Machine.setField address name value) := by
  refine modified_self (fun machine => { Machine.Evolves.refl machine with objects := ?_ })
    fun machine sound enough => ?_
  · intro other object present
    refine ⟨_, Array.getElem?_modify_of_some present, ?_⟩
    split <;> exact ⟨rfl, rfl⟩
  · have size : (machine.objects.modify address fun object =>
        { object with fields := assocSet name value object.fields }).size = machine.objects.size :=
      Array.size_modify
    refine ⟨?_, fun object isIn => ?_, ?_, ?_, ?_, ?_⟩ <;> dsimp only <;> rw [size]
    · exact sound.begun
    · dsimp only at isIn
      rcases Array.mem_modify isIn with isOld | ⟨old, isOld, rfl⟩
      · exact sound.objects object isOld
      · exact valid_assocSet (sound.objects old isOld) (validity.mono enough valid)
    · exact sound.sequences
    · exact sound.closures
    · exact sound.scopes
    · exact sound.statics

/-! ### Sequences and functions -/

theorem allocSequence_self {isArray : Bool} {items : List Value}
    (valid : ∀ item ∈ items, validity.Valid now item) :
    (validity.tandem low).Agree now (Same validity.Valid) (Machine.allocSequence isArray items)
      (Machine.allocSequence isArray items) := by
  refine agree_self fun machine sound enough =>
    ⟨{ Machine.Evolves.refl machine with sequences := ?_ },
      { sound with sequences := fun list isIn item isItem => ?_ }, validity.atom rfl⟩
  · exact fun _ list present => ⟨list, Array.getElem?_push_of_some present, rfl⟩
  · rcases Array.mem_push.mp isIn with isOld | rfl
    · exact sound.sequences list isOld item isItem
    · exact validity.mono enough (valid item isItem)

theorem setItems_self {items : List Value} (valid : ∀ item ∈ items, validity.Valid now item) :
    (validity.tandem low).Agree now (Same Anything) (Machine.setItems address items)
      (Machine.setItems address items) := by
  refine modified_self (fun machine => { Machine.Evolves.refl machine with sequences := ?_ })
    fun machine sound enough => { sound with sequences := fun list isIn item isItem => ?_ }
  · intro other list present
    refine ⟨_, Array.getElem?_modify_of_some present, ?_⟩
    split <;> rfl
  · dsimp only at isIn
    rcases Array.mem_modify isIn with isOld | ⟨old, isOld, rfl⟩
    · exact sound.sequences list isOld item isItem
    · exact validity.mono enough (valid item isItem)

theorem allocClosure_self {closure : Closure} (valid : validity.Valid now closure.frame.this) :
    (validity.tandem low).Agree now (Same validity.Valid) (Machine.allocClosure closure)
      (Machine.allocClosure closure) := by
  refine agree_self fun machine sound enough =>
    ⟨{ Machine.Evolves.refl machine with closures := ?_ },
      { sound with closures := fun other isIn => ?_ }, validity.atom rfl⟩
  · exact fun _ _ present => Array.getElem?_push_of_some present
  · rcases Array.mem_push.mp isIn with isOld | rfl
    · exact sound.closures other isOld
    · exact validity.mono enough valid

/-! ### Scopes -/

theorem newScope_self {parent : Option Nat} :
    (validity.tandem low).Agree now (Same Anything) (Machine.newScope parent)
      (Machine.newScope parent) := by
  refine agree_self fun machine sound _ => ⟨{ Machine.Evolves.refl machine with scopes := ?_ },
    { sound with scopes := fun entry isIn => ?_ }, trivial⟩
  · exact fun _ entry present => ⟨entry, Array.getElem?_push_of_some present, rfl⟩
  · rcases Array.mem_push.mp isIn with isOld | rfl
    · exact sound.scopes entry isOld
    · exact forall_mem_nil _

theorem declareVar_self {scope : Nat} (valid : validity.Valid now value) :
    (validity.tandem low).Agree now (Same Anything) (Machine.declareVar scope name value)
      (Machine.declareVar scope name value) := by
  refine modified_self (fun machine => { Machine.Evolves.refl machine with scopes := ?_ })
    fun machine sound enough => { sound with scopes := fun entry isIn => ?_ }
  · intro other entry present
    refine ⟨_, Array.getElem?_modify_of_some present, ?_⟩
    split <;> rfl
  · dsimp only at isIn
    rcases Array.mem_modify isIn with isOld | ⟨old, isOld, rfl⟩
    · exact sound.scopes entry isOld
    · exact valid_assocSet (sound.scopes old isOld) (validity.mono enough valid)

theorem lookupVar_self {scope : Nat} {name : String} :
    (validity.tandem low).Agree now (Same (validity.tandem low).Finds)
      (Machine.lookupVar? scope name) (Machine.lookupVar? scope name) := by
  refine Tandem.Agree.get_bind fun machine same stands _ => ?_
  obtain rfl := stands.same
  dsimp only
  split
  · exact .pure fun _ _ => ⟨rfl, nofun⟩
  · next home _ =>
      exact .pure fun _ later => ⟨rfl, fun value found =>
        validity.mono later (Valid.of_lookup (stands.sound.vars home) found)⟩

theorem assignVar_self {scope : Nat} {name : String} (valid : validity.Valid now value) :
    (validity.tandem low).Agree now (Same Anything) (Machine.assignVar scope name value)
      (Machine.assignVar scope name value) := by
  refine Tandem.Agree.get_bind fun machine same stands enough => ?_
  obtain rfl := stands.same
  split
  · exact .done _
  · exact (declareVar_self (validity.mono enough valid)).andThen (.done _)

theorem twins_of_same {hidden : List String} {action other : Eval Nat}
    (agree : (validity.tandem low).Agree now (Same Anything) action other) :
    (validity.tandem low).Agree now ((validity.tandem low).Twins hidden) action other :=
  agree.mono fun _ _ _ related => related.1.symm

theorem sameClosure_self {closure : Closure} (valid : validity.Valid now closure.frame.this) :
    (validity.tandem low).SameClosure [] now closure closure :=
  ⟨rfl, rfl, rfl, rfl, valid, fun _ _ => not_mem_nil, fun _ _ => Node.Spares.nothing _⟩

instance lawful (validity : Validity) (low : Nat) : (validity.tandem low).Lawful where
  objects stands := congrArg Machine.objects stands.same
  sequences stands := congrArg Machine.sequences stands.same
  initialized stands := congrArg Machine.initialized stands.same
  plain {_ value} leadsNowhere := validity.atom (by cases value <;> first | rfl | cases leadsNowhere)
  tuple := validity.tuple
  object _ := agree_self fun machine sound _ => ⟨.refl machine, sound, sound.fields _⟩
  allocObject := allocObject_self
  setField _ := setField_self
  sequence _ := agree_self fun machine sound _ => ⟨.refl machine, sound, sound.items _⟩
  allocSequence := allocSequence_self
  setItems _ := setItems_self
  closures {_ machine address} stands _ := by
    obtain rfl := stands.same
    cases isThere : machine.closures[address]? with
    | none => exact .none
    | some closure =>
      exact .some ⟨[], sameClosure_self (stands.sound.closures closure (Array.mem_of_getElem? isThere))⟩
  allocClosure {_ _ closure other} same := by
    obtain ⟨params, body, scope, frame⟩ := other
    obtain rfl := same.params
    obtain rfl := same.body
    obtain rfl := same.frame
    obtain rfl := same.scope
    exact allocClosure_self same.this
  rootScope := twins_of_same newScope_self
  childScope sees := sees ▸ twins_of_same newScope_self
  lookupVar? _ sees := sees ▸ lookupVar_self
  declareVar _ valid twins := twins ▸ declareVar_self valid
  assignVar _ valid sees := sees ▸ assignVar_self valid
  static? _ _ := agree_self fun machine sound _ =>
    ⟨.refl machine, sound, fun _ found => Valid.of_lookup sound.statics found⟩
  setStatic _ _ valid := modified_self (fun machine => { Machine.Evolves.refl machine with })
    fun _ sound enough =>
      { sound with statics := valid_assocSet sound.statics (validity.mono enough valid) }
  begin _ := modified_self (fun machine => { Machine.Evolves.refl machine with })
    fun _ sound _ => { sound with }
  print _ := modified_self (fun machine => { Machine.Evolves.refl machine with })
    fun _ sound _ => { sound with }
  depth stands := congrArg Machine.depth stands.same
  time_depth _ _ _ _ := rfl
  enter stands room := by
    obtain rfl := stands.same
    exact ⟨rfl, { stands.sound with }, Nat.le_succ_of_le stands.deep, room⟩
  leave stands after evolves := by
    obtain rfl := stands.same
    obtain rfl := after.same
    have depth := congrArg (· - 1) evolves.depth
    exact ⟨⟨rfl, { after.sound with }, stands.deep.trans_eq depth.symm, depth.trans_le stands.shallow⟩,
      { evolves with depth }⟩

/-! ## Requests -/

theorem all_mono {more : Nat} {values : List Value} (le : objects ≤ more)
    (valid : ∀ value ∈ values, validity.Valid objects value) :
    ∀ value ∈ values, validity.Valid more value :=
  fun value isValue => validity.mono le (valid value isValue)

def Asks (validity : Validity) (objects : Nat) : {α : Type} → Request α → Prop
  | _, .eval _ _ frame | _, .exec _ _ frame | _, .loop _ _ _ _ frame =>
    validity.Valid objects frame.this
  | _, .store _ value _ frame => validity.Valid objects value ∧ validity.Valid objects frame.this
  | _, .invoke target _ args _ =>
    validity.Valid objects target ∧ ∀ arg ∈ args, validity.Valid objects arg
  | _, .apply _ args => ∀ arg ∈ args, validity.Valid objects arg
  | _, .display value => validity.Valid objects value
  | _, .construct _ object args =>
    validity.Valid objects object ∧ ∀ arg ∈ args, validity.Valid objects arg

theorem asks_mono {more : Nat} (le : objects ≤ more) (asks : validity.Asks objects request) :
    validity.Asks more request := by
  cases request with
  | eval | exec | loop | display => exact validity.mono le asks
  | store => exact ⟨validity.mono le asks.1, validity.mono le asks.2⟩
  | invoke | construct => exact ⟨validity.mono le asks.1, all_mono le asks.2⟩
  | apply => exact all_mono le asks

variable {recur other : Answer}

theorem agree_step (asks : validity.Asks now request) (program : Program)
    (answers : (validity.tandem low).Answers recur other) :
    (validity.tandem low).Agree now ((validity.tandem low).Yields request)
      (Eval.step program recur request) (Eval.step program other request) := by
  cases request with
  | eval => exact answers.evaluated (.nothing _) ⟨rfl, asks⟩
  | exec => exact answers.executed (.nothing _) ⟨rfl, asks⟩
  | loop =>
    exact answers.looped (fun _ _ => .nothing _) (fun _ _ => .nothing _) (.nothing _) ⟨rfl, asks⟩
  | store => exact answers.stored (.nothing _) asks.1 ⟨rfl, asks.2⟩
  | invoke => exact answers.invoked asks.1 asks.2
  | apply function =>
    cases function with
    | closure => exact answers.applyClosure (validity.atom rfl) asks
    | _ => exact .unsupported _
  | display => exact answers.displayed asks
  | construct => exact answers.runCtor asks.1 asks.2

theorem answers_run (validity : Validity) (low : Nat) (program : Program) (fuel : Nat) :
    (validity.tandem low).Answers (Eval.run program fuel) (Eval.run program fuel) :=
  Tandem.answers_run rfl

theorem Asks.of_alike {request same : Request α}
    (asks : (validity.tandem low).Asks now request same) :
    same = request ∧ validity.Asks now request := by
  cases asks with
  | eval _ reads =>
    obtain ⟨rfl, holds⟩ := reads
    exact ⟨rfl, holds⟩
  | store _ holdsValue reads =>
    obtain ⟨rfl, holds⟩ := reads
    exact ⟨rfl, holdsValue, holds⟩
  | exec _ writes | loop _ _ _ writes =>
    obtain ⟨rfl, holds⟩ := writes
    exact ⟨rfl, holds⟩
  | invoke holds holdsArgs | construct holds holdsArgs => exact ⟨rfl, holds, holdsArgs⟩
  | apply _ holdsArgs => exact ⟨rfl, holdsArgs⟩
  | display holds => exact ⟨rfl, holds⟩

theorem same_of_yields {result same : α}
    (yields : (validity.tandem low).Yields request now result same) :
    Same Anything now result same := by
  cases request with
  | invoke | apply =>
    obtain ⟨value, params⟩ := result
    obtain ⟨otherValue, otherParams⟩ := same
    obtain ⟨rfl, -, related⟩ := yields
    dsimp only at related
    rcases related with ⟨rfl, rfl⟩ | ⟨_, _, _, rfl, rfl, rfl⟩ <;> exact ⟨rfl, trivial⟩
  | _ => exact ⟨yields.1, trivial⟩

theorem agree_run (asks : validity.Asks now request) (program : Program) (fuel : Nat) :
    (validity.tandem low).Agree now (Same Anything) (Eval.run program fuel request)
      (Eval.run program fuel request) := by
  cases fuel with
  | zero => exact .fault _
  | succ fuel =>
    exact (agree_step asks program (validity.answers_run low program fuel)).mono fun _ _ _ => same_of_yields

end Validity

/-! ## Watching the requests of a run -/

namespace Eval

/-- Answer requests like `recur`, but raise an alarm unless the machines that one is asked on and
    answered with pass a check. -/
def watch (alarm : Exit) (check : (asked answered : Machine) → Bool) (recur : Answer) : Answer :=
  fun request machine =>
    let ended := recur request machine
    if check machine ended.2 then ended else (.error alarm, machine)

/-- Answer a request; what it asks for in turn is checked against the machine it was asked on. -/
def watchedRun (alarm : Exit) (check : (asking asked answered : Machine) → Bool)
    (program : Program) : (fuel : Nat) → {α : Type} → Request α → Eval α
  | 0, _, _ => fault .outOfFuel
  | fuel + 1, _, request => fun machine =>
    step program (watch alarm (check machine) (watchedRun alarm check program fuel)) request machine

variable {alarm : Exit} {check : (asking asked answered : Machine) → Bool} {program : Program}
  {fuel : Nat}

theorem watchedRun_eq (validity : Validity)
    (passes : ∀ asking asked answered : Machine, asking.depth ≤ asked.depth →
      asked.depth ≤ Machine.maxDepth → validity.Sound asked → validity.Sound answered →
        asked.Evolves answered → check asking asked answered = true)
    (asks : validity.Asks machine.objects.size request) (sound : validity.Sound machine)
    (shallow : machine.depth ≤ Machine.maxDepth) :
    watchedRun alarm check program fuel request machine = Eval.run program fuel request machine := by
  induction fuel generalizing α request machine with
  | zero => rfl
  | succ fuel ih =>
    have answers : (validity.tandem machine.depth).Answers (Eval.run program fuel)
        (watch alarm (check machine) (watchedRun alarm check program fuel)) := by
      intro β asked inner now alike state twin stands enough
      obtain ⟨rfl, asks⟩ := Validity.Asks.of_alike alike
      obtain rfl := stands.same
      have same : watchedRun alarm check program fuel inner twin = Eval.run program fuel inner twin :=
        ih (validity.asks_mono enough asks) stands.sound stands.shallow
      have kept := (validity.kept (validity.agree_run asks program fuel) stands.sound enough stands.deep
        stands.shallow).2
      have passed : watch alarm (check machine) (watchedRun alarm check program fuel) inner twin =
          Eval.run program fuel inner twin := by
        refine Eq.trans (if_pos ?_) same
        refine (congrArg (fun ended => check machine twin ended.2) same).trans ?_
        exact passes _ _ _ stands.deep stands.shallow stands.sound kept.sound kept.evolves
      dsimp only
      rw [passed]
      exact validity.answers_run machine.depth program fuel alike _ _ stands enough
    have agree := (validity.agree_step asks program answers).mono fun _ _ _ => Validity.same_of_yields
    exact (validity.kept agree sound (Nat.le_refl _) (Nat.le_refl _) shallow).1

end Eval

end Unsugar
