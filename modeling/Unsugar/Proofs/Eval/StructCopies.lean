import Unsugar.Proofs.Eval.Evolution

open List

namespace Unsugar

/-! # Structs that one place holds

Declaring a variable, passing an argument and assigning copy a struct before it is stored, so
the place it is stored in holds an object that was not there before.  As no machine that a run
reaches holds an object before it is made, no other place holds that one.
-/

/-! ## The objects in a value -/

variable {address index : Nat} {copy : Value} {args : List Value} {mark : Mark}

namespace Value

mutual

def Within (holds : Nat → Prop) : Value → Prop
  | .object address => holds address
  | .tuple items => AllWithin holds items
  | _ => True

def AllWithin (holds : Nat → Prop) : List Value → Prop
  | [] => True
  | value :: rest => Within holds value ∧ AllWithin holds rest

end

variable {holds weaker : Nat → Prop}

theorem allWithin_iff {values : List Value} :
    AllWithin holds values ↔ ∀ value ∈ values, Within holds value := by
  induction values with
  | nil => exact ⟨fun _ => nofun, fun _ => trivial⟩
  | cons value rest ih => rw [AllWithin, ih, forall_mem_cons]

mutual

theorem Within.mono (weaken : ∀ address, holds address → weaker address) :
    (value : Value) → value.Within holds → value.Within weaker
  | .object address, within => weaken address within
  | .tuple items, within => AllWithin.mono weaken items within
  | .null, _ | .int _, _ | .double _, _ | .bool _, _ | .char _, _ | .str _, _ | .list _, _
  | .closure _, _ | .type _, _ => trivial

theorem AllWithin.mono (weaken : ∀ address, holds address → weaker address) :
    (values : List Value) → AllWithin holds values → AllWithin weaker values
  | [], _ => trivial
  | value :: rest, within =>
    ⟨Within.mono weaken value within.1, AllWithin.mono weaken rest within.2⟩

end

end Value

namespace Validity

def within (holds : Nat → Prop) (least : Nat) (later : ∀ address, least ≤ address → holds address) :
    Validity where
  Valid objects value := value.Within fun address => address < objects ∧ holds address
  least := least
  mono le := Value.Within.mono (fun _ below => ⟨below.1.trans_le le, below.2⟩) _
  object enough below := ⟨below, later _ enough⟩
  tuple := Value.allWithin_iff
  atom {objects value} isAtom := by
    cases value with
    | object | tuple => cases isAtom
    | _ => trivial

/-- Values that lead to objects that have been made. -/
def made : Validity := within (fun _ => True) 0 fun _ _ => trivial

def without (address : Nat) : Validity :=
  within (· ≠ address) (address + 1) fun _ later => (Nat.lt_of_succ_le later).ne'

end Validity

def Machine.Closed (machine : Machine) : Prop := Validity.made.Sound machine

/-! ## Places -/

/-- Somewhere that a value is stored. -/
inductive Storage where
  | var (scope : Nat) (name : String)
  | field (object : Nat) (name : String)
  | static (typeName name : String)
  | slot (sequence index : Nat)

namespace Storage

def value? (machine : Machine) : Storage → Option Value
  | .var scope name => machine.scopes[scope]?.bind fun entry => entry.vars.lookup name
  | .field address name => machine.objects[address]?.bind fun object => object.fields.lookup name
  | .static typeName name => machine.statics.lookup (typeName, name)
  | .slot address index => machine.sequences[address]?.bind fun list => list.items[index]?

def put (value : Value) (machine : Machine) : Storage → Machine
  | .var scope name =>
    { machine with
      scopes := machine.scopes.modify scope fun entry =>
        { entry with vars := assocSet name value entry.vars } }
  | .field address name =>
    { machine with
      objects := machine.objects.modify address fun object =>
        { object with fields := assocSet name value object.fields } }
  | .static typeName name =>
    { machine with statics := assocSet (typeName, name) value machine.statics }
  | .slot address index =>
    { machine with
      sequences := machine.sequences.modify address fun list =>
        { list with items := list.items.set index value } }

variable {machine : Machine} {place other : Storage} {stored value : Value}

theorem eq_of_value?_put (held : place.value? (place.put stored machine) = some value) :
    value = stored := by
  cases place with
  | var scope name =>
    simp only [value?, put, Array.getElem?_modify, if_pos] at held
    obtain ⟨entry, isThere, isHeld⟩ := Option.bind_eq_some_iff.mp held
    obtain ⟨old, -, rfl⟩ := Option.map_eq_some_iff.mp isThere
    rw [lookup_assocSet, if_pos rfl] at isHeld
    exact (Option.some.inj isHeld).symm
  | field address name =>
    simp only [value?, put, Array.getElem?_modify, if_pos] at held
    obtain ⟨object, isThere, isHeld⟩ := Option.bind_eq_some_iff.mp held
    obtain ⟨old, -, rfl⟩ := Option.map_eq_some_iff.mp isThere
    rw [lookup_assocSet, if_pos rfl] at isHeld
    exact (Option.some.inj isHeld).symm
  | static typeName name =>
    rw [value?, put, lookup_assocSet, if_pos rfl] at held
    exact (Option.some.inj held).symm
  | slot address index =>
    simp only [value?, put, Array.getElem?_modify, if_pos] at held
    obtain ⟨list, isThere, isHeld⟩ := Option.bind_eq_some_iff.mp held
    obtain ⟨old, -, rfl⟩ := Option.map_eq_some_iff.mp isThere
    dsimp only at isHeld
    rw [getElem?_set_self' ] at isHeld
    obtain ⟨_, -, rfl⟩ := Option.map_eq_some_iff.mp isHeld
    rfl

theorem value?_put_of_ne (differs : other ≠ place) :
    other.value? (place.put stored machine) = other.value? machine := by
  cases place <;> cases other <;> try rfl
  · next scope name inner own =>
      simp only [value?, put, Array.getElem?_modify]
      split
      · next same =>
          subst same
          have differs : own ≠ name := fun same => differs (same ▸ rfl)
          cases machine.scopes[scope]? with
          | none => rfl
          | some entry => exact (lookup_assocSet ..).trans (if_neg differs)
      · rfl
  · next address name inner own =>
      simp only [value?, put, Array.getElem?_modify]
      split
      · next same =>
          subst same
          have differs : own ≠ name := fun same => differs (same ▸ rfl)
          cases machine.objects[address]? with
          | none => rfl
          | some object => exact (lookup_assocSet ..).trans (if_neg differs)
      · rfl
  · next typeName name inner own =>
      have differs : (inner, own) ≠ (typeName, name) := fun same => differs (by cases same; rfl)
      exact (lookup_assocSet ..).trans (if_neg differs)
  · next address index inner own =>
      simp only [value?, put, Array.getElem?_modify]
      split
      · next same =>
          subst same
          have differs : index ≠ own := fun same => differs (same ▸ rfl)
          cases machine.sequences[address]? with
          | none => rfl
          | some list => exact getElem?_set_ne differs
      · rfl

theorem value?_put_slot (inside : index < (machine.sequences.getD address default).items.length) :
    (Storage.slot address index).value? ((Storage.slot address index).put stored machine) =
      some stored := by
  rw [Array.getD_eq_getD_getElem?] at inside
  simp only [value?, put, Array.getElem?_modify, if_pos]
  cases isThere : machine.sequences[address]? with
  | none =>
    rw [isThere] at inside
    exact absurd inside (Nat.not_lt_zero _)
  | some list =>
    rw [isThere] at inside
    exact getElem?_set_self inside

theorem isStruct_put : ((place.put stored machine).objects.getD address default).isStruct =
      (machine.objects.getD address default).isStruct := by
  cases place with
  | field target name =>
    rw [Array.getD_eq_getD_getElem?, Array.getD_eq_getD_getElem?]
    simp only [put, Array.getElem?_modify]
    split
    · cases machine.objects[address]? <;> rfl
    · rfl
  | _ => rfl

end Storage

theorem Validity.Sound.place {validity : Validity} {machine : Machine} {place : Storage} {value : Value}
    (sound : validity.Sound machine) (held : place.value? machine = some value) :
    validity.Valid machine.objects.size value := by
  cases place with
  | var scope name =>
    obtain ⟨entry, isThere, isHeld⟩ := Option.bind_eq_some_iff.mp held
    exact Validity.Valid.of_lookup (sound.scopes entry (Array.mem_of_getElem? isThere)) isHeld
  | field address name =>
    obtain ⟨object, isThere, isHeld⟩ := Option.bind_eq_some_iff.mp held
    exact Validity.Valid.of_lookup (sound.objects object (Array.mem_of_getElem? isThere)) isHeld
  | static typeName name => exact Validity.Valid.of_lookup sound.statics held
  | slot address index =>
    obtain ⟨list, isThere, isHeld⟩ := Option.bind_eq_some_iff.mp held
    exact sound.sequences list (Array.mem_of_getElem? isThere) _ (mem_of_getElem? isHeld)

/-! ## Structs that one place holds -/

namespace Machine

def HoldsAlone (machine : Machine) (place : Storage) : Prop :=
  ∀ address, place.value? machine = some (.object address) →
    (machine.objects.getD address default).isStruct = true →
      ∀ other value, other ≠ place → other.value? machine = some value → value.Within (· ≠ address)

def Unheld (machine : Machine) (value : Value) : Prop :=
  ∀ address, value = .object address → (machine.objects.getD address default).isStruct = true →
    (Validity.without address).Sound machine

variable {machine : Machine} {value : Value}

theorem Unheld.put (unheld : machine.Unheld value) (place : Storage) :
    (place.put value machine).HoldsAlone place := by
  intro address held isStruct other found differs isFound
  have isCopy := Storage.eq_of_value?_put held
  rw [Storage.isStruct_put] at isStruct
  rw [Storage.value?_put_of_ne differs] at isFound
  exact Value.Within.mono (fun _ within => within.2) _
    ((unheld address isCopy.symm isStruct).place isFound)

theorem HoldsAlone.write {place other : Storage} {inner : Nat} (alone : machine.HoldsAlone place)
    (held : place.value? machine = some (.object address))
    (isStruct : (machine.objects.getD address default).isStruct = true) (differs : other ≠ place)
    (isOther : other.value? machine = some (.object inner)) (name : String) (written : Value) :
    (Machine.setField address name written machine).2.objects[inner]? = machine.objects[inner]? := by
  have apart : inner ≠ address := alone address held isStruct other _ differs isOther
  change (machine.objects.modify address _)[inner]? = _
  rw [Array.getElem?_modify, if_neg apart.symm]

theorem copyStruct_cases (value : Value) (machine : Machine) : (∃ address, value = .object address ∧
      (machine.objects.getD address default).isStruct = true ∧
      copyStruct value machine = (.ok (.object machine.objects.size), { machine with
          objects := machine.objects.push
            { machine.objects.getD address default with isStruct := true } })) ∨
      (copyStruct value machine = (.ok value, machine) ∧ ∀ address, value = .object address →
        (machine.objects.getD address default).isStruct = false) := by
  cases value with
  | object address =>
    cases isStruct : (machine.objects.getD address default).isStruct with
    | true =>
      refine .inl ⟨address, rfl, isStruct, ?_⟩
      change (if _ then _ else _ : Eval Value) machine = _
      rw [if_pos isStruct]
      rfl
    | false =>
      refine .inr ⟨?_, fun other same => ?_⟩
      · change (if _ then _ else _ : Eval Value) machine = _
        rw [if_neg (by rw [isStruct]; exact Bool.false_ne_true)]
        rfl
      · cases same
        exact isStruct
  | _ => exact .inr ⟨rfl, nofun⟩

theorem copied_struct {after : Machine}
    (copied : copyStruct value machine = (.ok (.object address), after))
    (isStruct : (after.objects.getD address default).isStruct = true) :
    address = machine.objects.size ∧ ∃ original, after = { machine with
      objects := machine.objects.push
        { machine.objects.getD original default with isStruct := true } } := by
  rcases copyStruct_cases value machine with ⟨original, -, -, ran⟩ | ⟨ran, notStruct⟩
  · obtain ⟨same, isAfter⟩ := Prod.mk.inj (copied.symm.trans ran)
    cases same
    exact ⟨rfl, original, isAfter⟩
  · obtain ⟨same, rfl⟩ := Prod.mk.inj (copied.symm.trans ran)
    cases same
    rw [notStruct address rfl] at isStruct
    cases isStruct

theorem copyStruct_ok (value : Value) (machine : Machine) :
    ∃ copy after, copyStruct value machine = (.ok copy, after) ∧ after.scopes = machine.scopes := by
  rcases copyStruct_cases value machine with ⟨_, -, -, ran⟩ | ⟨ran, -⟩ <;> exact ⟨_, _, ran, rfl⟩

theorem unheld_copy {after : Machine} (closed : machine.Closed)
    (copied : copyStruct value machine = (.ok copy, after)) : after.Unheld copy := by
  intro address isCopy isStruct
  subst isCopy
  obtain ⟨rfl, original, rfl⟩ := copied_struct copied isStruct
  refine closed.push_valid (Nat.le_refl _)
    (fun _ within => Value.Within.mono (fun other below => ?_) _ within) (closed.fields original)
  exact ⟨Nat.lt_succ_of_lt below.1, below.1.ne⟩

theorem unheld_after {middle : Machine} {α : Type}
    (Holds : Validity → Nat → α → Prop) {carried : Value} {action : Eval α} (closed : machine.Closed)
    (shallow : machine.depth ≤ maxDepth)
    (valid : Validity.made.Valid machine.objects.size value)
    (wasCarried : Validity.made.Valid machine.objects.size carried)
    (copied : copyStruct value machine = (.ok copy, middle))
    (keeps : ∀ (validity : Validity) (objects : Nat), validity.Valid objects carried →
      (validity.tandem 0).Agree objects (Same (Holds validity)) action action) :
    (action middle).2.Unheld copy := by
  intro address isCopy isStruct
  have copies : (Validity.made.tandem 0).Agree _ _ (copyStruct value) _ := .copyStruct valid
  obtain ⟨-, after⟩ := Validity.kept copies closed (Nat.le_refl _) (Nat.zero_le _) shallow
  rw [copied] at after
  have shallow : middle.depth ≤ maxDepth := after.evolves.depth.trans_le shallow
  have validCarried := Validity.made.mono after.evolves.size_objects wasCarried
  obtain ⟨-, last⟩ := Validity.kept (keeps .made _ validCarried) after.sound (Nat.le_refl _)
    (Nat.zero_le _) shallow
  -- the copy is a struct already when it is made
  subst isCopy
  have inside : address < middle.objects.size := after.ends.1
  obtain ⟨later, isLater, -, sameSort⟩ :=
    last.evolves.objects address _ (Array.getElem?_eq_getElem inside)
  have wasStruct : (middle.objects.getD address default).isStruct = true := by
    rw [Array.getD_eq_getD_getElem?, isLater] at isStruct
    rw [Array.getD_eq_getD_getElem?, Array.getElem?_eq_getElem inside]
    exact sameSort.symm.trans isStruct
  have unheld := unheld_copy closed copied address rfl wasStruct
  obtain ⟨rfl, -, -⟩ := copied_struct copied wasStruct
  refine (Validity.kept (keeps (.without machine.objects.size) middle.objects.size ?_) unheld
    (Nat.le_refl _) (Nat.zero_le _) shallow).2.sound
  exact Value.Within.mono (fun other below => ⟨below.1.trans inside, below.1.ne⟩) _ wasCarried

end Machine

/-! ## Stores that copy -/

namespace Eval

theorem of_bind_ok {α β : Type} {action : Eval α} {next : α → Eval β} {before after : Machine}
    {result : β} (ran : (action >>= next) before = (.ok result, after)) :
    ∃ value middle, action before = (.ok value, middle) ∧ next value middle = (.ok result, after) := by
  cases first : action before with
  | mk outcome middle =>
    cases outcome with
    | ok value => exact ⟨value, middle, rfl, (bind_ok first).symm.trans ran⟩
    | error reason =>
      rw [bind_error first] at ran
      cases (Prod.mk.inj ran).1

def declareCopy (scope : Nat) (name : String) (value : Value) : Eval Unit := do
  Machine.declareVar scope name (← Machine.copyStruct value)

variable {program : Program} {fuel : Nat} {machine after : Machine} {value : Value} {scope : Nat}
  {frame : Frame}

theorem declareCopy_alone (closed : machine.Closed) {name : String} :
    (declareCopy scope name value machine).2.HoldsAlone (.var scope name) := by
  obtain ⟨copy, middle, copied, -⟩ := Machine.copyStruct_ok value machine
  unfold declareCopy
  rw [bind_ok copied]
  exact (Machine.unheld_copy closed copied).put (.var scope name)

theorem closed_after {objects : Nat} {α : Type} {Holds : Nat → α → Prop} {action : Eval α}
    {result : Except Exit α}
    (keeps : (Validity.made.tandem 0).Agree objects (Same Holds) action action)
    (closed : machine.Closed) (enough : objects ≤ machine.objects.size)
    (shallow : machine.depth ≤ Machine.maxDepth) (ran : action machine = (result, after)) :
    after.Closed ∧ after.depth ≤ Machine.maxDepth ∧ machine.objects.size ≤ after.objects.size ∧
      Validity.made.Ends Holds after.objects.size result := by
  obtain ⟨-, kept⟩ := Validity.kept keeps closed enough (Nat.zero_le _) shallow
  rw [ran] at kept
  exact ⟨kept.sound, kept.evolves.depth.trans_le shallow, kept.evolves.size_objects, kept.ends⟩

variable {name : String}

section

variable (closed : machine.Closed)

include closed

theorem declareLocal_alone {type : TypeSyntax} {init : Option Expr}
    (shallow : machine.depth ≤ Machine.maxDepth)
    (valid : Validity.made.Valid machine.objects.size frame.this)
    (ran : declareLocal program (Eval.run program fuel) type name init scope frame machine =
      (.ok (), after)) : after.HoldsAlone (.var scope name) := by
  have answers := Validity.made.answers_run 0 program fuel
  have ending {before : Machine} {value : Value} (closed : before.Closed)
      (ran : declareCopy scope name value before = (.ok (), after)) :
      after.HoldsAlone (.var scope name) := by
    have alone : (declareCopy scope name value before).2.HoldsAlone (.var scope name) :=
      declareCopy_alone closed
    rw [ran] at alone
    exact alone
  cases init with
  | none =>
    obtain ⟨value, middle, isDefault, isLast⟩ := of_bind_ok ran
    have kept := closed_after (.defaultOf type) closed (Nat.zero_le _) shallow isDefault
    exact ending kept.1 isLast
  | some init =>
    obtain ⟨value, middle, evaluated, isLast⟩ := of_bind_ok ran
    have kept := closed_after (answers.eval (.nothing _) ⟨rfl, valid⟩) closed (Nat.le_refl _)
      shallow evaluated
    exact ending kept.1 isLast

theorem bindParamsIn_alone {params : List Param} {param : Param}
    (shallow : machine.depth ≤ Machine.maxDepth)
    (valid : Validity.made.Valid machine.objects.size frame.this)
    (validArgs : ∀ arg ∈ args, Validity.made.Valid machine.objects.size arg)
    (ran : bindParamsIn program (Eval.run program fuel) frame scope (params ++ [param]) args machine =
      (.ok (), after)) : after.HoldsAlone (.var scope param.name) := by
  have answers := Validity.made.answers_run 0 program fuel
  induction params generalizing args machine with
  | nil =>
    obtain ⟨⟨value, rest⟩, middle, bound, isDeclared⟩ := of_bind_ok ran
    have kept := closed_after (answers.bindParam ⟨rfl, valid⟩ validArgs) closed (Nat.le_refl _) shallow bound
    obtain ⟨copy, last, copied, isDeclared⟩ := of_bind_ok isDeclared
    have alone := (Machine.unheld_copy kept.1 copied).put (.var scope param.name)
    cases isDeclared
    exact alone
  | cons first others ih =>
    obtain ⟨⟨value, rest⟩, middle, bound, isRest⟩ := of_bind_ok ran
    obtain ⟨closed, shallow, le, validValue, validRest⟩ :=
      closed_after (answers.bindParam ⟨rfl, valid⟩ validArgs) closed (Nat.le_refl _) shallow bound
    obtain ⟨copy, copying, copied, isRest⟩ := of_bind_ok isRest
    obtain ⟨closed, shallow, further, validCopy⟩ :=
      closed_after (.copyStruct validValue) closed (Nat.le_refl _) shallow copied
    obtain ⟨_, declaring, isDeclared, isRest⟩ := of_bind_ok isRest
    obtain ⟨closed, shallow, beyond, -⟩ :=
      closed_after (Validity.declareVar_self validCopy) closed (Nat.le_refl _) shallow isDeclared
    have grown := further.trans beyond
    exact ih closed shallow (Validity.made.mono (le.trans grown) valid)
      (Validity.all_mono grown validRest) isRest

theorem declareArgs_alone {names : List String} {arg : Value}
    (shallow : machine.depth ≤ Machine.maxDepth)
    (validArgs : ∀ value ∈ args, Validity.made.Valid machine.objects.size value)
    (sameLength : names.length = args.length)
    (ran : declareArgs scope (names ++ [name]) (args ++ [arg]) machine = (.ok (), after)) :
    after.HoldsAlone (.var scope name) := by
  induction names generalizing args machine with
  | nil =>
    obtain rfl := length_eq_zero_iff.mp sameLength.symm
    obtain ⟨copy, last, copied, isDeclared⟩ := of_bind_ok ran
    have alone := (Machine.unheld_copy closed copied).put (.var scope name)
    cases isDeclared
    exact alone
  | cons first others ih =>
    cases args with
    | nil => cases sameLength
    | cons value rest =>
      obtain ⟨validValue, validRest⟩ := forall_mem_cons.mp validArgs
      obtain ⟨copy, copying, copied, isRest⟩ := of_bind_ok ran
      obtain ⟨closed, shallow, le, validCopy⟩ :=
        closed_after (.copyStruct validValue) closed (Nat.le_refl _) shallow copied
      obtain ⟨_, declaring, isDeclared, isRest⟩ := of_bind_ok isRest
      obtain ⟨closed, shallow, further, -⟩ :=
        closed_after (Validity.declareVar_self validCopy) closed (Nat.le_refl _) shallow isDeclared
      exact ih closed shallow (Validity.all_mono (le.trans further) validRest)
        (Nat.succ.inj sameLength) isRest

theorem storeVar_alone {home : Nat}
    (isHome : Machine.findScope? machine.scopes name (scope + 1) scope = some home) :
    (store program (Eval.run program fuel) ⟨mark, .ident name⟩ value scope frame machine).2.HoldsAlone
      (.var home name) := by
  obtain ⟨copy, middle, copied, sameScopes⟩ := Machine.copyStruct_ok value machine
  have stored : store program (Eval.run program fuel) ⟨mark, .ident name⟩ value scope frame machine =
      storeName program (Eval.run program fuel) name copy scope frame middle := bind_ok copied
  have assigned : Machine.assignVar scope name copy middle =
      (.ok true, (Storage.var home name).put copy middle) := by
    have isMiddle : (get : Eval Machine) middle = (.ok middle, middle) := rfl
    unfold Machine.assignVar
    rw [bind_ok isMiddle, sameScopes, isHome]
    rfl
  rw [stored, storeName, bind_ok assigned]
  exact (Machine.unheld_copy closed copied).put (.var home name)

omit closed in
theorem object_copied {middle : Machine} (inside : address < machine.objects.size)
    (copied : Machine.copyStruct value machine = (.ok copy, middle)) :
    ∃ object, Machine.object address middle = (.ok object, middle) ∧
      object.className = (machine.objects.getD address default).className := by
  refine ⟨middle.objects.getD address default, rfl, ?_⟩
  rcases Machine.copyStruct_cases value machine with ⟨_, -, -, ran⟩ | ⟨ran, -⟩
  · obtain ⟨-, rfl⟩ := Prod.mk.inj (copied.symm.trans ran)
    have isOld := Array.getElem?_eq_getElem inside
    rw [Array.getD_eq_getD_getElem?, Array.getElem?_push_of_some isOld]
    rw [Array.getD_eq_getD_getElem?, isOld]
  · obtain ⟨-, rfl⟩ := Prod.mk.inj (copied.symm.trans ran)
    rfl

theorem setField_alone (inside : address < machine.objects.size)
    (noSetter : program.findSetter? (machine.objects.getD address default).className name = none) :
    (setMember program (Eval.run program fuel) (.object address) name value machine).2.HoldsAlone
      (.field address name) := by
  obtain ⟨copy, middle, copied, -⟩ := Machine.copyStruct_ok value machine
  obtain ⟨object, isObject, sameClass⟩ := object_copied inside copied
  unfold setMember
  rw [bind_ok copied]
  dsimp only
  rw [bind_ok isObject, sameClass, noSetter]
  exact (Machine.unheld_copy closed copied).put (.field address name)

theorem setProperty_alone {code : Code} (inside : address < machine.objects.size)
    (shallow : machine.depth ≤ Machine.maxDepth)
    (valid : Validity.made.Valid machine.objects.size value)
    (isSetter : program.findSetter? (machine.objects.getD address default).className name =
      some code) :
    ∃ scope start, setMember program (Eval.run program fuel) (.object address) name value machine =
        (runBody (Eval.run program fuel) code (.object address) scope >>= fun _ => pure ()) start ∧
      start.HoldsAlone (.var scope "value") := by
  obtain ⟨copy, middle, copied, -⟩ := Machine.copyStruct_ok value machine
  have unheld : (Machine.rootScope middle).2.Unheld copy :=
    Machine.unheld_after (fun _ => Anything) closed shallow valid valid copied fun _ _ _ =>
      Validity.newScope_self
  refine ⟨middle.scopes.size, _, ?_, unheld.put (.var middle.scopes.size "value")⟩
  obtain ⟨object, isObject, sameClass⟩ := object_copied inside copied
  unfold setMember
  rw [bind_ok copied]
  dsimp only
  rw [bind_ok isObject, sameClass, isSetter]
  rfl

/-- A static field that is written holds its value alone, though its class may be initialized
    after the value is copied. -/
theorem setStatic_alone {className : String} (shallow : machine.depth ≤ Machine.maxDepth)
    (valid : Validity.made.Valid machine.objects.size value)
    (ran : setMember program (Eval.run program fuel) (.type className) name value machine =
      (.ok (), after)) : after.HoldsAlone (.static className name) := by
  obtain ⟨copy, middle, copied, isRest⟩ := of_bind_ok ran
  obtain ⟨_, last, initialized, isLast⟩ := of_bind_ok isRest
  have unheld : (ensureStatics program (Eval.run program fuel) className middle).2.Unheld copy :=
    Machine.unheld_after (fun _ => Anything) closed shallow valid valid copied fun validity _ _ =>
      (validity.answers_run 0 program fuel).ensureStatics className
  rw [initialized] at unheld
  have alone := unheld.put (.static className name)
  cases isLast
  exact alone

end

theorem setItems_set {value : Value} {machine : Machine} :
    Machine.setItems address ((machine.sequences.getD address default).items.set index value) machine =
      (.ok (), (Storage.slot address index).put value machine) := by
  refine congrArg (fun sequences => (Except.ok (), { machine with sequences })) ?_
  refine Array.ext_getElem? fun other => ?_
  rw [Array.getElem?_modify, Array.getElem?_modify]
  split
  · next same =>
      subst same
      rw [Array.getD_eq_getD_getElem?]
      cases machine.sequences[address]? <;> rfl
  · rfl

theorem position?_lt {index : Int} {size position : Nat} (found : position? index size = some position) :
    position < size := by
  unfold position? at found
  split at found
  · next within =>
      cases found
      exact within.2
  · cases found

/-- An element that is assigned is held alone by its slot, though the sequence and the index are
    evaluated after the value is copied. -/
theorem storeIndex_alone {receiver : Expr} {args : List Expr}
    (closed : machine.Closed) (shallow : machine.depth ≤ Machine.maxDepth)
    (valid : Validity.made.Valid machine.objects.size value)
    (validThis : Validity.made.Valid machine.objects.size frame.this)
    (ran : store program (Eval.run program fuel) ⟨mark, .index receiver args⟩ value scope frame
      machine = (.ok (), after)) :
    ∃ address index, after.HoldsAlone (.slot address index) ∧
      (Storage.slot address index).value? after = (Machine.copyStruct value machine).1.toOption := by
  obtain ⟨copy, middle, copied, isRest⟩ := of_bind_ok ran
  let operands : Eval (Value × List Value) := do
    let receiver ← Eval.run program fuel (.eval receiver scope frame)
    let args ← evalAll (Eval.run program fuel) args scope frame
    return (receiver, args)
  have isRest : (operands >>= fun operands => storeIndex operands.1 operands.2 copy) middle =
      (.ok (), after) := by
    simpa only [operands, bind_assoc, pure_bind] using isRest
  obtain ⟨⟨target, indices⟩, last, evaluated, isStored⟩ := of_bind_ok isRest
  have unheld : (operands middle).2.Unheld copy := by
    refine Machine.unheld_after (fun _ => Anything) closed shallow valid validThis copied
      fun validity objects validThis => ?_
    have answers := validity.answers_run 0 program fuel
    exact (answers.eval (.nothing _) ⟨rfl, validThis⟩).bind_same fun _ _ le _ =>
      (answers.evalAll (fun _ _ => .nothing _) ⟨rfl, validity.mono le validThis⟩).bind_same
        fun _ _ _ _ => .done _
  rw [evaluated] at unheld
  change storeIndex target indices copy last = (.ok (), after) at isStored
  unfold storeIndex at isStored
  split at isStored
  · next address index =>
      have isSequence : Machine.sequence address last =
          (.ok (last.sequences.getD address default), last) := rfl
      rw [bind_ok isSequence] at isStored
      cases isPosition : position? index (last.sequences.getD address default).items.length with
      | none =>
        rw [isPosition] at isStored
        cases (Prod.mk.inj isStored).1
      | some position =>
        rw [isPosition] at isStored
        obtain ⟨-, rfl⟩ := Prod.mk.inj (setItems_set.symm.trans isStored)
        refine ⟨address, position, unheld.put _, ?_⟩
        rw [copied]
        exact Storage.value?_put_slot (position?_lt isPosition)
  · cases (Prod.mk.inj isStored).1

/-- The stores of a machine that leave a struct held by one place. -/
structure StoresAlone (program : Program) (recur : Answer) (machine : Machine) : Prop where
  locals : ∀ {type name init scope} {frame : Frame} {after : Machine},
    Validity.made.Valid machine.objects.size frame.this →
      declareLocal program recur type name init scope frame machine = (.ok (), after) →
        after.HoldsAlone (.var scope name)
  params : ∀ {params args scope} {param : Param} {frame : Frame} {after : Machine},
    Validity.made.Valid machine.objects.size frame.this →
      (∀ arg ∈ args, Validity.made.Valid machine.objects.size arg) →
        bindParamsIn program recur frame scope (params ++ [param]) args machine = (.ok (), after) →
          after.HoldsAlone (.var scope param.name)
  args : ∀ {names name args arg scope} {after : Machine},
    (∀ value ∈ args, Validity.made.Valid machine.objects.size value) → names.length = args.length →
      declareArgs scope (names ++ [name]) (args ++ [arg]) machine = (.ok (), after) →
        after.HoldsAlone (.var scope name)
  assigned : ∀ {mark name value scope home} {frame : Frame},
    Machine.findScope? machine.scopes name (scope + 1) scope = some home →
      (store program recur ⟨mark, .ident name⟩ value scope frame machine).2.HoldsAlone (.var home name)
  fields : ∀ {address name value}, address < machine.objects.size →
    program.findSetter? (machine.objects.getD address default).className name = none →
      (setMember program recur (.object address) name value machine).2.HoldsAlone (.field address name)
  /-- The setter of a property runs with the copy in a variable. -/
  setters : ∀ {address name value} {code : Code}, address < machine.objects.size →
    Validity.made.Valid machine.objects.size value →
      program.findSetter? (machine.objects.getD address default).className name = some code →
        ∃ scope start, setMember program recur (.object address) name value machine =
            (runBody recur code (.object address) scope >>= fun _ => pure ()) start ∧
          start.HoldsAlone (.var scope "value")
  statics : ∀ {className name value} {after : Machine},
    Validity.made.Valid machine.objects.size value →
      setMember program recur (.type className) name value machine = (.ok (), after) →
        after.HoldsAlone (.static className name)
  elements : ∀ {mark receiver args value scope} {frame : Frame} {after : Machine},
    Validity.made.Valid machine.objects.size value →
      Validity.made.Valid machine.objects.size frame.this →
        store program recur ⟨mark, .index receiver args⟩ value scope frame machine = (.ok (), after) →
          ∃ address index, after.HoldsAlone (.slot address index) ∧
            (Storage.slot address index).value? after = (Machine.copyStruct value machine).1.toOption

end Eval

/-- No machine that a run goes through holds an object that is not there.  On any such machine the
    stores that copy leave a struct held by one place, and what is then written through that place
    changes nothing that another place leads to. -/
theorem stored_struct_alone (program : Program) (fuel : Nat) :
    (∀ (alarm : Exit) (check : (asking asked answered : Machine) → Bool),
      (∀ asking asked answered : Machine, asked.Closed → answered.Closed →
        check asking asked answered = true) →
      ∀ {α : Type} (request : Request α) (machine : Machine), machine.Closed →
        machine.depth ≤ Machine.maxDepth → Validity.made.Asks machine.objects.size request →
          (Eval.run program fuel request machine).2.Closed ∧
            Eval.watchedRun alarm check program fuel request machine =
              Eval.run program fuel request machine) ∧
      (∀ machine : Machine, machine.Closed → machine.depth ≤ Machine.maxDepth →
        Eval.StoresAlone program (Eval.run program fuel) machine) ∧
      ∀ (machine : Machine) (place other : Storage) (address inner : Nat),
        machine.HoldsAlone place → place.value? machine = some (.object address) →
          (machine.objects.getD address default).isStruct = true → other ≠ place →
            other.value? machine = some (.object inner) → ∀ name written,
              (Machine.setField address name written machine).2.objects[inner]? =
                machine.objects[inner]? := by
  refine ⟨fun alarm check passes α request machine closed shallow asks => ⟨?_, ?_⟩,
    fun machine closed shallow => ?_, fun machine place other address inner alone held isStruct
      differs isOther => alone.write held isStruct differs isOther⟩
  · exact (Validity.kept (Validity.agree_run asks program fuel) closed (Nat.le_refl _)
      (Nat.zero_le _) shallow).2.sound
  · exact Eval.watchedRun_eq .made (fun asking asked answered _ _ isClosed closedAfter _ =>
      passes asking asked answered isClosed closedAfter) asks closed shallow
  · exact {
      locals := Eval.declareLocal_alone closed shallow
      params := Eval.bindParamsIn_alone closed shallow
      args := Eval.declareArgs_alone closed shallow
      assigned := Eval.storeVar_alone closed
      fields := Eval.setField_alone closed
      setters := fun inside => Eval.setProperty_alone closed inside shallow
      statics := Eval.setStatic_alone closed shallow
      elements := Eval.storeIndex_alone closed shallow }

def structInVariable : Machine where
  objects := #[⟨"S", [("X", .int 1)], true⟩]
  scopes := #[⟨[("s", .object 0)], none⟩]

theorem structInVariable_closed : structInVariable.Closed where
  begun := Nat.zero_le _
  objects object isObject field isField := by
    cases Array.mem_singleton.mp isObject
    cases mem_singleton.mp isField
    trivial
  sequences _ := nofun
  closures _ := nofun
  scopes entry isEntry var isVar := by
    cases Array.mem_singleton.mp isEntry
    cases mem_singleton.mp isVar
    exact ⟨Nat.zero_lt_one, trivial⟩
  statics _ := nofun

/-- `S t = s;` leaves each of the two variables with a struct of its own. -/
theorem stored_struct_alone_declared :
    let node : Expr := ⟨⟨⟨0, 1⟩, none⟩, .ident "s"⟩
    let frame : Frame := ⟨.null, none⟩
    (Eval.run ⟨[]⟩ 1 (.eval node 0 frame) structInVariable).2.Closed ∧
      ∃ after, Eval.declareLocal ⟨[]⟩ (Eval.run ⟨[]⟩ 1) (.named "S" []) "t" (some node) 0 frame
          structInVariable = (.ok (), after) ∧
        after.HoldsAlone (.var 0 "t") ∧
          (Storage.var 0 "t").value? after = some (.object 1) ∧
            (Machine.setField 1 "X" (.int 5) after).2.objects[0]? = after.objects[0]? := by
  obtain ⟨reached, stores, writes⟩ := stored_struct_alone ⟨[]⟩ 1
  have shallow : structInVariable.depth ≤ Machine.maxDepth := Nat.zero_le _
  have noObject : Validity.made.Valid structInVariable.objects.size .null := trivial
  have alone {after : Machine} (ran : Eval.declareLocal ⟨[]⟩ (Eval.run ⟨[]⟩ 1) (.named "S" []) "t"
      (some ⟨⟨⟨0, 1⟩, none⟩, .ident "s"⟩) 0 ⟨.null, none⟩ structInVariable = (.ok (), after)) :
      after.HoldsAlone (.var 0 "t") := (stores _ structInVariable_closed shallow).locals noObject ran
  refine ⟨?_, _, rfl, alone rfl, rfl, ?_⟩
  · have asks : Validity.made.Asks structInVariable.objects.size
        (.eval ⟨⟨⟨0, 1⟩, none⟩, .ident "s"⟩ 0 ⟨.null, none⟩) := noObject
    exact (reached .breakLoop (fun _ _ _ => true) (fun _ _ _ _ _ => rfl) _ _
      structInVariable_closed shallow asks).1
  · exact writes _ (.var 0 "t") (.var 0 "s") 1 0 (alone rfl) rfl rfl (by simp) rfl _ _

end Unsugar
