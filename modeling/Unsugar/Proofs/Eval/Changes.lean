import Unsugar.Proofs.Eval.Evaluation
import Mathlib.Data.Set.Insert

namespace Unsugar

/-! # What evaluation changes

Conditions of lowered programs assign variables and make new sequences, and do
nothing else.  `Changes` names the variables that may differ afterwards.
-/

/-! ## Assigning a variable -/

theorem lookup_assocSet {κ α : Type} [BEq κ] [LawfulBEq κ] [DecidableEq κ] (key other : κ)
    (value : α) (entries : List (κ × α)) :
    (assocSet key value entries).lookup other =
      if other = key then some value else entries.lookup other := by
  induction entries with
  | nil => grind [assocSet]
  | cons entry rest ih =>
    obtain ⟨name, old⟩ := entry
    by_cases replaced : name = key <;> grind [assocSet]

variable {value : Value}

namespace Machine

variable {scope home : Nat} {name : String} {machine : Machine}

def setIn (scopes : Array Scope) (home : Nat) (name : String) (value : Value) : Array Scope :=
  scopes.modify home fun entry => { entry with vars := assocSet name value entry.vars }

def assign (machine : Machine) (scope : Nat) (name : String) (value : Value) : Machine :=
  match findScope? machine.scopes name (scope + 1) scope with
  | none => machine
  | some home => { machine with scopes := setIn machine.scopes home name value }

variable {scopes : Array Scope}

theorem findScope?_declares {steps start : Nat}
    (found : findScope? scopes name steps start = some home) :
    ∃ entry, scopes[home]? = some entry ∧ (entry.vars.lookup name).isSome := by
  induction steps generalizing start with
  | zero => cases found
  | succ steps ih =>
    unfold findScope? at found
    split at found
    · cases found
    · rename_i entry present
      split at found
      · rename_i declares
        cases found
        exact ⟨entry, present, declares⟩
      · split at found
        · cases found
        · exact ih found

/-- A scope keeps its parent and its names when a variable it declares gets a
    value. -/
theorem getElem?_setIn (value : Value) (start : Nat) : (setIn scopes home name value)[start]? =
      (scopes[start]?).map fun entry =>
        if start = home then { entry with vars := assocSet name value entry.vars } else entry := by
  unfold setIn
  rw [Array.getElem?_modify]
  by_cases same : start = home
  · subst same
    simp
  · simp [same, Ne.symm same]

theorem findScope?_setIn {declaring : Scope} (value : Value)
    (present : scopes[home]? = some declaring) (declares : (declaring.vars.lookup name).isSome)
    (other : String) (steps start : Nat) :
    findScope? (setIn scopes home name value) other steps start =
      findScope? scopes other steps start := by
  induction steps generalizing start with
  | zero => rfl
  | succ steps ih =>
    unfold findScope?
    rw [getElem?_setIn]
    cases here : scopes[start]? with
    | none => rfl
    | some entry =>
      by_cases same : start = home
      · subst same
        obtain rfl : declaring = entry := Option.some.inj (present.symm.trans here)
        have sameNames : ((assocSet name value declaring.vars).lookup other).isSome =
            (declaring.vars.lookup other).isSome := by
          rw [lookup_assocSet]
          by_cases assigned : other = name
          · subst assigned
            simp [declares]
          · simp [assigned]
        simp only [Option.map_some, if_true, sameNames]
        split
        · rfl
        · split
          · rfl
          · exact ih _
      · simp only [Option.map_some, if_neg same]
        split
        · rfl
        · split
          · rfl
          · exact ih _

variable (declared : (machine.valueOf? scope name).isSome)

include declared

theorem findScope?_of_valueOf? :
    ∃ home, findScope? machine.scopes name (scope + 1) scope = some home := by
  unfold valueOf? at declared
  cases found : findScope? machine.scopes name (scope + 1) scope with
  | none => simp [found] at declared
  | some home => exact ⟨home, rfl⟩

theorem assignVar_eq :
    assignVar scope name value machine = (.ok true, machine.assign scope name value) := by
  obtain ⟨home, found⟩ := findScope?_of_valueOf? declared
  unfold assignVar assign
  rw [Eval.bind_ok (show (get : Eval Machine) machine = (.ok machine, machine) from rfl), found]
  rfl

theorem valueOf?_assign {other : String} : (machine.assign scope name value).valueOf? scope other =
      if other = name then some value else machine.valueOf? scope other := by
  obtain ⟨home, found⟩ := findScope?_of_valueOf? declared
  obtain ⟨declaring, present, declares⟩ := findScope?_declares found
  have assigned : machine.assign scope name value =
      { machine with scopes := setIn machine.scopes home name value } := by
    unfold assign
    rw [found]
  unfold valueOf?
  rw [assigned]
  dsimp only
  rw [findScope?_setIn value present declares]
  cases foundOther : findScope? machine.scopes other (scope + 1) scope with
  | none =>
    have different : other ≠ name := by
      rintro rfl
      rw [found] at foundOther
      cases foundOther
    rw [if_neg different]
  | some otherHome =>
    obtain ⟨otherScope, otherPresent, _⟩ := findScope?_declares foundOther
    simp only [Array.getD_eq_getD_getElem?, getElem?_setIn, otherPresent, Option.map_some,
      Option.getD_some]
    by_cases same : other = name
    · subst same
      obtain rfl : home = otherHome := Option.some.inj (found.symm.trans foundOther)
      simp [lookup_assocSet]
    · by_cases sameHome : otherHome = home
      · simp [sameHome, lookup_assocSet, same]
      · simp [sameHome, same]

end Machine

/-! ## Changes -/

/-- Between two moments only these variables may have got other values, and
    sequences may have been made. -/
structure Changes (scope : Nat) (written : Set String) (before after : Machine) : Prop where
  kept : ∀ name, name ∉ written → after.valueOf? scope name = before.valueOf? scope name
  declared : ∀ name, (before.valueOf? scope name).isSome → (after.valueOf? scope name).isSome
  sequences : ∀ (address : Nat) (sequence : Sequence), before.sequences[address]? = some sequence →
    after.sequences[address]? = some sequence
  objects : after.objects = before.objects
  closures : after.closures = before.closures
  statics : after.statics = before.statics
  initialized : after.initialized = before.initialized
  output : after.output = before.output
  depth : after.depth = before.depth

namespace Changes

variable {scope : Nat} {written other : Set String} {before middle after : Machine}

theorem refl (machine : Machine) : Changes scope written machine machine :=
  ⟨fun _ _ => rfl, fun _ declared => declared, fun _ _ present => present, rfl, rfl, rfl, rfl, rfl,
    rfl⟩

theorem trans (first : Changes scope written before middle)
    (second : Changes scope written middle after) : Changes scope written before after where
  kept name unwritten := (second.kept name unwritten).trans (first.kept name unwritten)
  declared name isDeclared := second.declared name (first.declared name isDeclared)
  sequences address sequence present :=
    second.sequences address sequence (first.sequences address sequence present)
  objects := second.objects.trans first.objects
  closures := second.closures.trans first.closures
  statics := second.statics.trans first.statics
  initialized := second.initialized.trans first.initialized
  output := second.output.trans first.output
  depth := second.depth.trans first.depth

theorem mono (changes : Changes scope written before after) (subset : written ⊆ other) :
    Changes scope other before after :=
  { changes with kept := fun name unwritten => changes.kept name fun isIn => unwritten (subset isIn) }

theorem ofAssign {name : String} {machine : Machine} (value : Value)
    (declared : (machine.valueOf? scope name).isSome) :
    Changes scope {name} machine (machine.assign scope name value) := by
  have rest : ∀ {α : Type} (field : Machine → α),
      (∀ scopes, field { machine with scopes } = field machine) →
      field (machine.assign scope name value) = field machine := by
    intro α field untouched
    unfold Machine.assign
    split
    · rfl
    · exact untouched _
  refine ⟨?_, ?_, ?_, ?_, ?_, ?_, ?_, ?_, ?_⟩
  · intro other unwritten
    rw [Machine.valueOf?_assign declared, if_neg (by simpa using unwritten)]
  · intro other isDeclared
    rw [Machine.valueOf?_assign declared]
    split
    · rfl
    · exact isDeclared
  · intro address sequence present
    rw [rest Machine.sequences fun _ => rfl]
    exact present
  · exact rest Machine.objects fun _ => rfl
  · exact rest Machine.closures fun _ => rfl
  · exact rest Machine.statics fun _ => rfl
  · exact rest Machine.initialized fun _ => rfl
  · exact rest Machine.output fun _ => rfl
  · exact rest Machine.depth fun _ => rfl

theorem ofAllocate (machine : Machine) (sequence : Sequence) :
    Changes scope ∅ machine { machine with sequences := machine.sequences.push sequence } := by
  refine ⟨fun _ _ => rfl, fun _ declared => declared, fun address other present => ?_, rfl, rfl,
    rfl, rfl, rfl, rfl⟩
  obtain ⟨inBounds, _⟩ := Array.getElem?_eq_some_iff.1 present
  exact (Array.getElem?_push_lt inBounds).trans (by rw [← present, Array.getElem?_eq_getElem inBounds])

end Changes

/-! ## Assignments as expressions -/

theorem copyStruct_eq (shared : ∀ address, value ≠ .object address) (machine : Machine) :
    Machine.copyStruct value machine = (.ok value, machine) := by
  cases value with
  | object address => exact absurd rfl (shared address)
  | _ => rfl

variable {program : Program} {scope : Nat} {frame : Frame} {node : Expr} {before middle : Machine}
  (evaluated : Evaluates program scope frame node before value middle)

include evaluated

theorem Evaluates.assign_shared {span target : Span} {name : String}
    (shared : Machine.copyStruct value middle = (.ok value, middle))
    (declared : (middle.valueOf? scope name).isSome) :
    Evaluates program scope frame (span.assign (target.ident name) node) before value
      (middle.assign scope name value) := by
  obtain ⟨enough, runs⟩ := evaluated
  refine .of_step (enough + 1) fun fuel bound => ?_
  obtain _ | rest := fuel
  · omega
  have stored : Eval.run program (rest + 1) (.store (target.ident name) value scope frame) middle =
      (.ok (), middle.assign scope name value) := by
    change Eval.store program (Eval.run program rest) (target.ident name) value scope frame middle = _
    unfold Eval.store
    rw [Eval.bind_ok shared]
    change Eval.storeName program (Eval.run program rest) name value scope frame middle = _
    unfold Eval.storeName
    rw [Eval.bind_ok (Machine.assignVar_eq declared)]
    rfl
  change (Eval.run program (rest + 1) (.eval node scope frame) >>= fun result =>
    Eval.run program (rest + 1) (.store (target.ident name) result scope frame) >>= fun _ =>
      pure result) before = _
  rw [Eval.bind_ok (runs (rest + 1) (by omega)), Eval.bind_ok stored]
  rfl

theorem Evaluates.assign {span target : Span} {name : String}
    (shared : ∀ address, value ≠ .object address) (declared : (middle.valueOf? scope name).isSome) :
    Evaluates program scope frame (span.assign (target.ident name) node) before value
      (middle.assign scope name value) :=
  evaluated.assign_shared (copyStruct_eq shared middle) declared

end Unsugar
