import Unsugar.Proofs.Eval.Veils

namespace Unsugar

/-! # Variables that code does not name

A machine looks like itself through a veil over variables of a scope that no code names which
sees the scope.  So it does when such a variable is declared, or when a scope is entered that holds
nothing else.
-/

/-! ## Machines behind a veil of their own -/

/-- Scopes are made after the scopes around them, closures after the scopes they run in. -/
structure Machine.Ordered (machine : Machine) : Prop where
  parents : ∀ (scope : Nat) (entry : Scope), machine.scopes[scope]? = some entry →
    ∀ parent ∈ entry.parent, parent < scope
  closures : ∀ (address : Nat) (closure : Closure), machine.closures[address]? = some closure →
    closure.scope < machine.scopes.size

/-- A function value names none of these variables. -/
structure Closure.Spares (closure : Closure) (hidden : List String) : Prop where
  params : ∀ name ∈ closure.params, name ∉ hidden
  body : ∀ node ∈ Node.ofLambdaBody closure.body, node.Spares hidden

variable {veil : Veil} {machine : Machine}

theorem Machine.Ordered.withScope (ordered : machine.Ordered) {scope : Nat}
    (inside : scope < machine.scopes.size) : (machine.withScope ⟨[], some scope⟩).Ordered where
  parents index entry isThere parent isParent := by
    change (machine.scopes.push ⟨[], some scope⟩)[index]? = some entry at isThere
    rw [Array.getElem?_push] at isThere
    split at isThere
    · cases isThere
      cases isParent
      omega
    · exact ordered.parents index entry isThere parent isParent
  closures address closure isThere := by
    have before := ordered.closures address closure isThere
    change closure.scope < (machine.scopes.push _).size
    rw [Array.size_push]
    omega

/-- No function value names one of these variables. -/
def Machine.Spares (machine : Machine) (hidden : List String) : Prop :=
  ∀ (address : Nat) (closure : Closure), machine.closures[address]? = some closure →
    closure.Spares hidden

theorem Machine.Ordered.avoids (ordered : machine.Ordered) {scope home : Nat} (before : scope < home)
    (inside : scope < machine.scopes.size) : (Layout.of machine.scopes).Avoids home scope := by
  induction scope using Nat.strongRecOn with
  | ind scope ih =>
    have isThere : (Layout.of machine.scopes).parents[scope]? = some machine.scopes[scope].parent := by
      rw [Layout.parents_of, Array.getElem?_eq_getElem inside, Option.map_some]
    cases isParent : machine.scopes[scope].parent with
    | none => exact .outermost (Nat.ne_of_lt before) (isParent ▸ isThere)
    | some parent =>
      have earlier := ordered.parents scope _ (Array.getElem?_eq_getElem inside) parent isParent
      exact .within (Nat.ne_of_lt before) (isParent ▸ isThere)
        (ih parent earlier (earlier.trans before) (earlier.trans inside))

namespace Veil

/-- The machine holds what is hidden, and no value that leads to it elsewhere. -/
structure Keeps (veil : Veil) (machine : Machine) : Prop where
  objects : ∀ (address : Nat) (object : Object), machine.objects[address]? = some object →
    veil.objects address = none → ∀ field ∈ object.fields, veil.Clean field.2
  sequences : ∀ (address : Nat) (sequence : Sequence), machine.sequences[address]? = some sequence →
    veil.sequences address = none → ∀ item ∈ sequence.items, veil.Clean item
  statics : ∀ entry ∈ machine.statics, veil.Clean entry.2
  scopes : ∀ (scope : Nat) (entry : Scope), machine.scopes[scope]? = some entry →
    ∀ var ∈ veil.shown scope entry.vars, veil.Clean var.2
  closures : ∀ (address : Nat) (closure : Closure), machine.closures[address]? = some closure →
    address ∉ veil.closures → veil.Clean closure.frame.this ∧
      (closure.Spares veil.hidden ∨ (Layout.of machine.scopes).Avoids veil.home closure.scope)
  keptObjects : ∀ (address : Nat) (object : Object), veil.objects address = some object →
    machine.objects[address]? = some object
  keptSequences : ∀ (address : Nat) (sequence : Sequence),
    veil.sequences address = some sequence → machine.sequences[address]? = some sequence
  madeClosures : ∀ address ∈ veil.closures, address < machine.closures.size

def heldIn (hidden : List String) (machine : Machine) (scope : Nat) : List (String × Value) :=
  ((machine.scopes[scope]?.map (·.vars)).getD []).filter fun var => hidden.contains var.1

theorem place_of_noExtra (noExtra : veil.extra = none) (scope : Nat) : veil.place scope = scope := by
  rw [place, noExtra]

theorem Sees.self (noExtra : veil.extra = none) {scope : Nat} (inside : scope < machine.scopes.size) :
    veil.Sees veil.hidden (.of machine.scopes) scope scope :=
  ⟨.inl (place_of_noExtra noExtra scope).symm, inside.trans_eq Layout.length_of.symm, .inl rfl⟩

theorem alike_self (ordered : machine.Ordered) (keeps : veil.Keeps machine)
    (noExtra : veil.extra = none) (there : veil.hidden ≠ [] → veil.home < machine.scopes.size)
    (held : veil.held = heldIn veil.hidden machine veil.home) : veil.Alike machine machine := by
  have isPlace := place_of_noExtra noExtra
  have faces (scope : Nat) : veil.Faces scope scope := .inl (isPlace scope).symm
  refine ⟨rfl, rfl, rfl, rfl, rfl, rfl, rfl, fun address closure isThere seen => ?_, ?_,
    keeps.objects, keeps.sequences, keeps.statics, keeps.keptObjects, keeps.keptSequences,
    keeps.madeClosures⟩
  · obtain ⟨clean, spares | avoids⟩ := keeps.closures address closure isThere seen
    · exact ⟨closure, isThere, veil.hidden, rfl, rfl, rfl,
        .self noExtra (ordered.closures address closure isThere), clean, spares.params, spares.body⟩
    · exact ⟨closure, isThere, [], rfl, rfl, rfl, ⟨faces _,
        (ordered.closures address closure isThere).trans_eq Layout.length_of.symm, .inr ⟨rfl, avoids⟩⟩,
        clean, fun _ _ => List.not_mem_nil, fun _ _ => .nothing _⟩
  · refine ⟨(isPlace _).symm, fun scope entry isThere => ?_, fun extra around isExtra => ?_,
      fun hides => ?_⟩
    · refine ⟨entry, by rw [isPlace, isThere], rfl, ?_, ?_⟩
      · rw [isPlace]
        exact keeps.scopes scope entry isThere
      cases isParent : entry.parent with
      | none => exact .inl ⟨rfl, rfl⟩
      | some parent =>
        have before := ordered.parents scope entry isThere parent isParent
        exact .inr ⟨parent, parent, rfl, rfl, faces _, before, by rw [isPlace]; exact before⟩
    · rw [noExtra] at isExtra
      cases isExtra
    · have isThere := Array.getElem?_eq_getElem (there hides)
      refine ⟨_, isThere, ?_⟩
      rw [held, heldIn, isThere]
      rfl

/-! ## Veils that hide variables only -/

/-- Whether a veil hides nothing but variables. -/
structure IsClear (veil : Veil) : Prop where
  objects : ∀ address, veil.objects address = none
  sequences : ∀ address, veil.sequences address = none
  closures : veil.closures = []

mutual

theorem IsClear.clean (clear : veil.IsClear) : (value : Value) → veil.Clean value
  | .object address => clear.objects address
  | .list address => clear.sequences address
  | .closure address => fun isHidden => by
    rw [clear.closures] at isHidden
    cases isHidden
  | .tuple items => clear.cleanAll items
  | .null | .int _ | .double _ | .bool _ | .char _ | .str _ | .type _ => trivial

theorem IsClear.cleanAll (clear : veil.IsClear) : (values : List Value) → veil.CleanAll values
  | [] => trivial
  | value :: rest => ⟨clear.clean value, clear.cleanAll rest⟩

end

theorem IsClear.keeps (clear : veil.IsClear)
    (closures : ∀ (address : Nat) (closure : Closure), machine.closures[address]? = some closure →
      closure.Spares veil.hidden ∨ (Layout.of machine.scopes).Avoids veil.home closure.scope) :
    veil.Keeps machine where
  objects _ _ _ _ _ _ := clear.clean _
  sequences _ _ _ _ _ _ := clear.clean _
  statics _ _ := clear.clean _
  scopes _ _ _ _ _ := clear.clean _
  closures address closure isThere _ := ⟨clear.clean _, closures address closure isThere⟩
  keptObjects address _ isHidden := by
    rw [clear.objects] at isHidden
    cases isHidden
  keptSequences address _ isHidden := by
    rw [clear.sequences] at isHidden
    cases isHidden
  madeClosures address isHidden := by
    rw [clear.closures] at isHidden
    cases isHidden

/-- A veil over variables of a scope. -/
def covering (hidden : List String) (home : Nat) (machine : Machine) (lags : Bool) : Veil where
  hidden
  home
  held := heldIn hidden machine home
  objects _ := none
  sequences _ := none
  extra := none
  lags

theorem covering_clear (hidden : List String) (home : Nat) (machine : Machine) (lags : Bool) :
    (covering hidden home machine lags).IsClear := ⟨fun _ => rfl, fun _ => rfl, rfl⟩

theorem covering_alike {hidden : List String} {home : Nat} (lags : Bool) (ordered : machine.Ordered)
    (inside : home < machine.scopes.size) (spares : machine.Spares hidden) :
    (covering hidden home machine lags).Alike machine machine :=
  alike_self ordered
    ((covering_clear hidden home machine lags).keeps fun address closure isThere =>
      .inl (spares address closure isThere)) rfl (fun _ => inside) rfl

/-- A veil that nothing is behind. -/
def idle (lags : Bool) : Veil where
  hidden := []
  home := 0
  held := []
  objects _ := none
  sequences _ := none
  extra := none
  lags

theorem idle_clear (lags : Bool) : (idle lags).IsClear := ⟨fun _ => rfl, fun _ => rfl, rfl⟩

theorem idle_alike (lags : Bool) (ordered : machine.Ordered) : (idle lags).Alike machine machine := by
  refine alike_self ordered ((idle_clear lags).keeps fun _ _ _ => .inl ?_) rfl
    (fun hides => absurd rfl hides) ?_
  · exact ⟨fun _ _ => List.not_mem_nil, fun _ _ => .nothing _⟩
  · simp [idle, heldIn]

/-! ## What hidden variables hold -/

theorem covered_lookup {name : String} (isHidden : name ∈ veil.hidden)
    {vars : List (String × Value)} : (veil.covered vars).lookup name = vars.lookup name :=
  lookup_filter (fun _ => by simpa using isHidden)

theorem Alike.valueOf? {other : Machine} (alike : veil.Alike machine other) {name : String}
    {value : Value} (isHidden : name ∈ veil.hidden) (held : veil.held.lookup name = some value) :
    other.valueOf? veil.home name = some value := by
  obtain ⟨entry, isThere, isHeld⟩ := alike.scopes.home (List.ne_nil_of_mem isHidden)
  rw [← isHeld, covered_lookup isHidden] at held
  exact Machine.valueOf?_own isThere held

/-! ## Changes behind a veil -/

mutual

theorem Clean.congr {veil later : Veil}
    (objects : ∀ address, veil.objects address = none → later.objects address = none)
    (sequences : ∀ address, veil.sequences address = none → later.sequences address = none)
    (closures : ∀ address, address ∉ veil.closures → address ∉ later.closures) :
    (value : Value) → veil.Clean value → later.Clean value
  | .object address, clean => objects address clean
  | .list address, clean => sequences address clean
  | .closure address, clean => closures address clean
  | .tuple items, clean => CleanAll.congr objects sequences closures items clean
  | .null, _ | .int _, _ | .double _, _ | .bool _, _ | .char _, _ | .str _, _ | .type _, _ => trivial

theorem CleanAll.congr {veil later : Veil}
    (objects : ∀ address, veil.objects address = none → later.objects address = none)
    (sequences : ∀ address, veil.sequences address = none → later.sequences address = none)
    (closures : ∀ address, address ∉ veil.closures → address ∉ later.closures) :
    (values : List Value) → veil.CleanAll values → later.CleanAll values
  | [], _ => trivial
  | value :: rest, clean => ⟨Clean.congr objects sequences closures value clean.1,
      CleanAll.congr objects sequences closures rest clean.2⟩

end

section Changes

variable {veil : Veil} {machine other : Machine}

/-- The same veil, except for what the other machine holds in hidden variables. -/
def holding (veil : Veil) (held : List (String × Value)) : Veil := { veil with held }

def declaring (veil : Veil) (name : String) (value : Value) : Veil :=
  veil.holding (assocSet name value veil.held)

theorem lookup_declaring (veil : Veil) (name other : String) (value : Value) :
    (veil.declaring name value).held.lookup other =
      if other = name then some value else veil.held.lookup other := lookup_assocSet ..

/-- The same veil, and behind it a scope more, which has hidden variables. -/
def entered (veil : Veil) (hidden : List String) (extra around : Nat) : Veil :=
  { veil with hidden, home := extra, held := [], extra := some (extra, around) }

theorem Clean.holding {held : List (String × Value)} {value : Value} (clean : veil.Clean value) :
    (veil.holding held).Clean value := by
  refine Clean.congr ?_ ?_ ?_ value clean <;> exact fun _ => id

theorem Clean.entered {hidden : List String} {extra around : Nat} {value : Value}
    (clean : veil.Clean value) : (veil.entered hidden extra around).Clean value := by
  refine Clean.congr ?_ ?_ ?_ value clean <;> exact fun _ => id

theorem Alike.declareHidden (alike : veil.Alike machine other) {name : String}
    (isHidden : name ∈ veil.hidden) (value : Value) :
    (veil.declaring name value).Alike machine
      { other with scopes := Machine.setIn other.scopes veil.home name value } where
  objects := alike.objects
  sequences := alike.sequences
  statics := alike.statics
  initialized := alike.initialized
  output := alike.output
  depth := alike.depth
  closuresSize := alike.closuresSize
  closures address closure isThere seen := by
    obtain ⟨twin, isTwin, names, matched⟩ := alike.closures address closure isThere seen
    refine ⟨twin, isTwin, names, matched.imp (fun sees => ?_) fun clean => clean.holding⟩
    obtain ⟨faces, inside, misses⟩ := sees.mono (Layout.le_setIn : _ ≤ Layout.of
      (Machine.setIn other.scopes veil.home name value))
    exact ⟨faces, inside, misses⟩
  cleanObjects address object isThere seen field isField :=
    (alike.cleanObjects address object isThere seen field isField).holding
  cleanSequences address sequence isThere seen item isItem :=
    (alike.cleanSequences address sequence isThere seen item isItem).holding
  cleanStatics entry isIn := (alike.cleanStatics entry isIn).holding
  keptObjects := alike.keptObjects
  keptSequences := alike.keptSequences
  madeClosures := alike.madeClosures
  scopes := by
    have hides (value : Value) : (!veil.hidden.contains (name, value).1) = false := by
      simpa using isHidden
    have covers (value : Value) : veil.hidden.contains (name, value).1 = true := by
      simpa using isHidden
    have shows (scope : Nat) (entry : Scope) :
        veil.shown scope (if scope = veil.home then { entry with vars := assocSet name value entry.vars }
          else entry).vars = veil.shown scope entry.vars := by
      split
      · next isHome =>
          rw [shown, shown, if_pos isHome, if_pos isHome]
          exact filter_assocSet_of_not hides
      · rfl
    refine ⟨?_, fun scope entry isThere => ?_, fun extra around isExtra => ?_, fun hides => ?_⟩
    · rw [Machine.setIn, Array.size_modify]
      exact alike.scopes.size
    · obtain ⟨twin, isTwin, same⟩ := alike.scopes.same scope entry isThere
      refine ⟨_, by rw [Machine.getElem?_setIn]; exact congrArg (Option.map _) isTwin, ?_, ?_, ?_⟩
      · exact (shows _ twin).trans same.vars
      · exact fun var isShown => (same.clean var isShown).holding
      · have parent := same.parent
        split <;> exact parent
    · obtain ⟨before, within, entry, isThere, bare, isAround⟩ :=
        alike.scopes.extra extra around isExtra
      refine ⟨before, within, _, by rw [Machine.getElem?_setIn, isThere]; rfl, ?_, ?_⟩
      · exact (shows _ entry).trans bare
      · split <;> exact isAround
    · obtain ⟨entry, isThere, isHeld⟩ := alike.scopes.home hides
      refine ⟨_, by rw [Machine.getElem?_setIn]; exact congrArg (Option.map _) isThere, ?_⟩
      dsimp only
      rw [show (veil.declaring name value).home = veil.home from rfl, if_pos rfl]
      exact (filter_assocSet covers).trans (congrArg _ isHeld)

/-- The second machine enters a scope. -/
theorem Alike.enter (alike : veil.Alike machine other) (noExtra : veil.extra = none)
    (hidesNone : veil.hidden = []) (ordered : other.Ordered) {scope : Nat}
    (inside : scope < machine.scopes.size) (hidden : List String) :
    (veil.entered hidden machine.scopes.size scope).Alike machine
      { other with scopes := other.scopes.push ⟨[], some scope⟩ } := by
  have isPlace := place_of_noExtra noExtra
  have size : other.scopes.size = machine.scopes.size := by
    rw [alike.scopes.size, isPlace]
  have place {index : Nat} (within : index < machine.scopes.size) :
      (veil.entered hidden machine.scopes.size scope).place index = index := if_pos within
  have faces {around outside : Nat} (faces : veil.Faces around outside)
      (within : around < machine.scopes.size) :
      (veil.entered hidden machine.scopes.size scope).Faces around outside := by
    rcases faces with rfl | isExtra
    · exact .inl ((isPlace around).trans (place within).symm)
    · rw [noExtra] at isExtra
      cases isExtra
  have old {index : Nat} (within : index < machine.scopes.size) :
      (other.scopes.push ⟨[], some scope⟩)[index]? = other.scopes[index]? := by
    rw [Array.getElem?_push, if_neg (by omega)]
  have shows {index : Nat} (within : index < machine.scopes.size) (vars : List (String × Value)) :
      (veil.entered hidden machine.scopes.size scope).shown index vars = veil.shown index vars := by
    have plain : veil.shown index vars = vars := by simp [shown, hidesNone]
    rw [plain]
    exact if_neg (Nat.ne_of_lt within)
  refine ⟨alike.objects, alike.sequences, alike.statics, alike.initialized, alike.output,
    alike.depth, alike.closuresSize, fun address closure isThere seen => ?_, ?_,
    fun address object isThere seen field isField => ?_,
    fun address sequence isThere seen item isItem => ?_, fun entry isIn => ?_, alike.keptObjects,
    alike.keptSequences, alike.madeClosures⟩
  · obtain ⟨twin, isTwin, names, matched⟩ := alike.closures address closure isThere seen
    have isInside : twin.scope < other.scopes.size := matched.scope.inside.trans_eq Layout.length_of
    refine ⟨twin, isTwin, [], matched.params, matched.body, matched.frame, ⟨?_, ?_, .inr ⟨rfl, ?_⟩⟩,
      matched.this.entered, fun _ _ => List.not_mem_nil, fun _ _ => .nothing _⟩
    · exact faces matched.scope.faces ((matched.scope.faces.lt_iff alike.scopes).mp isInside)
    · exact matched.scope.inside.trans_le (Layout.le_push _).length_le
    · exact (ordered.avoids (isInside.trans_eq size) isInside).mono (Layout.le_push _)
  · refine ⟨?_, fun index entry isThere => ?_, fun extra around isExtra => ?_, fun _ => ?_⟩
    · change (other.scopes.push _).size = if _ then _ else _
      rw [Array.size_push, size, if_neg (Nat.lt_irrefl _)]
    · have within := (Array.getElem?_eq_some_iff.mp isThere).1
      obtain ⟨twin, isTwin, same⟩ := alike.scopes.same index entry isThere
      have sameVars := same.vars
      have clean := same.clean
      rw [isPlace] at isTwin sameVars clean
      refine ⟨twin, by rw [place within, old within, isTwin], ?_, fun var isShown => ?_, ?_⟩
      · rw [place within, shows within, shows within, sameVars]
      · rw [place within, shows within] at isShown
        exact (clean var isShown).entered
      refine same.parent.imp_right ?_
      rintro ⟨around, outside, isAround, isOutside, faced, before, earlier⟩
      refine ⟨around, outside, isAround, isOutside, faces faced (before.trans within), before, ?_⟩
      rw [place within]
      rw [isPlace] at earlier
      exact earlier
    · cases isExtra
      refine ⟨inside, Nat.le_refl _, ⟨[], some scope⟩, ?_, ?_, rfl⟩
      · rw [Array.getElem?_push, if_pos size.symm]
      · simp [shown]
    · refine ⟨⟨[], some scope⟩, ?_, rfl⟩
      exact (Array.getElem?_push ..).trans (if_pos size.symm)
  · exact (alike.cleanObjects address object isThere seen field isField).entered
  · exact (alike.cleanSequences address sequence isThere seen item isItem).entered
  · exact (alike.cleanStatics entry isIn).entered

end Changes

/-! ## Fuel -/

theorem Alike.eq {machine other : Machine} (alike : veil.Alike machine other)
    (hidesNone : veil.hidden = []) (hidesNoClosure : veil.closures = [])
    (noExtra : veil.extra = none) : other = machine := by
  have isPlace := place_of_noExtra noExtra
  have faces {scope outside : Nat} (faces : veil.Faces scope outside) : outside = scope := by
    rcases faces with rfl | isExtra
    · exact isPlace scope
    · rw [noExtra] at isExtra
      cases isExtra
  have shows (scope : Nat) (vars : List (String × Value)) : veil.shown scope vars = vars := by
    simp [shown, hidesNone]
  have closures : other.closures = machine.closures := by
    refine Array.ext_getElem? fun address => ?_
    cases isThere : machine.closures[address]? with
    | none =>
      rw [Array.getElem?_eq_none_iff, alike.closuresSize]
      exact Array.getElem?_eq_none_iff.mp isThere
    | some closure =>
      obtain ⟨⟨params, body, scope, frame⟩, isTwin, names, same⟩ :=
        alike.closures address closure isThere (by rw [hidesNoClosure]; exact List.not_mem_nil)
      rw [isTwin]
      obtain rfl : params = closure.params := same.params
      obtain rfl : body = closure.body := same.body
      obtain rfl : frame = closure.frame := same.frame
      obtain rfl : scope = closure.scope := faces same.scope.faces
      rfl
  have scopes : other.scopes = machine.scopes := by
    refine Array.ext_getElem? fun scope => ?_
    cases isThere : machine.scopes[scope]? with
    | none =>
      rw [← alike.scopes.none_iff, isPlace] at isThere
      exact isThere
    | some entry =>
      obtain ⟨⟨vars, parent⟩, isTwin, same⟩ := alike.scopes.same scope entry isThere
      rw [isPlace] at isTwin
      rw [isTwin]
      obtain rfl : vars = entry.vars := by
        have sameVars := same.vars
        rw [shows, shows] at sameVars
        exact sameVars
      obtain rfl : parent = entry.parent := by
        rcases same.parent with ⟨noParent, noOther⟩ | ⟨around, outside, isAround, isOutside, seen, -⟩
        · exact noOther.trans noParent.symm
        · exact (isOutside.trans (congrArg some (faces seen))).trans isAround.symm
      rfl
  obtain ⟨objects, sequences, _, _, statics, initialized, output, depth⟩ := other
  obtain rfl : objects = machine.objects := alike.objects
  obtain rfl : sequences = machine.sequences := alike.sequences
  obtain rfl : statics = machine.statics := alike.statics
  obtain rfl : initialized = machine.initialized := alike.initialized
  obtain rfl : output = machine.output := alike.output
  obtain rfl : depth = machine.depth := alike.depth
  obtain rfl := closures
  obtain rfl := scopes
  rfl

end Veil

/-- Machines that are the same but for hidden variables of a scope and function values, and for a
    scope that the other one has more. -/
def Machine.SameExcept (hidden : List String) (home : Nat) (functions : List Nat)
    (extra : Option (Nat × Nat)) (machine other : Machine) : Prop :=
  ∃ veil : Veil, veil.hidden = hidden ∧ veil.home = home ∧ veil.closures = functions ∧
    veil.extra = extra ∧ (∀ address, veil.objects address = none) ∧
    (∀ address, veil.sequences address = none) ∧ veil.Alike machine other

theorem Runs.of_fuel {program : Program} {α : Type} {Holds : Layout → α → Prop}
    {action : Answer → Eval α} {machine after : Machine} {outcome : Except Exit α} {fuel : Nat}
    (ordered : machine.Ordered)
    (agree : ∀ {recur other : Answer}, (Veil.idle false).tandem.Answers recur other →
      (Veil.idle false).tandem.Agree (.of machine.scopes) (Same Holds) (action recur) (action other))
    (ends : action (Eval.run program fuel) machine = (outcome, after))
    (fed : outcome ≠ .error (.fault .outOfFuel)) : Runs program action machine outcome after := by
  refine ⟨fuel, fun more enough => ?_⟩
  have answers : (Veil.idle false).tandem.Answers (Eval.run program fuel) (Eval.run program more) :=
    Tandem.answers_run enough
  rcases agree answers machine machine (Veil.idle_alike false ordered) le_rfl with starved | kept
  · rw [ends] at starved
    rcases starved with ⟨lags, -⟩ | ⟨-, isOut⟩
    · cases lags
    · exact absurd isOut fed
  · rw [ends] at kept
    exact Prod.ext kept.ends.eq (Veil.Alike.eq kept.couples rfl rfl rfl)

namespace Runs

variable {program : Program} {scope : Nat} {frame : Frame} {machine : Machine}
  {after : Machine} {fuel : Nat} {result : Except Exit Unit}

theorem of_eval {node : Expr} {result : Except Exit Value} (ordered : machine.Ordered)
    (inside : scope < machine.scopes.size)
    (ends : Eval.run program fuel (.eval node scope frame) machine = (result, after))
    (fed : result ≠ .error (.fault .outOfFuel)) :
    Runs program (fun recur => recur (.eval node scope frame)) machine result after :=
  Runs.of_fuel ordered (fun answers => answers.eval (.nothing _)
    ⟨.self rfl inside, (Veil.idle_clear _).clean _⟩) ends fed

theorem of_exec {node : Stmt} (ordered : machine.Ordered) (inside : scope < machine.scopes.size)
    (ends : Eval.run program fuel (.exec node scope frame) machine = (result, after))
    (fed : result ≠ .error (.fault .outOfFuel)) :
    Runs program (fun recur => recur (.exec node scope frame)) machine result after :=
  Runs.of_fuel ordered (fun answers => answers.exec (.nothing _)
    ⟨⟨rfl, .self rfl inside⟩, (Veil.idle_clear _).clean _⟩) ends fed

theorem of_execAll {nodes : List Stmt} (ordered : machine.Ordered)
    (inside : scope < machine.scopes.size)
    (ends : Eval.execAll (Eval.run program fuel) nodes scope frame machine = (result, after))
    (fed : result ≠ .error (.fault .outOfFuel)) :
    Runs program (fun recur => Eval.execAll recur nodes scope frame) machine result after :=
  Runs.of_fuel ordered (fun answers => answers.execAll (fun _ _ => .nothing _)
    ⟨⟨rfl, .self rfl inside⟩, (Veil.idle_clear _).clean _⟩) ends fed

end Runs

end Unsugar
