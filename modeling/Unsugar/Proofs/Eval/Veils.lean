import Unsugar.Proofs.Eval.TandemRuns

open List

namespace Unsugar

/-! # What running code cannot see

Code that does not name a variable, or runs where it cannot see its scope, and holds no value that
leads to an object or a sequence, runs as if they were not there, and leaves them as they are.  It
does not notice a scope either that declares nothing but such variables.  `Veil` says what is
hidden, and two machines look alike through it if they differ in nothing else.  Runs on such
machines go on in tandem.
-/

/-! ## Scopes around scopes -/

/-- What is around each scope of a machine. -/
structure Layout where
  parents : List (Option Nat)

namespace Layout

instance : Preorder Layout where
  le layout later := layout.parents <+: later.parents
  le_refl layout := prefix_refl layout.parents
  le_trans _ _ _ := IsPrefix.trans

def of (scopes : Array Scope) : Layout := ⟨scopes.toList.map (·.parent)⟩

/-- Neither this scope nor one around it is a certain one. -/
inductive Avoids (layout : Layout) (home : Nat) : Nat → Prop where
  | outermost {scope : Nat} (differs : scope ≠ home) (isThere : layout.parents[scope]? = some none) :
      Avoids layout home scope
  | within {scope around : Nat} (differs : scope ≠ home)
      (isThere : layout.parents[scope]? = some (some around)) (avoids : Avoids layout home around) :
      Avoids layout home scope

variable {layout later : Layout} {scopes : Array Scope} {home scope : Nat}

theorem parents_of : (of scopes).parents[scope]? = scopes[scope]?.map (·.parent) := by
  rw [of, getElem?_map, Array.getElem?_toList]

theorem length_of : (of scopes).parents.length = scopes.size := by
  rw [of, length_map, Array.length_toList]

theorem le_push (entry : Scope) : of scopes ≤ of (scopes.push entry) := by
  refine ⟨[entry.parent], ?_⟩
  rw [of, of, Array.toList_push, map_append]
  rfl

theorem of_setIn {name : String} {value : Value} :
    of (Machine.setIn scopes home name value) = of scopes := by
  refine congrArg Layout.mk (List.ext_getElem? fun scope => ?_)
  have same : (of (Machine.setIn scopes home name value)).parents[scope]? = (of scopes).parents[scope]? := by
    rw [parents_of, parents_of, Machine.getElem?_setIn]
    cases scopes[scope]? with
    | none => rfl
    | some entry =>
      rw [Option.map_some, Option.map_some, Option.map_some]
      split <;> rfl
  exact same

theorem le_setIn {name : String} {value : Value} :
    of scopes ≤ of (Machine.setIn scopes home name value) := of_setIn.ge

theorem getElem?_of_le {parent : Option Nat} (le : layout ≤ later)
    (isThere : layout.parents[scope]? = some parent) : later.parents[scope]? = some parent := by
  obtain ⟨more, isMore⟩ := le
  obtain ⟨inside, -⟩ := List.getElem?_eq_some_iff.mp isThere
  rw [← isMore, getElem?_append_left inside]
  exact isThere

theorem Avoids.ne (avoids : layout.Avoids home scope) : scope ≠ home := by
  cases avoids <;> assumption

theorem Avoids.around {around : Nat} (avoids : layout.Avoids home scope)
    (isThere : layout.parents[scope]? = some (some around)) : layout.Avoids home around := by
  cases avoids with
  | outermost _ isOutermost => cases isOutermost.symm.trans isThere
  | within _ isAround avoids =>
    cases isAround.symm.trans isThere
    exact avoids

theorem Avoids.mono (avoids : layout.Avoids home scope) (le : layout ≤ later) :
    later.Avoids home scope := by
  induction avoids with
  | outermost differs isThere => exact .outermost differs (getElem?_of_le le isThere)
  | within differs isThere _ ih => exact .within differs (getElem?_of_le le isThere) ih

end Layout

/-! ## Veils -/

variable {vars : List (String × Value)} {items : List Value} {typeName : String}

/-- What running code cannot see. -/
structure Veil where
  hidden : List String
  /-- The scope of the second machine that has the hidden variables. -/
  home : Nat
  /-- What that machine holds in them. -/
  held : List (String × Value)
  objects : Nat → Option Object
  sequences : Nat → Option Sequence
  closures : List Nat := []
  extra : Option (Nat × Nat)
  /-- Whether that machine is the one that may run out of fuel. -/
  lags : Bool := false

namespace Veil

variable (veil : Veil)

mutual

def Clean : Value → Prop
  | .object address => veil.objects address = none
  | .list address => veil.sequences address = none
  | .closure address => address ∉ veil.closures
  | .tuple items => CleanAll items
  | _ => True

def CleanAll : List Value → Prop
  | [] => True
  | value :: rest => Clean value ∧ CleanAll rest

end

theorem cleanAll_iff {values : List Value} :
    veil.CleanAll values ↔ ∀ value ∈ values, veil.Clean value := by
  induction values with
  | nil => exact ⟨fun _ => nofun, fun _ => trivial⟩
  | cons value rest ih =>
    rw [CleanAll, ih, forall_mem_cons]

/-- What is shown of the variables of a scope of the second machine. -/
def shown (scope : Nat) (vars : List (String × Value)) : List (String × Value) :=
  if scope = veil.home then vars.filter fun var => !veil.hidden.contains var.1 else vars

def covered (vars : List (String × Value)) : List (String × Value) :=
  vars.filter fun var => veil.hidden.contains var.1

def place (scope : Nat) : Nat :=
  match veil.extra with
  | none => scope
  | some (extra, _) => if scope < extra then scope else scope + 1

/-- The second scope has in the second machine what the first has in the first. -/
def Faces (scope other : Nat) : Prop :=
  other = veil.place scope ∨ veil.extra = some (other, scope)

/-- From the second scope, code that names none of some variables sees what it sees from the
    first: either these are the hidden ones, or it is not inside of their scope. -/
structure Sees (names : List String) (layout : Layout) (scope other : Nat) : Prop where
  faces : veil.Faces scope other
  inside : other < layout.parents.length
  misses : names = veil.hidden ∨ names = [] ∧ layout.Avoids veil.home other

/-- A name stands for the same variable in both machines. -/
def Visible (layout : Layout) (name : String) (scope : Nat) : Prop :=
  name ∉ veil.hidden ∨ layout.Avoids veil.home scope

/-- Scopes with the same shown variables, in places seen alike. -/
structure SameScope (scope : Nat) (entry other : Scope) : Prop where
  vars : veil.shown (veil.place scope) other.vars = veil.shown (veil.place scope) entry.vars
  clean : ∀ var ∈ veil.shown (veil.place scope) entry.vars, veil.Clean var.2
  parent : (entry.parent = none ∧ other.parent = none) ∨
    ∃ around outside, entry.parent = some around ∧ other.parent = some outside ∧
      veil.Faces around outside ∧ around < scope ∧ outside < veil.place scope

/-- The scopes of two machines.  Scopes are made after those around them. -/
structure SameScopes (scopes others : Array Scope) : Prop where
  size : others.size = veil.place scopes.size
  same : ∀ (scope : Nat) (entry : Scope), scopes[scope]? = some entry →
    ∃ other, others[veil.place scope]? = some other ∧ veil.SameScope scope entry other
  extra : ∀ extra around, veil.extra = some (extra, around) → around < extra ∧ extra ≤ scopes.size ∧
    ∃ other, others[extra]? = some other ∧ veil.shown extra other.vars = [] ∧
      other.parent = some around
  home : veil.hidden ≠ [] →
    ∃ other, others[veil.home]? = some other ∧ veil.covered other.vars = veil.held

/-- Two machines look alike through a veil. -/
structure Alike (machine other : Machine) : Prop where
  objects : other.objects = machine.objects
  sequences : other.sequences = machine.sequences
  statics : other.statics = machine.statics
  initialized : other.initialized = machine.initialized
  output : other.output = machine.output
  depth : other.depth = machine.depth
  closuresSize : other.closures.size = machine.closures.size
  closures : ∀ (address : Nat) (closure : Closure), machine.closures[address]? = some closure →
    address ∉ veil.closures → ∃ same, other.closures[address]? = some same ∧
      ∃ names, Closure.Twin names (veil.Sees names (.of other.scopes)) veil.Clean closure same
  scopes : veil.SameScopes machine.scopes other.scopes
  cleanObjects : ∀ (address : Nat) (object : Object), machine.objects[address]? = some object →
    veil.objects address = none → ∀ field ∈ object.fields, veil.Clean field.2
  cleanSequences : ∀ (address : Nat) (sequence : Sequence),
    machine.sequences[address]? = some sequence → veil.sequences address = none →
      ∀ item ∈ sequence.items, veil.Clean item
  cleanStatics : ∀ entry ∈ machine.statics, veil.Clean entry.2
  keptObjects : ∀ (address : Nat) (object : Object), veil.objects address = some object →
    machine.objects[address]? = some object
  keptSequences : ∀ (address : Nat) (sequence : Sequence),
    veil.sequences address = some sequence → machine.sequences[address]? = some sequence
  madeClosures : ∀ address ∈ veil.closures, address < machine.closures.size

variable {veil} {now later : Layout} {names : List String}

/-! ## Variables of a scope -/

variable {keep : String × Value → Bool}

theorem lookup_filter {name : String} (kept : ∀ value, keep (name, value) = true) :
    (vars.filter keep).lookup name = vars.lookup name := by
  induction vars with
  | nil => rfl
  | cons var rest ih =>
    obtain ⟨other, value⟩ := var
    rw [lookup_cons]
    by_cases same : name = other
    · subst same
      rw [filter_cons_of_pos (kept value), lookup_cons, beq_self_eq_true]
    · have differs : (name == other) = false := beq_eq_false_iff_ne.mpr same
      rw [differs, filter_cons]
      split
      · rw [lookup_cons, differs]
        exact ih
      · exact ih

theorem filter_assocSet {name : String} (kept : ∀ value, keep (name, value) = true) {value : Value} :
    (assocSet name value vars).filter keep = assocSet name value (vars.filter keep) := by
  induction vars with
  | nil => exact filter_cons_of_pos (kept value)
  | cons var rest ih =>
    obtain ⟨other, old⟩ := var
    by_cases same : other = name
    · subst same
      rw [assocSet, if_pos (beq_self_eq_true _), filter_cons_of_pos (kept value),
        filter_cons_of_pos (kept old), assocSet, if_pos (beq_self_eq_true _)]
    · have differs : ¬ (other == name) = true := by simpa using same
      rw [assocSet, if_neg differs, filter_cons, filter_cons]
      split
      · rw [ih, assocSet, if_neg differs]
      · exact ih

theorem filter_assocSet_of_not {name : String} (dropped : ∀ value, keep (name, value) = false)
    {value : Value} :
    (assocSet name value vars).filter keep = vars.filter keep := by
  have drops (value : Value) : ¬ keep (name, value) = true := by simp [dropped]
  induction vars with
  | nil => exact filter_cons_of_neg (drops value)
  | cons var rest ih =>
    obtain ⟨other, old⟩ := var
    by_cases same : other = name
    · subst same
      rw [assocSet, if_pos (beq_self_eq_true _), filter_cons_of_neg (drops value),
        filter_cons_of_neg (drops old)]
    · have differs : ¬ (other == name) = true := by simpa using same
      rw [assocSet, if_neg differs, filter_cons, filter_cons, ih]

theorem mem_assocSet {κ α : Type} [BEq κ] {key : κ} {value : α} {entries : List (κ × α)}
    {entry : κ × α} (isIn : entry ∈ assocSet key value entries) :
    entry = (key, value) ∨ entry ∈ entries := by
  induction entries with
  | nil => exact .inl (mem_singleton.mp isIn)
  | cons first rest ih =>
    obtain ⟨other, old⟩ := first
    rw [assocSet] at isIn
    split at isIn
    · rcases mem_cons.mp isIn with isNew | isRest
      · exact .inl isNew
      · exact .inr (mem_cons_of_mem _ isRest)
    · rcases mem_cons.mp isIn with isFirst | isRest
      · exact .inr (isFirst ▸ mem_cons_self ..)
      · rcases ih isRest with isNew | isOld
        · exact .inl isNew
        · exact .inr (mem_cons_of_mem _ isOld)

variable {name : String} {value : Value} {scopes others : Array Scope} {parent outer : Option Nat}

theorem shown_lookup {scope : Nat} (visible : name ∉ veil.hidden ∨ scope ≠ veil.home)
    (vars : List (String × Value)) : (veil.shown scope vars).lookup name = vars.lookup name := by
  unfold shown
  split
  · next isHome =>
      have shows : name ∉ veil.hidden := visible.resolve_right (not_not.mpr isHome)
      exact lookup_filter (fun _ => by simpa using shows)
  · rfl

theorem shown_assocSet {scope : Nat} (visible : name ∉ veil.hidden ∨ scope ≠ veil.home) :
    veil.shown scope (assocSet name value vars) = assocSet name value (veil.shown scope vars) := by
  unfold shown
  split
  · next isHome =>
      have shows : name ∉ veil.hidden := visible.resolve_right (not_not.mpr isHome)
      exact filter_assocSet (fun _ => by simpa using shows)
  · rfl

theorem covered_assocSet (visible : name ∉ veil.hidden) :
    veil.covered (assocSet name value vars) = veil.covered vars :=
  filter_assocSet_of_not (fun _ => by simpa using visible)

theorem clean_of_lookup {scope : Nat} (visible : name ∉ veil.hidden ∨ scope ≠ veil.home)
    (clean : ∀ var ∈ veil.shown scope vars, veil.Clean var.2) (found : vars.lookup name = some value) :
    veil.Clean value := by
  rw [← shown_lookup visible] at found
  obtain ⟨before, after, isShown, -⟩ := lookup_eq_some_iff.mp found
  refine clean (name, value) ?_
  rw [isShown]
  exact mem_append_right _ (mem_cons_self ..)

theorem Sees.mono {scope other : Nat} (sees : veil.Sees names now scope other) (le : now ≤ later) :
    veil.Sees names later scope other where
  faces := sees.faces
  inside := sees.inside.trans_le le.length_le
  misses := sees.misses.imp_right (And.imp_right fun avoids => avoids.mono le)

theorem Sees.visible {scope other : Nat} (sees : veil.Sees names now scope other)
    (unnamed : name ∉ names) : veil.Visible now name other := by
  rcases sees.misses with rfl | ⟨-, avoids⟩
  · exact .inl unnamed
  · exact .inr avoids

theorem Visible.own {scope : Nat} (visible : veil.Visible now name scope) :
    name ∉ veil.hidden ∨ scope ≠ veil.home := visible.imp_right Layout.Avoids.ne

theorem Visible.around {scope around : Nat} (visible : veil.Visible now name scope)
    (isThere : now.parents[scope]? = some (some around)) : veil.Visible now name around :=
  visible.imp_right fun avoids => avoids.around isThere

/-! ## Places of scopes -/

theorem place_lt_iff (scope other : Nat) : veil.place scope < veil.place other ↔ scope < other := by
  unfold place
  split
  · rfl
  · split <;> split <;> omega

theorem place_inj {scope other : Nat} : veil.place scope = veil.place other ↔ scope = other := by
  constructor
  · intro same
    have below := veil.place_lt_iff scope other
    have above := veil.place_lt_iff other scope
    omega
  · rintro rfl
    rfl

theorem place_ne_extra {scope extra around : Nat} (isExtra : veil.extra = some (extra, around)) :
    veil.place scope ≠ extra := by
  unfold place
  rw [isExtra]
  dsimp only
  split <;> omega

theorem Faces.lt_iff {scope other : Nat} (faces : veil.Faces scope other)
    (same : veil.SameScopes scopes others) : other < others.size ↔ scope < scopes.size := by
  rcases faces with rfl | isExtra
  · rw [same.size]
    exact veil.place_lt_iff _ _
  · obtain ⟨before, within, entry, isThere, -⟩ := same.extra _ _ isExtra
    have := (Array.getElem?_eq_some_iff.mp isThere).1
    omega

namespace SameScopes

variable {scopes others : Array Scope} (same : veil.SameScopes scopes others)

include same

theorem none_iff {scope : Nat} : others[veil.place scope]? = none ↔ scopes[scope]? = none := by
  rw [Array.getElem?_eq_none_iff, Array.getElem?_eq_none_iff, same.size]
  have := veil.place_lt_iff scope scopes.size
  omega

/-- A variable is found in the same place, and is not one of the hidden ones. -/
theorem findScope? {scope other steps more : Nat} (faces : veil.Faces scope other)
    (visible : veil.Visible (.of others) name other) (enough : scope < steps)
    (sufficient : other < more) :
    Machine.findScope? others name more other =
        (Machine.findScope? scopes name steps scope).map veil.place ∧
      ∀ found ∈ Machine.findScope? scopes name steps scope,
        name ∉ veil.hidden ∨ veil.place found ≠ veil.home := by
  induction scope using Nat.strongRecOn generalizing other steps more with
  | ind scope ih =>
    have direct {more : Nat} (visible : veil.Visible (.of others) name (veil.place scope))
        (sufficient : veil.place scope < more) :
        Machine.findScope? others name more (veil.place scope) =
            (Machine.findScope? scopes name steps scope).map veil.place ∧
          ∀ found ∈ Machine.findScope? scopes name steps scope,
            name ∉ veil.hidden ∨ veil.place found ≠ veil.home := by
      obtain ⟨steps, rfl⟩ : ∃ rest, steps = rest + 1 := ⟨steps - 1, by omega⟩
      obtain ⟨more, rfl⟩ : ∃ rest, more = rest + 1 := ⟨more - 1, by omega⟩
      rw [Machine.findScope?, Machine.findScope?]
      cases isThere : scopes[scope]? with
      | none =>
        rw [same.none_iff.mpr isThere]
        exact ⟨rfl, by simp⟩
      | some entry =>
        obtain ⟨twin, isTwin, alike⟩ := same.same scope entry isThere
        rw [isTwin]
        dsimp only
        rw [← shown_lookup visible.own twin.vars, alike.vars, shown_lookup visible.own]
        split
        · refine ⟨rfl, fun found isFound => ?_⟩
          cases isFound
          exact visible.own
        · rcases alike.parent with ⟨noParent, noOther⟩ |
            ⟨around, outside, isAround, isOutside, faces, before, earlier⟩
          · rw [noParent, noOther]
            exact ⟨rfl, by simp⟩
          · rw [isAround, isOutside]
            refine ih around before faces (visible.around ?_) (by omega) (by omega)
            rw [Layout.parents_of, isTwin, Option.map_some, isOutside]
    rcases faces with rfl | isExtra
    · exact direct visible sufficient
    · obtain ⟨before, -, entry, isThere, bare, isAround⟩ := same.extra _ _ isExtra
      obtain ⟨more, rfl⟩ : ∃ rest, more = rest + 1 := ⟨more - 1, by omega⟩
      have isPlace : veil.place scope = scope := by
        rw [place, isExtra]
        exact if_pos before
      have visibleAround : veil.Visible (.of others) name (veil.place scope) := by
        rw [isPlace]
        refine visible.around ?_
        rw [Layout.parents_of, isThere, Option.map_some, isAround]
      have isBelow : veil.place scope < more := by omega
      have hop := direct visibleAround isBelow
      rw [isPlace] at hop
      rw [Machine.findScope?, isThere]
      dsimp only
      rw [← shown_lookup visible.own entry.vars, bare, isAround]
      exact hop

theorem setIn {home : Nat} (visible : name ∉ veil.hidden ∨ veil.place home ≠ veil.home)
    (clean : veil.Clean value) :
    veil.SameScopes (Machine.setIn scopes home name value)
      (Machine.setIn others (veil.place home) name value) where
  size := by
    rw [Machine.setIn, Machine.setIn, Array.size_modify, Array.size_modify]
    exact same.size
  same scope entry isThere := by
    rw [Machine.getElem?_setIn, Option.map_eq_some_iff] at isThere
    obtain ⟨old, isOld, rfl⟩ := isThere
    obtain ⟨twin, isTwin, alike⟩ := same.same scope old isOld
    refine ⟨_, by rw [Machine.getElem?_setIn, isTwin, Option.map_some], ?_⟩
    by_cases isHome : scope = home
    · subst isHome
      rw [if_pos rfl, if_pos rfl]
      refine ⟨?_, fun var isIn => ?_, alike.parent⟩
      · rw [shown_assocSet visible, shown_assocSet visible, alike.vars]
      · rw [shown_assocSet visible] at isIn
        rcases mem_assocSet isIn with rfl | isOld
        · exact clean
        · exact alike.clean var isOld
    · rw [if_neg (mt place_inj.mp isHome), if_neg isHome]
      exact alike
  extra extra around isExtra := by
    obtain ⟨before, within, entry, isThere, bare, parent⟩ := same.extra extra around isExtra
    refine ⟨before, ?_, entry, ?_, bare, parent⟩
    · rw [Machine.setIn, Array.size_modify]
      exact within
    · rw [Machine.getElem?_setIn, isThere, Option.map_some, if_neg (place_ne_extra isExtra).symm]
  home hides := by
    obtain ⟨entry, isThere, isHeld⟩ := same.home hides
    refine ⟨_, by rw [Machine.getElem?_setIn, isThere, Option.map_some], ?_⟩
    rw [← isHeld]
    split
    · next isHome => exact covered_assocSet (visible.resolve_right (not_not.mpr isHome.symm))
    · rfl

theorem push (faces : (parent = none ∧ outer = none) ∨ ∃ around outside, parent = some around ∧
      outer = some outside ∧ veil.Faces around outside ∧ outside < others.size) :
    veil.SameScopes (scopes.push ⟨[], parent⟩) (others.push ⟨[], outer⟩) := by
  have isPlace : veil.place (scopes.size + 1) = veil.place scopes.size + 1 := by
    cases isExtra : veil.extra with
    | none => rw [place, place, isExtra]
    | some extra =>
      obtain ⟨extra, around⟩ := extra
      obtain ⟨-, within, -⟩ := same.extra extra around isExtra
      rw [place, place, isExtra]
      dsimp only
      rw [if_neg (by omega), if_neg (by omega)]
  refine ⟨?_, ?_, ?_, ?_⟩
  · rw [Array.size_push, Array.size_push, same.size, isPlace]
  · intro scope entry isThere
    rw [Array.getElem?_push] at isThere
    split at isThere
    · next isNew =>
        cases isThere
        refine ⟨⟨[], outer⟩, by rw [Array.getElem?_push, isNew, if_pos same.size.symm], ?_⟩
        have bare : veil.shown (veil.place scope) [] = [] := by simp [shown]
        refine ⟨rfl, fun var isIn => ?_, ?_⟩
        · rw [bare] at isIn
          cases isIn
        rcases faces with noParent | ⟨around, outside, isAround, isOutside, faces, before⟩
        · exact .inl noParent
        · refine .inr ⟨around, outside, isAround, isOutside, faces, ?_, ?_⟩
          · rw [isNew]
            exact (faces.lt_iff same).mp before
          · rw [isNew, ← same.size]
            exact before
    · next notNew =>
        obtain ⟨twin, isTwin, alike⟩ := same.same scope entry isThere
        refine ⟨twin, ?_, alike⟩
        rw [Array.getElem?_push, if_neg (by rw [same.size]; exact mt place_inj.mp notNew)]
        exact isTwin
  · intro extra around isExtra
    obtain ⟨before, within, entry, isThere, bare, parent⟩ := same.extra extra around isExtra
    refine ⟨before, ?_, entry, Array.getElem?_push_of_some isThere, bare, parent⟩
    rw [Array.size_push]
    omega
  · intro hides
    obtain ⟨entry, isThere, isHeld⟩ := same.home hides
    exact ⟨entry, Array.getElem?_push_of_some isThere, isHeld⟩

end SameScopes

theorem Alike.withScopes {machine other : Machine} (alike : veil.Alike machine other)
    (same : veil.SameScopes scopes others) (le : Layout.of other.scopes ≤ .of others) :
    veil.Alike { machine with scopes } { other with scopes := others } :=
  { alike with
    scopes := same
    closures := fun address closure isThere seen => by
      obtain ⟨twin, isTwin, names, matched⟩ := alike.closures address closure isThere seen
      exact ⟨twin, isTwin, names, matched.imp (fun sees => sees.mono le) id⟩ }

/-! ## Addresses that are made -/

namespace Alike

variable {machine other : Machine} (alike : veil.Alike machine other)

include alike

theorem objects_size : veil.objects machine.objects.size = none := by
  cases isHidden : veil.objects machine.objects.size with
  | none => rfl
  | some object =>
    have isThere := alike.keptObjects _ object isHidden
    rw [Array.getElem?_eq_none (Nat.le_refl _)] at isThere
    cases isThere

theorem sequences_size : veil.sequences machine.sequences.size = none := by
  cases isHidden : veil.sequences machine.sequences.size with
  | none => rfl
  | some sequence =>
    have isThere := alike.keptSequences _ sequence isHidden
    rw [Array.getElem?_eq_none (Nat.le_refl _)] at isThere
    cases isThere

/-- The objects of both machines after a change that leaves the hidden ones alone. -/
theorem withObjects {objects : Array Object}
    (clean : ∀ (address : Nat) (object : Object), objects[address]? = some object →
      veil.objects address = none → ∀ field ∈ object.fields, veil.Clean field.2)
    (kept : ∀ (address : Nat) (object : Object), veil.objects address = some object →
      objects[address]? = some object) :
    veil.Alike { machine with objects } { other with objects } :=
  { alike with objects := rfl, cleanObjects := clean, keptObjects := kept }

theorem withSequences {sequences : Array Sequence}
    (clean : ∀ (address : Nat) (sequence : Sequence), sequences[address]? = some sequence →
      veil.sequences address = none → ∀ item ∈ sequence.items, veil.Clean item)
    (kept : ∀ (address : Nat) (sequence : Sequence), veil.sequences address = some sequence →
      sequences[address]? = some sequence) :
    veil.Alike { machine with sequences } { other with sequences } :=
  { alike with sequences := rfl, cleanSequences := clean, keptSequences := kept }

end Alike

/-! ## Operations of the machine -/

/-- Runs on machines that look alike.  What is around the scopes there are never changes. -/
@[reducible]
def tandem (veil : Veil) : Tandem where
  Couples := veil.Alike
  Leads before after := Layout.of before.2.scopes ≤ .of after.2.scopes
  Time := Layout
  order := inferInstance
  time machines := .of machines.2.scopes
  Holds _ := veil.Clean
  Sees := veil.Sees
  Twins names now scope other := other = veil.place scope ∧ veil.Sees names now scope other
  lags := some veil.lags
  refl _ := le_rfl
  trans := le_trans
  further := id
  mono _ := id
  sees_mono le sees := sees.mono le
  twins_mono le := And.imp_right (Sees.mono · le)
  sees := And.right

namespace Agree

open Tandem.Agree

variable {scope address : Nat}

theorem lookupVar? {other : Nat} (unnamed : name ∉ names) (sees : veil.Sees names now scope other) :
    veil.tandem.Agree now (Same veil.tandem.Finds) (Machine.lookupVar? scope name)
      (Machine.lookupVar? other name) := by
  refine get_bind fun machine same alike enough => ?_
  obtain ⟨found, visible⟩ := alike.scopes.findScope? sees.faces ((sees.mono enough).visible unnamed)
    (Nat.lt_add_one _) (Nat.lt_add_one _)
  dsimp only
  rw [found]
  cases isHome : Machine.findScope? machine.scopes name (scope + 1) scope with
  | none => exact pure fun _ _ => ⟨rfl, nofun⟩
  | some home =>
    have visible := visible home isHome
    obtain ⟨entry, isThere, -⟩ := Machine.findScope?_declares isHome
    obtain ⟨twin, isTwin, sameScope⟩ := alike.scopes.same home entry isThere
    refine pure fun _ _ => ⟨?_, fun value isValue => ?_⟩
    · rw [Array.getD_eq_getD_getElem?, Array.getD_eq_getD_getElem?, isThere, isTwin,
        Option.getD_some, Option.getD_some, ← shown_lookup visible twin.vars, sameScope.vars,
        shown_lookup visible]
    · rw [Array.getD_eq_getD_getElem?, isThere] at isValue
      exact clean_of_lookup visible sameScope.clean isValue

theorem declareVar (visible : name ∉ veil.hidden ∨ veil.place scope ≠ veil.home)
    (clean : veil.Clean value) :
    veil.tandem.Agree now (Same Anything) (Machine.declareVar scope name value)
      (Machine.declareVar (veil.place scope) name value) :=
  modified (fun _ _ alike _ => alike.withScopes (alike.scopes.setIn visible clean) Layout.le_setIn)
    fun _ _ => Layout.le_setIn

theorem assignVar {other : Nat} (unnamed : name ∉ names) (clean : veil.Clean value)
    (sees : veil.Sees names now scope other) :
    veil.tandem.Agree now (Same Anything) (Machine.assignVar scope name value)
      (Machine.assignVar other name value) := by
  refine get_bind fun machine same alike enough => ?_
  obtain ⟨found, visible⟩ := alike.scopes.findScope? sees.faces ((sees.mono enough).visible unnamed)
    (Nat.lt_add_one _) (Nat.lt_add_one _)
  rw [found]
  cases isHome : Machine.findScope? machine.scopes name (scope + 1) scope with
  | none => exact done _
  | some home => exact (declareVar (visible home isHome) clean).andThen (done _)

theorem newScope (sees : (parent = none ∧ outer = none ∧ names = []) ∨
      ∃ around outside, parent = some around ∧ outer = some outside ∧
        veil.Sees names now around outside) :
    veil.tandem.Agree now (veil.tandem.Twins names) (Machine.newScope parent)
      (Machine.newScope outer) := by
  intro machine same alike enough
  have grown : Layout.of same.scopes ≤ .of (same.scopes.push ⟨[], outer⟩) := Layout.le_push _
  have isThere : (Layout.of (same.scopes.push ⟨[], outer⟩)).parents[same.scopes.size]? = some outer := by
    rw [Layout.parents_of, Array.getElem?_push, if_pos rfl]
    rfl
  have differs (hides : veil.hidden ≠ []) : same.scopes.size ≠ veil.home := by
    obtain ⟨entry, isHome, -⟩ := alike.scopes.home hides
    have := (Array.getElem?_eq_some_iff.mp isHome).1
    omega
  have pushed : veil.SameScopes (machine.scopes.push ⟨[], parent⟩) (same.scopes.push ⟨[], outer⟩) := by
    refine alike.scopes.push (sees.imp (fun alone => ⟨alone.1, alone.2.1⟩) ?_)
    rintro ⟨around, outside, isAround, isOutside, sees⟩
    exact ⟨around, outside, isAround, isOutside, sees.faces,
      (sees.mono enough).inside.trans_eq Layout.length_of⟩
  have size : same.scopes.size = veil.place machine.scopes.size := alike.scopes.size
  refine .inr ⟨alike.withScopes pushed grown, grown, size, .inl size, ?_, ?_⟩
  · change same.scopes.size < (Layout.of (same.scopes.push ⟨[], outer⟩)).parents.length
    rw [Layout.length_of, Array.size_push]
    exact Nat.lt_succ_self _
  · change names = veil.hidden ∨ names = [] ∧
      (Layout.of (same.scopes.push ⟨[], outer⟩)).Avoids veil.home same.scopes.size
    by_cases hides : veil.hidden = []
    · rcases sees with ⟨-, -, rfl⟩ | ⟨_, _, -, -, sees⟩
      · exact .inl hides.symm
      · rcases sees.misses with isHidden | ⟨rfl, -⟩
        · exact .inl isHidden
        · exact .inl hides.symm
    · rcases sees with ⟨-, rfl, rfl⟩ | ⟨around, outside, -, rfl, sees⟩
      · exact .inr ⟨rfl, .outermost (differs hides) isThere⟩
      · refine sees.misses.imp_right (And.imp_right fun avoids => ?_)
        exact .within (differs hides) isThere (avoids.mono (enough.trans grown))

theorem object {address : Nat} (seen : veil.objects address = none) :
    veil.tandem.Agree now (Same fun _ object => ∀ field ∈ object.fields, veil.Clean field.2)
      (Machine.object address) (Machine.object address) := by
  refine get_bind fun machine same alike _ => ?_
  rw [alike.objects]
  refine pure fun _ _ => ⟨rfl, ?_⟩
  rw [Array.getD_eq_getD_getElem?]
  cases isThere : machine.objects[address]? with
  | none => exact fun _ => nofun
  | some object => exact alike.cleanObjects address object isThere seen

theorem allocObject {className : String} {isStruct : Bool} {fields : List (String × Value)}
    (clean : ∀ field ∈ fields, veil.Clean field.2) :
    veil.tandem.Agree now (Same veil.tandem.Holds) (Machine.allocObject className isStruct fields)
      (Machine.allocObject className isStruct fields) := by
  intro machine same alike enough
  have alikeNow : veil.Alike { machine with objects := machine.objects.push ⟨className, fields, isStruct⟩ }
      { same with objects := machine.objects.push ⟨className, fields, isStruct⟩ } := alike.withObjects
    (fun address object isThere seen => by
      rw [Array.getElem?_push] at isThere
      split at isThere
      · cases isThere
        exact clean
      · exact alike.cleanObjects address object isThere seen)
    (fun address object isHidden =>
      Array.getElem?_push_of_some (alike.keptObjects address object isHidden))
  refine .inr ⟨?_, le_rfl, congrArg Value.object ?_, alike.objects_size⟩
  · change veil.Alike _ { same with objects := same.objects.push ⟨className, fields, isStruct⟩ }
    rw [alike.objects]
    exact alikeNow
  · rw [alike.objects]

theorem setField (seen : veil.objects address = none) (clean : veil.Clean value) :
    veil.tandem.Agree now (Same Anything) (Machine.setField address name value)
      (Machine.setField address name value) := by
  refine modified (fun machine same alike _ => ?_) fun _ _ => le_rfl
  rw [alike.objects]
  refine alike.withObjects (fun other object isThere seenOther => ?_) fun other object isHidden => ?_
  · rw [Array.getElem?_modify] at isThere
    split at isThere
    · obtain ⟨old, isOld, rfl⟩ := Option.map_eq_some_iff.mp isThere
      intro field isField
      rcases mem_assocSet isField with rfl | isOldField
      · exact clean
      · exact alike.cleanObjects other old isOld seenOther field isOldField
    · exact alike.cleanObjects other object isThere seenOther
  · have differs : address ≠ other := by
      rintro rfl
      rw [seen] at isHidden
      cases isHidden
    rw [Array.getElem?_modify, if_neg differs]
    exact alike.keptObjects other object isHidden

theorem sequence (seen : veil.sequences address = none) :
    veil.tandem.Agree now (Same fun later list => veil.tandem.HoldsAll later list.items)
      (Machine.sequence address) (Machine.sequence address) := by
  refine get_bind fun machine same alike _ => ?_
  rw [alike.sequences]
  refine pure fun _ _ => ⟨rfl, ?_⟩
  rw [Array.getD_eq_getD_getElem?]
  cases isThere : machine.sequences[address]? with
  | none => exact fun _ => nofun
  | some sequence => exact alike.cleanSequences address sequence isThere seen

theorem allocSequence {isArray : Bool} (clean : ∀ item ∈ items, veil.Clean item) :
    veil.tandem.Agree now (Same veil.tandem.Holds) (Machine.allocSequence isArray items)
      (Machine.allocSequence isArray items) := by
  intro machine same alike enough
  have alikeNow : veil.Alike { machine with sequences := machine.sequences.push ⟨items, isArray⟩ }
      { same with sequences := machine.sequences.push ⟨items, isArray⟩ } := alike.withSequences
    (fun address sequence isThere seen => by
      rw [Array.getElem?_push] at isThere
      split at isThere
      · cases isThere
        exact clean
      · exact alike.cleanSequences address sequence isThere seen)
    (fun address sequence isHidden =>
      Array.getElem?_push_of_some (alike.keptSequences address sequence isHidden))
  refine .inr ⟨?_, le_rfl, congrArg Value.list ?_, alike.sequences_size⟩
  · change veil.Alike _ { same with sequences := same.sequences.push ⟨items, isArray⟩ }
    rw [alike.sequences]
    exact alikeNow
  · rw [alike.sequences]

theorem setItems (seen : veil.sequences address = none) (clean : ∀ item ∈ items, veil.Clean item) :
    veil.tandem.Agree now (Same Anything) (Machine.setItems address items)
      (Machine.setItems address items) := by
  refine modified (fun machine same alike _ => ?_) fun _ _ => le_rfl
  rw [alike.sequences]
  refine alike.withSequences (fun other sequence isThere seenOther => ?_)
    fun other sequence isHidden => ?_
  · rw [Array.getElem?_modify] at isThere
    split at isThere
    · obtain ⟨old, isOld, rfl⟩ := Option.map_eq_some_iff.mp isThere
      exact clean
    · exact alike.cleanSequences other sequence isThere seenOther
  · have differs : address ≠ other := by
      rintro rfl
      rw [seen] at isHidden
      cases isHidden
    rw [Array.getElem?_modify, if_neg differs]
    exact alike.keptSequences other sequence isHidden

theorem allocClosure {closure other : Closure} (same : veil.tandem.SameClosure names now closure other) :
    veil.tandem.Agree now (Same veil.tandem.Holds) (Machine.allocClosure closure)
      (Machine.allocClosure other) := by
  intro machine twin alike enough
  refine .inr ⟨{ alike with closuresSize := ?_, closures := ?_, madeClosures := ?_ }, le_rfl,
    congrArg Value.closure ?_, fun isHidden => Nat.lt_irrefl _ (alike.madeClosures _ isHidden)⟩
  · change (twin.closures.push other).size = (machine.closures.push closure).size
    rw [Array.size_push, Array.size_push, alike.closuresSize]
  · intro address entry isThere isSeen
    change (machine.closures.push closure)[address]? = some entry at isThere
    change ∃ same, (twin.closures.push other)[address]? = some same ∧ _
    rw [Array.getElem?_push] at isThere
    split at isThere
    · next isNew =>
        cases isThere
        refine ⟨other, ?_, names, same.imp (fun sees => sees.mono enough) id⟩
        rw [Array.getElem?_push, if_pos (isNew.trans alike.closuresSize.symm)]
    · obtain ⟨found, isFound, matched⟩ := alike.closures address entry isThere isSeen
      exact ⟨found, Array.getElem?_push_of_some isFound, matched⟩
  · intro address isHidden
    change address < (machine.closures.push closure).size
    rw [Array.size_push]
    exact Nat.lt_succ_of_lt (alike.madeClosures address isHidden)
  · exact alike.closuresSize.symm

theorem static? : veil.tandem.Agree now (Same veil.tandem.Finds)
      (Machine.static? typeName name) (Machine.static? typeName name) := by
  refine get_bind fun machine same alike _ => ?_
  rw [alike.statics]
  refine pure fun _ _ => ⟨rfl, fun value isValue => ?_⟩
  obtain ⟨before, after, isStatics, -⟩ := lookup_eq_some_iff.mp isValue
  refine alike.cleanStatics ((typeName, name), value) ?_
  rw [isStatics]
  exact mem_append_right _ (mem_cons_self ..)

theorem setStatic (clean : veil.Clean value) :
    veil.tandem.Agree now (Same Anything) (Machine.setStatic typeName name value)
      (Machine.setStatic typeName name value) := by
  refine modified (fun machine same alike _ => ?_) fun _ _ => le_rfl
  refine { alike with statics := ?_, cleanStatics := fun entry isIn => ?_ }
  · rw [alike.statics]
  · rcases mem_assocSet isIn with rfl | isOld
    · exact clean
    · exact alike.cleanStatics entry isOld

theorem print (text : String) :
    veil.tandem.Agree now (Same Anything) (Machine.print text) (Machine.print text) :=
  modified (fun _ _ alike _ => { alike with output := by rw [alike.output] }) fun _ _ => le_rfl

end Agree

theorem Alike.sameClosure {machine same : Machine} {address : Nat} (alike : veil.Alike machine same)
    (seen : address ∉ veil.closures) :
    Option.Rel (fun closure other =>
        ∃ names, veil.tandem.SameClosure names (.of same.scopes) closure other)
      machine.closures[address]? same.closures[address]? := by
  cases isThere : machine.closures[address]? with
  | none =>
    have isMissing : same.closures[address]? = none := by
      rw [Array.getElem?_eq_none_iff, alike.closuresSize]
      exact Array.getElem?_eq_none_iff.mp isThere
    rw [isMissing]
    exact .none
  | some closure =>
    obtain ⟨twin, isTwin, matched⟩ := alike.closures address closure isThere seen
    rw [isTwin]
    exact .some matched

instance lawful : veil.tandem.Lawful where
  objects := Alike.objects
  sequences := Alike.sequences
  initialized := Alike.initialized
  plain {_ value} leadsNowhere := by
    cases value with
    | object | list | closure | tuple => cases leadsNowhere
    | _ => trivial
  tuple := veil.cleanAll_iff
  object := Agree.object
  allocObject := Agree.allocObject
  setField := Agree.setField
  sequence := Agree.sequence
  allocSequence := Agree.allocSequence
  setItems := Agree.setItems
  closures := Alike.sameClosure
  allocClosure := Agree.allocClosure
  rootScope := Agree.newScope (.inl ⟨rfl, rfl, rfl⟩)
  childScope sees := Agree.newScope (.inr ⟨_, _, rfl, rfl, sees⟩)
  lookupVar? := Agree.lookupVar?
  declareVar unnamed clean twins := by
    obtain ⟨rfl, sees⟩ := twins
    exact Agree.declareVar (sees.visible unnamed).own clean
  assignVar := Agree.assignVar
  static? _ _ := Agree.static?
  setStatic _ _ := Agree.setStatic
  begin className := Tandem.Agree.modified
    (fun _ _ alike _ => { alike with initialized := congrArg (className :: ·) alike.initialized })
    fun _ _ => le_rfl
  print := Agree.print
  depth := Alike.depth
  time_depth _ _ _ _ := rfl
  enter alike _ := { alike with depth := rfl }
  leave _ alike leads := ⟨{ alike with depth := congrArg (· - 1) alike.depth }, leads⟩

end Veil

end Unsugar
