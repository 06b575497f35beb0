import Unsugar.Proofs.Types.FoundTypes

open List

namespace Unsugar

/-! # Searching for members

Three searches go along the bases of a type: one for all members of a name, one for the
first of them, and one for the first along the bases alone.  The first two do not leave an
interface or a type parameter and look at `object` last, whatever the bases are; so they
agree.  The third goes on from interfaces, but to nowhere but `object`.
-/

variable {limit : Nat} {names : TypeNames} {data : TypeData}

namespace Universe

variable (types : Universe)

/-! ## Along the bases -/

def next? (type : Ty) : Option Ty :=
  if types.isOpen type then none else (types.data type).base

/-- The type that is so many steps along the bases. -/
def ancestor? : Nat → Ty → Option Ty
  | 0, type => some type
  | depth + 1, type => (types.next? type).bind (ancestor? depth)

def Declares (name : String) (type : Ty) : Prop :=
  ∃ member ∈ (types.data type).members, member.name = name

/-- No type within reach of a search declares the name. -/
def Lacks (type : Ty) (name : String) (limit : Nat) : Prop :=
  ∀ depth < limit, ∀ step, types.ancestor? depth type = some step → ¬ types.Declares name step

/-- `types.Shows type name owner`: the members of this name that a type shows are those of
    `owner`, the nearest type along its bases that declares any.  Where there is none it is
    `object`, for all types but unknown ones. -/
inductive Shows (type : Ty) (name : String) : Ty → Prop where
  | along {depth : Nat} {owner : Ty} (near : depth < chainLimit)
      (isOwner : types.ancestor? depth type = some owner) (declares : types.Declares name owner)
      (nearest : types.Lacks type name depth) : Shows type name owner
  | object (notObject : type ≠ .object) (known : types.shape type ≠ .unknown)
      (declares : types.Declares name .object) (nowhere : types.Lacks type name chainLimit) :
      Shows type name .object

variable {types} {type owner : Ty} {name : String} {found : MemberInfo}

theorem chain_succ (limit : Nat) : types.chain true (limit + 1) type =
      type :: (types.next? type).elim [] (types.chain true limit) := by
  have opens : (types.shape type == .interfaceType || types.shape type == .typeParam) =
    types.isOpen type := rfl
  rw [chain, next?, Bool.true_and, opens]
  split
  · rfl
  · cases (types.data type).base <;> rfl

theorem chain_getElem? (types : Universe) (type : Ty) (limit depth : Nat) :
    (types.chain true limit type)[depth]? =
      if depth < limit then types.ancestor? depth type else none := by
  induction limit generalizing type depth with
  | zero => rfl
  | succ limit ih =>
    rw [chain_succ]
    cases depth with
    | zero => rfl
    | succ depth =>
      rw [getElem?_cons_succ, ancestor?]
      cases types.next? type with
      | none => simp
      | some base => simpa using ih base depth

/-! ## Members of one type -/

def ownMember? (types : Universe) (name : String) (step : Ty) : Option MemberInfo :=
  (types.data step).members.find? fun member => member.name == name

theorem ownMembers_head? {step : Ty} :
    (types.ownMembers name step).head?.map (·.2) = types.ownMember? name step := by
  rw [ownMembers, head?_map, head?_filter, Option.map_map]
  exact Option.map_id'

theorem ownMembers_eq_nil : types.ownMembers name type = [] ↔ ¬ types.Declares name type := by
  simp [ownMembers, Declares]

def ownMembers? (types : Universe) (name : String) (step : Ty) : Option (List (Ty × MemberInfo)) :=
  match types.ownMembers name step with
  | [] => none
  | members => some members

theorem ownMembers?_eq_none : types.ownMembers? name type = none ↔ ¬ types.Declares name type := by
  rw [ownMembers?, ← ownMembers_eq_nil]
  cases types.ownMembers name type <;> simp

theorem ownMembers?_eq_some {members : List (Ty × MemberInfo)}
    (own : types.ownMembers? name type = some members) :
    members = types.ownMembers name type ∧ types.Declares name type := by
  have declares : types.Declares name type := Classical.byContradiction fun lacks => by
    rw [ownMembers?_eq_none.2 lacks] at own
    cases own
  refine ⟨?_, declares⟩
  rw [ownMembers?] at own
  split at own <;> cases own
  rfl

theorem candidates_eq (types : Universe) {type : Ty} {name : String} : types.candidates type name =
      ((types.chain true chainLimit type).findSome? (types.ownMembers? name)).getD
        (if type = .object ∨ types.shape type = .unknown then [] else types.ownMembers name .object) := by
  unfold candidates
  dsimp only
  split
  · next members isFound =>
      have isOwn : (types.chain true chainLimit type).findSome? (types.ownMembers? name) =
        some members := isFound
      rw [isOwn, Option.getD_some]
  · next missed =>
      have isNone : (types.chain true chainLimit type).findSome? (types.ownMembers? name) = none :=
        missed
      rw [isNone, Option.getD_none]

/-! ## What the searches find -/

theorem findMember?_eq_or (types : Universe) {type : Ty} {name : String} :
    types.findMember? type name =
      ((types.chain true chainLimit type).findSome? (types.ownMember? name)).or
        (if type = .object ∨ types.shape type = .unknown then none
          else types.ownMember? name .object) := by
  unfold findMember?
  dsimp only
  split
  · next member isFound =>
      have isOwn : (types.chain true chainLimit type).findSome? (types.ownMember? name) =
        some member := isFound
      rw [isOwn, Option.some_or]
  · next missed =>
      have isNone : (types.chain true chainLimit type).findSome? (types.ownMember? name) = none :=
        missed
      rw [isNone, Option.none_or]
      rfl

theorem findMember?_eq (types : Universe) (type : Ty) (name : String) :
    types.findMember? type name = (types.candidates type name).head?.map (·.2) := by
  have firsts (steps : List Ty) : steps.findSome? (types.ownMember? name) =
      (steps.findSome? (types.ownMembers? name)).bind fun members => members.head?.map (·.2) := by
    induction steps with
    | nil => rfl
    | cons step rest ih =>
      rw [findSome?_cons, findSome?_cons, ← ownMembers_head?, ownMembers?, ih]
      cases types.ownMembers name step <;> rfl
  rw [findMember?_eq_or, candidates_eq, firsts]
  cases steps : (types.chain true chainLimit type).findSome? (types.ownMembers? name) with
  | none =>
    rw [Option.bind_none, Option.getD_none, Option.none_or]
    split
    · rfl
    · exact ownMembers_head?.symm
  | some members =>
    rw [Option.bind_some, Option.getD_some]
    obtain ⟨step, -, isOwn⟩ := exists_of_findSome?_eq_some steps
    obtain ⟨rfl, declares⟩ := ownMembers?_eq_some isOwn
    cases own : types.ownMembers name step with
    | nil => exact absurd declares (ownMembers_eq_nil.1 own)
    | cons => rfl

theorem lacks_of_chain_append {before after : List Ty}
    (isChain : types.chain true limit type = before ++ after)
    (lack : ∀ step ∈ before, types.ownMembers? name step = none) :
    types.Lacks type name before.length := by
  intro depth isBefore step isStep
  have bound : before.length ≤ limit := Nat.le_of_not_lt fun exceeds => by
    have outside := chain_getElem? types type limit limit
    rw [isChain, if_neg (Nat.lt_irrefl _), getElem?_append_left (by omega)] at outside
    rw [getElem?_eq_none_iff] at outside
    omega
  refine ownMembers?_eq_none.1 (lack step ?_)
  have listed := chain_getElem? types type limit depth
  rw [isChain, getElem?_append_left isBefore, if_pos (by omega), isStep] at listed
  exact mem_of_getElem? listed

theorem shows_of_candidates (shown : types.candidates type name ≠ []) :
    ∃ owner, types.Shows type name owner ∧
      types.candidates type name = types.ownMembers name owner := by
  rw [candidates_eq] at shown ⊢
  cases steps : (types.chain true chainLimit type).findSome? (types.ownMembers? name) with
  | some members =>
    obtain ⟨before, owner, after, isChain, isOwn, earlier⟩ :=
      findSome?_eq_some_iff.1 steps
    obtain ⟨rfl, declares⟩ := ownMembers?_eq_some isOwn
    have listed := chain_getElem? types type chainLimit before.length
    rw [isChain, getElem?_append_right (Nat.le_refl _), Nat.sub_self] at listed
    split at listed
    · next near =>
        have lacks := lacks_of_chain_append isChain earlier
        exact ⟨owner, .along near listed.symm declares lacks, rfl⟩
    · cases listed
  | none =>
    rw [steps, Option.getD_none] at shown
    split at shown
    · exact absurd rfl shown
    · next known =>
        rw [not_or] at known
        rw [Option.getD_none, if_neg (not_or.2 known)]
        have declares : types.Declares name .object :=
          Classical.byContradiction fun lacks => shown (ownMembers_eq_nil.2 lacks)
        refine ⟨.object, .object known.1 known.2 declares fun depth near step isStep => ?_, rfl⟩
        have listed := chain_getElem? types type chainLimit depth
        rw [if_pos near, isStep] at listed
        exact ownMembers?_eq_none.1 (findSome?_eq_none_iff.1 steps step (mem_of_getElem? listed))

/-! ## The types of a unit

Only classes are bases, and interfaces and type parameters have at most `object` for one.
So the search that does not stop at these goes the same way, except to `object`.
-/

/-- What a search along the bases relies on. -/
structure BasesSound (names : TypeNames) (data : TypeData) : Prop where
  isClass : ∀ base, data.base = some base → names.shape base = .classType
  ofOpen : data.shape = .interfaceType ∨ data.shape = .typeParam →
    ∀ base, data.base = some base → base = .object

theorem basesSound_object (isBase : data.base = some .object) :
    BasesSound names data := by
  constructor
  · intro base other
    cases isBase.symm.trans other
    rfl
  · intro _ base other
    cases isBase.symm.trans other
    rfl

theorem basesSound_none (noBase : data.base = none) : BasesSound names data :=
  ⟨fun _ isBase => absurd (noBase.symm.trans isBase) nofun,
    fun _ _ isBase => absurd (noBase.symm.trans isBase) nofun⟩

theorem basesSound_define {decl : TypeDecl} :
    BasesSound names (names.define decl) := by
  have shape : (names.define decl).shape = decl.kind.shape := rfl
  have isBase : (names.define decl).base = some (names.basesOf decl).1 := rfl
  refine ⟨fun base same => ?_, fun isOpen base same => ?_⟩
  · cases isBase.symm.trans same
    rw [TypeNames.basesOf]
    split
    · rfl
    · split
      · next isFirst => exact isFirst.1
      · rfl
  · cases isBase.symm.trans same
    have kind : decl.kind = .interfaceType := by
      rw [shape] at isOpen
      revert isOpen
      cases decl.kind <;> decide
    rw [TypeNames.basesOf]
    split
    · rfl
    · rw [if_neg fun isFirst => isFirst.2 kind]

section Units

variable {unit : CompilationUnit} {vocabulary : Vocabulary}

theorem basesSound_definition {unit : CompilationUnit} {vocabulary : Vocabulary} {index : Nat} :
    BasesSound (unit.typeNames vocabulary)
      ((ofUnit unit vocabulary).definitions[index]?.getD .unknown) := by
  change BasesSound _ ((unit.types.map _).toArray[index]?.getD TypeData.unknown)
  rw [getElem?_toArray, getElem?_map]
  cases unit.types[index]? with
  | none => exact basesSound_none rfl
  | some decl => exact basesSound_define

theorem basesSound_data {type : Ty} :
    BasesSound (unit.typeNames vocabulary) ((ofUnit unit vocabulary).data type) := by
  cases type with
  | declared index => exact basesSound_definition
  | unknown | param name => exact basesSound_none rfl
  | array element | nullable inner | tuple elements => exact basesSound_object rfl
  | prim kind => cases kind <;> first | exact basesSound_none rfl | exact basesSound_object rfl
  | library kind =>
    have isClass : (unit.typeNames vocabulary).shape kind.base = .classType := by
      cases kind <;> rfl
    refine ⟨fun base isBase => Option.some.inj isBase ▸ isClass, fun isOpen => ?_⟩
    cases kind <;> exact isOpen.elim nofun nofun
  | applied name args =>
    have template : (ofUnit unit vocabulary).names.template name =
      (unit.typeNames vocabulary).template name := rfl
    rw [data, template]
    cases (unit.typeNames vocabulary).template name with
    | library kind => cases kind <;> first | exact basesSound_none rfl | exact basesSound_object rfl
    | full index =>
      obtain ⟨isClass, ofOpen⟩ :=
        basesSound_definition
      exact ⟨isClass, ofOpen⟩
    | header index =>
      dsimp only
      split
      · exact basesSound_object rfl
      · exact basesSound_none rfl
    | missing => exact basesSound_none rfl

variable (unit vocabulary) (name)

theorem chain_false {type : Ty} (notOpen : (ofUnit unit vocabulary).isOpen type = false) :
    (ofUnit unit vocabulary).chain false limit type =
      (ofUnit unit vocabulary).chain true limit type := by
  induction limit generalizing type with
  | zero => rfl
  | succ limit ih =>
    rw [chain_succ, next?, notOpen, if_neg Bool.false_ne_true, chain, Bool.false_and,
      if_neg Bool.false_ne_true]
    cases isBase : ((ofUnit unit vocabulary).data type).base with
    | none => rfl
    | some base =>
      have isClass : (ofUnit unit vocabulary).shape base = .classType :=
        basesSound_data.isClass base isBase
      exact congrArg (type :: ·) (ih (by rw [isOpen, isClass]; rfl))

theorem chain_false_open {type : Ty} (isOpen : (ofUnit unit vocabulary).isOpen type = true) :
    (ofUnit unit vocabulary).chain false (limit + 2) type = [type] ∨
      (ofUnit unit vocabulary).chain false (limit + 2) type = [type, .object] := by
  rw [chain, Bool.false_and, if_neg Bool.false_ne_true]
  cases isBase : ((ofUnit unit vocabulary).data type).base with
  | none => exact .inl rfl
  | some base =>
    have shape : ((ofUnit unit vocabulary).data type).shape = .interfaceType ∨
        ((ofUnit unit vocabulary).data type).shape = .typeParam := by
      rw [data_shape]
      exact (Bool.or_eq_true _ _).mp isOpen |>.imp eq_of_beq eq_of_beq
    cases basesSound_data.ofOpen shape base isBase
    exact .inr rfl

theorem findMember?_open {type : Ty} (isOpen : (ofUnit unit vocabulary).isOpen type = true) :
    (ofUnit unit vocabulary).findMember? type name =
      ((ofUnit unit vocabulary).ownMember? name type).or
        ((ofUnit unit vocabulary).ownMember? name .object) := by
  have known : ¬(type = .object ∨ (ofUnit unit vocabulary).shape type = .unknown) := by
    rintro (rfl | isUnknown)
    · cases isOpen
    · rw [Universe.isOpen, isUnknown] at isOpen
      cases isOpen
  have alone : (ofUnit unit vocabulary).chain true chainLimit type = [type] := by
    rw [chainLimit, chain_succ, next?, if_pos isOpen]
    rfl
  rw [findMember?_eq_or, alone, if_neg known, findSome?_cons]
  cases (ofUnit unit vocabulary).ownMember? name type <;> rfl

theorem findInherited?_eq (types : Universe) : types.findInherited? type name =
      (types.chain false chainLimit type).findSome? (types.ownMember? name) := rfl

theorem findInherited?_open {type : Ty} (isOpen : (ofUnit unit vocabulary).isOpen type = true) :
    (ofUnit unit vocabulary).findInherited? type name =
        (ofUnit unit vocabulary).ownMember? name type ∨
      (ofUnit unit vocabulary).findInherited? type name =
        ((ofUnit unit vocabulary).ownMember? name type).or
          ((ofUnit unit vocabulary).ownMember? name .object) := by
  rw [findInherited?_eq]
  rcases chain_false_open unit vocabulary isOpen with alone | withObject
  · rw [chainLimit, alone, findSome?_cons]
    cases (ofUnit unit vocabulary).ownMember? name type <;> exact .inl rfl
  · rw [chainLimit, withObject, findSome?_cons, findSome?_cons]
    refine .inr ?_
    cases (ofUnit unit vocabulary).ownMember? name type with
    | none => cases (ofUnit unit vocabulary).ownMember? name .object <;> rfl
    | some member => rfl

theorem findMember?_of_findInherited? {type : Ty}
    (inherited : (ofUnit unit vocabulary).findInherited? type name = some found) :
    (ofUnit unit vocabulary).findMember? type name = some found := by
  cases isOpen : (ofUnit unit vocabulary).isOpen type with
  | false =>
    rw [findInherited?_eq, chain_false unit vocabulary isOpen] at inherited
    rw [findMember?_eq_or, inherited, Option.some_or]
  | true =>
    rw [findMember?_open name unit vocabulary isOpen]
    rcases findInherited?_open name unit vocabulary isOpen with alone | withObject
    · rw [← alone, inherited]
      rfl
    · rw [← withObject, inherited]

theorem mem_object_of_findMember? {type : Ty}
    (missed : (ofUnit unit vocabulary).findInherited? type name = none)
    (isFound : (ofUnit unit vocabulary).findMember? type name = some found) :
    found ∈ ((ofUnit unit vocabulary).data .object).members := by
  cases isOpen : (ofUnit unit vocabulary).isOpen type with
  | false =>
    rw [findInherited?_eq, chain_false unit vocabulary isOpen] at missed
    rw [findMember?_eq_or, missed, Option.none_or] at isFound
    split at isFound
    · cases isFound
    · exact mem_of_find?_eq_some isFound
  | true =>
    have own : (ofUnit unit vocabulary).ownMember? name type = none := by
      rcases findInherited?_open name unit vocabulary isOpen with alone | withObject
      · rw [← alone, missed]
      · exact (Option.or_eq_none_iff.1 (withObject.symm.trans missed)).1
    rw [findMember?_open name unit vocabulary isOpen, own, Option.none_or] at isFound
    exact mem_of_find?_eq_some isFound

theorem member_searches_agree (unit : CompilationUnit) (vocabulary : Vocabulary) (type : Ty)
    (name : String) :
    let types := Universe.ofUnit unit vocabulary
    (types.candidates type name ≠ [] ↔ (types.findMember? type name).isSome = true) ∧
    (∀ found, types.findMember? type name = some found → ∃ owner,
      types.Shows type name owner ∧ types.candidates type name = types.ownMembers name owner ∧
        (types.candidates type name).head? = some (owner, found)) ∧
    (∀ found, types.findInherited? type name = some found →
      types.findMember? type name = some found) ∧
    (types.findInherited? type name = none → ∀ found, types.findMember? type name = some found →
      found ∈ (types.data .object).members) := by
  intro types
  have first := findMember?_eq types type name
  refine ⟨?_, fun found isFound => ?_, fun _ => findMember?_of_findInherited? name unit vocabulary,
    fun missed _ => mem_object_of_findMember? name unit vocabulary missed⟩
  · rw [first]
    cases types.candidates type name <;> simp
  · rw [isFound] at first
    have shown : types.candidates type name ≠ [] := fun isEmpty => by
      rw [isEmpty] at first
      cases first
    obtain ⟨owner, shows', isOwn⟩ := shows_of_candidates shown
    refine ⟨owner, shows', isOwn, ?_⟩
    obtain ⟨⟨step, member⟩, isHead, same⟩ := Option.map_eq_some_iff.1 first.symm
    cases same
    rw [isHead]
    have listed := List.mem_of_mem_head? isHead
    rw [isOwn, ownMembers, List.mem_map] at listed
    obtain ⟨_, -, same⟩ := listed
    cases same
    rfl

def derivedUnit : CompilationUnit :=
  ⟨[], none, [
    ⟨"A", .classType, [], [], none, [], none, [⟨.field (.simple "int") "x" none, [], ⟨0, 0⟩⟩], ⟨0, 0⟩⟩,
    ⟨"B", .classType, [], [], none, [.simple "A"], none, [], ⟨0, 0⟩⟩]⟩

/-- `B` shows the field of `A`, which the bases alone have, too.  A type parameter has no bases,
    but shows the members of `object`. -/
theorem member_searches_agree_derived :
    let types := Universe.ofUnit derivedUnit derivedUnit.vocabulary
    let field : MemberInfo := { name := "x", kind := .field, type := .int }
    types.findMember? (.declared 1) "x" = some field ∧
      (∃ owner, types.Shows (.declared 1) "x" owner ∧
        (types.candidates (.declared 1) "x").head? = some (owner, field)) ∧
      ∃ found ∈ (types.data .object).members,
        types.findMember? (.param "T") "ToString" = some found := by
  intro types field
  obtain ⟨-, shown, inherited, -⟩ :=
    member_searches_agree derivedUnit derivedUnit.vocabulary (.declared 1) "x"
  have isFound := inherited field (by decide +kernel)
  obtain ⟨owner, shows', -, isHead⟩ := shown field isFound
  refine ⟨isFound, ⟨owner, shows', isHead⟩, .ofMethod "ToString" .string [] false, ?_,
    by decide +kernel⟩
  exact (member_searches_agree derivedUnit derivedUnit.vocabulary (.param "T") "ToString").2.2.2
    (by decide +kernel) _ (by decide +kernel)

end Units

end Universe

end Unsugar
