import Unsugar.Proofs.Analysis.SettledNodes
import Mathlib.Data.List.Perm.Basic

open List

namespace Unsugar

/-! # The widest of several types

Of two types one may convert to the other.  To find the widest of several types they are
taken in order, and each is compared to the widest before it; where neither of the two
converts to the other there is none.  Conversions do not compose, so the order counts: from
`object`, `int` and `string` one gets to `object`, from `int`, `string` and `object` nowhere.
-/

/-- Whether an arm of this type says something about what the arms have in common. -/
def Ty.isShown (type : Ty) : Bool := type ≠ .unknown ∧ type ≠ .null

namespace Universe

/-- Whether values of one type are taken for values of another. -/
def Converts (types : Universe) (source target : Ty) : Prop :=
  (types.classify source target).isImplicit = true

instance (types : Universe) (source target : Ty) : Decidable (types.Converts source target) :=
  inferInstanceAs (Decidable (_ = true))

def wider? (types : Universe) (left right : Ty) : Option Ty :=
  if (types.classify left right).isImplicit then some right
  else if (types.classify right left).isImplicit then some left
  else none

def widest? (types : Universe) : List Ty → Option Ty
  | [] => none
  | first :: rest => rest.foldlM types.wider? first

structure Widest (types : Universe) (among : List Ty) (widest : Ty) : Prop where
  mem : widest ∈ among
  comparable : ∀ left ∈ among, ∀ right ∈ among,
    types.Converts left right ∨ types.Converts right left
  last : ∀ other ∈ among, types.Converts widest other → other = widest

variable {types : Universe} {among order : List Ty} {left right type widest : Ty}

/-! ## Comparing two types -/

theorem Converts.refl (type : Ty) : types.Converts type type := by
  simp [Converts, classify, Conversion.isImplicit]

theorem wider?_eq_left (differ : left ≠ right) : types.wider? left right = some left ↔
      ¬ types.Converts left right ∧ types.Converts right left := by
  unfold wider? Converts
  split
  · next converts => simp [converts, Ne.symm differ]
  · next stays => simp [stays]

theorem wider?_mem (found : types.wider? left right = some widest) :
    widest = left ∨ widest = right := by
  unfold wider? at found
  split at found
  · exact .inr (Option.some.inj found).symm
  · split at found
    · exact .inl (Option.some.inj found).symm
    · cases found

theorem wider?_isSome : (types.wider? left right).isSome ↔
    types.Converts left right ∨ types.Converts right left := by
  unfold wider? Converts
  split
  · next converts => simp [converts]
  · next stays => split <;> simp_all

/-! ## Comparing in order -/

theorem widest?_append_singleton (types : Universe) (order : List Ty) (type : Ty) :
    types.widest? (order ++ [type]) =
      if order = [] then some type else (types.widest? order).bind (types.wider? · type) := by
  cases order with
  | nil => rfl
  | cons first rest =>
    rw [if_neg (cons_ne_nil first rest), cons_append, widest?, foldlM_append]
    change (rest.foldlM types.wider? first).bind (fun _ => (types.wider? _ type).bind some) = _
    simp [widest?]

theorem foldlM_wider?_mem {first : Ty} {rest : List Ty}
    (found : rest.foldlM types.wider? first = some widest) : widest ∈ first :: rest := by
  induction rest generalizing first with
  | nil =>
    cases found
    exact mem_cons_self
  | cons next rest ih =>
    rw [foldlM_cons] at found
    obtain ⟨wider, isWider, found⟩ := Option.bind_eq_some_iff.1 found
    rcases mem_cons.1 (ih found) with rfl | isLater
    · rcases wider?_mem isWider with rfl | rfl <;> simp
    · exact mem_cons_of_mem _ (mem_cons_of_mem _ isLater)

theorem widest?_mem (found : types.widest? order = some widest) : widest ∈ order := by
  cases order with
  | nil => cases found
  | cons first rest => exact foldlM_wider?_mem found

theorem Widest.wider?_eq (isWidest : types.Widest among widest) (isLeft : left ∈ among)
    (isRight : right ∈ among) (isIn : widest = left ∨ widest = right) :
    types.wider? left right = some widest := by
  unfold wider?
  rcases isIn with rfl | rfl
  · split
    · next converts => rw [isWidest.last right isRight converts]
    · next stays => exact if_pos ((isWidest.comparable _ isLeft _ isRight).resolve_left stays)
  · split
    · rfl
    · next stays =>
        have converts := (isWidest.comparable _ isLeft _ isRight).resolve_left stays
        rw [isWidest.last left isLeft converts] at stays
        exact absurd (Converts.refl widest) stays

/-- Once every two can be compared, the one that converts to no other is found in every
    order. -/
theorem Widest.widest?_eq (isWidest : types.Widest among widest) (perm : order.Perm among) :
    types.widest? order = some widest := by
  have within (first : Ty) (rest : List Ty) (isIn : widest ∈ first :: rest)
      (are : ∀ type ∈ first :: rest, type ∈ among) :
      rest.foldlM types.wider? first = some widest := by
    induction rest generalizing first with
    | nil => rw [mem_singleton.1 isIn, foldlM_nil]; rfl
    | cons next rest ih =>
      obtain ⟨isFirst, isNext, areRest⟩ :
          first ∈ among ∧ next ∈ among ∧ ∀ type ∈ rest, type ∈ among := by
        simpa using are
      obtain ⟨wider, isWider⟩ := Option.isSome_iff_exists.1
        (wider?_isSome.2 (isWidest.comparable first isFirst next isNext))
      rw [foldlM_cons, isWider]
      refine ih wider ?_ ?_
      · rw [mem_cons, mem_cons, ← or_assoc] at isIn
        rcases isIn with isHere | isLater
        · rw [isWidest.wider?_eq isFirst isNext isHere] at isWider
          cases isWider
          exact mem_cons_self
        · exact mem_cons_of_mem _ isLater
      · refine forall_mem_cons.2 ⟨?_, areRest⟩
        rcases wider?_mem isWider with rfl | rfl
        · exact isFirst
        · exact isNext
  cases order with
  | nil => exact absurd (perm.mem_iff.2 isWidest.mem) not_mem_nil
  | cons first rest =>
    exact within first rest (perm.mem_iff.2 isWidest.mem) fun type isType => perm.mem_iff.1 isType

/-! ## Whether the order counts -/

theorem comparable_of_widest? (found : ∀ order, order.Perm among → (types.widest? order).isSome)
    (isLeft : left ∈ among) (isRight : right ∈ among) :
    types.Converts left right ∨ types.Converts right left := by
  by_cases same : left = right
  · exact .inl (same ▸ .refl left)
  · have isNext : right ∈ among.erase left := (mem_erase_of_ne (Ne.symm same)).2 isRight
    have leads := found (left :: right :: (among.erase left).erase right)
      ((perm_cons_erase isLeft).trans ((perm_cons_erase isNext).cons left)).symm
    refine wider?_isSome.1 (Option.isSome_iff_exists.2 ?_)
    obtain ⟨widest, found⟩ := Option.isSome_iff_exists.1 leads
    rw [widest?, foldlM_cons] at found
    obtain ⟨wider, isWider, -⟩ := Option.bind_eq_some_iff.1 found
    exact ⟨wider, isWider⟩

theorem isSubtype_nullable (types : Universe) {inner target : Ty} (differ : target ≠ .nullable inner)
    (notObject : target ≠ .object) : types.isSubtype (.nullable inner) target = false := by
  have ends : types.reaches target (visitLimit - 1) [.object] = false := by
    rw [show visitLimit - 1 = 255 + 1 from rfl, reaches, if_neg (Ne.symm notObject)]
    rfl
  rw [isSubtype, show visitLimit = 256 + 1 from rfl, reaches, if_neg (Ne.symm differ)]
  exact ends

theorem converts_nullable (isValue : types.names.isValueType type = true)
    (notNullable : (types.names.shape type != .nullable) = true) :
    types.Converts type (.nullable type) ∧ ¬ types.Converts (.nullable type) type := by
  have apart (inner : Ty) : type ≠ .nullable inner := by
    rintro rfl
    cases notNullable
  have known : type.isUnknown = false := by
    cases type <;> first | rfl | cases isValue
  have notObject : type ≠ .object := by
    rintro rfl
    cases isValue
  have notNull : type ≠ .null := by
    rintro rfl
    cases isValue
  have notWidening : isNumericWidening (.nullable type) type = false := rfl
  have notNumeric : isNumeric (.nullable type) = false := rfl
  have isKnown : (Ty.nullable type).isUnknown = false := rfl
  constructor
  · simp [Converts, classify, apart, known, isKnown, notNull, Conversion.isImplicit]
  · have differ (inner : Ty) : Ty.nullable inner ≠ type := Ne.symm (apart inner)
    have below := isSubtype_nullable types (apart type) notObject
    simp only [Converts, classify, differ, known, isKnown, apart, below, notWidening, notNumeric]
    simp
    split <;> rfl

/-- What a switch that also gives `null` makes of its widest type. -/
def orNull (types : Universe) (sawNull : Bool) (type : Ty) : Ty :=
  if sawNull then types.names.nullableOf type else type

theorem orNull_ne {sawNull : Bool} (changes : types.orNull sawNull type ≠ type) :
    types.orNull sawNull type = .nullable type ∧ types.Converts type (.nullable type) ∧
      ¬ types.Converts (.nullable type) type := by
  cases sawNull with
  | false => exact absurd rfl changes
  | true =>
    change types.names.nullableOf type ≠ type at changes
    change types.names.nullableOf type = _ ∧ _
    rw [TypeNames.nullableOf] at changes ⊢
    split at changes
    · next isValue =>
        rw [if_pos isValue]
        obtain ⟨isValue, notNullable⟩ := Bool.and_eq_true_iff.1 isValue
        exact ⟨rfl, converts_nullable isValue notNullable⟩
    · exact absurd rfl changes

theorem exists_widest {sawNull : Bool} {whole : Ty} (leads : ∀ order, order.Perm among →
      ∃ widest, types.widest? order = some widest ∧ types.orNull sawNull widest = whole) :
    ∃ widest, types.Widest among widest := by
  obtain ⟨first, isFirst, firstWhole⟩ := leads among (.refl among)
  -- Only one type becomes the common one without being it, and that converts to it.
  obtain ⟨nearest, isNearest, closest⟩ : ∃ nearest ∈ among, ∀ other ∈ among,
      types.orNull sawNull other = whole → other ≠ nearest →
        types.Converts other nearest ∧ ¬ types.Converts nearest other := by
    by_cases isWhole : whole ∈ among
    · refine ⟨whole, isWhole, fun other _ becomes differ => ?_⟩
      have changed := orNull_ne (becomes ▸ Ne.symm differ)
      rw [becomes] at changed
      exact changed.1 ▸ changed.2
    · have changes {type : Ty} (isIn : type ∈ among) (becomes : types.orNull sawNull type = whole) :
          whole = .nullable type := by
        rw [← becomes]
        exact (orNull_ne fun same => isWhole (becomes ▸ same.symm ▸ isIn)).1
      have firstIn := widest?_mem isFirst
      refine ⟨first, firstIn, fun other isOther becomes differ => absurd ?_ differ⟩
      exact Ty.nullable.inj ((changes isOther becomes).symm.trans (changes firstIn firstWhole))
  have found (order : List Ty) (perm : order.Perm among) : (types.widest? order).isSome := by
    obtain ⟨widest, isWidest, -⟩ := leads order perm
    rw [isWidest]
    rfl
  refine ⟨nearest, isNearest, fun left isLeft right isRight =>
    comparable_of_widest? found isLeft isRight, fun other isOther converts =>
      Classical.byContradiction fun differ => ?_⟩
  -- The order that has the other one last, right after the nearest.
  have isIn : nearest ∈ among.erase other := (mem_erase_of_ne (Ne.symm differ)).2 isNearest
  have perm : (((among.erase other).erase nearest ++ [nearest]) ++ [other]).Perm among :=
    (perm_append_singleton ..).trans
      (((perm_append_singleton ..).trans (perm_cons_erase isIn).symm).cons other |>.trans
        (perm_cons_erase isOther).symm)
  obtain ⟨widest, isWidest, becomes⟩ := leads _ perm
  rw [widest?_append_singleton, if_neg (by simp)] at isWidest
  obtain ⟨before, isBefore, isWider⟩ := Option.bind_eq_some_iff.1 isWidest
  rcases wider?_mem isWider with rfl | rfl
  · have stays : widest = nearest := Classical.byContradiction fun away => by
      rw [widest?_append_singleton] at isBefore
      split at isBefore
      · exact away (Option.some.inj isBefore).symm
      · obtain ⟨kept, isKept, isWider⟩ := Option.bind_eq_some_iff.1 isBefore
        have isAmong : kept ∈ among := perm.mem_iff.1 (by simp [widest?_mem isKept])
        rcases wider?_mem isWider with rfl | isNearest
        · exact ((wider?_eq_left away).1 isWider).1 (closest _ isAmong becomes away).1
        · exact away isNearest
    rw [stays] at isWider
    exact ((wider?_eq_left (Ne.symm differ)).1 isWider).1 converts
  · exact (closest _ isOther becomes differ).2 converts

def typeOfArms (types : Universe) (expected : Ty) (arms : List Ty) : Ty :=
  ((types.widest? (arms.filter Ty.isShown)).map (types.orNull (arms.contains .null))).getD expected

variable {arms : List Ty} {expected : Ty}

theorem Widest.typeOfArms_eq (isWidest : types.Widest (arms.filter Ty.isShown) widest)
    (perm : order.Perm arms) :
    types.typeOfArms expected order = types.orNull (arms.contains .null) widest := by
  have same : order.contains .null = arms.contains .null := by
    rw [Bool.eq_iff_iff, contains_iff_mem, contains_iff_mem, perm.mem_iff]
  rw [typeOfArms, isWidest.widest?_eq (perm.filter _), same]
  rfl

theorem exists_typeOfArms {expected : Ty} (perm : order.Perm (arms.filter Ty.isShown)) :
    ∃ whole, whole.Perm arms ∧ types.typeOfArms expected whole =
      ((types.widest? order).map (types.orNull (arms.contains .null))).getD expected := by
  have isPerm : (order ++ arms.filter fun type => !type.isShown).Perm arms :=
    (perm.append_right _).trans (filter_append_perm Ty.isShown arms)
  refine ⟨_, isPerm, ?_⟩
  have shown : order.filter Ty.isShown = order :=
    filter_eq_self.2 fun type isIn => of_mem_filter (perm.mem_iff.1 isIn)
  have others : (arms.filter fun type => !type.isShown).filter Ty.isShown = [] := by
    simp [filter_filter]
  have same : (order ++ arms.filter fun type => !type.isShown).contains .null =
      arms.contains .null := by
    rw [Bool.eq_iff_iff, contains_iff_mem, contains_iff_mem, isPerm.mem_iff]
  rw [typeOfArms, filter_append, shown, others, append_nil, same]

/-- The order of the arms does not count exactly if there is a widest type in the strict
    sense, or no order leads anywhere but to the type that the context expects. -/
theorem typeOfArms_perm_iff (types : Universe) {expected : Ty} {arms : List Ty} :
    (∀ order, order.Perm arms → types.typeOfArms expected order = types.typeOfArms expected arms) ↔
      (∃ widest, types.Widest (arms.filter Ty.isShown) widest) ∨
        ∀ order, order.Perm (arms.filter Ty.isShown) → ∀ widest, types.widest? order = some widest →
          types.orNull (arms.contains .null) widest = expected := by
  constructor
  · intro same
    by_cases leads : ∀ order, order.Perm (arms.filter Ty.isShown) → ∀ widest,
        types.widest? order = some widest → types.orNull (arms.contains .null) widest = expected
    · exact .inr leads
    · simp only [not_forall] at leads
      obtain ⟨order, perm, widest, isWidest, differs⟩ := leads
      have typed {other : List Ty} (isPerm : other.Perm (arms.filter Ty.isShown)) :
          types.typeOfArms expected arms =
            ((types.widest? other).map (types.orNull (arms.contains .null))).getD expected := by
        obtain ⟨whole, isWhole, typed⟩ := exists_typeOfArms isPerm
        exact (same whole isWhole).symm.trans typed
      have whole := typed perm
      rw [isWidest] at whole
      suffices leads : ∀ other, other.Perm (arms.filter Ty.isShown) → ∃ found,
          types.widest? other = some found ∧ types.orNull (arms.contains .null) found =
            types.orNull (arms.contains .null) widest from .inl (exists_widest leads)
      intro other isPerm
      have also := (typed isPerm).symm.trans whole
      cases found : types.widest? other with
      | none =>
        rw [found] at also
        exact absurd also.symm differs
      | some reached =>
        rw [found] at also
        exact ⟨reached, rfl, also⟩
  · rintro (⟨widest, isWidest⟩ | leads) order perm
    · rw [isWidest.typeOfArms_eq perm, isWidest.typeOfArms_eq (.refl arms)]
    · have typed {order : List Ty} (perm : order.Perm arms) :
          types.typeOfArms expected order = expected := by
        have same : order.contains .null = arms.contains .null := by
          rw [Bool.eq_iff_iff, contains_iff_mem, contains_iff_mem, perm.mem_iff]
        rw [typeOfArms, same]
        cases found : types.widest? (order.filter Ty.isShown) with
        | none => rfl
        | some widest => exact leads _ (perm.filter _) widest found
      rw [typed perm, typed (.refl arms)]

end Universe

/-! ## Types of switch expressions

The arms of a switch do not see each other: each is analyzed in a scope of its own.  So
the type of the switch is found from the types of its arms, by going through them in
order.
-/

open Infer Node

/-! ## What arms show -/

structure Infer.ArmTypes.Shows (types : Universe) (arms : List Ty) (seen : ArmTypes) : Prop where
  sawNull : seen.sawNull = arms.contains .null
  widest : types.widest? (arms.filter Ty.isShown) = if seen.conflict then none else seen.common
  nothing : seen.common = none → arms.filter Ty.isShown = [] ∧ seen.conflict = false
  known (type : Ty) : seen.common = some type → type.isShown = true ∧ arms.filter Ty.isShown ≠ []

section Showing

variable {types : Universe} {arms : List Ty} {seen : ArmTypes} {type left right : Ty}

theorem isShown_iff : type.isShown = true ↔ type ≠ .unknown ∧ type ≠ .null :=
  decide_eq_true_iff

theorem commonType_eq (isLeft : left.isShown = true) (isRight : right.isShown = true) {env : InferEnv}
    {state : InferState} : commonType left right env state =
      ((env.types.wider? left right).getD .unknown, state) := by
  obtain ⟨leftKnown, leftNotNull⟩ := isShown_iff.1 isLeft
  obtain ⟨rightKnown, rightNotNull⟩ := isShown_iff.1 isRight
  change (if left = right then pure left else _ : Infer Ty) env state = _
  by_cases same : left = right
  · subst same
    rw [if_pos rfl, Universe.wider?, if_pos (show _ = true from Universe.Converts.refl left)]
    rfl
  · rw [if_neg same, if_neg leftNotNull, if_neg rightNotNull, if_neg leftKnown, if_neg rightKnown,
      Universe.wider?]
    split
    · rfl
    · split <;> rfl

theorem Infer.ArmTypes.add_compared (seen : ArmTypes) (common : seen.common = some left)
    (isLeft : left.isShown = true)
    (isRight : right.isShown = true) (env : InferEnv) (state : InferState) :
    seen.add right env state = ((env.types.wider? left right).elim { seen with conflict := true }
      fun widest => { seen with common := some widest }, state) := by
  obtain ⟨known, notNull⟩ := isShown_iff.1 isRight
  obtain ⟨_, sawNull, conflict⟩ := seen
  cases common
  rw [ArmTypes.add, if_neg known, if_neg notNull]
  let next (answer : Ty × InferState) : ArmTypes × InferState :=
    (if answer.1 = .unknown then pure ⟨some left, sawNull, true⟩
      else pure ⟨some answer.1, sawNull, conflict⟩ : Infer ArmTypes) env answer.2
  change next (commonType left right env state) = _
  rw [commonType_eq isLeft isRight]
  cases found : env.types.wider? left right with
  | none => rfl
  | some widest =>
    have isKnown : widest ≠ .unknown := by
      rcases Universe.wider?_mem found with rfl | rfl
      · exact (isShown_iff.1 isLeft).1
      · exact known
    exact congrArg (fun (action : Infer ArmTypes) => action env state) (if_neg isKnown)

theorem Infer.ArmTypes.Shows.add {env : InferEnv} (shows : seen.Shows env.types arms) (type : Ty)
    (state : InferState) : ∃ grown : ArmTypes, seen.add type env state = (grown, state) ∧
      grown.Shows env.types (arms ++ [type]) := by
  obtain ⟨sawNull, widest, nothing, known⟩ := shows
  by_cases isShown : type.isShown = true
  · have notNull := (isShown_iff.1 isShown).2
    have sameNull : (arms ++ [type]).contains .null = arms.contains .null := by
      simp [Ne.symm notNull]
    have more : (arms ++ [type]).filter Ty.isShown = arms.filter Ty.isShown ++ [type] := by
      rw [filter_append, filter_cons_of_pos isShown, filter_nil]
    have longer : (arms ++ [type]).filter Ty.isShown ≠ [] := by
      rw [more]
      exact append_ne_nil_of_right_ne_nil _ (cons_ne_nil _ _)
    have wider := Universe.widest?_append_singleton env.types (arms.filter Ty.isShown) type
    rw [← more] at wider
    obtain ⟨common, saw, conflict⟩ := seen
    cases common with
    | none =>
      obtain ⟨isEmpty, rfl⟩ := nothing rfl
      rw [if_pos isEmpty] at wider
      refine ⟨⟨some type, saw, false⟩, ?_, ⟨sameNull ▸ sawNull, wider, nofun, ?_⟩⟩
      · rw [ArmTypes.add, if_neg (isShown_iff.1 isShown).1, if_neg notNull]
        rfl
      · rintro _ ⟨⟩
        exact ⟨isShown, longer⟩
    | some previous =>
      obtain ⟨isPrevious, notEmpty⟩ := known previous rfl
      have compared := add_compared ⟨some previous, saw, conflict⟩ rfl isPrevious isShown env state
      rw [if_neg notEmpty, widest] at wider
      cases found : env.types.wider? previous type with
      | none =>
        rw [found] at compared
        refine ⟨_, compared, ⟨sameNull ▸ sawNull, ?_, nofun, ?_⟩⟩
        · rw [wider]
          cases conflict with
          | true => rfl
          | false => exact found
        · exact fun _ isCommon => ⟨(known _ isCommon).1, longer⟩
      | some next =>
        rw [found] at compared
        refine ⟨_, compared, ⟨sameNull ▸ sawNull, ?_, nofun, ?_⟩⟩
        · rw [wider]
          cases conflict with
          | true => rfl
          | false => exact found
        · rintro _ ⟨⟩
          rcases Universe.wider?_mem found with rfl | rfl
          · exact ⟨isPrevious, longer⟩
          · exact ⟨isShown, longer⟩
  · have same : (arms ++ [type]).filter Ty.isShown = arms.filter Ty.isShown := by
      rw [filter_append, filter_cons_of_neg isShown, filter_nil, append_nil]
    by_cases isNull : type = .null
    · subst isNull
      refine ⟨{ seen with sawNull := true }, rfl, ⟨by simp, ?_, ?_, ?_⟩⟩
      all_goals rwa [same]
    · have isUnknown : type = .unknown := Classical.byContradiction fun isKnown =>
        isShown (isShown_iff.2 ⟨isKnown, isNull⟩)
      subst isUnknown
      refine ⟨seen, rfl, ⟨by simp [sawNull], ?_, ?_, ?_⟩⟩
      all_goals rwa [same]

theorem Infer.ArmTypes.Shows.result {env : InferEnv} (shows : seen.Shows env.types arms)
    (expected : Ty) (state : InferState) :
    (seen.result expected env state).1 = env.types.typeOfArms expected arms := by
  obtain ⟨sawNull, widest, nothing, -⟩ := shows
  rw [Universe.typeOfArms, ← sawNull, widest]
  obtain ⟨common, saw, conflict⟩ := seen
  cases common with
  | none =>
    cases conflict <;> rfl
  | some type =>
    cases conflict with
    | true => rfl
    | false => cases saw <;> rfl

end Showing

/-! ## Arms -/

def Arm.contributes (arm : Arm) (type : Ty) : Ty :=
  match arm.result.kind with
  | .throw _ => .unknown
  | _ => type

def Arm.inside (arm : Arm) (subject expected : Ty) : Infer Ty := do
  arm.pattern.infer subject
  inferOption arm.guard .bool
  arm.result.infer expected

def Arm.infer (arm : Arm) (subject expected : Ty) : Infer Ty := do
  return arm.contributes (← inScope (arm.inside subject expected))

theorem inferArms_cons {arm : Arm} {rest : List Arm} {subject expected : Ty} {seen : ArmTypes} :
    inferArms (arm :: rest) subject expected seen = (do
      let seen ← seen.add (← arm.infer subject expected)
      inferArms rest subject expected seen) := by
  obtain ⟨span, pattern, guard, ⟨mark, kind⟩⟩ := arm
  rw [inferArms, Arm.infer, bind_assoc]
  cases kind <;> rfl

section Arms

theorem Arm.inside_steady (arm : Arm) (single : tally 0 (ofArm arm) ≤ 1) (subject expected : Ty) :
    Steady (ofArm arm) (arm.inside subject expected) := by
  have settling : ∀ node ∈ ofArm arm, node.Settling 0 := fun node isNode =>
    node.settling (Nat.le_trans (count_le_tally isNode) single)
  obtain ⟨isPattern, areOthers⟩ := forall_mem_cons.1 settling
  obtain ⟨isGuard, isResult⟩ := forall_mem_append.1 areOthers
  let site : Site := ⟨.detached, []⟩
  have tested : Walks 0 site [Node.pattern arm.pattern] (arm.pattern.infer subject) :=
    isPattern site subject
  have guarded : Walks 0 site (ofExpr? arm.guard) (inferOption arm.guard .bool) :=
    inferOption_walks rfl isGuard .bool
  have found : Walks 0 site [Node.expr arm.result] (arm.result.infer expected) :=
    Expr.Settling.infer (isResult _ mem_cons_self) site (fun _ => rfl) expected
  exact (tested.bind fun _ => guarded.bind fun _ => found).steady

theorem Arm.infer_steady (arm : Arm) (single : tally 0 (ofArm arm) ≤ 1) (subject expected : Ty) :
    Steady (ofArm arm) (arm.infer subject expected) := by
  have both := (arm.inside_steady single subject expected).inScope.bind fun type =>
    Steady.pure (arm.contributes type)
  rwa [append_nil] at both

theorem inferArms_shows (arms : List Arm) (subject expected : Ty) (env : InferEnv)
    {base state : InferState} {seen : ArmTypes} {before : List Ty}
    (single : ∀ id, tally id (arms.flatMap ofArm) ≤ 1)
    (agree : state.Agrees (fun id => 0 < tally id (arms.flatMap ofArm)) False base)
    (shows : seen.Shows env.types before) :
    ((inferArms arms subject expected seen env state).1).Shows env.types
      (before ++ arms.map fun arm => (arm.infer subject expected env base).1) := by
  induction arms generalizing seen state before with
  | nil =>
    rw [map_nil, append_nil]
    exact shows
  | cons arm rest ih =>
    have counted (id : Nat) : tally id ((arm :: rest).flatMap ofArm) =
        tally id (ofArm arm) + tally id (rest.flatMap ofArm) := by
      rw [flatMap_cons, tally_append]
    have one : tally 0 (ofArm arm) ≤ 1 := by
      have atMost := single 0
      rw [counted] at atMost
      omega
    have steady := arm.infer_steady one subject expected
    have value := steady.value (fun id isIn => by rw [counted]; omega) env agree
    obtain ⟨grown, added, growing⟩ := shows.add (arm.infer subject expected env state).1
      (arm.infer subject expected env state).2
    have here : inferArms (arm :: rest) subject expected seen env state =
        inferArms rest subject expected grown env (arm.infer subject expected env state).2 := by
      rw [inferArms_cons]
      exact congrArg (fun answer : ArmTypes × InferState =>
        inferArms rest subject expected answer.1 env answer.2) added
    rw [here, map_cons, append_cons, ← value]
    refine ih (fun id => ?_) ?_ growing
    · have atMost := single id
      rw [counted] at atMost
      omega
    · exact {
        scopes := Eq.trans ((arm.inside_steady one subject expected).inScope_scopes) agree.scopes
        size := (steady.size env state).trans agree.size
        resolution := fun id isRest => by
          have atMost := single id
          rw [counted] at atMost
          rw [steady.others env state id (by omega)]
          exact agree.resolution id (by rw [counted]; omega)
        observed := False.elim }

end Arms

/-! ## Switches -/

def armTypes (subject : Expr) (arms : List Arm) (expected : Ty) (env : InferEnv)
    (state : InferState) : List Ty :=
  let (type, after) := subject.infer .unknown env state
  arms.map fun arm => (arm.infer type expected env after).1

section Switches

variable {subject : Expr} {arms order : List Arm} {mark : Mark} {expected : Ty} {env : InferEnv}
  {state : InferState}

theorem infer_switch (single : ∀ id, tally id (arms.flatMap ofArm) ≤ 1) :
    ((Expr.mk mark (.switch subject arms)).infer expected env state).1 =
      env.types.typeOfArms expected (armTypes subject arms expected env state) := by
  have none : ArmTypes.Shows env.types [] {} := ⟨rfl, rfl, fun _ => ⟨rfl, rfl⟩, nofun⟩
  have shows := inferArms_shows arms (subject.infer .unknown env state).1 expected env single
    (.refl _ _ (subject.infer .unknown env state).2) none
  exact shows.result expected _

theorem tally_perm {id : Nat} {left right : List Node} (perm : left.Perm right) :
    tally id left = tally id right := by
  induction perm with
  | nil => rfl
  | cons node _ ih => rw [tally_cons, tally_cons, ih]
  | swap node other rest =>
    simp only [tally_cons]
    omega
  | trans _ _ first second => exact first.trans second

theorem tally_le_one {nodes : List Node}
    (distinct : ((nodes.flatMap (Node.reachable true)).filterMap Node.id).Nodup) (id : Nat) :
    tally id nodes ≤ 1 := by
  change (List.map (fun node : Node => node.mark.bears id) _).sum ≤ 1
  rw [← count_ids]
  exact nodup_iff_count.1 distinct id

theorem exists_perm_map {α β : Type} {make : α → β} {values : List α} {order : List β}
    (perm : order.Perm (values.map make)) :
    ∃ others : List α, others.Perm values ∧ others.map make = order := by
  induction values generalizing order with
  | nil =>
    cases perm.eq_nil
    exact ⟨[], .refl _, rfl⟩
  | cons value rest ih =>
    rw [map_cons] at perm
    obtain ⟨before, after, rfl⟩ := append_of_mem (perm.mem_iff.2 mem_cons_self)
    obtain ⟨others, isPerm, made⟩ := ih (perm_cons _ |>.1 (perm_middle.symm.trans perm))
    obtain ⟨first, second, rfl, rfl, rfl⟩ := map_eq_append_iff.1 made
    refine ⟨first ++ value :: second, perm_middle.trans (isPerm.cons value), ?_⟩
    rw [map_append, map_cons]

/-- The order of its arms does not count for the type of a switch exactly if every two of the
    types that they show can be compared and one converts to no other, or no order of these
    types leads anywhere but to the type that the context expects.  In the first case the
    switch has that one type, nullable if an arm is `null`. -/
theorem infer_switch_perm_iff (subject : Expr) (arms : List Arm)
    (single : ∀ id, tally id (arms.flatMap ofArm) ≤ 1) (mark : Mark) (expected : Ty)
    (env : InferEnv) (state : InferState) :
    ((∀ order, order.Perm arms →
        ((Expr.mk mark (.switch subject order)).infer expected env state).1 =
          ((Expr.mk mark (.switch subject arms)).infer expected env state).1) ↔
      (∃ widest, env.types.Widest
          ((armTypes subject arms expected env state).filter Ty.isShown) widest) ∨
        ∀ order, order.Perm ((armTypes subject arms expected env state).filter Ty.isShown) →
          ∀ widest, env.types.widest? order = some widest →
            env.types.orNull ((armTypes subject arms expected env state).contains .null) widest =
              expected) ∧
    ∀ widest, env.types.Widest
        ((armTypes subject arms expected env state).filter Ty.isShown) widest →
      ((Expr.mk mark (.switch subject arms)).infer expected env state).1 =
        env.types.orNull ((armTypes subject arms expected env state).contains .null) widest := by
  have typed {order : List Arm} (perm : order.Perm arms) :
      ((Expr.mk mark (.switch subject order)).infer expected env state).1 =
        env.types.typeOfArms expected (armTypes subject order expected env state) :=
    infer_switch fun id => by
      rw [tally_perm (perm.flatMap_right ofArm)]
      exact single id
  constructor
  · rw [← Universe.typeOfArms_perm_iff]
    constructor
    · intro same types perm
      obtain ⟨order, isPerm, rfl⟩ := exists_perm_map perm
      exact (typed isPerm).symm.trans ((same order isPerm).trans (typed (.refl arms)))
    · intro same order perm
      rw [typed perm, typed (.refl arms)]
      exact same _ (perm.map _)
  · intro widest isWidest
    rw [typed (.refl arms)]
    exact isWidest.typeOfArms_eq (.refl _)

end Switches

/-! ## Two orders -/

def numberArm (id : Nat) (number : Int) (result : ExprKind) : Arm :=
  ⟨⟨0, 0⟩, ⟨⟨⟨0, 0⟩, some id⟩, .constant ⟨⟨⟨0, 0⟩, some (id + 1)⟩, .literal (.int number)⟩⟩, none,
    ⟨⟨⟨0, 0⟩, some (id + 2)⟩, result⟩⟩

def withObject : InferEnv × InferState :=
  ({ types := .ofUnit ⟨[], none, []⟩ {} },
    { facts := .empty 20
      scopes := [[("x", { name := "x", kind := .parameter, type := .object })]] })

/-- The type there of a switch on a number, where the context expects nothing. -/
def typeOfSwitch (arms : List Arm) : Ty :=
  ((Expr.mk ⟨⟨0, 0⟩, some 0⟩ (.switch ⟨⟨⟨0, 0⟩, some 1⟩, .literal (.int 1)⟩ arms)).infer .unknown
    withObject.1 withObject.2).1

def mixedArms : List Arm :=
  [numberArm 2 1 (.literal (.int 1)), numberArm 5 2 (.literal (.str "a")), numberArm 8 3 (.ident "x")]

def numericArms : List Arm :=
  [numberArm 2 1 (.literal (.int 1)), numberArm 5 2 (.literal (.float 0)),
    numberArm 8 3 (.literal .null)]

theorem infer_switch_order_counts :
    (∀ id, tally id (mixedArms.flatMap ofArm) ≤ 1) ∧
      typeOfSwitch mixedArms = .unknown ∧
      (mixedArms.drop 2 ++ mixedArms.take 2).Perm mixedArms ∧
      typeOfSwitch (mixedArms.drop 2 ++ mixedArms.take 2) = .object := by
  refine ⟨tally_le_one (by decide +kernel), by decide +kernel, ?_, by decide +kernel⟩
  exact List.perm_append_comm.trans (.of_eq (List.take_append_drop 2 mixedArms))

theorem infer_switch_perm_iff_numbers :
    (∀ id, tally id (numericArms.flatMap ofArm) ≤ 1) ∧
      ∀ order, order.Perm numericArms → typeOfSwitch order = .nullable .double := by
  have single : ∀ id, tally id (numericArms.flatMap ofArm) ≤ 1 := tally_le_one (by decide +kernel)
  have types : armTypes ⟨⟨⟨0, 0⟩, some 1⟩, .literal (.int 1)⟩ numericArms .unknown withObject.1
      withObject.2 = [.int, .double, .null] := by
    decide +kernel
  have shown : [Ty.int, .double, .null].filter Ty.isShown = [.int, .double] := by decide
  have widest : withObject.1.types.Widest [.int, .double] .double :=
    ⟨by decide, by decide +kernel, by decide +kernel⟩
  obtain ⟨same, isType⟩ := infer_switch_perm_iff ⟨⟨⟨0, 0⟩, some 1⟩, .literal (.int 1)⟩ numericArms
    single ⟨⟨0, 0⟩, some 0⟩ .unknown withObject.1 withObject.2
  rw [types, shown] at same isType
  exact ⟨single, fun order perm =>
    (same.2 (.inl ⟨_, widest⟩) order perm).trans ((isType _ widest).trans (by decide +kernel))⟩

end Unsugar
