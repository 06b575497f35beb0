import Mathlib.Data.List.Basic
import Unsugar.Types.TypeTable
import Unsugar.Proofs.Types.DenotedTypes

open List

namespace Unsugar

/-! # One place for each type

No key stands twice in the table of types, and keys are made of places.  So two places that
stand for one type are the same, and syntax is bound to one place exactly if it is bound to
one type, whatever else is entered in between.
-/

namespace TypeTable

variable {table later last : TypeTable} {key : TypeKey} {place other : Nat} {type : Ty}

theorem Grows.refl (table : TypeTable) : table.Grows table := fun _ _ => id

theorem Grows.trans (first : table.Grows later) (second : later.Grows last) : table.Grows last :=
  fun place key isThere => second place key (first place key isThere)

theorem place_unique (isThere : table.keys[place]? = some key)
    (isOther : table.keys[other]? = some key) : place = other :=
  (getElem?_inj (List.getElem?_eq_some_iff.mp isThere).1 table.distinct).mp
    (isThere.trans isOther.symm)

theorem enter_grows (key : TypeKey) (table : TypeTable) : table.Grows (enter key table).2 := by
  intro place old isThere
  unfold enter
  split
  · exact isThere
  · exact (getElem?_append_left (List.getElem?_eq_some_iff.mp isThere).1).trans isThere

theorem enter_stands (key : TypeKey) (table : TypeTable) :
    (enter key table).2.keys[(enter key table).1]? = some key := by
  unfold enter
  split
  · next isThere => exact getElem?_idxOf isThere
  · exact getElem?_concat_length

mutual

/-- A place stands for a type if its key is that of the type, and the places in the key stand
    for the parts of the type. -/
def Stands (table : TypeTable) : (place : Nat) → Ty → Prop
  | place, .applied name args =>
    ∃ parts, table.keys[place]? = some (.applied name parts) ∧ table.StandEach parts args
  | place, .array element =>
    ∃ part, table.keys[place]? = some (.array part) ∧ table.Stands part element
  | place, .nullable inner =>
    ∃ part, table.keys[place]? = some (.nullable part) ∧ table.Stands part inner
  | place, .tuple elements =>
    ∃ parts, table.keys[place]? = some (.tuple parts) ∧ table.StandEach parts elements
  | place, type => table.keys[place]? = some (.plain type)

def StandEach (table : TypeTable) : (places : List Nat) → List Ty → Prop
  | places, [] => places = []
  | places, type :: rest =>
    ∃ first others, places = first :: others ∧ table.Stands first type ∧
      table.StandEach others rest

end

/-! ## Places and types determine each other -/

mutual

theorem Stands.place_eq {place other : Nat} : (type : Ty) → table.Stands place type →
    table.Stands other type → place = other
  | .applied _ args, ⟨parts, isThere, stand⟩, ⟨others, isOther, standOthers⟩ => by
    obtain rfl := StandEach.places_eq args stand standOthers
    exact place_unique isThere isOther
  | .array element, ⟨part, isThere, stands⟩, ⟨otherPart, isOther, standsOther⟩ => by
    obtain rfl := Stands.place_eq element stands standsOther
    exact place_unique isThere isOther
  | .nullable inner, ⟨part, isThere, stands⟩, ⟨otherPart, isOther, standsOther⟩ => by
    obtain rfl := Stands.place_eq inner stands standsOther
    exact place_unique isThere isOther
  | .tuple elements, ⟨parts, isThere, stand⟩, ⟨others, isOther, standOthers⟩ => by
    obtain rfl := StandEach.places_eq elements stand standOthers
    exact place_unique isThere isOther
  | .unknown, isThere, isOther | .prim _, isThere, isOther | .library _, isThere, isOther
  | .declared _, isThere, isOther | .param _, isThere, isOther => place_unique isThere isOther

theorem StandEach.places_eq {places others : List Nat} : (types : List Ty) →
    table.StandEach places types → table.StandEach others types → places = others
  | [], isEmpty, otherEmpty => isEmpty.trans otherEmpty.symm
  | type :: rest, ⟨first, more, isPlaces, stands, stand⟩,
      ⟨otherFirst, otherMore, isOthers, standsOther, standOthers⟩ => by
    rw [isPlaces, isOthers, Stands.place_eq type stands standsOther,
      StandEach.places_eq rest stand standOthers]

end

mutual

theorem Stands.type_eq {place : Nat} : (left right : Ty) → table.Stands place left →
    table.Stands place right → left = right
  | .applied _ args, right, ⟨_, isThere, stand⟩, standsRight => by
    cases right with
    | applied other others =>
      obtain ⟨_, isRight, standOthers⟩ := standsRight
      cases isThere.symm.trans isRight
      rw [StandEach.types_eq args others stand standOthers]
    | array | nullable | tuple =>
      obtain ⟨_, isRight, _⟩ := standsRight
      cases isThere.symm.trans isRight
    | _ => cases isThere.symm.trans standsRight
  | .array element, right, ⟨_, isThere, stands⟩, standsRight => by
    cases right with
    | array other =>
      obtain ⟨_, isRight, standsOther⟩ := standsRight
      cases isThere.symm.trans isRight
      rw [Stands.type_eq element other stands standsOther]
    | applied | nullable | tuple =>
      obtain ⟨_, isRight, _⟩ := standsRight
      cases isThere.symm.trans isRight
    | _ => cases isThere.symm.trans standsRight
  | .nullable inner, right, ⟨_, isThere, stands⟩, standsRight => by
    cases right with
    | nullable other =>
      obtain ⟨_, isRight, standsOther⟩ := standsRight
      cases isThere.symm.trans isRight
      rw [Stands.type_eq inner other stands standsOther]
    | applied | array | tuple =>
      obtain ⟨_, isRight, _⟩ := standsRight
      cases isThere.symm.trans isRight
    | _ => cases isThere.symm.trans standsRight
  | .tuple elements, right, ⟨_, isThere, stand⟩, standsRight => by
    cases right with
    | tuple others =>
      obtain ⟨_, isRight, standOthers⟩ := standsRight
      cases isThere.symm.trans isRight
      rw [StandEach.types_eq elements others stand standOthers]
    | applied | array | nullable =>
      obtain ⟨_, isRight, _⟩ := standsRight
      cases isThere.symm.trans isRight
    | _ => cases isThere.symm.trans standsRight
  | .unknown, right, isThere, standsRight | .prim _, right, isThere, standsRight
  | .library _, right, isThere, standsRight | .declared _, right, isThere, standsRight
  | .param _, right, isThere, standsRight => by
    cases right with
    | applied | array | nullable | tuple =>
      obtain ⟨_, isRight, _⟩ := standsRight
      cases isThere.symm.trans isRight
    | _ => exact TypeKey.plain.inj (Option.some.inj (isThere.symm.trans standsRight))

theorem StandEach.types_eq {places : List Nat} : (lefts rights : List Ty) →
    table.StandEach places lefts → table.StandEach places rights → lefts = rights
  | [], [], _, _ => rfl
  | [], _ :: _, isEmpty, ⟨_, _, isPlaces, _⟩ | _ :: _, [], ⟨_, _, isPlaces, _⟩, isEmpty => by
    cases isPlaces.symm.trans isEmpty
  | left :: lefts, right :: rights, ⟨_, _, isPlaces, stands, stand⟩,
      ⟨_, _, isOthers, standsOther, standOthers⟩ => by
    cases isPlaces.symm.trans isOthers
    rw [Stands.type_eq left right stands standsOther,
      StandEach.types_eq lefts rights stand standOthers]

end

mutual

theorem Stands.mono (grows : table.Grows later) {place : Nat} : (type : Ty) →
    table.Stands place type → later.Stands place type
  | .applied _ args, ⟨parts, isThere, stand⟩ =>
    ⟨parts, grows _ _ isThere, StandEach.mono grows args stand⟩
  | .array element, ⟨part, isThere, stands⟩ =>
    ⟨part, grows _ _ isThere, Stands.mono grows element stands⟩
  | .nullable inner, ⟨part, isThere, stands⟩ =>
    ⟨part, grows _ _ isThere, Stands.mono grows inner stands⟩
  | .tuple elements, ⟨parts, isThere, stand⟩ =>
    ⟨parts, grows _ _ isThere, StandEach.mono grows elements stand⟩
  | .unknown, isThere | .prim _, isThere | .library _, isThere | .declared _, isThere
  | .param _, isThere => grows _ _ isThere

theorem StandEach.mono (grows : table.Grows later) {places : List Nat} : (types : List Ty) →
    table.StandEach places types → later.StandEach places types
  | [], isEmpty => isEmpty
  | type :: rest, ⟨first, others, isPlaces, stands, stand⟩ =>
    ⟨first, others, isPlaces, Stands.mono grows type stands, StandEach.mono grows rest stand⟩

end

end TypeTable

/-! ## Binding to places -/

namespace TypeNames

open TypeTable

variable {names : TypeNames} {company : Company} {table later : TypeTable} {type : Ty} {place : Nat}

theorem wraps_of_stands (names : TypeNames) (stands : table.Stands place type) :
    (table.keys[place]?.any fun key => names.isValueKey key && !key.isNullable) =
      (names.isValueType type && names.shape type != .nullable) := by
  cases type with
  | applied name args =>
    obtain ⟨_, isThere, _⟩ := stands
    rw [isThere]
    change ((names.shape (.applied name args) == .structType) && true) = _
    unfold isValueType
    cases names.shape (.applied name args) <;> rfl
  | array | nullable | tuple =>
    obtain ⟨_, isThere, _⟩ := stands
    rw [isThere]
    rfl
  | prim kind | library kind =>
    rw [show table.keys[place]? = _ from stands]
    cases kind <;> rfl
  | declared index =>
    rw [show table.keys[place]? = _ from stands]
    change (names.isValueType (.declared index) && true) = _
    unfold isValueType
    cases names.shape (.declared index) <;> rfl
  | unknown | param =>
    rw [show table.keys[place]? = _ from stands]
    rfl

/-- An action only adds to the table, and leads to a place that stands for a type. -/
def Binds (action : StateM TypeTable Nat) (type : Ty) (table : TypeTable) : Prop :=
  table.Grows (action table).2 ∧ (action table).2.Stands (action table).1 type

theorem instanceOf_binds {name : String} {places : List Nat} {args : List Ty}
    (stand : table.StandEach places args) :
    Binds (names.instanceOf company name places) (names.apply name args) table := by
  unfold instanceOf apply
  cases names.generic? (lastSegment name) with
  | none => exact ⟨enter_grows _ _, enter_stands _ _⟩
  | some =>
    have made := company.grows name places table
    have entered := enter_grows (.applied name places) (company.make name places table)
    exact ⟨made.trans entered, places, enter_stands _ _, stand.mono (made.trans entered) args⟩

theorem arrayPlace_binds {element : Ty} (stands : table.Stands place element) :
    Binds (names.arrayPlace company place) (.array element) table := by
  have isEnumerable : Binds (names.instanceOf company "IEnumerable" [place])
      (names.apply "IEnumerable" [element]) table := instanceOf_binds ⟨place, [], rfl, stands, rfl⟩
  have entered := isEnumerable.1.trans (enter_grows (.array place) _)
  exact ⟨entered, place, enter_stands _ _, stands.mono entered element⟩

theorem nullablePlace_binds {inner : Ty} (stands : table.Stands place inner) :
    Binds (names.nullablePlace place) (names.nullableOf inner) table := by
  have ran : names.nullablePlace place table =
      if names.isValueType inner && names.shape inner != .nullable then
        enter (.nullable place) table
      else (place, table) := by
    rw [← names.wraps_of_stands stands]
    exact apply_ite (fun action : StateM TypeTable Nat => action table) _ _ _
  unfold Binds nullableOf
  rw [ran]
  split
  · exact ⟨enter_grows _ _, place, enter_stands _ _, stands.mono (enter_grows _ _) inner⟩
  · exact ⟨.refl table, stands⟩

theorem namePlace_binds {name : String} :
    Binds (names.namePlace company name) (names.bindName name) table := by
  unfold namePlace
  rcases (names.bindName_cases : names.bindName name = .unknown ∨ _) with
    isType | ⟨_, isType⟩ | ⟨_, isType⟩ | ⟨_, isType⟩ | isType | ⟨isType, isAction⟩ <;>
    rw [isType]
  any_goals exact ⟨enter_grows _ _, enter_stands _ _⟩
  have isApplied : names.apply name [] = .applied name [] := by
    rw [apply, lastSegment_of_action isAction, isAction]
  change Binds (names.instanceOf company name []) _ table
  rw [← isApplied]
  exact instanceOf_binds rfl

mutual

theorem place_binds (company : Company) (table : TypeTable) : (type : TypeSyntax) →
    Binds (names.place company type) (names.bind type) table
  | .absent | .var | .dynamic | .void => ⟨enter_grows _ _, enter_stands _ _⟩
  | .named _ [] => namePlace_binds
  | .named _ (first :: rest) => by
    obtain ⟨grows, stand⟩ := places_bind company table (first :: rest)
    obtain ⟨grown, stands⟩ := instanceOf_binds stand
    exact ⟨grows.trans grown, stands⟩
  | .array element => by
    obtain ⟨grows, stands⟩ := place_binds company table element
    obtain ⟨grown, standsArray⟩ := arrayPlace_binds stands
    exact ⟨grows.trans grown, standsArray⟩
  | .nullable inner => by
    obtain ⟨grows, stands⟩ := place_binds company table inner
    obtain ⟨grown, standsNullable⟩ := nullablePlace_binds stands
    exact ⟨grows.trans grown, standsNullable⟩
  | .tuple elements => by
    obtain ⟨grows, stand⟩ := places_bind company table elements
    have entered := enter_grows (.tuple (names.places company elements table).1)
      (names.places company elements table).2
    exact ⟨grows.trans entered, _, enter_stands _ _, stand.mono entered _⟩

theorem places_bind (company : Company) (table : TypeTable) : (types : List TypeSyntax) →
    table.Grows (names.places company types table).2 ∧
      (names.places company types table).2.StandEach (names.places company types table).1
        (names.bindAll types)
  | [] => ⟨.refl table, rfl⟩
  | type :: rest => by
    obtain ⟨grows, stands⟩ := place_binds company table type
    obtain ⟨grown, stand⟩ := places_bind company (names.place company type table).2 rest
    exact ⟨grows.trans grown, _, _, rfl, stands.mono grown _, stand⟩

end

/-- Two pieces of type syntax are bound to one place exactly if they are bound to one type. -/
theorem place_eq_iff (left right : TypeSyntax)
    (grows : (names.place company left table).2.Grows later) :
    (names.place company left table).1 = (names.place company right later).1 ↔
      names.bind left = names.bind right := by
  obtain ⟨-, standsLeft⟩ := place_binds company table left
  obtain ⟨grown, standsRight⟩ := place_binds company later right
  have standsLater := standsLeft.mono (grows.trans grown)
  constructor
  · intro same
    rw [← same] at standsRight
    exact standsLater.type_eq _ _ standsRight
  · intro same
    rw [← same] at standsRight
    exact standsLater.place_eq _ standsRight

end TypeNames

end Unsugar
