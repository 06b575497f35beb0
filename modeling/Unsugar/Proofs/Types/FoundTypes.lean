import Unsugar.Analysis.View
import Unsugar.Types.Syntax

open List

namespace Unsugar

/-! # Types found by name

Of several declarations of one name the last one without type parameters is found, and
a type that is found under some name is found under its own.
-/

section Lists

variable {α : Type} {test : α → Bool} {items : List α}

theorem getElem?_of_lastIndex? {index : Nat} (found : lastIndex? test items = some index) :
    ∃ item, items[index]? = some item ∧ test item = true := by
  have shifted : ∀ (items : List α) (start : Nat), lastIndex?.go test start items = some index →
      ∃ item, start ≤ index ∧ items[index - start]? = some item ∧ test item = true := by
    intro items
    induction items with
    | nil => rintro start ⟨⟩
    | cons first rest ih =>
      intro start found
      rw [lastIndex?.go, Option.or_eq_some_iff] at found
      rcases found with later | ⟨-, isHere⟩
      · obtain ⟨item, bound, isItem, holds⟩ := ih (start + 1) later
        refine ⟨item, by omega, ?_, holds⟩
        rw [show index - start = index - (start + 1) + 1 by omega]
        exact isItem
      · split at isHere
        · next holds =>
            cases isHere
            exact ⟨first, Nat.le_refl _, by simp, holds⟩
        · cases isHere
  obtain ⟨item, -, isItem, holds⟩ := shifted items 0 found
  exact ⟨item, isItem, holds⟩

theorem lastIndex?_isSome {item : α} (isIn : item ∈ items) (holds : test item = true) :
    (lastIndex? test items).isSome = true := by
  have somewhere : ∀ (items : List α) (start : Nat), item ∈ items →
      (lastIndex?.go test start items).isSome = true := by
    intro items
    induction items with
    | nil => exact fun _ => nofun
    | cons first rest ih =>
      intro start isIn
      rw [lastIndex?.go, Option.isSome_or, Bool.or_eq_true]
      obtain rfl | isRest := mem_cons.mp isIn
      · rw [if_pos holds]
        exact .inr rfl
      · exact .inl (ih (start + 1) isRest)
  exact somewhere items 0 isIn

end Lists

namespace TypeNames

variable {names : TypeNames} {decl : TypeDecl} {name : String} {index : Nat} {type : Ty}

theorem plainDecl?_eq_some (found : names.plainDecl? name = some index) :
    ∃ decl, names.decls[index]? = some decl ∧ decl.name = name ∧ decl.typeParams = [] := by
  obtain ⟨decl, isDecl, holds⟩ := getElem?_of_lastIndex? found
  rw [Bool.and_eq_true, beq_iff_eq, List.isEmpty_iff] at holds
  exact ⟨decl, isDecl, holds⟩

theorem genericDecl?_eq_some (found : names.genericDecl? name = some index) :
    ∃ decl, names.decls[index]? = some decl ∧ decl.name = name ∧ decl.typeParams ≠ [] := by
  obtain ⟨decl, isDecl, holds⟩ := getElem?_of_lastIndex? found
  rw [Bool.and_eq_true, beq_iff_eq] at holds
  refine ⟨decl, isDecl, holds.1, fun isPlain => ?_⟩
  rw [isPlain] at holds
  cases holds.2

theorem lookup?_of_plain (isDecl : decl ∈ names.decls) (isPlain : decl.typeParams = []) :
    ∃ index, names.plainDecl? decl.name = some index ∧
      names.lookup? decl.name = some (.declared index) := by
  have isKnown : (names.plainDecl? decl.name).isSome = true :=
    lastIndex?_isSome isDecl (by rw [isPlain, beq_self_eq_true]; rfl)
  obtain ⟨index, isFound⟩ := Option.isSome_iff_exists.mp isKnown
  refine ⟨index, isFound, ?_⟩
  rw [lookup?, byName?, isFound]
  rfl

theorem builtin?_cases (found : builtin? name = some type) :
    (name = "dynamic" ∧ type = .unknown) ∨
      (∃ kind, Primitive.ofName? name = some kind ∧ type = .prim kind) ∨
        ∃ kind : LibraryType, kind.name = name ∧ type = .library kind := by
  unfold builtin? at found
  split at found
  · next isDynamic =>
      cases found
      exact .inl ⟨eq_of_beq isDynamic, rfl⟩
  · obtain isPrimitive | ⟨_, isLibrary⟩ := Option.or_eq_some_iff.mp found
    · obtain ⟨kind, isKind, rfl⟩ := Option.map_eq_some_iff.mp isPrimitive
      exact .inr (.inl ⟨kind, isKind, rfl⟩)
    · obtain ⟨kind, isKind, rfl⟩ := Option.map_eq_some_iff.mp isLibrary
      exact .inr (.inr ⟨kind, by simpa using find?_some isKind, rfl⟩)

theorem byName?_of_lookup? (found : names.lookup? name = some type) :
    ∃ own, names.byName? own = some type := by
  unfold lookup? at found
  split at found
  · next isFound => exact ⟨name, isFound.trans found⟩
  · dsimp only at found
    split at found
    · cases found
    · exact ⟨_, found⟩

theorem lookup?_declared (found : names.lookup? name = some (.declared index)) :
    ∃ decl, names.decls[index]? = some decl ∧ decl.typeParams = [] ∧
      names.plainDecl? decl.name = some index := by
  obtain ⟨own, isOwn⟩ := byName?_of_lookup? found
  obtain isDeclared | ⟨_, isBuiltin⟩ := Option.or_eq_some_iff.mp isOwn
  · obtain ⟨other, isIndex, same⟩ := Option.map_eq_some_iff.mp isDeclared
    cases same
    obtain ⟨decl, isDecl, isName, isPlain⟩ := plainDecl?_eq_some isIndex
    exact ⟨decl, isDecl, isPlain, isName ▸ isIndex⟩
  · obtain ⟨_, same⟩ | ⟨_, _, same⟩ | ⟨_, _, same⟩ := builtin?_cases isBuiltin <;> cases same

/-- A type that is found is found again as it is written, unless a declaration has the name
    that a primitive type is written with. -/
theorem bind_syntaxOf_found (found : names.lookup? name = some type)
    (isShown : ∀ kind, type = .prim kind → names.plainDecl? kind.name = none) :
    names.bind (names.syntaxOf type) = type := by
  obtain ⟨own, isOwn⟩ := byName?_of_lookup? found
  have reads {own : String} (isOwn : names.byName? own = some type) : names.bindName own = type := by
    rw [bindName, lookup?, isOwn]
    rfl
  obtain isDeclared | ⟨_, isBuiltin⟩ := Option.or_eq_some_iff.mp isOwn
  · obtain ⟨index, isIndex, rfl⟩ := Option.map_eq_some_iff.mp isDeclared
    obtain ⟨decl, isDecl, rfl, isPlain⟩ := plainDecl?_eq_some isIndex
    rw [syntaxOf, isDecl]
    change names.bind (.named decl.name (decl.typeParams.map .simple)) = _
    rw [isPlain]
    exact reads isOwn
  · obtain ⟨_, rfl⟩ | ⟨kind, isKind, rfl⟩ | ⟨kind, rfl, rfl⟩ := builtin?_cases isBuiltin
    · rfl
    · have none := isShown kind rfl
      cases kind with
      | void => rfl
      | null =>
        unfold Primitive.ofName? at isKind
        split at isKind <;> cases isKind
      | _ => exact reads (by rw [byName?, none]; rfl)
    · exact reads isOwn

end TypeNames

namespace Infer

variable {types : Universe} {decl : TypeDecl}

theorem declaredType_of_plain (isDecl : decl ∈ types.names.decls) (isPlain : decl.typeParams = []) :
    types.names.lookup? decl.name = some (declaredType types decl) := by
  obtain ⟨index, _, found⟩ := TypeNames.lookup?_of_plain isDecl isPlain
  rw [declaredType, isPlain, found]
  rfl

theorem declaredType_of_generic (isDecl : decl ∈ types.names.decls)
    (isGeneric : decl.typeParams ≠ []) :
    types.names.lookup? decl.name ≠ some (declaredType types decl) := by
  have notEmpty : decl.typeParams.isEmpty = false := by
    cases isParams : decl.typeParams with
    | nil => exact absurd isParams isGeneric
    | cons => rfl
  have isKnown : (types.names.genericDecl? decl.name).isSome = true :=
    lastIndex?_isSome isDecl (by rw [notEmpty, beq_self_eq_true]; rfl)
  obtain ⟨index, isFound⟩ := Option.isSome_iff_exists.mp isKnown
  intro found
  rw [declaredType, notEmpty, isFound] at found
  obtain ⟨plain, isPlain, noParams, _⟩ := TypeNames.lookup?_declared found
  obtain ⟨generic, isThere, _, params⟩ := TypeNames.genericDecl?_eq_some isFound
  cases isPlain.symm.trans isThere
  exact params noParams

end Infer

/-! ## Shapes of types

The shape of a type says whether its values are copied, and is what the data of the type
has for it.
-/

def TypeShape.isValue : TypeShape → Bool
  | .primitive | .structType | .tuple | .nullable => true
  | _ => false

namespace TypeNames

variable {names : TypeNames}

theorem isValueType_eq {type : Ty} : names.isValueType type = (names.shape type).isValue := by
  have declared (shape : Option TypeShape) (isDeclared : ∀ found ∈ shape,
      found = .classType ∨ found = .structType ∨ found = .interfaceType) :
      (shape.getD .unknown == .structType) = (shape.getD .unknown).isValue := by
    cases shape with
    | none => rfl
    | some found => rcases isDeclared found rfl with rfl | rfl | rfl <;> rfl
  have ofKind (index : Nat) (found : TypeShape)
      (isFound : found ∈ (names.declKind? index).map (·.shape)) :
      found = .classType ∨ found = .structType ∨ found = .interfaceType := by
    obtain ⟨kind, -, rfl⟩ := Option.map_eq_some_iff.mp isFound
    cases kind <;> simp [TypeDeclKind.shape]
  cases type with
  | prim kind => cases kind <;> rfl
  | library kind => cases kind <;> rfl
  | declared index => exact declared _ (ofKind index)
  | applied name args =>
    simp only [isValueType, shape]
    split
    · next kind _ => cases kind <;> rfl
    · exact declared _ (ofKind _)
    · exact declared _ (ofKind _)
    · rfl
  | _ => rfl

theorem eq_nullable_of_shape {type : Ty} (isNullable : names.shape type = .nullable) :
    ∃ inner, type = .nullable inner := by
  have declared (index : Nat) :
      ((names.declKind? index).map (·.shape)).getD .unknown ≠ .nullable := by
    cases names.declKind? index with
    | none => exact nofun
    | some kind => cases kind <;> exact nofun
  cases type with
  | nullable inner => exact ⟨inner, rfl⟩
  | prim kind => cases kind <;> cases isNullable
  | library kind => cases kind <;> cases isNullable
  | declared index => exact absurd isNullable (declared index)
  | applied name args =>
    rw [shape] at isNullable
    split at isNullable
    · next kind _ => cases kind <;> cases isNullable
    · exact absurd isNullable (declared _)
    · exact absurd isNullable (declared _)
    · cases isNullable
  | _ => cases isNullable

theorem nullableOf_congr {names : TypeNames} {left right : Ty}
    (same : names.shape left = names.shape right) :
    names.nullableOf left = .nullable left ∧ names.nullableOf right = .nullable right ∨
      names.nullableOf left = left ∧ names.nullableOf right = right := by
  rw [nullableOf, nullableOf, isValueType_eq, isValueType_eq, same]
  split
  · exact .inl ⟨rfl, rfl⟩
  · exact .inr ⟨rfl, rfl⟩

end TypeNames

section Data

variable {unit : CompilationUnit} {vocabulary : Vocabulary}

theorem Universe.definition_eq {index : Nat} {decl : TypeDecl}
    (isDecl : unit.types[index]? = some decl) :
    (ofUnit unit vocabulary).definitions[index]? = some ((unit.typeNames vocabulary).define decl) := by
  change (unit.types.map _).toArray[index]? = _
  rw [getElem?_toArray, getElem?_map, isDecl]
  rfl

theorem Universe.definition_shape {index : Nat} :
    ((ofUnit unit vocabulary).definitions[index]?.getD .unknown).shape =
      (((unit.typeNames vocabulary).declKind? index).map (·.shape)).getD .unknown := by
  change ((unit.types.map _).toArray[index]?.getD TypeData.unknown).shape =
    ((unit.types[index]?.map (·.kind)).map (·.shape)).getD TypeShape.unknown
  rw [getElem?_toArray, getElem?_map]
  cases unit.types[index]? <;> rfl

theorem Universe.data_shape {type : Ty} :
    ((ofUnit unit vocabulary).data type).shape = (unit.typeNames vocabulary).shape type := by
  cases type with
  | declared index => exact definition_shape
  | applied name args =>
    have template : (ofUnit unit vocabulary).names.template name =
      (unit.typeNames vocabulary).template name := rfl
    rw [data, TypeNames.shape, template]
    cases (unit.typeNames vocabulary).template name with
    | library kind => cases kind <;> rfl
    | full index => exact definition_shape
    | header index =>
      have decls : (ofUnit unit vocabulary).names.decls[index]? = unit.types[index]? := rfl
      have kinds : (unit.typeNames vocabulary).declKind? index =
        unit.types[index]?.map (·.kind) := rfl
      dsimp only
      rw [decls, kinds]
      cases unit.types[index]? <;> rfl
    | missing => rfl
  | _ => rfl

end Data

end Unsugar
