import Unsugar.Proofs.Types.FoundTypes

open List

namespace Unsugar

/-! # What type syntax denotes

A denotation tells uses of generic types apart by their definition and their arguments,
and knows nothing of how a name is spelled.  `bind_eq_iff_denotes` says that syntax is
bound to one type exactly if it denotes one, and the generic names in it are qualified
alike: the table of uses goes by the name as it is written.
-/

variable {other : String} {kind : LibraryGeneric} {index : Nat}

inductive Denotation where
  | unknown
  | prim (kind : Primitive)
  | library (kind : LibraryType)
  | declared (index : Nat)
  | param (name : String)
  | use (definition : GenericDef) (args : List Denotation)
  | array (element : Denotation)
  | nullable (inner : Denotation)
  | tuple (elements : List Denotation)

def Denotation.isUse : Denotation → Bool
  | use _ _ => true
  | _ => false

/-- The part of a name before its last segment. -/
def qualifier (name : String) : String :=
  String.ofList (name.toList.reverse.dropWhile (· ≠ '.')).reverse

namespace TypeNames

section Denotation

variable (names : TypeNames)

def copies : Denotation → Bool
  | .prim kind => kind.isValueType
  | .library kind => kind.isValueType
  | .declared index | .use (.declared index) _ =>
    ((names.declKind? index).map (·.shape)).getD .unknown == .structType
  | .nullable _ | .tuple _ => true
  | .unknown | .param _ | .use (.library _) _ | .array _ => false

/-- `T?`, which is `T` itself unless values of `T` are copied and never `null`. -/
def optional : Denotation → Denotation
  | .nullable inner => .nullable inner
  | denoted => if names.copies denoted then .nullable denoted else denoted

/-- What a name without arguments denotes.  A namespace before it does not matter, but
    stands neither before a type parameter nor before a bare `Action`. -/
def denotesName (name : String) : Denotation :=
  let simple := lastSegment name
  match names.plainDecl? simple with
  | some index => .declared index
  | none =>
    if simple = "dynamic" then .unknown
    else
      match Primitive.ofName? simple, LibraryType.ofName? simple with
      | some kind, _ => .prim kind
      | none, some kind => .library kind
      | none, none =>
        if name ∈ names.typeParams then .param name
        else if names.generic? name = some (.library .action) then .use (.library .action) []
        else .unknown

mutual

def denotes : TypeSyntax → Denotation
  | .absent | .var | .dynamic => .unknown
  | .void => .prim .void
  | .named name [] => names.denotesName name
  | .named name (first :: rest) =>
    match names.generic? (lastSegment name) with
    | some definition => .use definition (denotes first :: denotesAll rest)
    | none => .unknown
  | .array element => .array (denotes element)
  | .nullable inner => names.optional (denotes inner)
  | .tuple elements => .tuple (denotesAll elements)

def denotesAll : List TypeSyntax → List Denotation
  | [] => []
  | type :: rest => denotes type :: denotesAll rest

end

mutual

/-- How the names of generic types are qualified, from left to right. -/
def qualifiers : TypeSyntax → List String
  | .named name args =>
    if (names.denotes (.named name args)).isUse then qualifier name :: qualifiersAll args else []
  | .array element => qualifiers element
  | .nullable inner => qualifiers inner
  | .tuple elements => qualifiersAll elements
  | .absent | .var | .dynamic | .void => []

def qualifiersAll : List TypeSyntax → List String
  | [] => []
  | type :: rest => qualifiers type ++ qualifiersAll rest

end

/-! ## The same of types -/

mutual

def denoted : Ty → Denotation
  | .unknown => .unknown
  | .prim kind => .prim kind
  | .library kind => .library kind
  | .declared index => .declared index
  | .param name => .param name
  | .applied name args =>
    match names.generic? (lastSegment name) with
    | some definition => .use definition (denotedAll args)
    | none => .unknown
  | .array element => .array (denoted element)
  | .nullable inner => .nullable (denoted inner)
  | .tuple elements => .tuple (denotedAll elements)

def denotedAll : List Ty → List Denotation
  | [] => []
  | type :: rest => denoted type :: denotedAll rest

def qualified : Ty → List String
  | .applied name args => qualifier name :: qualifiedAll args
  | .array element => qualified element
  | .nullable inner => qualified inner
  | .tuple elements => qualifiedAll elements
  | .unknown | .prim _ | .library _ | .declared _ | .param _ => []

def qualifiedAll : List Ty → List String
  | [] => []
  | type :: rest => qualified type ++ qualifiedAll rest

def Defines : Ty → Prop
  | .applied name args => (names.generic? (lastSegment name)).isSome ∧ DefinesAll args
  | .array element => Defines element
  | .nullable inner => Defines inner
  | .tuple elements => DefinesAll elements
  | .unknown | .prim _ | .library _ | .declared _ | .param _ => True

def DefinesAll : List Ty → Prop
  | [] => True
  | type :: rest => Defines type ∧ DefinesAll rest

end

end Denotation

variable {names : TypeNames}

/-! ## Names -/

theorem qualifier_append {name : String} :
    (qualifier name).toList ++ (lastSegment name).toList = name.toList := by
  rw [qualifier, lastSegment, String.toList_ofList, String.toList_ofList, ← reverse_append,
    takeWhile_append_dropWhile, reverse_reverse]

variable {name : String} {type : Ty}

theorem eq_of_qualifier (same : qualifier name = qualifier other)
    (last : lastSegment name = lastSegment other) : name = other :=
  String.toList_inj.mp (by rw [← qualifier_append, same, last, qualifier_append])

theorem name_of_ofName?_generic
    (found : LibraryGeneric.ofName? name = some kind) : kind.name = name := by
  unfold LibraryGeneric.ofName? at found
  split at found <;> cases found <;> rfl

theorem generic?_injective {definition : GenericDef} (found : names.generic? name = some definition)
    (isOther : names.generic? other = some definition) : name = other := by
  rcases Option.or_eq_some_iff.mp found with isDeclared | ⟨-, isLibrary⟩
  · obtain ⟨index, isIndex, rfl⟩ := Option.map_eq_some_iff.mp isDeclared
    rcases Option.or_eq_some_iff.mp isOther with otherDeclared | ⟨-, otherLibrary⟩
    · obtain ⟨_, otherIndex, same⟩ := Option.map_eq_some_iff.mp otherDeclared
      cases same
      obtain ⟨decl, isDecl, isName, -⟩ := genericDecl?_eq_some isIndex
      obtain ⟨_, otherDecl, otherName, -⟩ := genericDecl?_eq_some otherIndex
      cases isDecl.symm.trans otherDecl
      exact isName.symm.trans otherName
    · obtain ⟨_, -, same⟩ := Option.map_eq_some_iff.mp otherLibrary
      cases same
  · obtain ⟨kind, isKind, rfl⟩ := Option.map_eq_some_iff.mp isLibrary
    rcases Option.or_eq_some_iff.mp isOther with otherDeclared | ⟨-, otherLibrary⟩
    · obtain ⟨_, -, same⟩ := Option.map_eq_some_iff.mp otherDeclared
      cases same
    · obtain ⟨_, otherKind, same⟩ := Option.map_eq_some_iff.mp otherLibrary
      cases same
      exact (name_of_ofName?_generic isKind).symm.trans (name_of_ofName?_generic otherKind)

/-! ## Types that denote the same -/

theorem denoted_applied {args : List Ty} (defines : names.Defines (.applied name args)) :
    ∃ definition, names.generic? (lastSegment name) = some definition ∧
      names.denoted (.applied name args) = .use definition (names.denotedAll args) := by
  obtain ⟨definition, found⟩ := Option.isSome_iff_exists.mp defines.1
  exact ⟨definition, found, by rw [denoted, found]⟩

mutual

theorem eq_of_denoted : (left right : Ty) → names.Defines left → names.Defines right →
    names.denoted left = names.denoted right → ∀ {rest following : List String},
      names.qualified left ++ rest = names.qualified right ++ following →
        left = right ∧ rest = following
  | .applied name args, right, defines, others, same, rest, following, spelled => by
    obtain ⟨definition, found, isUse⟩ := denoted_applied defines
    rw [isUse] at same
    cases right with
    | applied other others' =>
      obtain ⟨_, isFound, isOther⟩ := denoted_applied others
      rw [isOther] at same
      injection same with sameDefinition sameArgs
      rw [qualified, qualified] at spelled
      injection spelled with sameQualifier spelled
      obtain ⟨rfl, sameRest⟩ :=
        eq_of_denotedAll args others' defines.2 others.2 sameArgs spelled
      cases sameDefinition
      exact ⟨congrArg (Ty.applied · args)
        (eq_of_qualifier sameQualifier (generic?_injective found isFound)), sameRest⟩
    | _ => cases same
  | .array element, right, defines, others, same, rest, following, spelled => by
    cases right with
    | array other =>
      injection same with same
      obtain ⟨rfl, sameRest⟩ := eq_of_denoted element other defines others same spelled
      exact ⟨rfl, sameRest⟩
    | applied =>
      obtain ⟨_, -, isUse⟩ := denoted_applied others
      rw [isUse] at same
      cases same
    | _ => cases same
  | .nullable inner, right, defines, others, same, rest, following, spelled => by
    cases right with
    | nullable other =>
      injection same with same
      obtain ⟨rfl, sameRest⟩ := eq_of_denoted inner other defines others same spelled
      exact ⟨rfl, sameRest⟩
    | applied =>
      obtain ⟨_, -, isUse⟩ := denoted_applied others
      rw [isUse] at same
      cases same
    | _ => cases same
  | .tuple elements, right, defines, others, same, rest, following, spelled => by
    cases right with
    | tuple other =>
      injection same with same
      obtain ⟨rfl, sameRest⟩ := eq_of_denotedAll elements other defines others same spelled
      exact ⟨rfl, sameRest⟩
    | applied =>
      obtain ⟨_, -, isUse⟩ := denoted_applied others
      rw [isUse] at same
      cases same
    | _ => cases same
  | .unknown, right, _, others, same, rest, following, spelled
  | .prim _, right, _, others, same, rest, following, spelled
  | .library _, right, _, others, same, rest, following, spelled
  | .declared _, right, _, others, same, rest, following, spelled
  | .param _, right, _, others, same, rest, following, spelled => by
    cases right with
    | applied =>
      obtain ⟨_, -, isUse⟩ := denoted_applied others
      rw [isUse] at same
      cases same
    | _ => cases same <;> exact ⟨rfl, spelled⟩

theorem eq_of_denotedAll : (left right : List Ty) → names.DefinesAll left → names.DefinesAll right →
    names.denotedAll left = names.denotedAll right → ∀ {rest following : List String},
      names.qualifiedAll left ++ rest = names.qualifiedAll right ++ following →
        left = right ∧ rest = following
  | [], right, _, _, same, rest, following, spelled => by
    cases right with
    | nil => exact ⟨rfl, spelled⟩
    | cons => cases same
  | type :: others, right, defines, definesRight, same, rest, following, spelled => by
    cases right with
    | nil => cases same
    | cons other more =>
      injection same with sameType sameOthers
      rw [qualifiedAll, qualifiedAll, append_assoc, append_assoc] at spelled
      obtain ⟨rfl, remaining⟩ :=
        eq_of_denoted type other defines.1 definesRight.1 sameType spelled
      obtain ⟨rfl, sameRest⟩ :=
        eq_of_denotedAll others more defines.2 definesRight.2 sameOthers remaining
      exact ⟨rfl, sameRest⟩

end

/-! ## Types that syntax is bound to -/

theorem lastSegment_of_builtin (found : builtin? name = some type) : lastSegment name = name := by
  obtain ⟨rfl, _⟩ | ⟨kind, isKind, _⟩ | ⟨kind, rfl, _⟩ := builtin?_cases found
  · decide +kernel
  · unfold Primitive.ofName? at isKind
    split at isKind <;> first | decide +kernel | cases isKind
  · cases kind <;> decide +kernel

theorem bindName_cases {name : String} :
    names.bindName name = .unknown ∨ (∃ kind, names.bindName name = .prim kind) ∨
      (∃ kind, names.bindName name = .library kind) ∨ (∃ index, names.bindName name = .declared index) ∨
        names.bindName name = .param name ∨
          names.bindName name = .applied name [] ∧ names.generic? name = some (.library .action) := by
  have ofLookup {type : Ty} (found : names.lookup? name = some type) :
      type = .unknown ∨ (∃ kind, type = .prim kind) ∨ (∃ kind, type = .library kind) ∨
        ∃ index, type = .declared index := by
    obtain ⟨own, isOwn⟩ := byName?_of_lookup? found
    rcases Option.or_eq_some_iff.mp isOwn with isDeclared | ⟨-, isBuiltin⟩
    · obtain ⟨index, -, rfl⟩ := Option.map_eq_some_iff.mp isDeclared
      exact .inr (.inr (.inr ⟨index, rfl⟩))
    · obtain ⟨_, rfl⟩ | ⟨kind, _, rfl⟩ | ⟨kind, _, rfl⟩ := builtin?_cases isBuiltin
      · exact .inl rfl
      · exact .inr (.inl ⟨kind, rfl⟩)
      · exact .inr (.inr (.inl ⟨kind, rfl⟩))
  cases found : names.lookup? name with
  | some type =>
    have isType : names.bindName name = type := by
      rw [bindName, found]
      rfl
    rw [isType]
    rcases ofLookup found with isUnknown | isPrim | isLibrary | isDeclared
    · exact .inl isUnknown
    · exact .inr (.inl isPrim)
    · exact .inr (.inr (.inl isLibrary))
    · exact .inr (.inr (.inr (.inl isDeclared)))
  | none =>
    rw [bindName, found, typeParam?]
    split
    · next isSome =>
        split at isSome
        · cases isSome
          exact .inr (.inr (.inr (.inr (.inl rfl))))
        · cases isSome
    · split
      · next isAction => exact .inr (.inr (.inr (.inr (.inr ⟨rfl, eq_of_beq isAction⟩))))
      · exact .inl rfl

theorem lastSegment_of_action (found : names.generic? name = some (.library .action)) :
    lastSegment name = name := by
  rcases Option.or_eq_some_iff.mp found with isDeclared | ⟨-, isLibrary⟩
  · obtain ⟨_, -, same⟩ := Option.map_eq_some_iff.mp isDeclared
    cases same
  · obtain ⟨kind, isKind, same⟩ := Option.map_eq_some_iff.mp isLibrary
    rw [← name_of_ofName?_generic isKind]
    cases kind <;> decide +kernel

/-! ### Every generic name in them is defined -/

theorem defines_nullableOf (defines : names.Defines type) :
    names.Defines (names.nullableOf type) := by
  rw [nullableOf]
  split <;> exact defines

theorem defines_bindName {name : String} : names.Defines (names.bindName name) := by
  rcases names.bindName_cases with
    isType | ⟨_, isType⟩ | ⟨_, isType⟩ | ⟨_, isType⟩ | isType | ⟨isType, isAction⟩
  · rw [isType]
    trivial
  · rw [isType]
    trivial
  · rw [isType]
    trivial
  · rw [isType]
    trivial
  · rw [isType]
    trivial
  · rw [isType, Defines, lastSegment_of_action isAction, isAction]
    exact ⟨rfl, trivial⟩

mutual

theorem defines_bind : (type : TypeSyntax) → names.Defines (names.bind type)
  | .absent | .var | .dynamic | .void => trivial
  | .named name [] => defines_bindName
  | .named name (first :: rest) => by
    rw [bind, apply]
    cases found : names.generic? (lastSegment name) with
    | none => trivial
    | some definition => exact ⟨by rw [found]; rfl, defines_bindAll (first :: rest)⟩
  | .array element => defines_bind element
  | .nullable inner => defines_nullableOf (defines_bind inner)
  | .tuple elements => defines_bindAll elements

theorem defines_bindAll : (types : List TypeSyntax) → names.DefinesAll (names.bindAll types)
  | [] => trivial
  | type :: rest => ⟨defines_bind type, defines_bindAll rest⟩

end

/-! ### They denote what the syntax does -/

def Unqualified (names : TypeNames) : Prop :=
  ∀ decl ∈ names.decls, lastSegment decl.name = decl.name

section

variable (unqualified : names.Unqualified)

include unqualified

theorem Unqualified.lookup?_eq {name : String} :
    names.lookup? name = names.byName? (lastSegment name) := by
  unfold lookup?
  cases found : names.byName? name with
  | none =>
    dsimp only
    split
    · next isSimple => rw [eq_of_beq isSimple, found]
    · rfl
  | some type =>
    have isSimple : lastSegment name = name := by
      rcases Option.or_eq_some_iff.mp found with isDeclared | ⟨-, isBuiltin⟩
      · obtain ⟨index, isIndex, -⟩ := Option.map_eq_some_iff.mp isDeclared
        obtain ⟨decl, isDecl, rfl, -⟩ := plainDecl?_eq_some isIndex
        exact unqualified decl (mem_of_getElem? isDecl)
      · exact lastSegment_of_builtin isBuiltin
    rw [isSimple, found]

theorem Unqualified.bindName (name : String) :
    names.denoted (names.bindName name) = names.denotesName name ∧
      names.qualified (names.bindName name) = names.qualifiers (.named name []) := by
  have spelled : names.qualifiers (.named name []) =
      if (names.denotesName name).isUse then [qualifier name] else [] := rfl
  rw [spelled, TypeNames.bindName, unqualified.lookup?_eq, denotesName, byName?, builtin?]
  cases names.plainDecl? (lastSegment name) with
  | some index => exact ⟨rfl, rfl⟩
  | none =>
    by_cases isDynamic : lastSegment name = "dynamic"
    · rw [isDynamic]
      exact ⟨rfl, rfl⟩
    · rw [if_neg (by simpa using isDynamic), if_neg isDynamic]
      cases Primitive.ofName? (lastSegment name) with
      | some kind => exact ⟨rfl, rfl⟩
      | none =>
        cases LibraryType.ofName? (lastSegment name) with
        | some kind => exact ⟨rfl, rfl⟩
        | none =>
          by_cases isParam : name ∈ names.typeParams
          · rw [typeParam?, contains_iff_mem.mpr isParam, if_pos isParam]
            exact ⟨rfl, rfl⟩
          · have notParam : names.typeParam? name = none :=
              if_neg fun contains => isParam (contains_iff_mem.mp contains)
            rw [notParam, if_neg isParam]
            by_cases isAction : names.generic? name = some (.library .action)
            · have found : names.generic? (lastSegment name) = some (.library .action) := by
                rw [lastSegment_of_action isAction, isAction]
              rw [if_pos isAction]
              simp only [Option.map_none, Option.or_none, isAction, beq_self_eq_true,
                if_true, found, denoted, qualified]
              exact ⟨rfl, rfl⟩
            · rw [if_neg isAction]
              simp only [Option.map_none, Option.or_none, beq_eq_false_iff_ne.mpr isAction]
              exact ⟨rfl, rfl⟩

theorem Unqualified.generic?_of_decl (isDecl : names.genericDecl? name = some index) :
    names.generic? (lastSegment name) = some (.declared index) := by
  obtain ⟨decl, isThere, isName, -⟩ := genericDecl?_eq_some isDecl
  have isSimple := unqualified decl (mem_of_getElem? isThere)
  rw [isName] at isSimple
  rw [isSimple, generic?, isDecl]
  rfl

theorem Unqualified.template_library
    (found : names.generic? (lastSegment name) = some (.library kind)) :
    names.template name = .library kind := by
  unfold template
  cases isDecl : names.genericDecl? name with
  | none => rw [found]
  | some index => cases (unqualified.generic?_of_decl isDecl).symm.trans found

theorem Unqualified.template_declared
    (found : names.generic? (lastSegment name) = some (.declared index)) :
    names.template name = .full index ∨ names.template name = .header index := by
  unfold template
  cases isDecl : names.genericDecl? name with
  | none =>
    rw [found]
    exact .inr rfl
  | some other =>
    cases (unqualified.generic?_of_decl isDecl).symm.trans found
    exact .inl rfl

theorem Unqualified.copies_denoted (defines : names.Defines type) :
    names.copies (names.denoted type) = names.isValueType type := by
  cases type with
  | applied name args =>
    obtain ⟨definition, found, isUse⟩ := denoted_applied defines
    rw [isUse, isValueType, shape]
    cases definition with
    | library kind =>
      rw [unqualified.template_library found]
      cases kind <;> rfl
    | declared index =>
      rcases unqualified.template_declared found with isTemplate | isTemplate <;>
        rw [isTemplate] <;> rfl
  | _ => rfl

theorem Unqualified.nullableOf (defines : names.Defines type) :
    names.denoted (names.nullableOf type) = names.optional (names.denoted type) ∧
      names.qualified (names.nullableOf type) = names.qualified type := by
  by_cases isNullable : ∃ inner, type = .nullable inner
  · obtain ⟨inner, rfl⟩ := isNullable
    exact ⟨rfl, rfl⟩
  · have notShape : names.shape type ≠ .nullable := fun isShape =>
      isNullable (eq_nullable_of_shape isShape)
    have isOptional : names.optional (names.denoted type) =
        if names.isValueType type then .nullable (names.denoted type) else names.denoted type := by
      rw [← unqualified.copies_denoted defines]
      cases type with
      | nullable inner => exact absurd ⟨inner, rfl⟩ isNullable
      | applied name args =>
        obtain ⟨_, -, isUse⟩ := denoted_applied defines
        rw [isUse]
        rfl
      | _ => rfl
    rw [isOptional, TypeNames.nullableOf, bne_iff_ne.mpr notShape, Bool.and_true]
    split <;> exact ⟨rfl, rfl⟩

end

mutual

theorem Unqualified.bind (unqualified : names.Unqualified) : (type : TypeSyntax) →
    names.denoted (names.bind type) = names.denotes type ∧
      names.qualified (names.bind type) = names.qualifiers type
  | .absent | .var | .dynamic | .void => ⟨rfl, rfl⟩
  | .named name [] => unqualified.bindName name
  | .named name (first :: rest) => by
    obtain ⟨denote, qualify⟩ := unqualified.bindAll (first :: rest)
    rw [TypeNames.bind, apply, denotes, qualifiers, denotes]
    rw [TypeNames.bindAll] at denote qualify
    cases found : names.generic? (lastSegment name) with
    | none => exact ⟨rfl, rfl⟩
    | some definition =>
      refine ⟨?_, congrArg (_ :: ·) qualify⟩
      rw [denoted, found, denote, denotesAll]
  | .array element => by
    obtain ⟨denote, qualify⟩ := unqualified.bind element
    exact ⟨congrArg Denotation.array denote, qualify⟩
  | .nullable inner => by
    obtain ⟨denote, qualify⟩ := unqualified.bind inner
    obtain ⟨denoteOptional, qualifyOptional⟩ := unqualified.nullableOf (defines_bind inner)
    rw [TypeNames.bind, denotes, qualifiers, denoteOptional, denote, qualifyOptional, qualify]
    exact ⟨rfl, rfl⟩
  | .tuple elements => by
    obtain ⟨denote, qualify⟩ := unqualified.bindAll elements
    exact ⟨congrArg Denotation.tuple denote, qualify⟩

theorem Unqualified.bindAll (unqualified : names.Unqualified) : (types : List TypeSyntax) →
    names.denotedAll (names.bindAll types) = names.denotesAll types ∧
      names.qualifiedAll (names.bindAll types) = names.qualifiersAll types
  | [] => ⟨rfl, rfl⟩
  | type :: rest => by
    obtain ⟨denote, qualify⟩ := unqualified.bind type
    obtain ⟨denoteRest, qualifyRest⟩ := unqualified.bindAll rest
    refine ⟨?_, ?_⟩
    · rw [TypeNames.bindAll, denotedAll, denote, denoteRest, denotesAll]
    · rw [TypeNames.bindAll, qualifiedAll, qualify, qualifyRest, qualifiersAll]

end

/-- Two pieces of type syntax are bound to one type exactly if they denote the same, and the
    names of generic types in them are qualified in the same way. -/
theorem bind_eq_iff_denotes (unqualified : names.Unqualified) (left right : TypeSyntax) :
    names.bind left = names.bind right ↔
      names.denotes left = names.denotes right ∧ names.qualifiers left = names.qualifiers right := by
  obtain ⟨denote, qualify⟩ := unqualified.bind left
  obtain ⟨denoteOther, qualifyOther⟩ := unqualified.bind right
  rw [← denote, ← denoteOther, ← qualify, ← qualifyOther]
  constructor
  · rintro same
    exact ⟨congrArg _ same, congrArg _ same⟩
  · rintro ⟨sameDenoted, sameQualified⟩
    have spelled : names.qualified (names.bind left) ++ [] = names.qualified (names.bind right) ++ [] :=
      congrArg (· ++ []) sameQualified
    exact (eq_of_denoted _ _ (defines_bind left) (defines_bind right) sameDenoted spelled).1

theorem bind_eq_iff_denotes_qualified :
    let names := (CompilationUnit.mk [] none []).typeNames {}
    let plain : TypeSyntax := .named "List" [.named "Int32" []]
    let qualified : TypeSyntax := .named "System.List" [.named "int" []]
    names.Unqualified ∧ names.denotes plain = names.denotes qualified ∧
      names.bind plain ≠ names.bind qualified ∧
      names.bind plain = names.bind (.named "List" [.named "int" []]) := by
  intro names plain qualified
  have unqualified : names.Unqualified := List.forall_mem_nil _
  refine ⟨unqualified, rfl, fun same => ?_, ?_⟩
  · exact absurd ((bind_eq_iff_denotes unqualified _ _).mp same).2 (by decide +kernel)
  · exact (bind_eq_iff_denotes unqualified _ _).mpr ⟨rfl, rfl⟩

end TypeNames

end Unsugar
