import Mathlib.Data.List.TakeWhile
import Unsugar.Proofs.Types.DenotedTypes

open List

namespace Unsugar

/-! # Uses of generic declarations

A use of a generic declaration has the members that the declaration would have with the
arguments written where its parameters stand.  Replacing a parameter in a bound type gives
what the type with the argument written in is bound to, if uses of generic types go by the
arguments that they are written with, and no nullable parameter is replaced by a type that
has a nullable of its own.  The bases stay those of the declaration.
-/

/-! ## Retyped declarations -/

variable {types : List TypeSyntax} {args : List Ty} {params : List String}

section Retyped

variable (change : TypeSyntax → TypeSyntax)

def Param.retyped (param : Param) : Param := { param with type := change param.type }

def MemberKind.retyped : MemberKind → MemberKind
  | .field type name init => .field (change type) name init
  | .property type name getter setter init => .property (change type) name getter setter init
  | .method name typeParams params ret body =>
    .method name typeParams (params.map (Param.retyped change)) (change ret) body
  | .ctor params initializer body => .ctor (params.map (Param.retyped change)) initializer body
  | .operator op params ret body =>
    .operator op (params.map (Param.retyped change)) (change ret) body

def Member.retyped (member : Member) : Member :=
  { member with kind := member.kind.retyped change }

def TypeDecl.retyped (decl : TypeDecl) : TypeDecl :=
  { decl with
    primary := decl.primary.map (List.map (Param.retyped change))
    bases := decl.bases.map change
    members := decl.members.map (Member.retyped change) }

end Retyped

/-- The types that values of a member are read and written through. -/
def MemberKind.valueTypes : MemberKind → List TypeSyntax
  | .field type _ _ | .property type _ _ _ _ => [type]
  | .method _ _ params ret _ => ret :: params.map (·.type)
  | .ctor .. | .operator .. => []

def TypeDecl.valueTypes (decl : TypeDecl) : List TypeSyntax :=
  (decl.primary.getD []).map (·.type) ++ decl.members.flatMap (·.kind.valueTypes)

namespace TypeNames

/-! ## Replacing in type syntax -/

section Replace

variable (names : TypeNames) (written : List (String × TypeSyntax))

mutual

def replace : TypeSyntax → TypeSyntax
  | .named name [] =>
    if names.bindName name = .param name then (written.lookup name).getD (.named name [])
    else .named name []
  | .named name (first :: rest) => .named name (replace first :: replaceAll rest)
  | .array element => .array (replace element)
  | .nullable inner => .nullable (replace inner)
  | .tuple elements => .tuple (replaceAll elements)
  | .absent => .absent
  | .var => .var
  | .dynamic => .dynamic
  | .void => .void

def replaceAll : List TypeSyntax → List TypeSyntax
  | [] => []
  | type :: rest => replace type :: replaceAll rest

end

mutual

/-- A use of a generic type that mentions a replaced parameter goes by the name and the
    arguments it is written with, and a nullable parameter is not replaced by a type whose
    nullable is another. -/
def Faithful : TypeSyntax → Prop
  | .named _ [] => True
  | .named name (first :: rest) =>
    FaithfulAll (first :: rest) ∧
      (names.bindAll (replaceAll names written (first :: rest)) = names.bindAll (first :: rest) ∨
        names.appliedForm name (names.bindAll (replaceAll names written (first :: rest))) =
          (name, names.bindAll (replaceAll names written (first :: rest))))
  | .array element => Faithful element
  | .nullable inner =>
    Faithful inner ∧ ∀ param, names.bind inner = .param param →
      names.nullableOf (names.bind (replace names written inner)) =
        names.bind (replace names written inner)
  | .tuple elements => FaithfulAll elements
  | .absent | .var | .dynamic | .void => True

def FaithfulAll : List TypeSyntax → Prop
  | [] => True
  | type :: rest => Faithful type ∧ FaithfulAll rest

end

end Replace

variable {names : TypeNames}

theorem bindAll_eq_map : names.bindAll types = types.map names.bind := by
  induction types with
  | nil => rfl
  | cons type rest ih =>
    rw [bindAll, ih, map_cons]

theorem length_replaceAll {written : List (String × TypeSyntax)} :
    (names.replaceAll written types).length = types.length := by
  induction types with
  | nil => rfl
  | cons type rest ih =>
    rw [replaceAll, length_cons, length_cons, ih]

/-! ## The form of a use -/

variable {name : String}

/-- Whether a use goes by its own arguments depends on how many there are. -/
theorem appliedForm_of_length {others : List Ty}
    (spelled : names.appliedForm name args = (name, args)) (length : others.length = args.length) :
    names.appliedForm name others = (name, others) := by
  cases isTemplate : names.template name with
  | library kind =>
    simp only [appliedForm, isTemplate] at spelled ⊢
    injection spelled with isName isArgs
    cases kind with
    | list | enumerable =>
      rw [← isArgs] at length
      obtain ⟨only, rfl⟩ := length_eq_one_iff.mp length
      exact Prod.ext isName rfl
    | func => exact Prod.ext isName rfl
    | action => simp [LibraryGeneric.arguments] at isArgs
  | full index | header index =>
    simp only [appliedForm, isTemplate] at spelled ⊢
    injection spelled with isName
    exact Prod.ext isName rfl
  | missing => simp only [appliedForm, isTemplate]

theorem lastSegment_lastSegment {name : String} :
    lastSegment (lastSegment name) = lastSegment name := by
  have idempotent (text : List Char) :
      (text.takeWhile (· ≠ '.')).takeWhile (· ≠ '.') = text.takeWhile (· ≠ '.') :=
    takeWhile_eq_self_iff.mpr fun _ isIn =>
      mem_takeWhile_imp (p := fun char => decide (char ≠ '.')) isIn
  rw [lastSegment, lastSegment, String.toList_ofList, reverse_reverse, idempotent]

section

variable (isKnown : (names.generic? (lastSegment name)).isSome)

include isKnown

theorem appliedForm_name : ∃ form, (∀ args, (names.appliedForm name args).1 = form) ∧
      (names.generic? (lastSegment form)).isSome ∧
        ∀ args others, names.shape (.applied form others) = names.shape (.applied name args) := by
  cases isDecl : names.genericDecl? name with
  | some index =>
    obtain ⟨decl, isThere, isName, -⟩ := genericDecl?_eq_some isDecl
    have isTemplate : names.template name = .full index := by rw [template, isDecl]
    refine ⟨name, fun args => ?_, isKnown, fun _ _ => rfl⟩
    rw [appliedForm, isTemplate]
    dsimp only
    rw [isThere]
    exact isName
  | none =>
    obtain ⟨definition, found⟩ := Option.isSome_iff_exists.mp isKnown
    have known : (names.generic? (lastSegment (lastSegment name))).isSome := by
      rw [lastSegment_lastSegment, found]
      rfl
    refine ⟨lastSegment name, ?_⟩
    rcases Option.or_eq_some_iff.mp found with isDeclared | ⟨undeclared, isLibrary⟩
    · obtain ⟨index, isIndex, rfl⟩ := Option.map_eq_some_iff.mp isDeclared
      obtain ⟨decl, isThere, isName, -⟩ := genericDecl?_eq_some isIndex
      have isTemplate : names.template name = .header index := by rw [template, isDecl, found]
      have isForm : names.template (lastSegment name) = .full index := by rw [template, isIndex]
      refine ⟨fun args => ?_, known, fun args others => ?_⟩
      · rw [appliedForm, isTemplate]
        dsimp only
        rw [isThere]
        exact isName
      · rw [shape, shape, isTemplate, isForm]
    · obtain ⟨kind, isKind, rfl⟩ := Option.map_eq_some_iff.mp isLibrary
      have noDecl : names.genericDecl? (lastSegment name) = none :=
        Option.map_eq_none_iff.mp undeclared
      have isTemplate : names.template name = .library kind := by rw [template, isDecl, found]
      have isForm : names.template (lastSegment name) = .library kind := by
        rw [template, noDecl, lastSegment_lastSegment, found]
      refine ⟨fun args => ?_, known, fun args others => ?_⟩
      · rw [appliedForm, isTemplate]
        exact name_of_ofName?_generic isKind
      · rw [shape, shape, isTemplate, isForm]

theorem apply_eq : names.apply name args = .applied name args := by
  obtain ⟨definition, found⟩ := Option.isSome_iff_exists.mp isKnown
  rw [apply, found]

theorem substitute_applied {map : List (String × Ty)} :
    names.substitute map (.applied name args) = .applied name args ∨
      ∃ form others, names.substitute map (.applied name args) = .applied form others ∧
        names.shape (.applied form others) = names.shape (.applied name args) := by
  obtain ⟨form, isForm, known, sameShape⟩ := appliedForm_name isKnown
  rw [substitute]
  dsimp only
  split
  · exact .inl rfl
  · rw [isForm, apply_eq known]
    exact .inr ⟨form, _, rfl, sameShape _ _⟩

end

/-! ## Replacing and binding -/

theorem nullableOf_nullableOf {type : Ty} :
    names.nullableOf (names.nullableOf type) = names.nullableOf type := by
  rw [nullableOf.eq_def names type]
  split
  · rfl
  · next notValue => rw [nullableOf, if_neg notValue]

theorem substitute_nullableOf {map : List (String × Ty)} {type : Ty} (defines : names.Defines type)
    (isSame : ∀ param, type = .param param →
      names.nullableOf (names.substitute map type) = names.substitute map type) :
    names.substitute map (names.nullableOf type) =
      names.nullableOf (names.substitute map type) := by
  have ofShape (same : names.shape (names.substitute map type) = names.shape type) :
      names.substitute map (names.nullableOf type) =
        names.nullableOf (names.substitute map type) := by
    rcases nullableOf_congr same with ⟨-, isNullable⟩ | ⟨isReplaced, isSelf⟩
    · rw [isNullable, substitute]
    · rw [isReplaced, isSelf]
  cases type with
  | param name => exact (isSame name rfl).symm
  | nullable inner =>
    have isSelf : names.nullableOf (.nullable inner) = .nullable inner := rfl
    rw [isSelf, substitute, nullableOf_nullableOf]
  | applied name args =>
    rcases substitute_applied defines.1 with isSelf | ⟨form, others, isForm, sameShape⟩
    · exact ofShape (congrArg names.shape isSelf)
    · exact ofShape ((congrArg names.shape isForm).trans sameShape)
  | _ => exact ofShape rfl

theorem substitute_bindName (notParam : names.bindName name ≠ .param name)
    {map : List (String × Ty)} :
    names.substitute map (names.bindName name) = names.bindName name := by
  rcases names.bindName_cases with
    isType | ⟨_, isType⟩ | ⟨_, isType⟩ | ⟨_, isType⟩ | isType | ⟨isType, -⟩
  · rw [isType, substitute]
  · rw [isType, substitute]
  · rw [isType, substitute]
  · rw [isType, substitute]
  · exact absurd isType notParam
  · rw [isType, substitute, substituteAll]
    exact if_pos rfl

def bound (names : TypeNames) (written : List (String × TypeSyntax)) : List (String × Ty) :=
  written.map fun entry => (entry.1, names.bind entry.2)

theorem lookup_bound {written : List (String × TypeSyntax)} {name : String} :
    (names.bound written).lookup name = (written.lookup name).map names.bind := by
  induction written with
  | nil => rfl
  | cons entry rest ih =>
    obtain ⟨param, type⟩ := entry
    rw [bound, map_cons, lookup_cons, lookup_cons]
    cases name == param with
    | true => rfl
    | false => exact ih

theorem bound_instantiation :
    names.bound (params.zip types).reverse = instantiation params (names.bindAll types) := by
  rw [bound, instantiation, map_reverse, bindAll_eq_map, zip_map_right]
  rfl

mutual

theorem substitute_bind {written : List (String × TypeSyntax)} : (type : TypeSyntax) →
    names.Faithful written type →
      names.substitute (names.bound written) (names.bind type) = names.bind (names.replace written type)
  | .absent, _ | .var, _ | .dynamic, _ | .void, _ => by
    simp only [bind, replace, substitute, Ty.void]
  | .named name [], _ => by
    rw [bind, replace]
    split
    · next isParam =>
        rw [isParam, substitute, lookup_bound]
        cases written.lookup name with
        | none => exact isParam.symm
        | some type => rfl
    · next notParam => exact substitute_bindName notParam
  | .named name (first :: rest), ⟨faithful, spelled⟩ => by
    have all := substituteAll_bindAll (first :: rest) faithful
    rw [bindAll, replaceAll, bindAll] at all
    cases found : names.generic? (lastSegment name) with
    | none =>
      rw [bind, replace, bind, apply, apply, found]
      exact substitute.eq_def ..
    | some definition =>
      have isKnown : (names.generic? (lastSegment name)).isSome := by
        rw [found]
        rfl
      rw [replaceAll, bindAll, bindAll] at spelled
      rw [bind, replace, bind, apply_eq isKnown, apply_eq isKnown, substitute]
      dsimp only
      rw [all]
      rcases spelled with same | isForm
      · rw [same, if_pos rfl]
      · have length : (names.bind first :: names.bindAll rest).length =
            (names.bind (names.replace written first) ::
              names.bindAll (names.replaceAll written rest)).length := by
          rw [bindAll_eq_map, bindAll_eq_map, length_cons, length_cons,
            length_map, length_map, length_replaceAll]
        rw [isForm, appliedForm_of_length isForm length]
        split
        · next same => exact congrArg (Ty.applied name) same.symm
        · exact apply_eq isKnown
  | .array element, faithful => by
    rw [bind, substitute, substitute_bind element faithful, replace, bind]
  | .nullable inner, ⟨faithful, isSame⟩ => by
    have inside := substitute_bind inner faithful
    rw [bind, replace, bind, ← inside]
    refine substitute_nullableOf (defines_bind inner) fun param isParam => ?_
    rw [inside]
    exact isSame param isParam
  | .tuple elements, faithful => by
    rw [bind, substitute, substituteAll_bindAll elements faithful, replace, bind]

theorem substituteAll_bindAll {written : List (String × TypeSyntax)} : (types : List TypeSyntax) →
    names.FaithfulAll written types →
      names.substituteAll (names.bound written) (names.bindAll types) =
        names.bindAll (names.replaceAll written types)
  | [], _ => rfl
  | type :: rest, ⟨faithful, others⟩ => by
    rw [bindAll, substituteAll, substitute_bind type faithful, substituteAll_bindAll rest others,
      replaceAll, bindAll]

end

end TypeNames

/-! ## What retyped declarations define -/

section Outlines

variable {names : TypeNames} {decl : TypeDecl} {change : TypeSyntax → TypeSyntax} {replaced : Ty → Ty}

def MemberInfo.withTypes (replaced : Ty → Ty) (member : MemberInfo) : MemberInfo :=
  { member with type := replaced member.type, params := member.params.map replaced }

def Component.withType (replaced : Ty → Ty) (component : Component) : Component :=
  { component with type := replaced component.type }

def Outline.withTypes (replaced : Ty → Ty) (outline : Outline) : Outline :=
  ⟨outline.members.map (.withTypes replaced), outline.components.map (.withType replaced)⟩

theorem Universe.instantiate_eq (types : Universe) {data : TypeData} :
    let replaced := types.names.substitute (instantiation params args)
    types.instantiate data params args = { data with
        args
        members := data.members.map (.withTypes replaced)
        components := data.components.map (.withType replaced) } := rfl

section

variable (agrees : ∀ param ∈ decl.primary.getD [], names.bind (change param.type) =
      replaced (names.bind param.type))

include agrees

theorem primaryOf_retyped : names.primaryOf (decl.retyped change) =
      (names.primaryOf decl).map fun param => (param.1, replaced param.2) := by
  have opened : (decl.retyped change).primary.getD [] =
      (decl.primary.getD []).map (Param.retyped change) := by
    change (decl.primary.map _).getD [] = _
    cases decl.primary <;> rfl
  rw [TypeNames.primaryOf, opened, TypeNames.primaryOf, map_map, map_map]
  exact map_congr_left fun param isIn => congrArg (Prod.mk param.name) (agrees param isIn)

theorem Outline.ofPrimary_retyped :
    Outline.ofPrimary names (decl.retyped change) = (Outline.ofPrimary names decl).withTypes replaced := by
  rw [ofPrimary, primaryOf_retyped agrees, ofPrimary]
  change (if decl.kind.isRecord = true then _ else _) = _
  split
  · simp only [withTypes, map_map]
    rfl
  · rfl

end

theorem componentMember_retyped {declared : List MemberInfo} {param : String} :
    componentMember (declared.map (.withTypes replaced)) (decl.retyped change) param =
      componentMember declared decl param := by
  unfold componentMember
  dsimp only [TypeDecl.retyped]
  rw [filterMap_map, map_map]
  congr 4
  funext member
  obtain ⟨kind, modifiers, span⟩ := member
  cases kind <;> rfl

theorem isDeconstructor_retyped {name : String} {params : List Param} :
    isDeconstructor name (params.map (Param.retyped change)) = isDeconstructor name params := by
  simp only [isDeconstructor, isEmpty_map, all_map]
  rfl

theorem Outline.add_retyped {member : Member}
    (agrees : ∀ type ∈ member.kind.valueTypes, names.bind (change type) = replaced (names.bind type))
    (outline : Outline) :
    (outline.withTypes replaced).add names (decl.retyped change) (member.retyped change) =
      (outline.add names decl member).withTypes replaced := by
  obtain ⟨kind, modifiers, span⟩ := member
  have added (info : MemberInfo) (outline : Outline) : (outline.addMember info).withTypes replaced =
        (outline.withTypes replaced).addMember (info.withTypes replaced) := by
    simp only [withTypes, addMember, map_append, map_cons, map_nil]
  cases kind with
  | field type name init =>
    simp only [add, Member.retyped, MemberKind.retyped, added, MemberInfo.withTypes,
      agrees type (mem_singleton.mpr rfl)]
    rfl
  | property type name getter setter init =>
    simp only [add, Member.retyped, MemberKind.retyped, added, MemberInfo.withTypes,
      agrees type (mem_singleton.mpr rfl)]
    rfl
  | method name typeParams params ret body =>
    have agreesParam : ∀ param ∈ params, names.bind (change param.type) = replaced (names.bind param.type) :=
      fun param isIn => agrees _ (mem_cons_of_mem _ (mem_map_of_mem isIn))
    have agreesRet := agrees ret (mem_cons_self ..)
    have types : (params.map (Param.retyped change)).map (fun param => names.bind param.type) =
        (params.map fun param => names.bind param.type).map replaced := by
      rw [map_map, map_map]
      exact map_congr_left agreesParam
    have components : (params.map (Param.retyped change)).map (fun param =>
          Component.mk (componentMember (outline.members.map (.withTypes replaced))
            (decl.retyped change) param.name) (names.bind param.type)) =
        (params.map fun param =>
          Component.mk (componentMember outline.members decl param.name)
            (names.bind param.type)).map (.withType replaced) := by
      rw [map_map, map_map]
      refine map_congr_left fun param isIn => ?_
      rw [Function.comp_apply, componentMember_retyped]
      exact congrArg (Component.mk _) (agreesParam param isIn)
    simp only [add, Member.retyped, MemberKind.retyped, withTypes, addMember, map_append,
      isDeconstructor_retyped, isEmpty_map, types, components, agreesRet, map_cons,
      map_nil, apply_ite (List.map (Component.withType replaced))]
    rfl
  | ctor params initializer body => rfl
  | operator op params ret body => rfl

theorem TypeNames.define_retyped
    (agrees : ∀ type ∈ decl.valueTypes, names.bind (change type) = replaced (names.bind type)) :
    (names.define (decl.retyped change)).members =
        (names.define decl).members.map (.withTypes replaced) ∧
      (names.define (decl.retyped change)).components =
        (names.define decl).components.map (.withType replaced) := by
  have ofParam : ∀ param ∈ decl.primary.getD [],
      names.bind (change param.type) = replaced (names.bind param.type) :=
    fun param isIn => agrees _ (mem_append_left _ (mem_map_of_mem isIn))
  have ofMembers : ∀ (members : List Member) (outline : Outline),
      (∀ member ∈ members, ∀ type ∈ member.kind.valueTypes,
        names.bind (change type) = replaced (names.bind type)) →
      (members.map (Member.retyped change)).foldl (Outline.add names (decl.retyped change))
          (outline.withTypes replaced) =
        (members.foldl (Outline.add names decl) outline).withTypes replaced := by
    intro members
    induction members with
    | nil => exact fun _ _ => rfl
    | cons member rest ih =>
      intro outline agrees
      obtain ⟨ofMember, ofRest⟩ := forall_mem_cons.mp agrees
      rw [map_cons, foldl_cons, foldl_cons, Outline.add_retyped ofMember]
      exact ih _ ofRest
  have outline : (decl.retyped change).members.foldl (Outline.add names (decl.retyped change))
      (Outline.ofPrimary names (decl.retyped change)) =
        (decl.members.foldl (Outline.add names decl) (Outline.ofPrimary names decl)).withTypes
          replaced := by
    rw [Outline.ofPrimary_retyped ofParam]
    refine ofMembers decl.members _ fun member isIn type isType => agrees type ?_
    exact mem_append_right _ (mem_flatMap.mpr ⟨member, isIn, isType⟩)
  exact ⟨congrArg Outline.members outline, congrArg Outline.components outline⟩

end Outlines

/-! ## Uses -/

/-- Type parameters of a declaration with the types that are written for them; of parameters
    with the same name the last one counts. -/
def TypeDecl.writtenFor (decl : TypeDecl) (written : List TypeSyntax) : List (String × TypeSyntax) :=
  (decl.typeParams.zip written).reverse

/-- A use of a generic declaration is known as the declaration with the arguments written
    where its parameters stand, but for the base and the interfaces, which stay those of the
    declaration.  It has the primary parameters of that declaration unless the unit writes it
    down. -/
theorem generic_instance {unit : CompilationUnit} {vocabulary : Vocabulary} {index : Nat}
    {decl : TypeDecl} {written : List TypeSyntax} (isDecl : unit.types[index]? = some decl)
    (isFound : (unit.typeNames vocabulary).genericDecl? decl.name = some index)
    (isSimple : lastSegment decl.name = decl.name) (hasArgs : written ≠ [])
    (faithful : ∀ type ∈ decl.valueTypes,
      (unit.typeNames vocabulary).Faithful (decl.writtenFor written) type) :
    let names := unit.typeNames vocabulary
    let types := Universe.ofUnit unit vocabulary
    let use := names.bind (.named decl.name written)
    let replaced := decl.retyped (names.replace (decl.writtenFor written))
    types.data use =
        { names.define replaced with
          args := names.bindAll written
          base := (names.define decl).base
          interfaces := (names.define decl).interfaces } ∧
      types.primaryParams use =
        if use ∈ types.written then [] else names.primaryOf replaced := by
  intro names types use replaced
  have isUse : use = .applied decl.name (names.bindAll written) := by
    have isKnown : (names.generic? (lastSegment decl.name)).isSome := by
      rw [isSimple, TypeNames.generic?, isFound]
      rfl
    cases written with
    | nil => exact absurd rfl hasArgs
    | cons first rest => exact TypeNames.apply_eq isKnown
  have isTemplate : types.names.template decl.name = .full index := by
    change names.template decl.name = _
    rw [TypeNames.template, isFound]
  have params : types.typeParamsOf index = decl.typeParams := by
    change (unit.types[index]?.map _).getD [] = _
    rw [isDecl]
    rfl
  have agrees : ∀ type ∈ decl.valueTypes,
      names.bind (names.replace (decl.writtenFor written) type) =
        names.substitute (instantiation decl.typeParams (names.bindAll written)) (names.bind type) := by
    intro type isIn
    rw [← TypeNames.bound_instantiation]
    exact (TypeNames.substitute_bind type (faithful type isIn)).symm
  constructor
  · have isData : types.data use =
        types.instantiate (names.define decl) decl.typeParams (names.bindAll written) := by
      rw [isUse, Universe.data, isTemplate]
      dsimp only
      rw [params]
      exact congrArg (fun found : Option TypeData =>
        types.instantiate (found.getD .unknown) decl.typeParams (names.bindAll written))
          (Universe.definition_eq isDecl)
    obtain ⟨members, components⟩ := TypeNames.define_retyped agrees
    rw [isData, Universe.instantiate_eq]
    dsimp only
    rw [members, components]
    rfl
  · have primary : types.primaries[index]? = some (names.primaryOf decl) := by
      change (unit.types.map names.primaryOf).toArray[index]? = _
      rw [List.getElem?_toArray, List.getElem?_map, isDecl]
      rfl
    have isPrimary : names.primaryOf replaced = (names.primaryOf decl).map fun param =>
        (param.1, names.substitute (instantiation decl.typeParams (names.bindAll written)) param.2) :=
      primaryOf_retyped fun param isIn =>
        agrees _ (List.mem_append_left _ (List.mem_map_of_mem isIn))
    rw [isPrimary, isUse, Universe.primaryParams, isTemplate]
    dsimp only
    rw [params, primary]
    simp only [List.contains_iff_mem]
    rfl

def pairDecl (first second : TypeSyntax) : TypeDecl where
  name := "Pair"
  kind := .recordClass
  modifiers := [.isPublic]
  typeParams := ["T", "U"]
  primary := some [⟨first, "First", .byValue, none⟩, ⟨.array second, "Rest", .byValue, none⟩]
  bases := []
  baseArgs := none
  members := [⟨.field (.named "Func" [first, .simple "bool"]) "Test" none, [.isPublic], ⟨1, 2⟩⟩]
  span := ⟨0, 1⟩

/-- `Pair<int, string>` is what a record of an `int` and `string`s would be. -/
theorem generic_instance_pair :
    let unit : CompilationUnit := ⟨[], none, [pairDecl (.simple "T") (.simple "U")]⟩
    let names := unit.typeNames {}
    let types := Universe.ofUnit unit {}
    let written : List TypeSyntax := [.simple "int", .simple "string"]
    let use := names.bind (.named "Pair" written)
    types.data use =
        { names.define (pairDecl (.simple "int") (.simple "string")) with
          args := [.int, .string]
          base := some .object
          interfaces := [] } ∧
      types.primaryParams use = [("First", .int), ("Rest", .array .string)] := by
  intro unit names types written use
  have faithful : ∀ type ∈ (pairDecl (.simple "T") (.simple "U")).valueTypes,
      names.Faithful ((pairDecl (.simple "T") (.simple "U")).writtenFor written) type := by
    refine List.forall_mem_cons.mpr ⟨trivial, List.forall_mem_cons.mpr ⟨trivial, ?_⟩⟩
    exact List.forall_mem_singleton.mpr ⟨⟨trivial, trivial, trivial⟩, .inr (by decide +kernel)⟩
  have isDecl : unit.types[0]? = some (pairDecl (.simple "T") (.simple "U")) := rfl
  have isFound : (unit.typeNames {}).genericDecl? "Pair" = some 0 := by decide +kernel
  obtain ⟨isData, isPrimary⟩ :=
    generic_instance isDecl isFound (by decide +kernel) (List.cons_ne_nil _ _) faithful
  exact ⟨isData, isPrimary.trans rfl⟩

end Unsugar
