import Unsugar.Proofs.Types.Inheritance

open List

namespace Unsugar

/-! # Type tests that cannot fail

Where the analysis sees an identity or a reference conversion, a type test is
replaced by a comparison with `null`.  `typeTest_eq_notNull_iff` says when the two
agree: always, but for the enumerations that a declared class has from a library
list or a string.
-/

open Relation

/-! ## Conversions -/

def TypeShape.isReference : TypeShape → Bool
  | .classType | .interfaceType | .array | .delegate => true
  | _ => false

section Conversions

variable {types : Universe} {source target : Ty}

theorem Universe.isSubtype_of_classify (differ : source ≠ target) (notNull : source ≠ .null)
    (converts : (types.classify source target).isIdentityOrReference = true) :
    target ≠ .unknown ∧ types.isSubtype source target = true := by
  unfold Universe.classify at converts
  rw [if_neg differ] at converts
  split_ifs at converts with isUnknown _ _ derives
  all_goals first | exact absurd converts (by decide) | refine ⟨?_, derives⟩
  rintro rfl
  simp [Ty.isUnknown] at isUnknown

theorem Universe.isReferenceSubtype_of_classifyTypes (differ : source ≠ target)
    (converts : (types.classifyTypes source target).isIdentityOrReference = true) :
    target ≠ .unknown ∧ types.isReferenceSubtype source target = true := by
  unfold Universe.classifyTypes at converts
  rw [if_neg differ] at converts
  split_ifs at converts with isUnknown _ _ derives
  all_goals first | exact absurd converts (by decide) | refine ⟨?_, derives⟩
  rintro rfl
  simp [Ty.isUnknown] at isUnknown

theorem Universe.includes_of_conversion (reference : (types.shape source).isReference = true)
    (converts : (types.classify source target).isIdentityOrReference = true ∨
      (types.classifyTypes source target).isIdentityOrReference = true) :
    target ≠ .unknown ∧ (target = .object ∨ types.Includes source target) := by
  have known : source ≠ .unknown := by
    rintro rfl
    cases reference
  have notNull : source ≠ .null := by
    rintro rfl
    cases reference
  have reached (derives : types.isSubtype source target = true) : types.Includes source target := by
    obtain ⟨type, present, includes⟩ := Universe.includes_of_reaches derives
    exact mem_singleton.1 present ▸ includes
  by_cases same : source = target
  · exact ⟨same ▸ known, .inr (same ▸ .refl)⟩
  rcases converts with converts | converts
  · obtain ⟨targetKnown, derives⟩ := Universe.isSubtype_of_classify same notNull converts
    exact ⟨targetKnown, .inr (reached derives)⟩
  · obtain ⟨targetKnown, derives⟩ := Universe.isReferenceSubtype_of_classifyTypes same converts
    rw [Universe.isReferenceSubtype, Bool.or_eq_true, beq_iff_eq] at derives
    exact ⟨targetKnown, derives.imp_right reached⟩

end Conversions

/-! ## Values of a static type -/

/-- The type that the analysis has for the objects of a class.  A built-in exception that
    it does not know is an `Exception` to it. -/
def TypeNames.classType (names : TypeNames) (className : String) : Ty :=
  (names.byName? className).getD
    (if (builtinBase? className).isSome then .library .exception else .object)

def Universe.Holds (types : Universe) (program : Program) (machine : Machine) (type : Ty) :
    Value → Prop
  | .object address =>
    let className := (machine.objects.getD address default).className
    (program.declares className = true ∨ isBuiltinType className = true) ∧
      types.Includes (types.names.classType className) type
  | .list address => ∃ element, types.Includes
      (if (machine.sequences.getD address default).isArray then .array element
        else .applied "List" [element]) type
  | .str _ => types.Includes .string type
  | .closure _ => ∃ name args, (name = "Func" ∨ name = "Action") ∧
      types.Includes (.applied name args) type
  | .int _ | .double _ | .bool _ | .char _ | .tuple _ => types.Includes .object type
  | .null | .type _ => False

variable {value : Value}

section Values

variable {unit : CompilationUnit} {vocabulary : Vocabulary}
  {name : String}

theorem isOwnName_of_isBuiltinType (isBuiltin : isBuiltinType name = true) :
    isOwnName name = true := by
  rw [isBuiltinType, Bool.or_eq_true, contains_iff_mem] at isBuiltin
  rcases isBuiltin with isNamed | isException
  · revert name
    decide
  · unfold builtinBase? at isException
    split at isException
    all_goals first | rfl | cases isException

theorem leads_exception (clear : unit.IsClear) {base : String}
    (isBase : builtinBase? name = some base) :
    ReflTransGen unit.program.Extends name "Exception" := by
  have undeclared : unit.program.find? name = none :=
    clear.reserved.undeclared (by simp [isReservedName, isBuiltinType, isBase])
  refine .head (.builtin undeclared isBase) ?_
  have isKnown : base = "InvalidOperationException" ∨ base = "Exception" := by
    unfold builtinBase? at isBase
    split at isBase <;> cases isBase <;> simp
  rcases isKnown with rfl | rfl
  · exact .single (.builtin (clear.reserved.undeclared rfl) rfl)
  · exact .refl

theorem Universe.Holds.mono {types : Universe} {program : Program} {machine : Machine}
    {type target : Ty} (holds : types.Holds program machine type value)
    (includes : types.Includes type target) : types.Holds program machine target value := by
  cases value with
  | null | type _ => exact holds.elim
  | object address => exact ⟨holds.1, holds.2.trans includes⟩
  | list address =>
    obtain ⟨element, below⟩ := holds
    exact ⟨element, below.trans includes⟩
  | closure address =>
    obtain ⟨name, args, isFunction, below⟩ := holds
    exact ⟨name, args, isFunction, below.trans includes⟩
  | int _ | double _ | bool _ | char _ | tuple _ | str _ => exact ReflTransGen.trans holds includes

theorem Known.classType (clear : unit.IsClear) {className : String}
    (known : unit.program.declares className = true ∨ isBuiltinType className = true) :
    Known unit.program (unit.typeNames vocabulary) className
      ((unit.typeNames vocabulary).classType className) := by
  unfold TypeNames.classType
  cases found : (unit.typeNames vocabulary).byName? className with
  | some type =>
    rcases Option.or_eq_some_iff.1 found with isDeclared | ⟨-, isBuiltin⟩
    · obtain ⟨index, isIndex, rfl⟩ := Option.map_eq_some_iff.1 isDeclared
      obtain ⟨decl, isDecl, isName⟩ := getElem?_of_lastIndex? isIndex
      rw [Bool.and_eq_true, beq_iff_eq] at isName
      refine .named ?_ .refl
      rw [Option.getD_some, TypeNames.nameOf?, isDecl, Option.map_some, isName.1]
    · have own : isOwnName className = true := by
        rcases known with isDeclared | isKnown
        · obtain ⟨decl, isDecl⟩ := Option.isSome_iff_exists.1 isDeclared
          have isReserved : isReservedName className = true := by
            simp [isReservedName, isBuiltin]
          rw [clear.reserved.undeclared isReserved] at isDecl
          cases isDecl
        · exact isOwnName_of_isBuiltinType isKnown
      rcases nameOf?_builtin own isBuiltin with rfl | goes
      · exact .unknown
      · exact .named goes .refl
  | none =>
    rw [Option.getD_none]
    split
    · next isException =>
        obtain ⟨base, isBase⟩ := Option.isSome_iff_exists.1 isException
        exact .named rfl (leads_exception clear isBase)
    · exact .object

/-! ## Tests of values -/

/-- A type without the question marks after it. -/
def TypeSyntax.core : TypeSyntax → TypeSyntax
  | .nullable inner => inner.core
  | type => type

theorem TypeSyntax.IsOwn.core : (type : TypeSyntax) → type.IsOwn → type.core.IsOwn
  | .nullable inner, own => TypeSyntax.IsOwn.core inner own
  | .absent, own | .var, own | .dynamic, own | .void, own | .named .., own | .array _, own
  | .tuple _, own => own

theorem TypeSyntax.core_ne_nullable : (type inner : TypeSyntax) → type.core ≠ .nullable inner
  | .nullable inner, other => TypeSyntax.core_ne_nullable inner other
  | .absent, _ | .var, _ | .dynamic, _ | .void, _ | .named .., _ | .array _, _ | .tuple _, _ =>
    nofun

theorem bind_core {names : TypeNames} : (type : TypeSyntax) →
    (∀ inner, names.bind type ≠ .nullable inner) → names.bind type.core = names.bind type
  | .nullable inner, plain => by
    rw [TypeNames.bind, TypeNames.nullableOf] at plain ⊢
    split at plain
    · exact absurd rfl (plain _)
    · next notValue =>
        rw [if_neg notValue]
        exact bind_core inner plain
  | .absent, _ | .var, _ | .dynamic, _ | .void, _ | .named .., _ | .array _, _ | .tuple _, _ => rfl

theorem isInstance_core {program : Program} {machine : Machine} (notNull : value.isNull = false) :
    (type : TypeSyntax) →
      program.isInstance machine value type = program.isInstance machine value type.core
  | .nullable inner => by
    rw [Program.isInstance, notNull]
    exact isInstance_core notNull inner
  | .absent | .var | .dynamic | .void | .named .. | .array _ | .tuple _ => rfl

theorem core_of_nameOf? {names : TypeNames} {type : TypeSyntax} (own : type.IsOwn)
    (goes : names.nameOf? (names.bind type) = some name) :
    ∃ args, type.core = .named name args := by
  have sameType := bind_core type fun inner isNullable => by
    rw [isNullable] at goes
    cases goes
  rw [← sameType] at goes
  have ownCore := TypeSyntax.IsOwn.core type own
  cases isCore : type.core with
  | named written args =>
    rw [isCore] at goes ownCore
    rcases nameOf?_bind ownCore with isUnknown | isName
    · rw [isUnknown] at goes
      cases goes
    · obtain rfl := Option.some.inj (isName.symm.trans goes)
      exact ⟨args, rfl⟩
  | nullable inner => exact absurd isCore (TypeSyntax.core_ne_nullable type inner)
  | void =>
    rw [isCore] at ownCore
    exact ownCore.elim
  | absent | var | dynamic | array _ | tuple _ =>
    rw [isCore] at goes
    cases goes

theorem core_of_array {names : TypeNames} {type : TypeSyntax} {element : Ty} (own : type.IsOwn)
    (isArray : names.bind type = .array element) : ∃ written, type.core = .array written := by
  have sameType := bind_core type fun inner isNullable => by
    rw [isArray] at isNullable
    cases isNullable
  rw [isArray] at sameType
  have ownCore := TypeSyntax.IsOwn.core type own
  cases isCore : type.core with
  | named written args =>
    rw [isCore] at sameType ownCore
    rcases nameOf?_bind ownCore with isUnknown | isName
    · rw [isUnknown] at sameType
      cases sameType
    · rw [sameType] at isName
      cases isName
  | array written => exact ⟨written, rfl⟩
  | nullable inner => exact absurd isCore (TypeSyntax.core_ne_nullable type inner)
  | absent | var | dynamic | void | tuple _ =>
    rw [isCore] at sameType
    cases sameType

section Tests

variable {program : Program} {names : TypeNames} {machine : Machine} {target : TypeSyntax}

theorem isInstance_object (own : target.IsOwn) (notNull : value.isNull = false)
    (isObject : names.bind target = .object) : program.isInstance machine value target = true := by
  have goes : names.nameOf? (names.bind target) = some "object" := by
    rw [isObject]
    rfl
  obtain ⟨args, isCore⟩ := core_of_nameOf? own goes
  rw [isInstance_core notNull, isCore]
  cases value <;> first | rfl | cases notNull

theorem isInstance_className {name : String} {address : Nat} (own : target.IsOwn)
    (goes : names.nameOf? (names.bind target) = some name) :
    program.isInstance machine (.object address) target =
      (name == "object" || program.derives (machine.objects.getD address default).className name) := by
  obtain ⟨args, isCore⟩ := core_of_nameOf? own goes
  rw [isInstance_core rfl, isCore]
  by_cases isObject : name = "object"
  · subst isObject
    rfl
  · rw [beq_eq_false_iff_ne.2 isObject, Bool.false_or, Program.isInstance]
    exact isObject

end Tests

section Agreement

variable {machine : Machine} {source : Ty} {target : TypeSyntax}

/-- An object passes the test for a type its class leads to in the table, where the class
    leads to that name. -/
theorem Known.isInstance_iff (hierarchy : unit.IsHierarchy) {address : Nat}
    (own : target.IsOwn) (known : (unit.typeNames vocabulary).bind target ≠ .unknown)
    (leads : Known unit.program (unit.typeNames vocabulary)
      (machine.objects.getD address default).className ((unit.typeNames vocabulary).bind target)) :
    unit.program.isInstance machine (.object address) target = true ↔
      ∀ element, (unit.typeNames vocabulary).bind target = .enumerableOf element →
        ReflTransGen unit.program.Extends (machine.objects.getD address default).className
          "IEnumerable" := by
  have derives {className name : String} : unit.program.derives className name = true ↔
      ReflTransGen unit.program.Extends className name :=
    Program.derives_iff hierarchy.reserved hierarchy.acyclic
  generalize isType : (unit.typeNames vocabulary).bind target = type at leads known
  cases leads with
  | object => exact iff_of_true (isInstance_object own rfl isType) nofun
  | unknown => exact absurd rfl known
  | enumerable element =>
    have goes : (unit.typeNames vocabulary).nameOf? ((unit.typeNames vocabulary).bind target) =
        some "IEnumerable" := by
      rw [isType]
      rfl
    rw [isInstance_className own goes]
    refine ⟨fun passes _ _ => derives.1 passes, fun leads => derives.2 (leads element rfl)⟩
  | named goes leads =>
    rw [isInstance_className own (isType ▸ goes), derives.2 leads, Bool.or_true]
    refine iff_of_true rfl fun element isEnumerable => ?_
    subst isEnumerable
    cases goes
    exact leads

theorem CompilationUnit.IsClear.template_function (clear : unit.IsClear) (vocabulary : Vocabulary)
    {name : String} (isFunction : name = "Func" ∨ name = "Action") :
    ∃ kind, (kind = .func ∨ kind = .action) ∧
      (unit.typeNames vocabulary).template name = .library kind := by
  rcases isFunction with rfl | rfl
  · exact ⟨.func, .inl rfl, clear.template_library vocabulary rfl rfl⟩
  · exact ⟨.action, .inr rfl, clear.template_library vocabulary rfl rfl⟩

theorem includes_function (clear : unit.IsClear) {name : String} {args : List Ty}
    {type : Ty} (isFunction : name = "Func" ∨ name = "Action")
    (includes : (Universe.ofUnit unit vocabulary).Includes (.applied name args) type) :
    type = .applied name args ∨ type = .object := by
  obtain ⟨kind, isKind, isTemplate⟩ := clear.template_function vocabulary isFunction
  induction includes with
  | refl => exact .inl rfl
  | tail _ isBase ih =>
    rcases ih with rfl | rfl
    · rw [Universe.HasBase, Universe.data_library isTemplate] at isBase
      rcases isKind with rfl | rfl
      all_goals
        rcases isBase with isBase | isInterface
        · exact .inr (Option.some.inj isBase).symm
        · contradiction
    · rcases isBase with isBase | isInterface <;> contradiction

theorem isInstance_of_holds (hierarchy : unit.IsHierarchy) (own : target.IsOwn)
    (notObject : ∀ address, value ≠ .object address)
    (holds : (Universe.ofUnit unit vocabulary).Holds unit.program machine
      ((unit.typeNames vocabulary).bind target) value) :
    unit.program.isInstance machine value target = true := by
  have core {name : String} (isNamed : (unit.typeNames vocabulary).nameOf?
      ((unit.typeNames vocabulary).bind target) = some name) :
      ∃ args, target.core = .named name args := core_of_nameOf? own isNamed
  generalize isType : (unit.typeNames vocabulary).bind target = type at holds core
  cases value with
  | null | type _ => exact holds.elim
  | object address => exact absurd rfl (notObject address)
  | int _ | double _ | bool _ | char _ | tuple _ =>
    rcases holds.cases_head with rfl | ⟨base, isBase, _⟩
    · exact isInstance_object own rfl isType
    · rcases isBase with isBase | isInterface <;> contradiction
  | str text =>
    have isLibrary (base : Ty) (isBase : (Universe.ofUnit unit vocabulary).HasBase .string base) :
        base = .object ∨ ∃ element, base = .enumerableOf element := by
      rcases isBase with isBase | isInterface
      · exact .inl (Option.some.inj isBase).symm
      · exact .inr ⟨_, mem_singleton.1 isInterface⟩
    rcases includes_library hierarchy isLibrary holds with rfl | rfl | ⟨element, rfl⟩
    · obtain ⟨args, isCore⟩ := core rfl
      rw [isInstance_core rfl, isCore]
      rfl
    · exact isInstance_object own rfl isType
    · obtain ⟨args, isCore⟩ := core rfl
      rw [isInstance_core rfl, isCore]
      rfl
  | list address =>
    obtain ⟨element, includes⟩ := holds
    have enumerates {element : Ty} (isEnumerable : type = .enumerableOf element) :
        unit.program.isInstance machine (.list address) target = true := by
      subst isEnumerable
      obtain ⟨args, isCore⟩ := core rfl
      rw [isInstance_core rfl, isCore]
      rfl
    cases isArray : (machine.sequences.getD address default).isArray with
    | true =>
      rw [isArray, if_pos rfl] at includes
      have isLibrary (base : Ty)
          (isBase : (Universe.ofUnit unit vocabulary).HasBase (.array element) base) :
          base = .object ∨ ∃ element, base = .enumerableOf element := by
        rcases isBase with isBase | isInterface
        · exact .inl (Option.some.inj isBase).symm
        · exact .inr ⟨_, mem_singleton.1 isInterface⟩
      rcases includes_library hierarchy isLibrary includes with rfl | rfl | ⟨_, isEnumerable⟩
      · obtain ⟨written, isCore⟩ := core_of_array own isType
        rw [isInstance_core rfl, isCore]
        exact isArray
      · exact isInstance_object own rfl isType
      · exact enumerates isEnumerable
    | false =>
      rw [isArray, if_neg Bool.false_ne_true] at includes
      rcases includes_library hierarchy
        (fun _ => hasBase_library (hierarchy.toIsClear.template_library vocabulary rfl rfl)) includes with
        rfl | rfl | ⟨_, isEnumerable⟩
      · obtain ⟨args, isCore⟩ := core rfl
        rw [isInstance_core rfl, isCore, Program.isInstance, isArray]
        rfl
      · exact isInstance_object own rfl isType
      · exact enumerates isEnumerable
  | closure address =>
    obtain ⟨name, args, isFunction, includes⟩ := holds
    rcases includes_function hierarchy isFunction includes with rfl | rfl
    · obtain ⟨written, isCore⟩ := core rfl
      rw [isInstance_core rfl, isCore]
      rcases isFunction with rfl | rfl <;> rfl
    · exact isInstance_object own rfl isType

/-- Type tests that the analysis turns into comparisons with `null` agree with them.  In
    a unit of declarations that are not generic, with names that nothing else has and
    bases that do not run in circles, let the conversion from a static type of references
    to a type be the identity or a reference conversion, by either way of judging it.
    Whatever value the static type holds passes the test for the type exactly if it is
    not `null`, with one exception: an object does not pass the test for an enumeration
    that its class only has from a library list or from a string, because no declaration
    that the class leads to names `IEnumerable` as a base. -/
theorem typeTest_eq_notNull_iff {value : Value} (hierarchy : unit.IsHierarchy)
    (own : target.IsOwn)
    (reference : ((Universe.ofUnit unit vocabulary).shape source).isReference = true)
    (converts :
      ((Universe.ofUnit unit vocabulary).classify source
        ((unit.typeNames vocabulary).bind target)).isIdentityOrReference = true ∨
      ((Universe.ofUnit unit vocabulary).classifyTypes source
        ((unit.typeNames vocabulary).bind target)).isIdentityOrReference = true)
    (holds : value = .null ∨ (Universe.ofUnit unit vocabulary).Holds unit.program machine source value) :
    unit.program.isInstance machine value target = !value.isNull ↔
      ∀ address element, value = .object address →
        (unit.typeNames vocabulary).bind target = .enumerableOf element →
        ReflTransGen unit.program.Extends (machine.objects.getD address default).className
          "IEnumerable" := by
  obtain ⟨known, reaches⟩ := Universe.includes_of_conversion reference converts
  rcases holds with rfl | holds
  · rw [Program.isInstance_null]
    exact iff_of_true rfl nofun
  cases value with
  | null | type _ => exact holds.elim
  | object address =>
    obtain ⟨isClass, includes⟩ := holds
    have leads : Known unit.program (unit.typeNames vocabulary)
        (machine.objects.getD address default).className
        ((unit.typeNames vocabulary).bind target) := by
      rcases reaches with isObject | onward
      · exact isObject ▸ .object
      · exact (Known.classType hierarchy isClass).of_includes hierarchy (includes.trans onward)
    change unit.program.isInstance machine (.object address) target = true ↔ _
    rw [leads.isInstance_iff hierarchy own known]
    refine ⟨?_, fun leads element => leads address element rfl⟩
    rintro leads address element ⟨⟩
    exact leads element
  | int _ | double _ | bool _ | char _ | tuple _ | str _ | list _ | closure _ =>
    refine iff_of_true ?_ nofun
    rcases reaches with isObject | includes
    · exact isInstance_object own rfl isObject
    · exact isInstance_of_holds hierarchy own nofun (holds.mono includes)

end Agreement

/-! ## A class that derives from a library list -/

def listClass : CompilationUnit :=
  ⟨[], none, [⟨"C", .classType, [], [], none, [.named "List" [.simple "int"]], none, [], ⟨0, 0⟩⟩]⟩

/-- Declared classes stand above all built-in exceptions. -/
def listClassRank (name : String) : Nat :=
  match builtinBase? name with
  | none => if name = "C" then 1 else 0
  | some base => if (builtinBase? base).isSome then 2 else 1

theorem listClass_isHierarchy : listClass.IsHierarchy where
  plain := by decide
  distinct := by decide
  reserved := by
    unfold Program.KeepsReserved
    decide
  named := by
    intro decl present base isBase
    obtain rfl := mem_singleton.1 present
    exact ⟨"List", [.simple "int"], mem_singleton.1 isBase, by decide⟩
  acyclic := by
    refine Program.acyclic_of_rank listClassRank fun name base isBase => ?_
    cases isBase with
    | declared found written =>
      obtain ⟨present, rfl⟩ := Program.mem_of_find? found
      obtain rfl := mem_singleton.1 present
      cases mem_singleton.1 written
      decide
    | builtin _ isBase =>
      unfold builtinBase? at isBase
      split at isBase <;> cases isBase <;> decide

/-- An object of the class is no `IEnumerable<int>` to the running program, although the
    analysis takes its type to be one. -/
theorem typeTest_eq_notNull_iff_listClass :
    (Universe.ofUnit listClass listClass.vocabulary).classify (.declared 0)
      (.enumerableOf .int) = .implicitReference ∧
    listClass.program.isInstance { objects := #[⟨"C", [], false⟩] } (.object 0)
      (.named "IEnumerable" [.simple "int"]) = false := by
  have converts : (Universe.ofUnit listClass listClass.vocabulary).classify (.declared 0)
      (.enumerableOf .int) = .implicitReference := by decide
  have holds : (Universe.ofUnit listClass listClass.vocabulary).Holds listClass.program
      { objects := #[⟨"C", [], false⟩] } (.declared 0) (.object 0) := ⟨.inl (by decide), .refl⟩
  have own : (TypeSyntax.named "IEnumerable" [.simple "int"]).IsOwn := rfl
  have isReference : ((Universe.ofUnit listClass listClass.vocabulary).classify (.declared 0)
      ((listClass.typeNames listClass.vocabulary).bind
        (.named "IEnumerable" [.simple "int"]))).isIdentityOrReference = true := by decide
  refine ⟨converts, Bool.eq_false_iff.2 fun passes => ?_⟩
  have leads := (typeTest_eq_notNull_iff listClass_isHierarchy own (by decide) (.inl isReference)
    (.inr holds)).1 passes 0 .int rfl rfl
  have derives := (Program.derives_iff listClass_isHierarchy.reserved
    listClass_isHierarchy.acyclic).2 leads
  revert derives
  decide

end Values

end Unsugar
