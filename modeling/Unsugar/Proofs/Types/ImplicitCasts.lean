import Unsugar.Proofs.Types.DenotedTypes
import Unsugar.Proofs.Types.TypeTests

open List

namespace Unsugar

/-! # Casts along implicit conversions

Whether a conversion is implicit is judged by what the table has of two types.  A cast looks at
the value and at the name that a type is written with.  `casts_iff_of_implicit` says when a cast
returns that an implicit conversion calls for: always, but for two slips of the cast.
-/

open Relation

/-! ## Casts -/

variable {address : Nat} {kind : LibraryGeneric} {char : Char}

/-- A type without the question marks after it. -/
def Ty.core : Ty → Ty
  | .nullable inner => inner.core
  | type => type

def Program.Casts (program : Program) (machine : Machine) (value : Value) (type : TypeSyntax) :
    Prop :=
  ∃ result, program.cast value type machine = (.ok result, machine)

section Casts

variable {program : Program} {machine : Machine} {value : Value} {name : String}
  {args : List TypeSyntax}

theorem Program.Casts.ofNull (type : TypeSyntax) : program.Casts machine .null type := by
  refine ⟨.null, ?_⟩
  cases type with
  | named name args => rw [Program.cast]; rfl
  | nullable inner | absent | var | dynamic | void | array _ | tuple _ => rfl

theorem Program.Casts.ofNamed (passes : program.knows name = false ∨
    program.isInstance machine value (.named name args) = true) :
    program.Casts machine value (.named name args) := by
  unfold Program.Casts Program.cast
  split
  all_goals try exact ⟨_, rfl⟩
  · rcases passes with unknown | passes
    · exact absurd unknown (by simp [Program.knows, isBuiltinType, builtinNames])
    · cases passes
  · refine ⟨value, ?_⟩
    have kept : (program.knows name && !program.isInstance machine value (.named name args)) =
        false := by
      rcases passes with unknown | passes
      · rw [unknown, Bool.false_and]
      · rw [passes, Bool.not_true, Bool.and_false]
    change (if (program.knows name && !program.isInstance machine value (.named name args)) = true
      then _ else _ : Eval Value) machine = _
    rw [kept]
    rfl

theorem Program.Casts.object_iff :
    program.Casts machine (.object address) (.named name args) ↔ (program.knows name = false ∨
        program.isInstance machine (.object address) (.named name args) = true) := by
  refine ⟨fun casts => ?_, Program.Casts.ofNamed⟩
  by_contra fails
  rw [not_or, Bool.not_eq_false, Bool.not_eq_true] at fails
  obtain ⟨result, isResult⟩ := casts
  rw [Program.cast] at isResult
  · change (if (program.knows name &&
        !program.isInstance machine (.object address) (.named name args)) = true
      then _ else _ : Eval Value) machine = _ at isResult
    rw [fails.1, fails.2] at isResult
    cases isResult
  all_goals simp

theorem Program.Casts.core_iff {names : TypeNames} (notNull : value.isNull = false) : (type : Ty) →
    (program.Casts machine value (names.syntaxOf type) ↔
      program.Casts machine value (names.syntaxOf type.core))
  | .nullable inner => by
    have step : program.Casts machine value (names.syntaxOf (.nullable inner)) ↔
        program.Casts machine value (names.syntaxOf inner) := by
      unfold Program.Casts
      rw [TypeNames.syntaxOf, Program.cast, notNull]
      rfl
    exact step.trans (Program.Casts.core_iff notNull inner)
  | .unknown | .prim _ | .library _ | .declared _ | .param _ | .applied .. | .array _
  | .tuple _ => .rfl

theorem Program.Casts.ofObject (notNull : value.isNull = false) :
    program.Casts machine value (.simple "object") := by
  refine Program.Casts.ofNamed (.inr ?_)
  cases value <;> first | rfl | cases notNull

end Casts

/-! ## Conversions -/

section Conversions

variable {types : Universe} {source target : Ty}

theorem Universe.implicit_cases (implicit : (types.classify source target).isImplicit = true) :
    source = .null ∨ target = .nullable source ∨ Universe.isNumericWidening source target = true ∨
      types.Includes source target := by
  unfold Universe.classify at implicit
  split_ifs at implicit with same isUnknown isNull isNullable widens derives
  all_goals first | cases implicit | skip
  · exact .inr (.inr (.inr (same ▸ .refl)))
  · exact .inl isNull
  · exact .inr (.inl isNullable)
  · exact .inr (.inr (.inl widens))
  all_goals
    obtain ⟨type, present, includes⟩ := Universe.includes_of_reaches derives
    exact .inr (.inr (.inr (mem_singleton.1 present ▸ includes)))

theorem Universe.eq_object_of_includes (includes : types.Includes .object target) :
    target = .object := by
  rcases includes.cases_head with rfl | ⟨base, isBase, _⟩
  · rfl
  · rcases isBase with isBase | isInterface <;> contradiction

end Conversions

/-! ## Values of a type -/

/-- The types that a value other than `null` has without regard to bases.  A number without a
    fraction is one of either width, and the arguments of generic types are not kept. -/
inductive Universe.IsOf (types : Universe) (program : Program) (machine : Machine) :
    Value → Ty → Prop where
  | int (number : Int) : IsOf types program machine (.int number) .int
  | long (number : Int) : IsOf types program machine (.int number) .long
  | double (bits : UInt64) : IsOf types program machine (.double bits) .double
  | bool (truth : Bool) : IsOf types program machine (.bool truth) .bool
  | char (char : Char) : IsOf types program machine (.char char) .char
  | string (text : String) : IsOf types program machine (.str text) .string
  | array {address : Nat} (element : Ty)
      (isArray : (machine.sequences.getD address default).isArray = true) :
      IsOf types program machine (.list address) (.array element)
  | list {address : Nat} (element : Ty)
      (isList : (machine.sequences.getD address default).isArray = false) :
      IsOf types program machine (.list address) (.applied "List" [element])
  | function (address : Nat) {name : String} (args : List Ty)
      (isFunction : name = "Func" ∨ name = "Action") :
      IsOf types program machine (.closure address) (.applied name args)
  | tuple {items : List Value} {elements : List Ty} (sameLength : items.length = elements.length) :
      IsOf types program machine (.tuple items) (.tuple elements)
  | object {address : Nat} {type : Ty}
      (isClass : program.knows (machine.objects.getD address default).className = true)
      (isOwn : types.names.nameOf? type = some (machine.objects.getD address default).className ∨
        type = types.names.classType (machine.objects.getD address default).className)
      (isCompound : types.shape type ≠ .primitive) :
      IsOf types program machine (.object address) type

/-- A variable of a type can hold the value.  Nothing derives from a type of plain values, and
    nothing is known of the values of an unknown type or a type parameter. -/
def Universe.Conforms (types : Universe) (program : Program) (machine : Machine) (value : Value) :
    Ty → Prop
  | .nullable inner => Conforms types program machine value inner
  | .unknown | .param _ => True
  | .null => value = .null
  | type => value = .null ∨ ∃ own, types.IsOf program machine value own ∧
      types.Includes own type ∧ (types.isValueType type = true → own = type)

/-- A value belongs to a type, unless that says nothing about its values. -/
def Universe.Admits (types : Universe) (program : Program) (machine : Machine) (value : Value)
    (type : Ty) : Prop :=
  type = .unknown ∨ (∃ name, type = .param name) ∨ type = .object ∨
    ∃ own, types.IsOf program machine value own ∧ types.Includes own type

section Values

variable {types : Universe} {program : Program} {machine : Machine} {value : Value}
  {source target : Ty}

theorem Universe.Conforms.core : (type : Ty) → types.Conforms program machine value type →
    types.Conforms program machine value type.core
  | .nullable inner, conforms => Universe.Conforms.core inner conforms
  | .unknown, conforms | .prim _, conforms | .library _, conforms | .declared _, conforms
  | .param _, conforms | .applied .., conforms | .array _, conforms | .tuple _, conforms => conforms

theorem Ty.core_ne_nullable (inner : Ty) : (type : Ty) → type.core ≠ .nullable inner
  | .nullable other => Ty.core_ne_nullable inner other
  | .unknown | .prim _ | .library _ | .declared _ | .param _ | .applied .. | .array _ | .tuple _ =>
    nofun

theorem Ty.core_eq : {type : Ty} → (∀ inner, type ≠ .nullable inner) → type.core = type
  | .nullable inner, plain => absurd rfl (plain inner)
  | .unknown, _ | .prim _, _ | .library _, _ | .declared _, _ | .param _, _ | .applied .., _
  | .array _, _ | .tuple _, _ => rfl

/-- Of a type that can hold a value other than `null`, it is an own type or stands above one,
    unless nothing is known of what it holds. -/
theorem Universe.Conforms.cases (conforms : types.Conforms program machine value target)
    (notNull : value.isNull = false) (plain : ∀ inner, target ≠ .nullable inner) :
    target = .unknown ∨ (∃ name, target = .param name) ∨
      ∃ own, types.IsOf program machine value own ∧ types.Includes own target ∧
        (types.isValueType target = true → own = target) := by
  have isOf (conforms : value = .null ∨ ∃ own, types.IsOf program machine value own ∧
      types.Includes own target ∧ (types.isValueType target = true → own = target)) :
      ∃ own, types.IsOf program machine value own ∧ types.Includes own target ∧
        (types.isValueType target = true → own = target) := by
    rcases conforms with rfl | isOf
    · cases notNull
    · exact isOf
  cases target with
  | nullable inner => exact absurd rfl (plain inner)
  | unknown => exact .inl rfl
  | param name => exact .inr (.inl ⟨name, rfl⟩)
  | prim kind =>
    cases kind with
    | null =>
      cases (conforms : value = .null)
      cases notNull
    | object | bool | int | long | double | char | string | void => exact .inr (.inr (isOf conforms))
  | library _ | declared _ | applied _ _ | array _ | tuple _ => exact .inr (.inr (isOf conforms))

theorem Universe.Conforms.admits (conforms : types.Conforms program machine value target)
    (notNull : value.isNull = false) : types.Admits program machine value target.core := by
  have plain (inner : Ty) : target.core ≠ .nullable inner := Ty.core_ne_nullable inner target
  rcases (Universe.Conforms.core target conforms).cases notNull plain with
    isUnknown | isParam | ⟨own, isOf, includes, -⟩
  · exact .inl isUnknown
  · exact .inr (.inl isParam)
  · exact .inr (.inr (.inr ⟨own, isOf, includes⟩))

theorem Universe.Conforms.of_includes (conforms : types.Conforms program machine value source)
    (notNull : value.isNull = false) (includes : types.Includes source target) :
    target = source ∨ target = .object ∨
      ∃ own, types.IsOf program machine value own ∧ types.Includes own target := by
  rcases includes.cases_head with rfl | ⟨base, isBase, onward⟩
  · exact .inl rfl
  by_cases plain : ∀ inner, source ≠ .nullable inner
  · rcases conforms.cases notNull plain with rfl | ⟨name, rfl⟩ | ⟨own, isOf, below, _⟩
    · rcases isBase with isBase | isInterface <;> contradiction
    · rcases isBase with isBase | isInterface <;> contradiction
    · exact .inr (.inr ⟨own, isOf, below.trans includes⟩)
  · push Not at plain
    obtain ⟨inner, rfl⟩ := plain
    rcases isBase with isBase | isInterface
    · exact .inr (.inl (Universe.eq_object_of_includes (Option.some.inj isBase ▸ onward)))
    · contradiction

theorem Universe.Conforms.isOf {kind : Primitive}
    (conforms : types.Conforms program machine value (.prim kind))
    (isPlain : kind.isValueType = true) (notNull : value.isNull = false) :
    types.IsOf program machine value (.prim kind) := by
  rcases conforms.cases notNull nofun with isUnknown | ⟨_, isParam⟩ | ⟨own, isOf, -, exactly⟩
  · cases isUnknown
  · cases isParam
  · exact exactly isPlain ▸ isOf

end Values

/-! ## How types are written -/

section Written

variable {unit : CompilationUnit} {vocabulary : Vocabulary} {program : Program} {machine : Machine}
  {value : Value}
  {name : String} {names : TypeNames}

theorem TypeNames.generic?_of_template : (∀ kind, names.template name = .library kind →
      names.generic? (lastSegment name) = some (.library kind)) ∧
    ∀ index, names.template name = .header index → names.genericDecl? name = none ∧
      names.generic? (lastSegment name) = some (.declared index) := by
  unfold TypeNames.template
  split
  · exact ⟨nofun, nofun⟩
  · next undeclared =>
      split
      · next isGeneric => exact ⟨fun _ same => by cases same; exact isGeneric, nofun⟩
      · next isGeneric =>
          exact ⟨nofun, fun _ same => by cases same; exact ⟨undeclared, isGeneric⟩⟩
      · exact ⟨nofun, nofun⟩

theorem TypeNames.name_of_template_library
    (isTemplate : names.template name = .library kind) : kind.name = lastSegment name := by
  rcases Option.or_eq_some_iff.1 (names.generic?_of_template.1 kind isTemplate) with
    isDeclared | ⟨-, isLibrary⟩
  · obtain ⟨_, -, other⟩ := Option.map_eq_some_iff.1 isDeclared
    cases other
  · obtain ⟨_, isKind, same⟩ := Option.map_eq_some_iff.1 isLibrary
    cases same
    exact TypeNames.name_of_ofName?_generic isKind

theorem TypeNames.lastSegment_of_header {index : Nat}
    (isTemplate : names.template name = .header index) : lastSegment name ≠ name := by
  obtain ⟨undeclared, isGeneric⟩ := names.generic?_of_template.2 index isTemplate
  intro same
  rw [same, TypeNames.generic?, undeclared] at isGeneric
  obtain ⟨_, -, other⟩ := Option.map_eq_some_iff.1 isGeneric
  cases other

theorem syntaxOf_library (isTemplate : names.template name = .library kind) {args : List Ty} :
    ∃ written, names.syntaxOf (.applied name args) = .named kind.name written := by
  rw [TypeNames.syntaxOf, TypeNames.appliedSyntax, isTemplate]
  cases kind <;> exact ⟨_, rfl⟩

theorem syntaxOf_of_nameOf? {type : Ty} (goes : names.nameOf? type = some name)
    (own : ∀ name args, type = .applied name args → isOwnName name = true) :
    (∃ written, names.syntaxOf type = .named name written) ∨ type = .null ∨
      names.syntaxOf type = .void ∨ names.syntaxOf type = .dynamic := by
  cases type with
  | prim kind =>
    cases goes
    cases kind with
    | null => exact .inr (.inl rfl)
    | void => exact .inr (.inr (.inl rfl))
    | object | bool | int | long | double | char | string => exact .inl ⟨[], rfl⟩
  | library kind =>
    cases goes
    exact .inl ⟨[], rfl⟩
  | declared index =>
    obtain ⟨decl, isDecl, rfl⟩ := Option.map_eq_some_iff.1 goes
    rw [TypeNames.syntaxOf, isDecl]
    exact .inl ⟨_, rfl⟩
  | param name =>
    cases goes
    exact .inl ⟨[], rfl⟩
  | applied name args =>
    cases goes
    have last := lastSegment_of_isOwnName (own _ _ rfl)
    cases isTemplate : names.template name with
    | library kind =>
      obtain ⟨written, isWritten⟩ := syntaxOf_library isTemplate
      rw [names.name_of_template_library isTemplate, last] at isWritten
      exact .inl ⟨written, isWritten⟩
    | full index =>
      obtain ⟨decl, isDecl, rfl⟩ := names.decl_of_full isTemplate
      rw [TypeNames.syntaxOf, TypeNames.appliedSyntax, isTemplate]
      dsimp only
      rw [isDecl]
      exact .inl ⟨_, rfl⟩
    | header index => exact absurd last (names.lastSegment_of_header isTemplate)
    | missing =>
      rw [TypeNames.syntaxOf, TypeNames.appliedSyntax, isTemplate]
      exact .inr (.inr (.inr rfl))
  | unknown | array _ | nullable _ | tuple _ => cases goes

theorem casts_of_nameOf? {type : Ty} (goes : names.nameOf? type = some name)
    (notNull : value.isNull = false)
    (own : ∀ name args, type = .applied name args → isOwnName name = true)
    (passes : ∀ args, program.isInstance machine value (.named name args) = true) :
    program.Casts machine value (names.syntaxOf type) := by
  rcases syntaxOf_of_nameOf? goes own with ⟨written, isWritten⟩ | rfl | isVoid | isDynamic
  · exact isWritten ▸ .ofNamed (.inr (passes written))
  · exact .ofObject notNull
  · exact isVoid ▸ ⟨value, rfl⟩
  · exact isDynamic ▸ ⟨value, rfl⟩

end Written

/-! ## Casts of conforming values -/

section Conforming

variable {unit : CompilationUnit} {vocabulary : Vocabulary} {machine : Machine}
  {value : Value} {own source target : Ty}

def Value.IsSequence (value : Value) : Prop :=
  (∃ address, value = .list address) ∨ ∃ text, value = .str text

section

variable (clear : unit.IsClear)

include clear

theorem Universe.IsOf.above
    (isOf : (Universe.ofUnit unit vocabulary).IsOf unit.program machine value own)
    (notObject : ∀ address, value ≠ .object address)
    (includes : (Universe.ofUnit unit vocabulary).Includes own target) :
    target = own ∨ target = .object ∨
      (∃ element, target = .enumerableOf element) ∧ value.IsSequence := by
  have plain (onlyObject : ∀ base,
      (Universe.ofUnit unit vocabulary).HasBase own base → base = .object) :
      target = own ∨ target = .object := by
    rcases includes.cases_head with rfl | ⟨base, isBase, onward⟩
    · exact .inl rfl
    · exact .inr (Universe.eq_object_of_includes (onlyObject base isBase ▸ onward))
  have sequence (isSequence : value.IsSequence)
      (isLibrary : ∀ base, (Universe.ofUnit unit vocabulary).HasBase own base →
        base = .object ∨ ∃ element, base = .enumerableOf element) :
      target = own ∨ target = .object ∨
        (∃ element, target = .enumerableOf element) ∧ value.IsSequence :=
    (includes_library clear isLibrary includes).imp_right
      (Or.imp_right fun isEnumerable => ⟨isEnumerable, isSequence⟩)
  cases isOf with
  | object => exact absurd rfl (notObject _)
  | int | long | double | bool | char | tuple =>
    refine (plain fun base isBase => ?_).imp_right .inl
    rcases isBase with isBase | isInterface
    · exact (Option.some.inj isBase).symm
    · contradiction
  | function _ args isFunction => exact (includes_function clear isFunction includes).imp_right .inl
  | string text =>
    refine sequence (.inr ⟨text, rfl⟩) fun base isBase => ?_
    rcases isBase with isBase | isInterface
    · exact .inl (Option.some.inj isBase).symm
    · exact .inr ⟨_, mem_singleton.1 isInterface⟩
  | array element =>
    refine sequence (.inl ⟨_, rfl⟩) fun base isBase => ?_
    rcases isBase with isBase | isInterface
    · exact .inl (Option.some.inj isBase).symm
    · exact .inr ⟨_, mem_singleton.1 isInterface⟩
  | list element =>
    exact sequence (.inl ⟨_, rfl⟩) fun _ =>
      hasBase_library (clear.template_library vocabulary rfl rfl)

theorem syntaxOf_enumerable {vocabulary : Vocabulary} {element : Ty} :
    ∃ written, (unit.typeNames vocabulary).syntaxOf (.enumerableOf element) =
      .named "IEnumerable" written := by
  have isTemplate : (unit.typeNames vocabulary).template "IEnumerable" = .library .enumerable :=
    clear.template_library vocabulary rfl rfl
  exact syntaxOf_library isTemplate

theorem Universe.IsOf.casts_own
    (isOf : (Universe.ofUnit unit vocabulary).IsOf unit.program machine value own)
    (notObject : ∀ address, value ≠ .object address) :
    unit.program.Casts machine value ((unit.typeNames vocabulary).syntaxOf own) := by
  cases isOf with
  | object => exact absurd rfl (notObject _)
  | int | long | double | bool | char | string => exact .ofNamed (.inr rfl)
  | array | tuple => exact ⟨_, rfl⟩
  | list element isList =>
    have isTemplate : (unit.typeNames vocabulary).template "List" = .library .list :=
      clear.template_library vocabulary rfl rfl
    obtain ⟨written, isWritten⟩ := syntaxOf_library isTemplate
    rw [isWritten]
    refine .ofNamed (.inr ?_)
    change (!(machine.sequences.getD _ default).isArray) = true
    rw [isList, Bool.not_false]
  | function address args isFunction =>
    obtain ⟨kind, isKind, isTemplate⟩ := clear.template_function vocabulary isFunction
    obtain ⟨written, isWritten⟩ := syntaxOf_library isTemplate
    rw [isWritten]
    rcases isKind with rfl | rfl <;> exact .ofNamed (.inr rfl)

theorem Universe.IsOf.casts
    (isOf : (Universe.ofUnit unit vocabulary).IsOf unit.program machine value own)
    (notObject : ∀ address, value ≠ .object address)
    (includes : (Universe.ofUnit unit vocabulary).Includes own target) :
    unit.program.Casts machine value ((unit.typeNames vocabulary).syntaxOf target) := by
  rcases isOf.above clear notObject includes with rfl | rfl | ⟨⟨element, rfl⟩, isSequence⟩
  · exact isOf.casts_own clear notObject
  · refine .ofObject ?_
    cases isOf <;> rfl
  · obtain ⟨written, isWritten⟩ := syntaxOf_enumerable clear
    rw [isWritten]
    rcases isSequence with ⟨address, rfl⟩ | ⟨text, rfl⟩
    all_goals exact .ofNamed (.inr rfl)

theorem Universe.IsOf.known
    (isOf : (Universe.ofUnit unit vocabulary).IsOf unit.program machine (.object address) own)
    (includes : (Universe.ofUnit unit vocabulary).Includes own target) :
    Known unit.program (unit.typeNames vocabulary)
      (machine.objects.getD address default).className target := by
  cases isOf with
  | object isClass isOwn =>
    refine Known.of_includes clear ?_ includes
    rcases isOwn with goes | rfl
    · exact .named goes .refl
    · exact .classType clear (Bool.or_eq_true_iff.1 isClass)

theorem Known.casts_iff (own : ∀ name args, target = .applied name args → isOwnName name = true)
    (leads : Known unit.program (unit.typeNames vocabulary)
      (machine.objects.getD address default).className target) :
    unit.program.Casts machine (.object address) ((unit.typeNames vocabulary).syntaxOf target) ↔
      ∀ element, target = .enumerableOf element →
        ReflTransGen unit.program.Extends (machine.objects.getD address default).className
          "IEnumerable" := by
  have isInstance {name : String} {args : List TypeSyntax} :
      unit.program.isInstance machine (.object address) (.named name args) = true ↔
        name = "object" ∨ ReflTransGen unit.program.Extends
          (machine.objects.getD address default).className name := by
    rw [← Program.derives_iff clear.reserved clear.acyclic]
    by_cases isObject : name = "object"
    · subst isObject
      exact iff_of_true rfl (.inl rfl)
    · rw [Program.isInstance, or_iff_right isObject]
      exact isObject
  cases leads with
  | object => exact iff_of_true (.ofObject rfl) fun _ isEnumerable => Ty.noConfusion isEnumerable
  | unknown => exact iff_of_true ⟨_, rfl⟩ fun _ isEnumerable => Ty.noConfusion isEnumerable
  | enumerable element =>
    obtain ⟨written, isWritten⟩ := syntaxOf_enumerable clear
    rw [isWritten, Program.Casts.object_iff, isInstance]
    refine ⟨fun casts _ _ => ?_, fun leads => .inr (.inr (leads element rfl))⟩
    rcases casts with isUnknown | isObject | leads
    · simp [Program.knows, isBuiltinType, builtinNames] at isUnknown
    · exact absurd isObject (by decide)
    · exact leads
  | named goes leads =>
    refine iff_of_true (casts_of_nameOf? goes rfl own fun _ => isInstance.2 (.inr leads))
      fun element isEnumerable => ?_
    subst isEnumerable
    cases goes
    exact leads

theorem Universe.IsOf.casts_iff
    (named : ∀ name args, target = .applied name args → isOwnName name = true)
    (isOf : (Universe.ofUnit unit vocabulary).IsOf unit.program machine value own)
    (includes : (Universe.ofUnit unit vocabulary).Includes own target) :
    unit.program.Casts machine value ((unit.typeNames vocabulary).syntaxOf target) ↔
      ∀ address element, value = .object address → target = .enumerableOf element →
        ReflTransGen unit.program.Extends (machine.objects.getD address default).className
          "IEnumerable" := by
  by_cases isObject : ∃ address, value = .object address
  · obtain ⟨address, rfl⟩ := isObject
    rw [(isOf.known clear includes).casts_iff clear named]
    refine ⟨?_, fun leads element => leads address element rfl⟩
    rintro leads _ element ⟨⟩
    exact leads element
  · rw [not_exists] at isObject
    exact iff_of_true (isOf.casts clear isObject includes) fun address _ isAddress =>
      absurd isAddress (isObject address)

theorem Universe.IsOf.not_nullable {inner : Ty}
    (isOf : (Universe.ofUnit unit vocabulary).IsOf unit.program machine value own) :
    ¬ (Universe.ofUnit unit vocabulary).Includes own (.nullable inner) := by
  intro includes
  by_cases isObject : ∃ address, value = .object address
  · obtain ⟨address, rfl⟩ := isObject
    cases isOf.known clear includes with
    | named goes => cases goes
  · rw [not_exists] at isObject
    rcases isOf.above clear isObject includes with rfl | isType | ⟨⟨element, isType⟩, -⟩
    · cases isOf
      exact isObject _ rfl
    · cases isType
    · cases isType

theorem Universe.Conforms.admits_of_implicit
    (implicit : ((Universe.ofUnit unit vocabulary).classify source target).isImplicit = true)
    (conforms : (Universe.ofUnit unit vocabulary).Conforms unit.program machine value source)
    (notNull : value.isNull = false) :
    (Universe.ofUnit unit vocabulary).Admits unit.program machine value target.core ∨
      Universe.isNumericWidening source target = true := by
  rcases Universe.implicit_cases implicit with rfl | rfl | widens | includes
  · cases (conforms : value = .null)
    cases notNull
  · exact .inl (conforms.admits notNull)
  · exact .inr widens
  · refine .inl ?_
    rcases conforms.of_includes notNull includes with rfl | rfl | ⟨own, isOf, below⟩
    · exact conforms.admits notNull
    · exact .inr (.inr (.inl rfl))
    · have plain (inner : Ty) : target ≠ .nullable inner := by
        rintro rfl
        exact isOf.not_nullable clear below
      rw [Ty.core_eq plain]
      exact .inr (.inr (.inr ⟨own, isOf, below⟩))

theorem Universe.Admits.casts_iff
    (named : ∀ name args, target = .applied name args → isOwnName name = true)
    (params : ∀ name, target = .param name → unit.program.knows name = false)
    (admits : (Universe.ofUnit unit vocabulary).Admits unit.program machine value target)
    (notNull : value.isNull = false) :
    unit.program.Casts machine value ((unit.typeNames vocabulary).syntaxOf target) ↔
      ∀ address element, value = .object address → target = .enumerableOf element →
        ReflTransGen unit.program.Extends (machine.objects.getD address default).className
          "IEnumerable" := by
  rcases admits with rfl | ⟨name, rfl⟩ | rfl | ⟨own, isOf, includes⟩
  · exact iff_of_true ⟨_, rfl⟩ nofun
  · exact iff_of_true (.ofNamed (.inl (params name rfl))) nofun
  · exact iff_of_true (.ofObject notNull) nofun
  · exact isOf.casts_iff clear named includes

theorem Universe.Admits.not_double :
    ¬ (Universe.ofUnit unit vocabulary).Admits unit.program machine (.char char) .double := by
  rintro (isType | ⟨_, isType⟩ | isType | ⟨own, isOf, includes⟩)
  · cases isType
  · cases isType
  · cases isType
  · rcases isOf.above clear nofun includes with rfl | isType | ⟨⟨element, isType⟩, -⟩
    · cases isOf
    · cases isType
    · cases isType

end

variable {program : Program}

theorem Program.Casts.ofInt (names : TypeNames) (number : Int)
    (wider : target = .long ∨ target = .double) :
    program.Casts machine (.int number) (names.syntaxOf target) := by
  rcases wider with rfl | rfl
  · exact .ofNamed (.inr rfl)
  · exact ⟨_, rfl⟩

theorem Program.Casts.char_iff {names : TypeNames}
    (wider : target = .int ∨ target = .long ∨ target = .double) :
    program.Casts machine (.char char) (names.syntaxOf target) ↔ target ≠ .double := by
  rcases wider with rfl | rfl | rfl
  · exact iff_of_true ⟨_, rfl⟩ nofun
  · exact iff_of_true ⟨_, rfl⟩ nofun
  · refine iff_of_false ?_ fun other => other rfl
    rintro ⟨result, isResult⟩
    have isKnown : program.knows "double" = true := by
      simp [Program.knows, isBuiltinType, builtinNames]
    change (if (program.knows "double" && !false) = true then _ else _ : Eval Value) machine = _
      at isResult
    rw [isKnown] at isResult
    cases isResult

theorem Universe.Conforms.casts_of_widening {types : Universe} {names : TypeNames}
    (widens : Universe.isNumericWidening source target = true)
    (conforms : types.Conforms program machine value source) (notNull : value.isNull = false) :
    (program.Casts machine value (names.syntaxOf target) ↔
      ¬(target = .double ∧ ∃ char, value = .char char)) ∧
      ∀ address, value ≠ .object address := by
  have ofInt (isNumber : source = .int ∨ source = .long)
      (wider : target = .long ∨ target = .double) :
      (program.Casts machine value (names.syntaxOf target) ↔
        ¬(target = .double ∧ ∃ char, value = .char char)) ∧
        ∀ address, value ≠ .object address := by
    obtain ⟨number, rfl⟩ : ∃ number, value = .int number := by
      rcases isNumber with rfl | rfl
      · cases conforms.isOf rfl notNull with
        | int number => exact ⟨number, rfl⟩
        | object _ _ isCompound => exact absurd rfl isCompound
      · cases conforms.isOf rfl notNull with
        | long number => exact ⟨number, rfl⟩
        | object _ _ isCompound => exact absurd rfl isCompound
    exact ⟨iff_of_true (.ofInt names number wider) nofun, nofun⟩
  have ofChar (isChar : source = .char)
      (wider : target = .int ∨ target = .long ∨ target = .double) :
      (program.Casts machine value (names.syntaxOf target) ↔
        ¬(target = .double ∧ ∃ char, value = .char char)) ∧
        ∀ address, value ≠ .object address := by
    subst isChar
    cases conforms.isOf rfl notNull with
    | char char =>
      refine ⟨(Program.Casts.char_iff wider).trans ?_, nofun⟩
      exact not_congr (and_iff_left ⟨char, rfl⟩).symm
    | object _ _ isCompound => exact absurd rfl isCompound
  unfold Universe.isNumericWidening at widens
  split at widens
  · exact ofInt (.inl rfl) (.inl rfl)
  · exact ofInt (.inl rfl) (.inr rfl)
  · exact ofInt (.inr rfl) (.inr rfl)
  · exact ofChar rfl (.inl rfl)
  · exact ofChar rfl (.inr (.inl rfl))
  · exact ofChar rfl (.inr (.inr rfl))
  · cases widens

/-- A value of a type is cast along every implicit conversion from that type, with two exceptions.
    Casts know of no way from a character to a `double`, although that is a widening.  And an object
    is not cast to an enumeration that its class only has from a library list or from a string. -/
theorem casts_iff_of_implicit (clear : unit.IsClear)
    (named : ∀ name args, target.core = .applied name args → isOwnName name = true)
    (params : ∀ name, target.core = .param name → unit.program.knows name = false)
    (implicit : ((Universe.ofUnit unit vocabulary).classify source target).isImplicit = true)
    (conforms : (Universe.ofUnit unit vocabulary).Conforms unit.program machine value source) :
    unit.program.Casts machine value ((unit.typeNames vocabulary).syntaxOf target) ↔
      ¬(target = .double ∧ ∃ char, value = .char char) ∧
        ∀ address element, value = .object address → target.core = .enumerableOf element →
          ReflTransGen unit.program.Extends (machine.objects.getD address default).className
            "IEnumerable" := by
  cases notNull : value.isNull with
  | true =>
    obtain rfl : value = .null := by cases value <;> first | rfl | cases notNull
    exact iff_of_true (.ofNull _) ⟨by simp, nofun⟩
  | false =>
    rcases conforms.admits_of_implicit clear implicit notNull with admits | widens
    · rw [Program.Casts.core_iff notNull, admits.casts_iff clear named params notNull]
      refine (and_iff_right ?_).symm
      rintro ⟨rfl, char, rfl⟩
      exact Universe.Admits.not_double clear admits
    · obtain ⟨casts, notObject⟩ :=
        conforms.casts_of_widening widens notNull
      rw [casts]
      exact (and_iff_left fun address _ isObject => absurd isObject (notObject address)).symm

theorem casts_iff_of_implicit_char :
    let unit : CompilationUnit := ⟨[], none, []⟩
    let types := Universe.ofUnit unit unit.vocabulary
    types.classify .char .double = .implicitNumeric ∧
      ¬ unit.program.Casts {} (.char 'a') (.simple "double") ∧
        unit.program.Casts {} (.int 97) (.simple "double") := by
  intro unit types
  have clear : unit.IsClear := {
    distinct := .nil
    reserved := nofun
    named := nofun
    acyclic := Program.acyclic_of_rank (fun name => (builtinBase? name).elim 0 fun base =>
      if (builtinBase? base).isSome then 2 else 1) fun name base isBase => by
        cases isBase with
        | declared found => cases found
        | builtin _ isBase =>
          unfold builtinBase? at isBase
          split at isBase <;> cases isBase <;> decide }
  have cast (source : Ty) (value : Value)
      (implicit : (types.classify source .double).isImplicit = true)
      (conforms : types.Conforms unit.program {} value source) :=
    casts_iff_of_implicit clear (by rintro _ _ ⟨⟩) (by rintro _ ⟨⟩) implicit conforms
  have ofChar := cast .char (.char 'a') rfl (.inr ⟨.char, .char 'a', .refl, fun _ => rfl⟩)
  have ofInt := cast .int (.int 97) rfl (.inr ⟨.int, .int 97, .refl, fun _ => rfl⟩)
  exact ⟨rfl, fun casts => (ofChar.1 casts).1 ⟨rfl, 'a', rfl⟩, ofInt.2 ⟨by simp, nofun⟩⟩

end Conforming

end Unsugar
