import Unsugar.Proofs.Types.AlikeUniverses
import Unsugar.Proofs.Types.Inheritance

open List

namespace Unsugar

/-! # Types that are written down and read again

Passes see the types of the tree before them only through the syntax that they write
for them.  `syntaxOf_binds_back` says that an analysis of the same declarations reads
that syntax as the type it was written for.
-/

/-! ## Types that correspond -/

/-- Two types have the same shape and name, and so have their arguments and elements, in
    turn. -/
inductive Universe.Corresponds (types fresh : Universe) : Ty → Ty → Prop
  | intro {type read : Ty} (shape : (types.data type).shape = (fresh.data read).shape)
      (name : (types.data type).name = (fresh.data read).name)
      (args : Forall₂ (Corresponds types fresh) (types.data type).args (fresh.data read).args)
      (element : Option.Rel (Corresponds types fresh) (types.data type).element
        (fresh.data read).element) :
      Corresponds types fresh type read

/-! ## The units and types in question -/

/-- A name that a type has without being declared. -/
def TypeNames.IsBuiltin (name : String) : Prop :=
  (TypeNames.builtin? name).isSome ∨ (LibraryGeneric.ofName? name).isSome

instance (name : String) : Decidable (TypeNames.IsBuiltin name) :=
  inferInstanceAs (Decidable (_ ∨ _))

/-- Declared names are distinct from each other, from type parameters and from names that
    types have without being declared.  Type parameters are not qualified, and are not
    named like such a type either. -/
structure TypeNames.Distinct (names : TypeNames) : Prop where
  declared : (names.decls.map (·.name)).Nodup
  params : ∀ decl ∈ names.decls, decl.name ∉ names.typeParams
  builtin : ∀ decl ∈ names.decls, ¬ IsBuiltin decl.name
  simple : ∀ param ∈ names.typeParams, lastSegment param = param ∧ ¬ IsBuiltin param

/-- Types that are built from primitive types, `object`, `string`, declarations without type
    parameters and type parameters.  None of them is `void`. -/
inductive TypeNames.Built (names : TypeNames) : Ty → Prop
  | prim {kind : Primitive} (notVoid : kind ≠ .void) (notNull : kind ≠ .null) :
      Built names (.prim kind)
  | declared {index : Nat} {decl : TypeDecl} (isDecl : names.decls[index]? = some decl)
      (isPlain : decl.typeParams = []) : Built names (.declared index)
  | param {name : String} (isParam : name ∈ names.typeParams) : Built names (.param name)
  | array {element : Ty} (built : Built names element) : Built names (.array element)
  | nullable {inner : Ty} (built : Built names inner) : Built names (names.nullableOf inner)
  | tuple {elements : List Ty} (built : ∀ element ∈ elements, Built names element) :
      Built names (.tuple elements)
  | library {name : String} {kind : LibraryGeneric} {args : List Ty}
      (isLibrary : names.template name = .library kind) (built : ∀ arg ∈ args, Built names arg)
      (hasArgs : kind = .action ∨ args ≠ []) : Built names (.applied name args)

variable {types : Universe} {type : Ty}

namespace TypeNames

variable {names : TypeNames}

theorem Built.ne_void (built : names.Built type) : type ≠ .void := by
  induction built with
  | prim notVoid => exact fun same => notVoid (Ty.prim.inj same)
  | nullable _ ih =>
    unfold nullableOf
    split
    · exact nofun
    · exact ih
  | _ => exact nofun

/-! ## Names that are read back -/

theorem lastIndex?_eq_none {α : Type} {test : α → Bool} {items : List α}
    (fails : ∀ item ∈ items, test item = false) : lastIndex? test items = none := by
  cases found : lastIndex? test items with
  | none => rfl
  | some index =>
    obtain ⟨item, isItem, holds⟩ := getElem?_of_lastIndex? found
    rw [fails item (mem_of_getElem? isItem)] at holds
    cases holds

theorem plainDecl?_eq_none {name : String} (undeclared : ∀ decl ∈ names.decls, decl.name ≠ name) :
    names.plainDecl? name = none :=
  lastIndex?_eq_none fun decl isDecl => by
    rw [beq_false_of_ne (undeclared decl isDecl), Bool.false_and]

theorem genericDecl?_eq_none {name : String} (undeclared : ∀ decl ∈ names.decls, decl.name ≠ name) :
    names.genericDecl? name = none :=
  lastIndex?_eq_none fun decl isDecl => by
    rw [beq_false_of_ne (undeclared decl isDecl), Bool.false_and]

section Distinct

variable (distinct : names.Distinct)

include distinct

variable {name : String}

theorem Distinct.undeclared (isBuiltin : IsBuiltin name) : ∀ decl ∈ names.decls, decl.name ≠ name :=
  fun decl isDecl same => distinct.builtin decl isDecl (same ▸ isBuiltin)

theorem Distinct.bindName_builtin (found : builtin? name = some type) :
    names.bindName name = type := by
  have undeclared := distinct.undeclared (.inl (by rw [found]; rfl))
  rw [bindName, lookup?, byName?, plainDecl?_eq_none undeclared, found]
  rfl

theorem Distinct.bindName_declared {index : Nat} {decl : TypeDecl}
    (isDecl : names.decls[index]? = some decl) (isPlain : decl.typeParams = []) :
    names.bindName decl.name = .declared index := by
  obtain ⟨found, isFound, isKnown⟩ := lookup?_of_plain (mem_of_getElem? isDecl) isPlain
  obtain ⟨other, isOther, sameName, -⟩ := plainDecl?_eq_some isFound
  have sameIndex : found = index := by
    have named := congrArg (Option.map (·.name)) isDecl
    have otherNamed := congrArg (Option.map (·.name)) isOther
    rw [← List.getElem?_map] at named otherNamed
    exact (List.getElem?_inj (List.getElem?_eq_some_iff.mp otherNamed).1 distinct.declared).mp
      (otherNamed.trans ((congrArg some sameName).trans named.symm))
  rw [bindName, isKnown, sameIndex]
  rfl

theorem Distinct.bindName_param (isParam : name ∈ names.typeParams) :
    names.bindName name = .param name := by
  obtain ⟨isSimple, notBuiltin⟩ := distinct.simple name isParam
  have undeclared : ∀ decl ∈ names.decls, decl.name ≠ name :=
    fun decl isDecl same => distinct.params decl isDecl (same ▸ isParam)
  have unknown : builtin? name = none := Option.not_isSome_iff_eq_none.mp fun found =>
    notBuiltin (.inl found)
  have notFound : names.byName? name = none := by
    rw [byName?, plainDecl?_eq_none undeclared, unknown]
    rfl
  rw [bindName, lookup?, notFound, isSimple, typeParam?, contains_iff_mem.mpr isParam]
  simp

theorem Distinct.generic?_library (kind : LibraryGeneric) :
    names.generic? kind.name = some (.library kind) := by
  have isBuiltin : LibraryGeneric.ofName? kind.name = some kind := by cases kind <;> rfl
  rw [generic?, genericDecl?_eq_none (distinct.undeclared (.inr (by rw [isBuiltin]; rfl))), isBuiltin]
  rfl

theorem Distinct.template_library (kind : LibraryGeneric) :
    names.template kind.name = .library kind := by
  have isBuiltin : LibraryGeneric.ofName? kind.name = some kind := by cases kind <;> rfl
  have isSimple : lastSegment kind.name = kind.name := by cases kind <;> decide +kernel
  rw [template, genericDecl?_eq_none (distinct.undeclared (.inr (by rw [isBuiltin]; rfl))), isSimple,
    distinct.generic?_library]

theorem Distinct.bind_library {kind : LibraryGeneric} {args : List TypeSyntax}
    (hasArgs : kind = .action ∨ args ≠ []) :
    names.bind (.named kind.name args) = .applied kind.name (names.bindAll args) := by
  cases args with
  | nil =>
    obtain rfl := hasArgs.resolve_right (fun differ => differ rfl)
    have isBuiltin : IsBuiltin "Action" := .inr rfl
    have unknown : names.lookup? "Action" = none := by
      have notFound : names.byName? "Action" = none := by
        rw [byName?, plainDecl?_eq_none (distinct.undeclared isBuiltin)]
        rfl
      have isSimple : lastSegment "Action" = "Action" := by decide +kernel
      rw [lookup?, notFound, isSimple]
      rfl
    have noParam : names.typeParam? "Action" = none := by
      refine if_neg fun isParam => ?_
      exact (distinct.simple _ (contains_iff_mem.mp isParam)).2 isBuiltin
    change names.bindName "Action" = _
    rw [bindName, unknown, noParam]
    exact if_pos (beq_iff_eq.mpr (distinct.generic?_library .action))
  | cons first rest =>
    have isSimple : lastSegment kind.name = kind.name := by cases kind <;> decide +kernel
    rw [bind, apply, isSimple, distinct.generic?_library, bindAll]

end Distinct

end TypeNames

/-! ## What is known about a type -/

section Data

variable {unit : CompilationUnit}

theorem Universe.data_declared {vocabulary : Vocabulary} {index : Nat} {decl : TypeDecl}
    (isDecl : unit.types[index]? = some decl) (isPlain : decl.typeParams = []) :
    ((ofUnit unit vocabulary).data (.declared index)).args = [] ∧
      ((ofUnit unit vocabulary).data (.declared index)).element = none := by
  have isData : (ofUnit unit vocabulary).data (.declared index) =
      (unit.typeNames vocabulary).define decl := by
    rw [data, definition_eq isDecl]
    rfl
  rw [isData]
  exact ⟨congrArg (List.map Ty.param) isPlain, rfl⟩

end Data

/-! ## Reading back -/

section Reading

variable {unit : CompilationUnit} {vocabulary : Vocabulary} {fresh : Universe}

section

variable (same : ∀ type, fresh.data type = types.data type)

include same

theorem Universe.Corresponds.plain (noArgs : (types.data type).args = [])
    (noElement : (types.data type).element = none) : types.Corresponds fresh type type := by
  refine .intro ?_ ?_ ?_ ?_
  · rw [same]
  · rw [same]
  · rw [same, noArgs]
    exact .nil
  · rw [same, noElement]
    exact .none

theorem Universe.Corresponds.prim (kind : Primitive) :
    types.Corresponds fresh (.prim kind) (.prim kind) := by
  cases kind with
  | string =>
    refine .intro ?_ ?_ ?_ ?_
    · rw [same]
    · rw [same]
    · rw [same]
      exact .nil
    · rw [same]
      exact .some (plain same rfl rfl)
  | _ => exact plain same rfl rfl

theorem Universe.Corresponds.library {name : String} {kind : LibraryGeneric}
    (isLibrary : types.names.template name = .library kind)
    (isFound : types.names.template kind.name = .library kind) {args read : List Ty}
    (forms : Forall₂ (types.Corresponds fresh) (kind.arguments args) (kind.arguments read)) :
    types.Corresponds fresh (.applied name args) (.applied kind.name read) := by
  have isType : types.data (.applied name args) = kind.data (.applied name args) args :=
    data_library isLibrary
  have isRead : fresh.data (.applied kind.name read) = kind.data (.applied kind.name read) read :=
    (same _).trans (data_library isFound)
  cases kind with
  | list | enumerable =>
    have element : types.Corresponds fresh (args.headD .unknown) (read.headD .unknown) := by
      cases forms with
      | cons isFirst _ => exact isFirst
    refine .intro ?_ ?_ ?_ ?_ <;> rw [isType, isRead]
    · rfl
    · rfl
    · exact forms
    · exact .some element
  | func | action =>
    refine .intro ?_ ?_ ?_ ?_ <;> rw [isType, isRead]
    · rfl
    · rfl
    · exact forms
    · exact .none

end

theorem TypeNames.Built.reads_back (distinct : (unit.typeNames vocabulary).Distinct)
    (same : ∀ type, fresh.data type = (Universe.ofUnit unit vocabulary).data type)
    (built : (unit.typeNames vocabulary).Built type) :
    (Universe.ofUnit unit vocabulary).Corresponds fresh type
      ((unit.typeNames vocabulary).bind ((unit.typeNames vocabulary).syntaxOf type)) := by
  set types := Universe.ofUnit unit vocabulary with isTypes
  set names := unit.typeNames vocabulary with isNames
  have all (args : List Ty) (each : ∀ arg ∈ args,
      types.Corresponds fresh arg (names.bind (names.syntaxOf arg))) :
      Forall₂ (types.Corresponds fresh) args (names.bindAll (names.syntaxAll args)) := by
    induction args with
    | nil => exact .nil
    | cons arg rest ih =>
      exact .cons (each arg mem_cons_self)
        (ih fun other isRest => each other (mem_cons_of_mem _ isRest))
  induction built with
  | @prim kind notVoid notNull =>
    have isFound : builtin? kind.name = some (.prim kind) := by
      cases kind <;> first | rfl | exact absurd rfl notVoid | exact absurd rfl notNull
    have isSyntax : names.syntaxOf (.prim kind) = .named kind.name [] := by
      cases kind <;> first | rfl | exact absurd rfl notVoid | exact absurd rfl notNull
    rw [isSyntax, bind, distinct.bindName_builtin isFound]
    exact .prim same kind
  | @declared index decl isDecl isPlain =>
    have isSyntax : names.syntaxOf (.declared index) = .named decl.name [] := by
      rw [syntaxOf, isDecl]
      exact congrArg (TypeSyntax.named decl.name) (congrArg (List.map _) isPlain)
    rw [isSyntax, bind, distinct.bindName_declared isDecl isPlain]
    obtain ⟨noArgs, noElement⟩ := Universe.data_declared isDecl isPlain
    exact .plain same noArgs noElement
  | param isParam =>
    change types.Corresponds fresh _ (names.bindName _)
    rw [distinct.bindName_param isParam]
    exact .plain same rfl rfl
  | @array element _ ih =>
    refine .intro ?_ ?_ ?_ ?_ <;> rw [same]
    · rfl
    · rfl
    · exact .nil
    · exact .some ih
  | @nullable inner _ ih =>
    set read := names.bind (names.syntaxOf inner)
    have sameShape : names.shape inner = names.shape read := by
      obtain ⟨shape, -, -, -⟩ := ih
      rwa [same, Universe.data_shape, Universe.data_shape] at shape
    rcases nullableOf_congr sameShape with ⟨isInner, isRead⟩ | ⟨isInner, -⟩
    · have isBound : names.bind (names.syntaxOf (.nullable inner)) = .nullable read := isRead
      rw [isInner, isBound]
      refine .intro ?_ ?_ ?_ ?_ <;> rw [same]
      · rfl
      · rfl
      · exact .nil
      · exact .some ih
    · rw [isInner]
      exact ih
  | @tuple elements _ ih =>
    refine .intro ?_ ?_ ?_ ?_ <;> rw [same]
    · rfl
    · rfl
    · exact all elements ih
    · exact .none
  | @library name kind args isLibrary built hasArgs ih =>
    have correspond := all args ih
    have isFound := distinct.template_library kind
    have hasSyntax : kind = .action ∨ names.syntaxAll args ≠ [] := by
      refine hasArgs.imp_right fun hasArgs => ?_
      cases args with
      | nil => exact absurd rfl hasArgs
      | cons => exact cons_ne_nil _ _
    have notVoid : args.getLast? ≠ some .void := fun isLast =>
      (built _ (mem_of_getLast? isLast)).ne_void rfl
    rw [syntaxOf, appliedSyntax, isLibrary]
    cases kind with
    | list =>
      cases correspond with
      | nil => exact absurd rfl (hasArgs.resolve_left (by decide))
      | @cons arg _ rest _ first _ =>
        change types.Corresponds fresh _
          (names.bind (.named LibraryGeneric.list.name [names.syntaxOf arg]))
        rw [distinct.bind_library (.inr (cons_ne_nil _ _))]
        exact .library same isLibrary isFound (.cons first .nil)
    | enumerable =>
      cases correspond with
      | nil => exact absurd rfl (hasArgs.resolve_left (by decide))
      | @cons arg _ rest _ first _ =>
        change types.Corresponds fresh _
          (names.bind (.named LibraryGeneric.enumerable.name [names.syntaxOf arg]))
        rw [distinct.bind_library (.inr (cons_ne_nil _ _))]
        exact .library same isLibrary isFound (.cons first .nil)
    | func =>
      dsimp only
      rw [if_neg notVoid]
      change types.Corresponds fresh _
        (names.bind (.named LibraryGeneric.func.name (names.syntaxAll args)))
      rw [distinct.bind_library hasSyntax]
      exact .library same isLibrary isFound correspond
    | action =>
      change types.Corresponds fresh _
        (names.bind (.named LibraryGeneric.action.name (names.syntaxAll args)))
      rw [distinct.bind_library hasSyntax]
      exact .library same isLibrary isFound (rel_append correspond (.cons (.prim same .void) .nil))

/-- The syntax that is written for a type is read by an analysis of the same declarations as
    a type of the same shape and name, with arguments and an element that correspond in
    turn. -/
theorem syntaxOf_binds_back {unit other : CompilationUnit} {vocabulary following : Vocabulary}
    {count size : Nat}
    (sameDecls : unit.types.map TypeDecl.signature = other.types.map TypeDecl.signature)
    (sameParams : ∀ name, name ∈ (unit.typeNames vocabulary).typeParams ↔
      name ∈ (other.typeNames following).typeParams)
    (distinct : (unit.typeNames vocabulary).Distinct) {type : Ty}
    (built : (unit.typeNames vocabulary).Built type) :
    let view := unit.analyze count vocabulary
    let fresh := other.analyze size following
    view.types.Corresponds fresh.types type (fresh.bind (view.types.names.syntaxOf type)) := by
  intro view fresh
  have alike : view.types.Alike fresh.types := Universe.ofUnit_alike sameDecls sameParams
  change view.types.Corresponds fresh.types type
    (fresh.types.names.bind (view.types.names.syntaxOf type))
  rw [← alike.names.bind]
  exact built.reads_back distinct fun type => (alike.data type).symm

end Reading

def emptyDecl (kind : TypeDeclKind) (name : String) (typeParams : List String) : TypeDecl :=
  ⟨name, kind, [.isPublic], typeParams, none, [], none, [], ⟨0, 1⟩⟩

def pointAndBox : CompilationUnit :=
  ⟨[], none, [emptyDecl .structType "Point" [], emptyDecl .classType "Box" ["T"]]⟩

theorem syntaxOf_binds_back_nested :
    let names := pointAndBox.typeNames {}
    let view := pointAndBox.analyze 0 {}
    let type : Ty := .applied "List" [.tuple [.nullable (.declared 0),
      .applied "Func" [.array (.param "T"), .applied "Action" [.int]]]]
    names.Distinct ∧ names.Built type ∧
      view.types.Corresponds view.types type (view.bind (names.syntaxOf type)) := by
  intro names view type
  have distinct : names.Distinct := {
    declared := by decide
    params := by decide
    builtin := by decide +kernel
    simple := by decide +kernel }
  have isPoint : names.decls[0]? = some (emptyDecl .structType "Point" []) := rfl
  have struct : names.Built (.declared 0) := .declared isPoint rfl
  have point : names.Built (.nullable (.declared 0)) := .nullable struct
  have action : names.Built (.applied "Action" [.int]) :=
    .library (distinct.template_library .action)
      (List.forall_mem_singleton.mpr (.prim nofun nofun)) (.inl rfl)
  have func : names.Built (.applied "Func" [.array (.param "T"), .applied "Action" [.int]]) :=
    .library (distinct.template_library .func)
      (List.forall_mem_cons.mpr ⟨.array (.param (by decide)), List.forall_mem_singleton.mpr action⟩)
      (.inr nofun)
  have tuple := TypeNames.Built.tuple
    (List.forall_mem_cons.mpr ⟨point, List.forall_mem_singleton.mpr func⟩)
  have built : names.Built type :=
    .library (distinct.template_library .list) (List.forall_mem_singleton.mpr tuple) (.inr nofun)
  exact ⟨distinct, built, syntaxOf_binds_back rfl (fun _ => .rfl) distinct built⟩

end Unsugar
