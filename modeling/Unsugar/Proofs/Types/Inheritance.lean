import Unsugar.Eval.Run
import Unsugar.Proofs.Types.FoundTypes
import Mathlib.Data.Finset.Card
import Mathlib.Data.Finset.Dedup
import Mathlib.Data.List.Nodup
import Mathlib.Data.List.TakeWhile
import Mathlib.Logic.Relation

open List

namespace Unsugar

/-! # Who derives from whom

A running program follows the names that declarations write as bases, for so many
steps; `Program.derives_iff` says that it finds every class and interface that the
names lead to.  The analysis follows types instead, and knows the library; `Known`
says what its types have to do with those names.
-/

open Relation

/-! ## Names of bases -/

variable {steps limit : Nat}

inductive Program.Extends (program : Program) : String → String → Prop where
  | declared {name base : String} {decl : TypeDecl} {args : List TypeSyntax}
      (found : program.find? name = some decl) (written : .named base args ∈ decl.bases) :
      Program.Extends program name base
  | builtin {name base : String} (undeclared : program.find? name = none)
      (isBase : builtinBase? name = some base) : Program.Extends program name base

/-- Names that mean a type without being declared. -/
def isReservedName (name : String) : Bool :=
  isBuiltinType name || (TypeNames.builtin? name).isSome

variable {decl : TypeDecl} {className : String}

section Names

variable {program : Program} {name target : String}

def Program.KeepsReserved (program : Program) : Prop :=
  ∀ decl ∈ program.types, isReservedName decl.name = false

theorem Program.mem_of_find? (found : program.find? name = some decl) :
    decl ∈ program.types ∧ decl.name = name := by
  refine ⟨mem_reverse.1 (mem_of_find?_eq_some found), ?_⟩
  simpa using find?_some found

theorem Program.KeepsReserved.undeclared (keeps : program.KeepsReserved)
    (isReserved : isReservedName name = true) : program.find? name = none := by
  cases found : program.find? name with
  | none => rfl
  | some decl =>
    obtain ⟨present, rfl⟩ := Program.mem_of_find? found
    rw [keeps decl present] at isReserved
    cases isReserved

theorem Program.derivesWithin_sound (derives : program.derivesWithin target steps name = true) :
    ReflTransGen program.Extends name target := by
  induction steps generalizing name with
  | zero => exact (by simpa [Program.derivesWithin] using derives : name = target) ▸ .refl
  | succ steps ih =>
    rw [Program.derivesWithin, Bool.or_eq_true, beq_iff_eq] at derives
    rcases derives with rfl | derives
    · exact .refl
    · split at derives
      · next decl found =>
          obtain ⟨base, written, onward⟩ := any_eq_true.1 derives
          split at onward
          · exact .head (.declared found written) (ih onward)
          · cases onward
      · next undeclared =>
          split at derives
          · next base isBase =>
              exact .head (.builtin undeclared isBase) (ih derives)
          · cases derives

open Classical in
noncomputable def Program.ancestors (program : Program) (name : String) : Finset String :=
  (program.types.map (·.name)).toFinset.filter fun other => ReflTransGen program.Extends name other

theorem Program.mem_ancestors {other : String} : other ∈ program.ancestors name ↔
    other ∈ program.types.map (·.name) ∧ ReflTransGen program.Extends name other := by
  classical
  rw [Program.ancestors, Finset.mem_filter, mem_toFinset]

theorem Program.card_ancestors_le (program : Program) (name : String) :
    (program.ancestors name).card ≤ program.types.length := by
  calc
    (program.ancestors name).card ≤ (program.types.map (·.name)).toFinset.card := by
      classical
      exact Finset.card_filter_le ..
    _ ≤ (program.types.map (·.name)).length := toFinset_card_le _
    _ = program.types.length := length_map ..

theorem Program.card_ancestors_lt {base : String}
    (acyclic : ∀ name, ¬TransGen program.Extends name name)
    (found : program.find? name = some decl) (isBase : program.Extends name base) :
    (program.ancestors base).card < (program.ancestors name).card := by
  apply Finset.card_lt_card
  rw [Finset.ssubset_iff_of_subset]
  · obtain ⟨present, isName⟩ := Program.mem_of_find? found
    refine ⟨name, Program.mem_ancestors.2 ⟨?_, .refl⟩, fun circular => ?_⟩
    · exact mem_map.2 ⟨decl, present, isName⟩
    · exact acyclic name (.head' isBase (Program.mem_ancestors.1 circular).2)
  · intro other below
    obtain ⟨isDeclared, leads⟩ := Program.mem_ancestors.1 below
    exact Program.mem_ancestors.2 ⟨isDeclared, .head isBase leads⟩

theorem Program.acyclic_of_rank (rank : String → Nat)
    (lower : ∀ name base, program.Extends name base → rank base < rank name) (name : String) :
    ¬TransGen program.Extends name name := by
  have descends {first last : String} (leads : TransGen program.Extends first last) :
      rank last < rank first := by
    induction leads with
    | single isBase => exact lower _ _ isBase
    | tail _ isBase ih => exact (lower _ _ isBase).trans ih
  exact fun circular => absurd (descends circular) (Nat.lt_irrefl _)

variable (keeps : program.KeepsReserved)

include keeps

theorem Program.Extends.above_exception (leads : ReflTransGen program.Extends "Exception" target) :
    target = "Exception" := by
  rcases leads.cases_head with isTarget | ⟨base, isBase, _⟩
  · exact isTarget.symm
  · cases isBase with
    | declared found _ =>
      rw [keeps.undeclared rfl] at found
      cases found
    | builtin _ isBase => cases isBase

theorem Program.derivesWithin_builtin {base : String} (isBase : builtinBase? name = some base)
    (leads : ReflTransGen program.Extends base target) :
    program.derivesWithin target (steps + 1) base = true := by
  have ofException (steps : Nat) : "Exception" = target →
      program.derivesWithin target steps "Exception" = true := by
    rintro rfl
    cases steps <;> simp [Program.derivesWithin]
  have isKnown : base = "InvalidOperationException" ∨ base = "Exception" := by
    unfold builtinBase? at isBase
    split at isBase <;> cases isBase <;> simp
  rcases isKnown with rfl | rfl
  · rcases leads.cases_head with rfl | ⟨above, isAbove, leads⟩
    · simp [Program.derivesWithin]
    · cases isAbove with
      | declared found _ =>
        rw [keeps.undeclared rfl] at found
        cases found
      | builtin undeclared isAbove =>
        cases isAbove
        have found := ofException steps (Program.Extends.above_exception keeps leads).symm
        rw [Program.derivesWithin, undeclared]
        exact Bool.or_eq_true_iff.2 (.inr found)
  · exact ofException _ (Program.Extends.above_exception keeps leads).symm

theorem Program.derivesWithin_complete (acyclic : ∀ name, ¬TransGen program.Extends name name)
    (leads : ReflTransGen program.Extends name target)
    (enough : (program.ancestors name).card + 2 ≤ steps) :
    program.derivesWithin target steps name = true := by
  induction steps generalizing name with
  | zero => omega
  | succ steps ih =>
    rw [Program.derivesWithin, Bool.or_eq_true, beq_iff_eq]
    rcases leads.cases_head with rfl | ⟨base, isBase, leads⟩
    · exact .inl rfl
    · refine .inr ?_
      cases isBase with
      | declared found written =>
        have fewer := Program.card_ancestors_lt acyclic found (.declared found written)
        rw [found]
        exact any_eq_true.2 ⟨_, written, ih leads (by omega)⟩
      | builtin undeclared isBase =>
        obtain ⟨fewer, rfl⟩ : ∃ fewer, steps = fewer + 1 := ⟨steps - 1, by omega⟩
        rw [undeclared]
        simp only [isBase]
        exact Program.derivesWithin_builtin keeps isBase leads

theorem Program.derives_iff (acyclic : ∀ name, ¬TransGen program.Extends name name) :
    program.derives name target = true ↔ ReflTransGen program.Extends name target := by
  refine ⟨Program.derivesWithin_sound, fun leads => ?_⟩
  have few := program.card_ancestors_le name
  exact Program.derivesWithin_complete keeps acyclic leads (by omega)

end Names

/-! ## Types and their names -/

/-- Names of the library that stand for a primitive type. -/
def libraryAliases : List String :=
  ["Object", "Boolean", "Int32", "Int64", "Double", "Char", "String"]

/-- A name that is neither qualified nor an alias of the library. -/
def isOwnName (name : String) : Bool :=
  !name.toList.contains '.' && !libraryAliases.contains name

def TypeSyntax.IsOwn : TypeSyntax → Prop
  | .named name _ => isOwnName name = true
  | .nullable inner => inner.IsOwn
  | .void => False
  | _ => True

def TypeNames.nameOf? (names : TypeNames) : Ty → Option String
  | .prim kind => some kind.name
  | .library kind => some kind.name
  | .declared index => names.decls[index]?.map (·.name)
  | .param name | .applied name _ => some name
  | _ => none

section Names

variable {names : TypeNames} {name : String}

section

variable (own : isOwnName name = true)

include own

theorem lastSegment_of_isOwnName : lastSegment name = name := by
  have noDot : ∀ char ∈ name.toList.reverse, decide (char ≠ '.') = true := by
    intro char present
    rw [isOwnName, Bool.and_eq_true] at own
    have absent : '.' ∉ name.toList := by simpa using own.1
    simpa using fun isDot : char = '.' => absent (isDot ▸ mem_reverse.1 present)
  rw [lastSegment, takeWhile_eq_self_iff.2 noDot, reverse_reverse, String.ofList_toList]

theorem name_of_ofName? {kind : Primitive} (found : Primitive.ofName? name = some kind) :
    kind.name = name := by
  unfold Primitive.ofName? at found
  split at found <;> cases found
  all_goals first | rfl | cases own

theorem nameOf?_builtin {type : Ty} (found : TypeNames.builtin? name = some type) :
    type = .unknown ∨ names.nameOf? type = some name := by
  obtain ⟨_, rfl⟩ | ⟨kind, isKind, rfl⟩ | ⟨kind, rfl, rfl⟩ := TypeNames.builtin?_cases found
  · exact .inl rfl
  · exact .inr (congrArg some (name_of_ofName? own isKind))
  · exact .inr rfl

theorem nameOf?_byName {type : Ty} (found : names.byName? name = some type) :
    type = .unknown ∨ names.nameOf? type = some name := by
  rcases Option.or_eq_some_iff.1 found with isDeclared | ⟨-, isBuiltin⟩
  · obtain ⟨index, isIndex, rfl⟩ := Option.map_eq_some_iff.1 isDeclared
    obtain ⟨decl, isDecl, isName⟩ := getElem?_of_lastIndex? isIndex
    refine .inr ?_
    rw [Bool.and_eq_true, beq_iff_eq] at isName
    rw [TypeNames.nameOf?, isDecl, Option.map_some, isName.1]
  · exact nameOf?_builtin own isBuiltin

end

theorem nameOf?_bind {names : TypeNames} (own : isOwnName name = true) {args : List TypeSyntax} :
    names.bind (.named name args) = .unknown ∨
      names.nameOf? (names.bind (.named name args)) = some name := by
  cases args with
  | nil =>
    rw [TypeNames.bind, TypeNames.bindName]
    split
    · next type found =>
        rcases Option.or_eq_some_iff.1 found with isKnown | ⟨-, isParam⟩
        · unfold TypeNames.lookup? at isKnown
          split at isKnown
          · next found =>
              cases isKnown
              exact nameOf?_byName own found
          · rw [lastSegment_of_isOwnName own] at isKnown
            simp at isKnown
        · unfold TypeNames.typeParam? at isParam
          split at isParam <;> cases isParam
          exact .inr rfl
    · split
      · exact .inr rfl
      · exact .inl rfl
  | cons first rest =>
    rw [TypeNames.bind, TypeNames.apply]
    split
    · exact .inr rfl
    · exact .inl rfl

end Names

/-! ## Hierarchies -/

/-- Declarations, generic ones among them, have distinct names that nothing else has, name
    their bases by names of their own, and do not derive from themselves. -/
structure CompilationUnit.IsClear (unit : CompilationUnit) : Prop where
  distinct : (unit.types.map (·.name)).Nodup
  reserved : unit.program.KeepsReserved
  named : ∀ decl ∈ unit.types, ∀ base ∈ decl.bases,
    ∃ name args, base = .named name args ∧ isOwnName name = true
  acyclic : ∀ name, ¬TransGen unit.program.Extends name name

/-- None of the declarations is generic either. -/
structure CompilationUnit.IsHierarchy (unit : CompilationUnit) : Prop extends unit.IsClear where
  plain : ∀ decl ∈ unit.types, decl.typeParams = []

instance {unit : CompilationUnit} : Coe unit.IsHierarchy unit.IsClear := ⟨(·.toIsClear)⟩

def Universe.HasBase (types : Universe) (type base : Ty) : Prop :=
  (types.data type).base = some base ∨ base ∈ (types.data type).interfaces

/-- A type is another, derives from it or implements it. -/
def Universe.Includes (types : Universe) : Ty → Ty → Prop := ReflTransGen types.HasBase

theorem Universe.includes_of_reaches {types : Universe} {target : Ty}
    {stack : List Ty} (found : types.reaches target limit stack = true) :
    ∃ type ∈ stack, types.Includes type target := by
  induction limit generalizing stack with
  | zero => cases found
  | succ limit ih =>
    cases stack with
    | nil => cases found
    | cons type rest =>
      rw [Universe.reaches] at found
      split at found
      · next isTarget => exact ⟨type, mem_cons_self, isTarget ▸ .refl⟩
      · obtain ⟨next, present, onward⟩ := ih found
        simp only [mem_append, mem_reverse, Option.mem_toList] at present
        rcases present with (isInterface | isBase) | isWaiting
        · exact ⟨type, mem_cons_self, .head (.inr isInterface) onward⟩
        · exact ⟨type, mem_cons_self, .head (.inl isBase) onward⟩
        · exact ⟨next, mem_cons_of_mem _ isWaiting, onward⟩

/-! ## What a class leads to -/

/-- What the type table can lead to from a class: `object`, an enumeration that a
    library type has, or a type whose name the class leads to at run time. -/
inductive Known (program : Program) (names : TypeNames) (className : String) : Ty → Prop where
  | object : Known program names className .object
  | unknown : Known program names className .unknown
  | enumerable (element : Ty) : Known program names className (.enumerableOf element)
  | named {type : Ty} {name : String} (goes : names.nameOf? type = some name)
      (leads : ReflTransGen program.Extends className name) : Known program names className type

section Templates

variable {types : Universe} {name : String} {args : List Ty}

theorem Universe.data_library {kind : LibraryGeneric}
    (isTemplate : types.names.template name = .library kind) :
    types.data (.applied name args) = kind.data (.applied name args) args := by
  unfold Universe.data
  dsimp only
  rw [isTemplate]

variable {index : Nat}

theorem TypeNames.decl_of_full {names : TypeNames} (isTemplate : names.template name = .full index) :
    ∃ decl, names.decls[index]? = some decl ∧ decl.name = name := by
  unfold TypeNames.template at isTemplate
  split at isTemplate
  · next found =>
      cases isTemplate
      obtain ⟨decl, isDecl, isName, -⟩ := TypeNames.genericDecl?_eq_some found
      exact ⟨decl, isDecl, isName⟩
  · split at isTemplate <;> cases isTemplate

theorem Universe.data_full (isTemplate : types.names.template name = .full index) :
    types.data (.applied name args) = types.instantiate (types.data (.declared index))
      (types.typeParamsOf index) args := by
  conv_lhs => unfold Universe.data
  dsimp only
  rw [isTemplate]
  rfl

theorem Universe.data_header (isTemplate : types.names.template name = .header index) :
    ((types.data (.applied name args)).base = some .object ∨
      (types.data (.applied name args)).base = none) ∧
      (types.data (.applied name args)).interfaces = [] := by
  unfold Universe.data
  dsimp only
  rw [isTemplate]
  dsimp only
  split
  · exact ⟨.inl rfl, rfl⟩
  · exact ⟨.inr rfl, rfl⟩

theorem Universe.data_missing (isTemplate : types.names.template name = .missing) :
    types.data (.applied name args) = .unknown := by
  unfold Universe.data
  dsimp only
  rw [isTemplate]

end Templates

section Hierarchy

variable {unit : CompilationUnit} {vocabulary : Vocabulary}
  {name : String} {base type : Ty} {kind : LibraryGeneric}

theorem CompilationUnit.IsClear.genericDecl? (clear : unit.IsClear) (vocabulary : Vocabulary)
    (isReserved : isReservedName name = true) :
    (unit.typeNames vocabulary).genericDecl? name = none := by
  cases found : (unit.typeNames vocabulary).genericDecl? name with
  | none => rfl
  | some index =>
    obtain ⟨decl, isDecl, isGeneric⟩ := getElem?_of_lastIndex? found
    rw [Bool.and_eq_true, beq_iff_eq] at isGeneric
    have other := clear.reserved decl (mem_of_getElem? isDecl)
    rw [isGeneric.1, isReserved] at other
    cases other

theorem CompilationUnit.IsClear.find?_eq (clear : unit.IsClear) (present : decl ∈ unit.types) :
    unit.program.find? decl.name = some decl := by
  have isSome : (unit.program.find? decl.name).isSome = true :=
    find?_isSome.2 ⟨decl, mem_reverse.2 present, beq_self_eq_true _⟩
  obtain ⟨found, isFound⟩ := Option.isSome_iff_exists.1 isSome
  obtain ⟨isDeclared, sameName⟩ := Program.mem_of_find? isFound
  rw [isFound, inj_on_of_nodup_map clear.distinct isDeclared present sameName]

theorem mem_basesOf {names : TypeNames}
    (isBase : (names.basesOf decl).1 = base ∨ base ∈ (names.basesOf decl).2) :
    base = .object ∨ ∃ written ∈ decl.bases, names.bind written = base := by
  unfold TypeNames.basesOf at isBase
  split at isBase
  · rcases isBase with rfl | absent
    · exact .inl rfl
    · cases absent
  · next first rest isBound =>
      have bound (present : base ∈ first :: rest) :
          ∃ written ∈ decl.bases, names.bind written = base :=
        mem_map.1 (isBound ▸ present)
      split at isBase
      · exact .inr (bound (mem_cons.2 (isBase.imp_left Eq.symm)))
      · exact isBase.imp Eq.symm bound

theorem Known.declared (clear : unit.IsClear) {index : Nat} {base : Ty}
    (isDecl : unit.types[index]? = some decl)
    (leads : ReflTransGen unit.program.Extends className decl.name)
    (isBase : (Universe.ofUnit unit vocabulary).HasBase (.declared index) base) :
    Known unit.program (unit.typeNames vocabulary) className base := by
  have isData : (Universe.ofUnit unit vocabulary).data (.declared index) =
      (unit.typeNames vocabulary).define decl := by
    simp [Universe.data, Universe.ofUnit, isDecl]
  have present := mem_of_getElem? isDecl
  rw [Universe.HasBase, isData] at isBase
  rcases mem_basesOf (isBase.imp_left Option.some.inj) with rfl | ⟨written, isWritten, rfl⟩
  · exact .object
  · obtain ⟨name, args, rfl, own⟩ := clear.named decl present written isWritten
    rcases nameOf?_bind own with isUnknown | goes
    · exact isUnknown ▸ .unknown
    · exact .named goes (leads.tail (.declared (clear.find?_eq present) isWritten))

theorem isReservedName_of_generic (isKind : LibraryGeneric.ofName? name = some kind) :
    isReservedName name = true := by
  unfold LibraryGeneric.ofName? at isKind
  split at isKind <;> first | rfl | cases isKind

theorem CompilationUnit.IsClear.template_library (clear : unit.IsClear) (vocabulary : Vocabulary)
    (own : isOwnName name = true) (isKind : LibraryGeneric.ofName? name = some kind) :
    (unit.typeNames vocabulary).template name = .library kind := by
  unfold TypeNames.template TypeNames.generic?
  rw [lastSegment_of_isOwnName own, clear.genericDecl? _ (isReservedName_of_generic isKind), isKind]
  rfl

theorem hasBase_library {args : List Ty}
    (isTemplate : (unit.typeNames vocabulary).template name = .library kind)
    (isBase : (Universe.ofUnit unit vocabulary).HasBase (.applied name args) base) :
    base = .object ∨ ∃ element, base = .enumerableOf element := by
  rw [Universe.HasBase, Universe.data_library isTemplate] at isBase
  cases kind with
  | list =>
    rcases isBase with isBase | isInterface
    · exact .inl (Option.some.inj isBase).symm
    · exact .inr ⟨_, mem_singleton.1 isInterface⟩
  | enumerable => rcases isBase with isBase | isInterface <;> contradiction
  | func | action =>
    rcases isBase with isBase | isInterface
    · exact .inl (Option.some.inj isBase).symm
    · contradiction

theorem hasBase_applied {args : List Ty}
    (isBase : (Universe.ofUnit unit vocabulary).HasBase (.applied name args) base) :
    (base = .object ∨ ∃ element, base = .enumerableOf element) ∨
      ∃ index decl, unit.types[index]? = some decl ∧ decl.name = name ∧
        (Universe.ofUnit unit vocabulary).HasBase (.declared index) base := by
  cases isTemplate : (unit.typeNames vocabulary).template name with
  | library kind => exact .inl (hasBase_library isTemplate isBase)
  | full index =>
    obtain ⟨decl, isDecl, isName⟩ := TypeNames.decl_of_full isTemplate
    rw [Universe.HasBase, Universe.data_full isTemplate] at isBase
    exact .inr ⟨index, decl, isDecl, isName, isBase⟩
  | header index =>
    have isHeader : (Universe.ofUnit unit vocabulary).names.template name = .header index :=
      isTemplate
    obtain ⟨isObject | isNone, noInterface⟩ := Universe.data_header isHeader
    · rw [Universe.HasBase, isObject, noInterface] at isBase
      rcases isBase with isBase | isInterface
      · exact .inl (.inl (Option.some.inj isBase).symm)
      · contradiction
    · rw [Universe.HasBase, isNone, noInterface] at isBase
      rcases isBase with isBase | isInterface <;> contradiction
  | missing =>
    rw [Universe.HasBase, Universe.data_missing isTemplate] at isBase
    rcases isBase with isBase | isInterface <;> contradiction

theorem Known.step (clear : unit.IsClear)
    (known : Known unit.program (unit.typeNames vocabulary) className type)
    (isBase : (Universe.ofUnit unit vocabulary).HasBase type base) :
    Known unit.program (unit.typeNames vocabulary) className base := by
  cases known with
  | object | unknown => rcases isBase with isBase | isInterface <;> contradiction
  | enumerable element =>
    rcases hasBase_library (clear.template_library vocabulary rfl rfl) isBase with rfl | ⟨_, rfl⟩
    · exact .object
    · exact .enumerable _
  | named goes leads =>
    cases type with
    | prim kind =>
      cases kind with
      | object | void | null => rcases isBase with isBase | isInterface <;> contradiction
      | bool | int | long | double | char =>
        rcases isBase with isBase | isInterface
        · exact Option.some.inj isBase ▸ .object
        · contradiction
      | string =>
        rcases isBase with isBase | isInterface
        · exact Option.some.inj isBase ▸ .object
        · exact mem_singleton.1 isInterface ▸ .enumerable .char
    | library kind =>
      cases goes
      rcases isBase with isBase | isInterface
      · obtain rfl := Option.some.inj isBase
        have undeclared : unit.program.find? kind.name = none :=
          clear.reserved.undeclared (by cases kind <;> rfl)
        cases kind with
        | index | range | exception | console | math => exact .object
        | invalidOperation | argumentNull | switchExpression =>
          exact .named rfl (leads.tail (.builtin undeclared rfl))
      · contradiction
    | declared index =>
      obtain ⟨decl, isDecl, rfl⟩ := Option.map_eq_some_iff.1 goes
      exact .declared clear isDecl leads isBase
    | applied name args =>
      cases goes
      rcases hasBase_applied isBase with (rfl | ⟨_, rfl⟩) | ⟨index, decl, isDecl, rfl, isAbove⟩
      · exact .object
      · exact .enumerable _
      · exact .declared clear isDecl leads isAbove
    | param name => rcases isBase with isBase | isInterface <;> contradiction
    | unknown | array _ | nullable _ | tuple _ => cases goes

theorem Known.of_includes (clear : unit.IsClear) {target : Ty}
    (known : Known unit.program (unit.typeNames vocabulary) className type)
    (includes : (Universe.ofUnit unit vocabulary).Includes type target) :
    Known unit.program (unit.typeNames vocabulary) className target := by
  induction includes with
  | refl => exact known
  | tail _ isBase ih => exact ih.step clear isBase

theorem includes_library (clear : unit.IsClear) {target : Ty}
    (isLibrary : ∀ base, (Universe.ofUnit unit vocabulary).HasBase type base →
      base = .object ∨ ∃ element, base = .enumerableOf element)
    (includes : (Universe.ofUnit unit vocabulary).Includes type target) :
    target = type ∨ target = .object ∨ ∃ element, target = .enumerableOf element := by
  induction includes with
  | refl => exact .inl rfl
  | tail _ isBase ih =>
    rcases ih with rfl | rfl | ⟨element, rfl⟩
    · exact .inr (isLibrary _ isBase)
    · rcases isBase with isBase | isInterface <;> contradiction
    · exact .inr (hasBase_library (clear.template_library vocabulary rfl rfl) isBase)

end Hierarchy

/-! ## Searching bases and interfaces

Whether a type derives from another is found by going through all that it leads to, depth
first: interfaces from the last to the first, then the base.  A type that several paths lead
to is visited once for each of them, and the search gives up after so many visits.  So it
finds a type exactly if few enough visits come before that type.
-/

namespace Universe

variable (types : Universe)

/-! ## Visits -/

/-- What a search goes on to from a type, in order. -/
def above (type : Ty) : List Ty :=
  (types.data type).interfaces.reverse ++ (types.data type).base.toList

/-- `types.Spans visits stack`: going through the types of a stack and all they lead to takes
    so many visits. -/
inductive Spans : Nat → List Ty → Prop where
  | nil : Spans 0 []
  | cons {type : Ty} {rest : List Ty} {below after : Nat} (isBelow : Spans below (types.above type))
      (isAfter : Spans after rest) : Spans (below + 1 + after) (type :: rest)

/-- `types.Meets target visits stack`: so many visits of the types of a stack and all they
    lead to come before one of `target`. -/
inductive Meets (target : Ty) : Nat → List Ty → Prop where
  | here (rest : List Ty) : Meets target 0 (target :: rest)
  | inside {type : Ty} {rest : List Ty} {visits : Nat} (met : Meets target visits (types.above type)) :
      Meets target (visits + 1) (type :: rest)
  | later {type : Ty} {rest : List Ty} {below visits : Nat}
      (isBelow : types.Spans below (types.above type)) (met : Meets target visits rest) :
      Meets target (below + 1 + visits) (type :: rest)

variable {types} {type target : Ty} {stack left right : List Ty} {visits spent total : Nat}

theorem mem_above {base : Ty} : base ∈ types.above type ↔ types.HasBase type base := by
  rw [above, mem_append, mem_reverse, Option.mem_toList, HasBase, or_comm]

theorem Meets.append (met : types.Meets target visits left) (right : List Ty) :
    types.Meets target visits (left ++ right) := by
  induction met with
  | here rest => exact .here _
  | inside met _ => exact .inside met
  | later isBelow _ ih => exact .later isBelow ih

theorem Spans.meets (spans : types.Spans spent left) (met : types.Meets target visits right) :
    types.Meets target (spent + visits) (left ++ right) := by
  induction spans with
  | nil => rwa [Nat.zero_add]
  | cons isBelow _ _ ih =>
    rw [Nat.add_assoc]
    exact .later isBelow ih

theorem Spans.append (first : types.Spans spent left) (rest : types.Spans visits right) :
    types.Spans (spent + visits) (left ++ right) := by
  induction first with
  | nil => rwa [Nat.zero_add]
  | cons isBelow _ _ ih =>
    rw [Nat.add_assoc]
    exact .cons isBelow ih

/-- What is met in two stacks, one on the other, is met in the first of them or in the
    second, once the first is gone through. -/
theorem meets_append (met : types.Meets target visits (left ++ right)) :
    types.Meets target visits left ∨
      ∃ spent more, types.Spans spent left ∧ types.Meets target more right ∧
        visits = spent + more := by
  induction left generalizing visits with
  | nil => exact .inr ⟨0, visits, .nil, met, (Nat.zero_add _).symm⟩
  | cons type rest ih =>
    cases met with
    | here => exact .inl (.here rest)
    | inside met => exact .inl (.inside met)
    | @later _ _ below visits isBelow met =>
      rcases ih met with isRest | ⟨spent, more, spans, isRight, rfl⟩
      · exact .inl (.later isBelow isRest)
      · exact .inr ⟨below + 1 + spent, more, .cons isBelow spans, isRight, by omega⟩

/-! ## The search -/

theorem meets_of_reaches (found : types.reaches target limit stack = true) :
    ∃ visits < limit, types.Meets target visits stack := by
  induction limit generalizing stack with
  | zero => cases found
  | succ limit ih =>
    cases stack with
    | nil => cases found
    | cons type rest =>
      rw [reaches] at found
      split at found
      · next isTarget => exact ⟨0, Nat.succ_pos _, isTarget ▸ .here rest⟩
      · obtain ⟨visits, few, met⟩ := ih found
        rcases meets_append met with isAbove | ⟨spent, more, spans, isRest, rfl⟩
        · exact ⟨visits + 1, by omega, .inside isAbove⟩
        · exact ⟨spent + 1 + more, by omega, .later spans isRest⟩

theorem reaches_of_meets (met : types.Meets target visits stack)
    (few : visits < limit) : types.reaches target limit stack = true := by
  induction limit generalizing visits stack with
  | zero => omega
  | succ limit ih =>
    cases met with
    | here rest => rw [reaches, if_pos rfl]
    | @inside type rest visits met =>
      rw [reaches]
      split
      · rfl
      · exact ih (met.append rest) (by omega)
    | @later type rest below visits isBelow met =>
      rw [reaches]
      split
      · rfl
      · exact ih (isBelow.meets met) (by omega)

theorem isSubtype_iff_meets : types.isSubtype type target = true ↔
    ∃ visits < visitLimit, types.Meets target visits [type] :=
  ⟨meets_of_reaches, fun ⟨_, few, met⟩ => reaches_of_meets met few⟩

theorem includes_of_isSubtype (found : types.isSubtype type target = true) :
    types.Includes type target := by
  obtain ⟨_, isType, includes⟩ := includes_of_reaches found
  exact mem_singleton.1 isType ▸ includes

/-- Whatever a stack leads to is met, if going through it comes to an end. -/
theorem Spans.meets_of_includes (spans : types.Spans total stack) (isIn : type ∈ stack)
    (includes : types.Includes type target) : ∃ visits < total, types.Meets target visits stack := by
  induction spans generalizing type with
  | nil => cases isIn
  | @cons first rest below after isBelow _ belowMeets restMeets =>
    rcases mem_cons.1 isIn with rfl | isRest
    · rcases includes.cases_head with rfl | ⟨base, isBase, onward⟩
      · exact ⟨0, by omega, .here rest⟩
      · obtain ⟨visits, few, met⟩ := belowMeets (mem_above.2 isBase) onward
        exact ⟨visits + 1, by omega, .inside met⟩
    · obtain ⟨visits, few, met⟩ := restMeets isRest includes
      exact ⟨below + 1 + visits, by omega, .later isBelow met⟩

theorem isReferenceSubtype_eq (notObject : target ≠ .object) :
    types.isReferenceSubtype type target = types.isSubtype type target := by
  rw [isReferenceSubtype, beq_eq_false_iff_ne.2 notObject, Bool.false_or]

/-- A search finds a type exactly if that is reached along bases and interfaces and few enough
    visits come before it; so whatever is reached, where all visits are within the limit. -/
theorem isSubtype_iff_few_visits (types : Universe) (type target : Ty) :
    (types.isSubtype type target = true ↔ types.Includes type target ∧
      ∃ visits < visitLimit, types.Meets target visits [type]) ∧
    (∀ total ≤ visitLimit, types.Spans total [type] →
      (types.isSubtype type target = true ↔ types.Includes type target)) ∧
    (target ≠ .object → types.isReferenceSubtype type target = types.isSubtype type target) := by
  refine ⟨⟨fun found => ⟨includes_of_isSubtype found, isSubtype_iff_meets.1 found⟩,
    fun found => isSubtype_iff_meets.2 found.2⟩, fun total few spans => ?_, isReferenceSubtype_eq⟩
  refine ⟨includes_of_isSubtype, fun includes => isSubtype_iff_meets.2 ?_⟩
  obtain ⟨visits, before, met⟩ := spans.meets_of_includes List.mem_cons_self includes
  exact ⟨visits, Nat.lt_of_lt_of_le before few, met⟩

/-! ## A ladder of interfaces -/

def rung (kind : TypeDeclKind) (name : String) (bases : List String) : TypeDecl :=
  ⟨name, kind, [], [], none, bases.map .simple, none, [], ⟨0, 0⟩⟩

def rungs : Nat → List TypeDecl
  | 0 => [rung .interfaceType "L0" [], rung .interfaceType "R0" []]
  | step + 1 =>
    let bases := ["L" ++ toString step, "R" ++ toString step]
    rung .interfaceType ("L" ++ toString (step + 1)) bases ::
      rung .interfaceType ("R" ++ toString (step + 1)) bases :: rungs step

def ladder : Universe :=
  let unit : CompilationUnit :=
    ⟨[], none, rung .classType "B" [] :: rung .classType "C" ["B", "L7"] :: rungs 7⟩
  .ofUnit unit unit.vocabulary

theorem spans_object : ladder.Spans 1 [.object] := by
  have noBases : ladder.above .object = [] := by decide +kernel
  exact .cons (noBases ▸ .nil) .nil

theorem spans_rung {index : Nat} (isLast : ladder.above (.declared index) = [.object]) :
    ladder.Spans 2 [.declared index] := .cons (isLast ▸ spans_object) .nil

/-- The base of `C` is reached, but not found: its interface is searched before.  On the first
    step of the ladder six visits are all there are. -/
theorem isSubtype_iff_few_visits_ladder :
    ladder.Includes (.declared 1) (.declared 0) ∧
      ladder.isSubtype (.declared 1) (.declared 0) = false ∧
      (¬ ∃ visits < visitLimit, ladder.Meets (.declared 0) visits [.declared 1]) ∧
      (ladder.isSubtype (.declared 14) (.declared 16) = true ↔
        ladder.Includes (.declared 14) (.declared 16)) ∧
      ladder.isReferenceSubtype (.declared 1) (.declared 0) = false := by
  have isBase : ladder.HasBase (.declared 1) (.declared 0) := .inl (by decide +kernel)
  have includes : ladder.Includes (.declared 1) (.declared 0) := .single isBase
  have missed : ladder.isSubtype (.declared 1) (.declared 0) = false := by decide +kernel
  obtain ⟨found, -, agrees⟩ := isSubtype_iff_few_visits ladder (.declared 1) (.declared 0)
  refine ⟨includes, missed, fun few => ?_, ?_, (agrees nofun).trans missed⟩
  · rw [found.2 ⟨includes, few⟩] at missed
    cases missed
  · have bases : ladder.above (.declared 14) = [.declared 17, .declared 16, .object] := by
      decide +kernel
    have left : ladder.Spans 2 [.declared 16] := spans_rung (by decide +kernel)
    have right : ladder.Spans 2 [.declared 17] := spans_rung (by decide +kernel)
    have spans : ladder.Spans 6 [.declared 14] := by
      refine .cons ?_ .nil
      rw [bases]
      exact .append right (.append left spans_object)
    exact (isSubtype_iff_few_visits ladder (.declared 14) (.declared 16)).2.1 6 (by decide) spans

end Universe

end Unsugar
