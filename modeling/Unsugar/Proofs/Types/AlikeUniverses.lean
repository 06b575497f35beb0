import Unsugar.Proofs.Lower.LoweredUnits
import Unsugar.Proofs.Types.FoundTypes

open List

namespace Unsugar

/-! # Universes that agree

What types are and which members they have is read off what declarations say outside
their bodies.  Units whose declarations say the same there have universes that answer
every question about types and members alike.
-/

/-! ## Signatures -/

variable {params : List Param} {decl : TypeDecl} {site : Site}

def Param.signature (param : Param) : Param := { param with default := none }

def MemberKind.signature : MemberKind → MemberKind
  | .field type name _ => .field type name none
  | .property type name _ _ _ => .property type name none none none
  | .method name typeParams params ret _ =>
    .method name typeParams (params.map Param.signature) ret .none
  | .ctor params _ _ => .ctor (params.map Param.signature) none .none
  | .operator op params ret _ => .operator op (params.map Param.signature) ret .none

def Member.signature (member : Member) : Member :=
  { member with kind := member.kind.signature }

/-- What a declaration says outside its bodies. -/
def TypeDecl.signature (decl : TypeDecl) : TypeDecl :=
  { decl with
    primary := decl.primary.map (List.map Param.signature)
    baseArgs := none
    members := decl.members.map Member.signature }

/-! ## Names -/

theorem lastIndex?_map {α β : Type} (change : α → β) (test : β → Bool) {items : List α} :
    lastIndex? test (items.map change) = lastIndex? (fun item => test (change item)) items := by
  unfold lastIndex?
  generalize 0 = index
  induction items generalizing index with
  | nil => rfl
  | cons item rest ih =>
    rw [map_cons, lastIndex?.go, lastIndex?.go, ih]

structure TypeNames.Alike (left right : TypeNames) : Prop where
  decls : left.decls.map TypeDecl.signature = right.decls.map TypeDecl.signature
  typeParams (name : String) : name ∈ left.typeParams ↔ name ∈ right.typeParams

namespace TypeNames.Alike

variable {left right : TypeNames} (alike : left.Alike right) (name : String)

include alike

theorem plainDecl? : left.plainDecl? name = right.plainDecl? name := by
  let test (decl : TypeDecl) : Bool := decl.name == name && decl.typeParams.isEmpty
  have same := congrArg (lastIndex? test) alike.decls
  rwa [lastIndex?_map, lastIndex?_map] at same

theorem genericDecl? : left.genericDecl? name = right.genericDecl? name := by
  let test (decl : TypeDecl) : Bool := decl.name == name && !decl.typeParams.isEmpty
  have same := congrArg (lastIndex? test) alike.decls
  rwa [lastIndex?_map, lastIndex?_map] at same

theorem decl? {α : Type} (part : TypeDecl → α) (index : Nat) :
    left.decls[index]?.map (fun decl => part decl.signature) =
      right.decls[index]?.map fun decl => part decl.signature := by
  have same := congrArg (fun decls : List TypeDecl => decls[index]?.map part) alike.decls
  simpa [Function.comp_def] using same

theorem lookup? : left.lookup? name = right.lookup? name := by
  have byName (name : String) : left.byName? name = right.byName? name := by
    rw [byName?, alike.plainDecl?, byName?]
  simp only [TypeNames.lookup?, byName]

theorem typeParam? : left.typeParam? name = right.typeParam? name := by
  simp only [TypeNames.typeParam?, contains_iff_mem, alike.typeParams]

theorem generic? : left.generic? name = right.generic? name := by
  rw [TypeNames.generic?, alike.genericDecl?, TypeNames.generic?]

theorem apply (args : List Ty) : left.apply name args = right.apply name args := by
  rw [TypeNames.apply, alike.generic?, TypeNames.apply]

theorem template : left.template name = right.template name := by
  rw [TypeNames.template, alike.genericDecl?, alike.generic?, TypeNames.template]

theorem shape (type : Ty) : left.shape type = right.shape type := by
  have kind (index : Nat) : left.declKind? index = right.declKind? index :=
    alike.decl? (·.kind) index
  cases type with
  | declared index => rw [TypeNames.shape, kind, TypeNames.shape]
  | applied name args =>
    rw [TypeNames.shape, alike.template, TypeNames.shape]
    split <;> first | rfl | rw [kind]
  | _ => rfl

theorem isValueType (type : Ty) : left.isValueType type = right.isValueType type := by
  cases type <;> first | rfl | simp only [TypeNames.isValueType, alike.shape]

theorem nullableOf (type : Ty) : left.nullableOf type = right.nullableOf type := by
  rw [TypeNames.nullableOf, alike.isValueType, alike.shape, TypeNames.nullableOf]

theorem bindName : left.bindName name = right.bindName name := by
  rw [TypeNames.bindName, alike.lookup?, alike.typeParam?, alike.generic?, TypeNames.bindName]

omit alike

mutual

theorem bind (alike : left.Alike right) : (type : TypeSyntax) → left.bind type = right.bind type
  | .absent | .var | .dynamic | .void => rfl
  | .named name [] => alike.bindName name
  | .named name (first :: rest) => by
    rw [TypeNames.bind, alike.bind first, alike.bindAll rest, alike.apply, TypeNames.bind]
  | .array element => congrArg Ty.array (alike.bind element)
  | .nullable inner => by
    rw [TypeNames.bind, alike.bind inner, alike.nullableOf, TypeNames.bind]
  | .tuple elements => congrArg Ty.tuple (alike.bindAll elements)

theorem bindAll (alike : left.Alike right) :
    (types : List TypeSyntax) → left.bindAll types = right.bindAll types
  | [] => rfl
  | type :: rest => by
    rw [TypeNames.bindAll, alike.bind type, alike.bindAll rest, TypeNames.bindAll]

end

theorem appliedForm (alike : left.Alike right) (name : String) (args : List Ty) :
    left.appliedForm name args = right.appliedForm name args := by
  have declared (index : Nat) : left.decls[index]?.map (·.name) = right.decls[index]?.map (·.name) :=
    alike.decl? (·.name) index
  rw [TypeNames.appliedForm, alike.template, TypeNames.appliedForm]
  split <;> first | rfl | rw [declared]

mutual

theorem substitute (alike : left.Alike right) (map : List (String × Ty)) :
    (type : Ty) → left.substitute map type = right.substitute map type
  | .param _ | .unknown | .prim _ | .library _ | .declared _ => rfl
  | .array element => congrArg Ty.array (alike.substitute map element)
  | .nullable inner => by
    rw [TypeNames.substitute, alike.substitute map inner, alike.nullableOf, TypeNames.substitute]
  | .tuple elements => congrArg Ty.tuple (alike.substituteAll map elements)
  | .applied name args => by
    simp only [TypeNames.substitute, alike.substituteAll map args, alike.appliedForm, alike.apply]

theorem substituteAll (alike : left.Alike right) (map : List (String × Ty)) :
    (types : List Ty) → left.substituteAll map types = right.substituteAll map types
  | [] => rfl
  | type :: rest => by
    rw [TypeNames.substituteAll, alike.substitute map type, alike.substituteAll map rest,
      TypeNames.substituteAll]

end

end TypeNames.Alike

/-! ## Definitions -/

namespace TypeNames

variable {left right : TypeNames} (param : Param)

theorem Alike.primaryOf (alike : left.Alike right) (decl : TypeDecl) :
    left.primaryOf decl = right.primaryOf decl := by
  rw [TypeNames.primaryOf, funext fun param : Param => congrArg (Prod.mk param.name)
    (alike.bind param.type), TypeNames.primaryOf]

theorem Alike.define (alike : left.Alike right) (decl : TypeDecl) :
    left.define decl = right.define decl := by
  have bind : left.bind = right.bind := funext alike.bind
  have shape : left.shape = right.shape := funext alike.shape
  have bases : left.basesOf decl = right.basesOf decl := by
    rw [basesOf, bind, shape, basesOf]
  have primary : Outline.ofPrimary left decl = Outline.ofPrimary right decl := by
    rw [Outline.ofPrimary, alike.primaryOf, Outline.ofPrimary]
  have add : Outline.add left decl = Outline.add right decl := by
    funext outline member
    rw [Outline.add, bind, Outline.add]
  rw [TypeNames.define, bases, primary, add, TypeNames.define]

@[simp] theorem Param.signature_type : param.signature.type = param.type := rfl

@[simp] theorem Param.signature_name : param.signature.name = param.name := rfl

@[simp] theorem Param.signature_passing : param.signature.passing = param.passing :=
  rfl

theorem componentMember_signature (declaredSoFar : List MemberInfo) (decl : TypeDecl)
    (param : String) :
    componentMember declaredSoFar decl.signature param = componentMember declaredSoFar decl param := by
  unfold componentMember
  dsimp only [TypeDecl.signature]
  rw [filterMap_map]
  congr 4
  funext member
  obtain ⟨kind, modifiers, span⟩ := member
  cases kind <;> rfl

theorem isDeconstructor_signature {name : String} :
    isDeconstructor name (params.map Param.signature) = isDeconstructor name params := by
  simp [isDeconstructor, Function.comp_def]

theorem Outline.add_signature {names : TypeNames} {outline : Outline} {member : Member} :
    outline.add names decl.signature member.signature = outline.add names decl member := by
  obtain ⟨kind, modifiers, span⟩ := member
  cases kind with
  | method name typeParams params ret body =>
    have component := funext (componentMember_signature outline.members decl)
    simp [Outline.add, Member.signature, MemberKind.signature, Member.isStatic, Member.has,
      isDeconstructor_signature, component, Function.comp_def]
  | _ => rfl

theorem define_signature (names : TypeNames) :
    names.define decl.signature = names.define decl := by
  have primary : names.primaryOf decl.signature = names.primaryOf decl := by
    obtain ⟨name, kind, modifiers, typeParams, primary, bases, baseArgs, members, span⟩ := decl
    cases primary <;> simp [primaryOf, TypeDecl.signature, Function.comp_def]
  have opening : Outline.ofPrimary names decl.signature = Outline.ofPrimary names decl := by
    unfold Outline.ofPrimary
    rw [primary]
    rfl
  have outline (members : List Member) (start : Outline) :
      (members.map Member.signature).foldl (Outline.add names decl.signature) start =
        members.foldl (Outline.add names decl) start := by
    induction members generalizing start with
    | nil => rfl
    | cons member rest ih =>
      rw [map_cons, foldl_cons, foldl_cons, Outline.add_signature, ih]
  have members : decl.signature.members.foldl (Outline.add names decl.signature)
      (Outline.ofPrimary names decl.signature) =
        decl.members.foldl (Outline.add names decl) (Outline.ofPrimary names decl) := by
    rw [opening]
    exact outline decl.members _
  unfold TypeNames.define
  rw [members]
  rfl

end TypeNames

theorem TypeDecl.allTypeParams_signature (decl : TypeDecl) :
    decl.signature.allTypeParams = decl.allTypeParams := by
  unfold allTypeParams
  dsimp only [TypeDecl.signature]
  rw [flatMap_map]
  congr 2
  funext member
  obtain ⟨kind, modifiers, span⟩ := member
  cases kind <;> rfl

/-! ## Universes -/

structure Universe.Alike (left right : Universe) : Prop where
  names : left.names.Alike right.names
  definitions : left.definitions = right.definitions

namespace Universe.Alike

variable {left right : Universe} (alike : left.Alike right)

include alike

theorem typeParamsOf (index : Nat) : left.typeParamsOf index = right.typeParamsOf index :=
  congrArg (·.getD []) (alike.names.decl? (·.typeParams) index)

theorem instantiate (data : TypeData) (params : List String) (args : List Ty) :
    left.instantiate data params args = right.instantiate data params args := by
  have substitute := funext (alike.names.substitute (instantiation params args))
  rw [Universe.instantiate, substitute, Universe.instantiate]

theorem data (type : Ty) : left.data type = right.data type := by
  cases type with
  | declared index => exact congrArg (fun defined => defined[index]?.getD .unknown) alike.definitions
  | applied name args =>
    have header (index : Nat) : left.names.decls[index]?.map (fun decl => { decl.header with args }) =
        right.names.decls[index]?.map fun decl => { decl.header with args } :=
      alike.names.decl? (fun decl => { decl.header with args }) index
    simp only [Universe.data, alike.names.template, alike.definitions, alike.instantiate,
      alike.typeParamsOf]
    split
    · rfl
    · rfl
    · next index _ =>
        have same := header index
        cases isLeft : left.names.decls[index]? <;> cases isRight : right.names.decls[index]? <;>
          simp_all
    · rfl
  | _ => rfl

theorem shape (type : Ty) : left.shape type = right.shape type := alike.names.shape type

theorem chain (stopEarly : Bool) (limit : Nat) (type : Ty) :
    left.chain stopEarly limit type = right.chain stopEarly limit type := by
  induction limit generalizing type with
  | zero => rfl
  | succ limit ih =>
    simp only [Universe.chain, alike.shape, alike.data, ih]

theorem candidates (type : Ty) (name : String) :
    left.candidates type name = right.candidates type name := by
  have own (type : Ty) : left.ownMembers name type = right.ownMembers name type := by
    rw [ownMembers, alike.data, ownMembers]
  simp only [Universe.candidates, alike.chain, own, alike.shape]

end Universe.Alike

theorem Universe.ofUnit_alike {unit other : CompilationUnit} {vocabulary following : Vocabulary}
    (decls : unit.types.map TypeDecl.signature = other.types.map TypeDecl.signature)
    (typeParams : ∀ name, name ∈ (unit.typeNames vocabulary).typeParams ↔
      name ∈ (other.typeNames following).typeParams) :
    (Universe.ofUnit unit vocabulary).Alike (.ofUnit other following) := by
  have names : (unit.typeNames vocabulary).Alike (other.typeNames following) := ⟨decls, typeParams⟩
  refine ⟨names, congrArg List.toArray ?_⟩
  have bySignature (unit : CompilationUnit) (names : TypeNames) :
      unit.types.map names.define = (unit.types.map TypeDecl.signature).map names.define := by
    rw [map_map]
    exact map_congr_left fun decl _ => names.define_signature.symm
  change unit.types.map (unit.typeNames vocabulary).define =
    other.types.map (other.typeNames following).define
  rw [bySignature, bySignature, decls, funext names.define]

/-! ## Rebuilds keep signatures -/

section Rebuild

variable {m : Type → Type} [Monad m] (outcomes : Outcomes m) (rules : Rules m)

theorem rebuildParams_signature : outcomes.holds (rebuildParams rules site params) fun results =>
      results.map Param.signature = params.map Param.signature := by
  induction params with
  | nil => exact outcomes.pure rfl
  | cons param rest ih =>
    obtain ⟨type, name, passing, default⟩ := param
    exact outcomes.after _ fun _ => outcomes.map ih fun _ same => congrArg (_ :: ·) same

theorem MemberKind.rebuild_signature (kind : MemberKind) :
    outcomes.holds (kind.rebuild rules site) fun result => result.signature = kind.signature := by
  cases kind with
  | field type name init => exact outcomes.after _ fun _ => outcomes.pure rfl
  | property type name getter setter init =>
    exact outcomes.after _ fun _ => outcomes.after _ fun _ => outcomes.after _ fun _ =>
      outcomes.pure rfl
  | method name typeParams params ret body =>
    refine outcomes.bind (rebuildParams_signature outcomes rules) fun results same => ?_
    exact outcomes.after _ fun _ => outcomes.pure (by simp only [signature, same])
  | operator op params ret body =>
    refine outcomes.bind (rebuildParams_signature outcomes rules) fun results same => ?_
    exact outcomes.after _ fun _ => outcomes.pure (by simp only [signature, same])
  | ctor params initializer body =>
    cases initializer with
    | none =>
      refine outcomes.bind (rebuildParams_signature outcomes rules) fun _ same => ?_
      exact outcomes.after _ fun _ => outcomes.pure (by simp only [signature, same])
    | some initializer =>
      refine outcomes.bind (rebuildParams_signature outcomes rules) fun _ same => ?_
      exact outcomes.after _ fun _ => outcomes.after _ fun _ =>
        outcomes.pure (by simp only [signature, same])

theorem rebuildMembers_signature (type : Nat) : (index : Nat) → (members : List Member) →
      outcomes.holds (rebuildMembers rules type index members) fun results =>
        results.map Member.signature = members.map Member.signature
  | _, [] => outcomes.pure rfl
  | index, member :: rest =>
    outcomes.map₂ (member.kind.rebuild_signature outcomes rules)
      (rebuildMembers_signature type (index + 1) rest) fun kind _ same others =>
        by simp only [map_cons, Member.signature, same, others]

theorem rebuildTypes_signature [LawfulMonad m] : (index : Nat) → (types : List TypeDecl) →
      outcomes.holds (rebuildTypes rules index types) fun results =>
        results.map TypeDecl.signature = types.map TypeDecl.signature
  | _, [] => outcomes.pure rfl
  | index, decl :: rest => by
    have optional : outcomes.holds
        (rebuildOption (rebuildParams rules ⟨.header index, []⟩) decl.primary) fun result =>
          result.map (List.map Param.signature) = decl.primary.map (List.map Param.signature) := by
      cases decl.primary with
      | none => exact outcomes.pure rfl
      | some params =>
        rw [rebuildOption, map_eq_pure_bind]
        exact outcomes.map (rebuildParams_signature outcomes rules) fun _ same =>
          congrArg some same
    have rebuilt : outcomes.holds (decl.rebuild rules index) (·.signature = decl.signature) := by
      rw [TypeDecl.rebuild_eq]
      refine outcomes.bind optional fun primary samePrimary => outcomes.after _ fun _ => ?_
      refine outcomes.map (rebuildMembers_signature outcomes rules index 0 decl.members)
        fun members same => ?_
      simp only [TypeDecl.signature, samePrimary, same]
    exact outcomes.map₂ rebuilt (rebuildTypes_signature (index + 1) rest) fun _ _ same others =>
      by rw [map_cons, map_cons, same, others]

end Rebuild

end Unsugar
