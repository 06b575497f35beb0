import Unsugar.Proofs.Records.HashRuns
import Unsugar.Proofs.Records.Verdicts

open List

namespace Unsugar

open Pass

/-! # Equality of records

Instances are equal if their components are.  The members that a record gets agree
with that: `Equals` and `==` decide it, `!=` decides the opposite, and equal instances
have one hash, or fail to have one in the same way.
-/

/-! ## Equal values -/

variable {address levels : Nat} {holds : Prop} {head : Int}

section Equality

variable (records : List TypeDecl) (objects : Array Object)

inductive EqualValues : Value → Value → Prop where
  | basic {left right : Value} (leftBasic : left.isBasic = true) (rightBasic : right.isBasic = true)
      (same : left.builtinEq right = true) : EqualValues left right
  | same (address : Nat) : EqualValues (.object address) (.object address)
  | instances {first second : Nat} {left right : Object} {decl : TypeDecl}
      (leftPresent : objects[first]? = some left) (rightPresent : objects[second]? = some right)
      (sameClass : right.className = left.className)
      (isRecord : record? records left.className = some decl)
      (components : ∀ param ∈ decl.components, ∀ mine others,
        left.fields.lookup param.name = some mine → right.fields.lookup param.name = some others →
          EqualValues mine others) :
      EqualValues (.object first) (.object second)

/-- The components of two instances are pairwise equal. -/
def EqualComponents (params : List Param) (left right : Object) : Prop :=
  ∀ param ∈ params, ∀ mine others, left.fields.lookup param.name = some mine →
    right.fields.lookup param.name = some others → EqualValues records objects mine others

end Equality

variable {step : Param → Value → Except Failure Int} {hash : Object → Except Failure Int}
  {params : List Param}

section Deciding

variable {program : Program} {types : Universe} {records : List TypeDecl} {objects : Array Object}
  {among : Set Nat} {room : Nat} {first second : Nat} {left right : Object} {decl : TypeDecl}
  {value : Value}

theorem sameValue_basic {equals : Object → Comparand → Except Failure Bool}
    (isBasic : value.isBasic = true) {other : Value} :
    sameValue records objects equals value other = .ok (value.builtinEq other) := by
  have isClear : sameValue records objects equals value other =
      unlessClear value other (.ok (value.builtinEq other)) := by
    cases value with
    | object _ | tuple _ => cases isBasic
    | _ => rfl
  rw [isClear]
  unfold unlessClear
  cases value with
  | null => cases other <;> rfl
  | int _ | bool _ | char _ => cases other <;> rfl
  | str text =>
    cases other with
    | str other =>
      by_cases same : text = other
      · subst same
        simp [Value.sameReference, Value.builtinEq, Value.number?, Value.sameSimple]
      · simp [Value.sameReference, Value.builtinEq, Value.number?, Value.sameSimple, same, Value.isNull]
    | _ => rfl
  | _ => cases isBasic

theorem comparand_basic (isBasic : value.isBasic = true) :
    value.comparand objects = .plain value := by
  cases value with
  | object _ => cases isBasic
  | _ => rfl

theorem builtinEq_object (isBasic : value.isBasic = true) :
    value.builtinEq (.object address) = false := by
  cases value with
  | null | int _ | bool _ | char _ | str _ => rfl
  | _ => cases isBasic

theorem equals_instances (hasInstances : program.HasInstances types records objects among)
    (rightIn : second ∈ among) (rightPresent : objects[second]? = some right)
    (isRecord : record? records left.className = some decl) :
    equals program records objects (room + 1) left (.held right) =
      if right.className = left.className then
        sameComponents (sameValue records objects (equals program records objects room)) (.held left)
          (.held right) decl.components
      else .ok false := by
  obtain ⟨same, other, presentSame, isOther, -⟩ := hasInstances.instances second rightIn
  obtain rfl : right = same := Option.some.inj (rightPresent.symm.trans presentSame)
  obtain ⟨isIn, isName⟩ := record?_eq_some isRecord
  obtain ⟨otherIn, otherName⟩ := record?_eq_some isOther
  have derives := hasInstances.derives_iff otherIn isIn
  rw [otherName, isName] at derives
  split
  · rename_i sameClass
    exact equals_derived isRecord (derives.2 sameClass)
  · rename_i notSame
    exact equals_apart isRecord (Bool.eq_false_iff.2 fun isTrue => notSame (derives.1 isTrue))

theorem sameComponents_isVerdict {same : Value → Value → Except Failure Bool}
    (compared : ∀ param ∈ params, ∃ mine others, left.fields.lookup param.name = some mine ∧
      right.fields.lookup param.name = some others ∧
      IsVerdict (same mine others) (EqualValues records objects mine others)) :
    IsVerdict (sameComponents same (.held left) (.held right) params)
      (EqualComponents records objects params left right) := by
  induction params with
  | nil => exact .of_ok (by simp [EqualComponents])
  | cons param rest ih =>
    obtain ⟨mine, others, isMine, isOther, isVerdict⟩ := compared param mem_cons_self
    have step : sameComponents same (.held left) (.held right) (param :: rest) =
        (same mine others >>= fun holds =>
          if holds then sameComponents same (.held left) (.held right) rest else .ok false) := by
      rw [sameComponents]
      simp only [Comparand.component, isMine, isOther]
      rfl
    have split : EqualComponents records objects (param :: rest) left right ↔
        EqualValues records objects mine others ∧ EqualComponents records objects rest left right := by
      unfold EqualComponents
      rw [forall_mem_cons]
      refine and_congr_left' ⟨fun all => all mine others isMine isOther, ?_⟩
      intro equal mine' others' isMine' isOther'
      obtain rfl : mine = mine' := Option.some.inj (isMine.symm.trans isMine')
      obtain rfl : others = others' := Option.some.inj (isOther.symm.trans isOther')
      exact equal
    have restVerdict := ih fun other isIn => compared other (.tail _ isIn)
    rw [step, split]
    exact isVerdict.and restVerdict

def EqualsDecides (program : Program) (records : List TypeDecl) (objects : Array Object)
    (among : Set Nat) (room : Nat) : Prop :=
  ∀ (first second : Nat) (left right : Object) (decl : TypeDecl), first ∈ among → second ∈ among →
    objects[first]? = some left → objects[second]? = some right →
    record? records left.className = some decl →
    IsVerdict (equals program records objects room left (.held right))
      (right.className = left.className ∧ EqualComponents records objects decl.components left right)

theorem sameValue_isVerdict (hasInstances : program.HasInstances types records objects among)
    (decides : EqualsDecides program records objects among room) {mine others : Value}
    (mineComponent : mine.IsComponent among) (othersComponent : others.IsComponent among) :
    IsVerdict (sameValue records objects (equals program records objects room) mine others)
      (EqualValues records objects mine others) := by
  rcases mineComponent with isBasic | ⟨first, firstIn, rfl⟩
  · rw [sameValue_basic isBasic]
    rcases othersComponent with otherBasic | ⟨second, -, rfl⟩
    · refine .of_ok ⟨.basic isBasic otherBasic, fun equal => ?_⟩
      cases equal with
      | basic _ _ same => exact same
      | same _ | instances => cases isBasic
    · rw [builtinEq_object isBasic]
      refine .no_false fun equal => ?_
      cases equal with
      | basic _ otherBasic => cases otherBasic
      | same _ | instances => cases isBasic
  · obtain ⟨left, decl, leftPresent, isRecord, -⟩ := hasInstances.instances first firstIn
    rw [sameValue, getD_of_present leftPresent, isRecord]
    unfold unlessClear
    rcases othersComponent with otherBasic | ⟨second, secondIn, rfl⟩
    · have notEqual : ¬EqualValues records objects (.object first) others := by
        intro equal
        cases equal with
        | basic isBasic => cases isBasic
        | same _ | instances => cases otherBasic
      have notSame : (Value.object first).sameReference others = false := by
        cases others with
        | object _ => cases otherBasic
        | _ => rfl
      rw [notSame]
      cases isNull : others.isNull with
      | true => exact .no_false notEqual
      | false =>
        change IsVerdict (equals program records objects room left (others.comparand objects)) _
        rw [comparand_basic otherBasic]
        cases room with
        | zero => exact .inl rfl
        | succ room =>
          rw [equals_plain isRecord isNull]
          exact .no_false notEqual
    · by_cases sameObject : first = second
      · subst sameObject
        have isSame : (Value.object first).sameReference (.object first) = true := by
          simp [Value.sameReference]
        rw [if_pos isSame]
        exact .of_ok (by simp [EqualValues.same])
      · obtain ⟨right, other, rightPresent, isOther, -⟩ := hasInstances.instances second secondIn
        have notSame : (Value.object first).sameReference (.object second) = false := by
          simp [Value.sameReference, sameObject]
        rw [notSame]
        change IsVerdict (equals program records objects room left
          ((Value.object second).comparand objects)) _
        rw [Value.comparand_object rightPresent]
        refine (decides first second left right decl firstIn secondIn leftPresent rightPresent isRecord).congr
          ⟨fun equal => .instances leftPresent rightPresent equal.1 isRecord equal.2, fun equal => ?_⟩
        cases equal with
        | basic isBasic => cases isBasic
        | same _ => exact absurd rfl sameObject
        | instances presentLeft presentRight sameClass isSame components =>
          obtain rfl : left = _ := Option.some.inj (leftPresent.symm.trans presentLeft)
          obtain rfl : right = _ := Option.some.inj (rightPresent.symm.trans presentRight)
          obtain rfl : decl = _ := Option.some.inj (isRecord.symm.trans isSame)
          exact ⟨sameClass, components⟩

theorem equalsDecides (hasInstances : program.HasInstances types records objects among) (room : Nat) :
    EqualsDecides program records objects among room := by
  induction room with
  | zero => exact fun _ _ _ _ _ _ _ _ _ _ => .inl rfl
  | succ room ih =>
    intro first second left right decl firstIn secondIn leftPresent rightPresent isRecord
    rw [equals_instances hasInstances secondIn rightPresent isRecord]
    by_cases sameClass : right.className = left.className
    · rw [if_pos sameClass]
      have leftStores := hasInstances.stores firstIn leftPresent isRecord
      have rightStores := hasInstances.stores secondIn rightPresent (by rw [sameClass]; exact isRecord)
      have compared : IsVerdict (sameComponents
          (sameValue records objects (equals program records objects room)) (.held left) (.held right)
          decl.components) (EqualComponents records objects decl.components left right) := by
        refine sameComponents_isVerdict fun param isParam => ?_
        obtain ⟨mine, isMine, mineComponent⟩ := leftStores param isParam
        obtain ⟨others, isOther, othersComponent⟩ := rightStores param isParam
        exact ⟨mine, others, isMine, isOther,
          sameValue_isVerdict hasInstances ih mineComponent othersComponent⟩
      exact compared.congr (by simp [sameClass])
    · rw [if_neg sameClass]
      exact .no_false fun equal => sameClass equal.1

end Deciding

/-! ## Equal instances have one hash -/

section Hashes

variable {program : Program} {types : Universe} {records : List TypeDecl} {objects : Array Object}
  {among : Set Nat} {room : Nat} {left right : Object} {mine others : Value}

theorem basic_alike (mineBasic : mine.isBasic = true) (othersBasic : others.isBasic = true)
    (same : mine.builtinEq others = true) :
    mine.isNull = others.isNull ∧ mine.hashCode = others.hashCode ∧
      mine.builtinEq (.bool false) = others.builtinEq (.bool false) := by
  cases mine <;> cases others <;>
    simp_all [Value.isBasic, Value.builtinEq, Value.number?, Value.sameSimple, Value.sameNumber,
      Value.isNull, Value.hashCode]

theorem equals_plain_eq {value : Value} (isLeft : (record? records left.className).isSome)
    (isRight : (record? records right.className).isSome) (notNull : value.isNull = false) :
    equals program records objects room left (.plain value) =
      equals program records objects room right (.plain value) := by
  obtain ⟨decl, isDecl⟩ := Option.isSome_iff_exists.1 isLeft
  obtain ⟨other, isOther⟩ := Option.isSome_iff_exists.1 isRight
  cases room with
  | zero => rfl
  | succ room => rw [equals_plain isDecl notNull, equals_plain isOther notNull]

theorem sameValue_false_eq (equal : EqualValues records objects mine others) :
    sameValue records objects (equals program records objects room) mine (.bool false) =
      sameValue records objects (equals program records objects room) others (.bool false) := by
  cases equal with
  | basic mineBasic othersBasic same =>
    rw [sameValue_basic mineBasic, sameValue_basic othersBasic,
      (basic_alike mineBasic othersBasic same).2.2]
  | same _ => rfl
  | @instances _ _ left right _ leftPresent rightPresent sameClass isRecord _ =>
    have isLeft : (record? records left.className).isSome := by rw [isRecord]; rfl
    have isRight : (record? records right.className).isSome := by rw [sameClass]; exact isLeft
    rw [sameValue, sameValue, getD_of_present leftPresent, getD_of_present rightPresent, if_pos isLeft,
      if_pos isRight]
    exact equals_plain_eq isLeft isRight rfl

theorem equals_null_eq {decl : TypeDecl} (sameClass : right.className = left.className)
    (isRecord : record? records left.className = some decl)
    (alike : ∀ param ∈ decl.components, ∃ mine others, left.fields.lookup param.name = some mine ∧
      right.fields.lookup param.name = some others ∧ EqualValues records objects mine others) :
    equals program records objects room left (.plain .null) =
      equals program records objects room right (.plain .null) := by
  cases room with
  | zero => rfl
  | succ room =>
    rw [equals, equals, sameClass, isRecord]
    dsimp only
    have compared (params : List Param) (isIn : ∀ param ∈ params, param ∈ decl.components) :
        sameComponents (sameValue records objects (equals program records objects room)) (.held left)
          (.plain .null) params =
        sameComponents (sameValue records objects (equals program records objects room)) (.held right)
          (.plain .null) params := by
      induction params with
      | nil => rfl
      | cons param rest ih =>
        obtain ⟨mine, others, isMine, isOther, equal⟩ := alike param (isIn param mem_cons_self)
        have sameRest := ih fun other isOther => isIn other (.tail _ isOther)
        rw [sameComponents, sameComponents, sameRest]
        simp only [Comparand.component, isMine, isOther, Option.getD_some]
        split
        · change (sameValue _ _ _ mine (.bool false) >>= _) = (sameValue _ _ _ others (.bool false) >>= _)
          rw [sameValue_false_eq equal]
        · rfl
    rw [compared decl.components fun _ isParam => isParam]

theorem valueHash_basic (isBasic : mine.isBasic = true) : valueHash objects hash mine =
      if mine.isNull then .error .nullReference else .ok mine.hashCode := by
  cases mine with
  | null | int _ | bool _ | char _ | str _ => rfl
  | _ => cases isBasic

theorem nullByOperator_basic (isBasic : mine.isBasic = true) :
    nullByOperator program records objects room mine = .ok mine.isNull := by
  cases mine with
  | null | int _ | bool _ | char _ | str _ => rfl
  | _ => cases isBasic

theorem mixed_eq
    (alike : ∀ param ∈ params, ∃ mine others, left.fields.lookup param.name = some mine ∧
      right.fields.lookup param.name = some others ∧ step param mine = step param others)
    (hash : Int) : mixed step left hash params = mixed step right hash params := by
  induction params generalizing hash with
  | nil => rfl
  | cons param rest ih =>
    obtain ⟨mine, others, isMine, isOther, same⟩ := alike param mem_cons_self
    have sameRest := ih fun other isIn => alike other (.tail _ isIn)
    rw [mixed, mixed]
    simp only [Comparand.component, isMine, isOther, Option.getD_some, sameRest]
    change (step param mine >>= _) = (step param others >>= _)
    rw [same]

theorem recordHash_eq (hasInstances : program.HasInstances types records objects among)
    (equal : EqualValues records objects mine others) (mineComponent : mine.IsComponent among)
    (othersComponent : others.IsComponent among) (room : Nat) :
    valueHash objects (recordHash program types records objects room) mine =
        valueHash objects (recordHash program types records objects room) others ∧
      nullByOperator program records objects room mine =
        nullByOperator program records objects room others := by
  induction equal generalizing room with
  | @basic mine others mineBasic othersBasic same =>
    obtain ⟨sameNull, sameHash, -⟩ := basic_alike mineBasic othersBasic same
    rw [valueHash_basic mineBasic, valueHash_basic othersBasic, nullByOperator_basic mineBasic,
      nullByOperator_basic othersBasic, sameNull, sameHash]
    exact ⟨rfl, rfl⟩
  | same _ => exact ⟨rfl, rfl⟩
  | @instances first second left right decl leftPresent rightPresent sameClass isRecord components
      ih =>
      have firstIn : first ∈ among := by
        rcases mineComponent with isBasic | ⟨_, isIn, same⟩
        · cases isBasic
        · cases same
          exact isIn
      have secondIn : second ∈ among := by
        rcases othersComponent with isBasic | ⟨_, isIn, same⟩
        · cases isBasic
        · cases same
          exact isIn
      have leftStores := hasInstances.stores firstIn leftPresent isRecord
      have rightStores := hasInstances.stores secondIn rightPresent (by rw [sameClass]; exact isRecord)
      have hashedAlike : recordHash program types records objects room left =
          recordHash program types records objects room right := by
        cases room with
        | zero => rfl
        | succ room =>
          rw [recordHash, recordHash, sameClass, isRecord]
          refine mixed_eq (fun param isParam => ?_) 17
          obtain ⟨mine, isMine, mineComponent⟩ := leftStores param isParam
          obtain ⟨others, isOther, othersComponent⟩ := rightStores param isParam
          have same := ih param isParam mine others isMine isOther mineComponent
            othersComponent room
          refine ⟨mine, others, isMine, isOther, ?_⟩
          unfold componentHash
          rw [same.1, same.2]
      have alike (room : Nat) : equals program records objects room left (.plain .null) =
          equals program records objects room right (.plain .null) := by
        refine equals_null_eq sameClass isRecord fun param isParam => ?_
        obtain ⟨mine, isMine, -⟩ := leftStores param isParam
        obtain ⟨others, isOther, -⟩ := rightStores param isParam
        exact ⟨mine, others, isMine, isOther, components param isParam mine others isMine isOther⟩
      refine ⟨?_, ?_⟩
      · rw [valueHash, valueHash, getD_of_present leftPresent, getD_of_present rightPresent]
        exact hashedAlike
      · rw [nullByOperator, nullByOperator, getD_of_present leftPresent, getD_of_present rightPresent]
        cases room with
        | zero => rfl
        | succ room => exact alike room

/-- Whether a component can be hashed: `null` where the declared type is no plain value
    type, and no record struct there, since its `==` reads the components of `null`. -/
def IsHashable (types : Universe) (records : List TypeDecl) (objects : Array Object) (param : Param)
    (value : Value) : Prop :=
  if types.isPlainValue (types.names.bind param.type) then value.isNull = false
  else ∀ address object decl, value = .object address → objects[address]? = some object →
    record? records object.className = some decl → decl.recordShape.isStruct = false

def AreHashable (types : Universe) (records : List TypeDecl) (objects : Array Object)
    (among : Set Nat) : Prop :=
  ∀ address ∈ among, ∀ object decl, objects[address]? = some object →
    record? records object.className = some decl → ∀ param ∈ decl.components, ∀ value,
    object.fields.lookup param.name = some value → IsHashable types records objects param value

theorem mixed_ok
    (hashed : ∀ param ∈ params, ∃ value more, left.fields.lookup param.name = some value ∧
      step param value = .ok more)
    (hash : Int) : ∃ result, mixed step left hash params = .ok result := by
  induction params generalizing hash with
  | nil => exact ⟨hash, rfl⟩
  | cons param rest ih =>
    obtain ⟨value, more, isStored, isMore⟩ := hashed param mem_cons_self
    obtain ⟨result, isResult⟩ := ih (fun other isIn => hashed other (.tail _ isIn))
      (wrap32 (wrap32 (hash * 31) + more))
    refine ⟨result, ?_⟩
    rw [mixed]
    simp only [Comparand.component, isStored, Option.getD_some]
    change (step param value >>= _) = _
    rw [isMore]
    exact isResult

theorem equals_null_class {decl : TypeDecl} (isRecord : record? records left.className = some decl)
    (isClass : decl.recordShape.isStruct = false) :
    equals program records objects (room + 1) left (.plain .null) = .ok false := by
  rw [equals, isRecord]
  dsimp only
  rw [isClass]
  rfl

theorem componentHash_ok (hasInstances : program.HasInstances types records objects among)
    {param : Param} {value : Value} (isComponent : value.IsComponent among)
    (isHashable : IsHashable types records objects param value)
    (hashed : ∀ address ∈ among, value = .object address →
      ∃ more, valueHash objects hash value = .ok more) :
    ∃ more, componentHash program types records objects (room + 2) hash param value = .ok more := by
  unfold IsHashable at isHashable
  unfold componentHash
  rcases isComponent with isBasic | ⟨inner, innerIn, rfl⟩
  · rw [valueHash_basic isBasic, nullByOperator_basic isBasic]
    split at isHashable
    · rename_i isPlain
      rw [if_pos isPlain, isHashable]
      exact ⟨value.hashCode, rfl⟩
    · rename_i isPlain
      rw [if_neg isPlain]
      cases value.isNull with
      | true => exact ⟨0, rfl⟩
      | false => exact ⟨value.hashCode, rfl⟩
  · obtain ⟨object, decl, present, isRecord, -⟩ := hasInstances.instances inner innerIn
    obtain ⟨more, isMore⟩ := hashed inner innerIn rfl
    refine ⟨more, ?_⟩
    split at isHashable
    · rename_i isPlain
      rw [if_pos isPlain]
      exact isMore
    · rename_i isPlain
      have notNull : nullByOperator program records objects (room + 2) (.object inner) = .ok false := by
        rw [nullByOperator, getD_of_present present]
        exact equals_null_class isRecord (isHashable inner object decl rfl present isRecord)
      rw [if_neg isPlain, notNull]
      exact isMore

theorem recordHash_ok (hasInstances : program.HasInstances types records objects among)
    (hashable : AreHashable types records objects among) (isIn : address ∈ among)
    (nests : Nests records objects levels (.object address)) (present : objects[address]? = some left)
    (enough : levels + 2 ≤ room) :
    ∃ result, recordHash program types records objects room left = .ok result := by
  induction levels generalizing address left room with
  | zero =>
    obtain ⟨same, decl, presentSame, isRecord, -⟩ := hasInstances.instances address isIn
    obtain ⟨fewer, isFewer, -⟩ := nests.components presentSame isRecord
    cases isFewer
  | succ levels ih =>
    obtain ⟨same, decl, presentSame, isRecord, -⟩ := hasInstances.instances address isIn
    obtain rfl : left = same := Option.some.inj (present.symm.trans presentSame)
    obtain ⟨fewer, isFewer, components⟩ := nests.components present isRecord
    obtain rfl := Nat.succ.inj isFewer
    obtain ⟨room, rfl⟩ : ∃ rest, room = rest + 3 := ⟨room - 3, by omega⟩
    rw [recordHash, isRecord]
    refine mixed_ok (fun param isParam => ?_) 17
    obtain ⟨value, isStored, isComponent⟩ := hasInstances.stores isIn present isRecord param isParam
    have hashed : ∀ inner ∈ among, value = .object inner → ∃ more,
        valueHash objects (recordHash program types records objects (room + 2)) value = .ok more := by
      rintro inner innerIn rfl
      obtain ⟨object, _, innerPresent, -⟩ := hasInstances.instances inner innerIn
      rw [valueHash, getD_of_present innerPresent]
      exact ih innerIn (components param isParam _ isStored) innerPresent (by omega)
    obtain ⟨more, isMore⟩ := componentHash_ok hasInstances isComponent
      (hashable address isIn left _ present isRecord param isParam value isStored) hashed
    exact ⟨value, more, isStored, isMore⟩

end Hashes

/-! ## Comparing and hashing operands -/

section Operands

variable {program : Program} {types : Universe} {records : List TypeDecl} {among : Set Nat}
  {machine : Machine} {scope : Nat} {frame : Frame} {first second : Nat} {left right : Object}
  {decl : TypeDecl} {leftNode rightNode : Expr}

theorem IsVerdict.equalByOperator {objects : Array Object} {right : Comparand}
    (isVerdict : ∀ room, IsVerdict (equals program records objects room left right) holds)
    (room : Nat) : IsVerdict (equalByOperator program records objects room left right) holds := by
  cases room with
  | zero => exact .inl rfl
  | succ room => exact isVerdict room

theorem IsVerdict.differByOperator {objects : Array Object} {right : Comparand}
    (isVerdict : ∀ room, IsVerdict (equals program records objects room left right) holds)
    (room : Nat) : IsVerdict (differByOperator program records objects room left right) ¬holds := by
  cases room with
  | zero => exact .inl rfl
  | succ room =>
    rw [Unsugar.differByOperator]
    rcases IsVerdict.equalByOperator isVerdict room with tooDeep | ⟨answer, isAnswer, iff⟩
    · rw [tooDeep]
      exact .inl rfl
    · rw [isAnswer]
      exact .of_ok (by cases answer <;> simp_all)

/-- The members that a record gets compare by components: for two instances of one
    record, `Equals` and `==` decide whether the components are pairwise equal and `!=`
    decides the opposite, no instance of a record class equals `null`, and equal
    instances have one hash, or none for the same reason.  They have one if no component
    is compared with `null` by an operator that reads components of `null`. -/
theorem record_equality (hasInstances : program.HasInstances types records machine.objects among)
    (firstIn : first ∈ among) (secondIn : second ∈ among)
    (leftPresent : machine.objects[first]? = some left)
    (rightPresent : machine.objects[second]? = some right)
    (isRecord : record? records left.className = some decl) (sameClass : right.className = left.className)
    (leftYields : Provides program scope frame machine leftNode (.ok (.object first)))
    (rightYields : Provides program scope frame machine rightNode (.ok (.object second)))
    (leftNotBase : leftNode.kind ≠ .base) (rightNotBase : rightNode.kind ≠ .base)
    (notOut : ∀ inner, rightNode.kind ≠ .out inner) (span : Span) :
    let equal := EqualComponents records machine.objects decl.components left right
    let nests (levels : Nat) := Nests records machine.objects levels (.object first)
    Tells program scope frame machine (span.methodCall leftNode "Equals" [rightNode]) equal
        (∃ levels, nests levels ∧ levels ≤ machine.room) ∧
      Tells program scope frame machine (span.binary .eq leftNode rightNode) equal
        (∃ levels, nests levels ∧ levels + 1 ≤ machine.room) ∧
      Tells program scope frame machine (span.binary .notEq leftNode rightNode) (¬equal)
        (∃ levels, nests levels ∧ levels + 2 ≤ machine.room) ∧
      (decl.kind ≠ .recordStruct →
        Tells program scope frame machine (span.binary .eq leftNode span.nullLit) False
            (2 ≤ machine.room) ∧
          Tells program scope frame machine (span.binary .eq span.nullLit leftNode) False
            (1 ≤ machine.room)) ∧
      (equal → ∃ hash,
        YieldsInt program scope frame machine (span.methodCall leftNode "GetHashCode" []) hash ∧
          YieldsInt program scope frame machine (span.methodCall rightNode "GetHashCode" []) hash ∧
          (AreHashable types records machine.objects among →
            (∃ levels, nests levels ∧ levels + 2 ≤ machine.room) → ∃ value, hash = .ok value)) := by
  intro equal nests
  have compares := hasInstances.compares
  have leftAmong : (Value.object first).Among records among := .object firstIn
  have rightAmong : (Value.object second).Among records among := .object secondIn
  have stores := compares.comparable.settled leftAmong
  have settled := compares.comparable.settled rightAmong
  rw [Value.comparand_object leftPresent] at stores
  rw [Value.comparand_object rightPresent] at settled
  have holds : machine.Holds machine.objects := fun _ _ present => present
  have isSome : (record? records left.className).isSome := by rw [isRecord]; rfl
  have leftShown : Value.ShowsAs (.object first) machine (.held left) := ⟨first, rfl, leftPresent⟩
  have rightShown : Value.ShowsAs (.object second) machine (.held right) := ⟨second, rfl, rightPresent⟩
  have isVerdict (room : Nat) :
      IsVerdict (equals program records machine.objects room left (.held right)) equal :=
    (equalsDecides hasInstances room first second left right decl firstIn secondIn leftPresent
      rightPresent isRecord).congr (and_iff_right sameClass)
  have answers {levels room : Nat} (isNested : nests levels) (enough : levels ≤ room) :
      equals program records machine.objects room left (.held right) ≠ .error .callDepth :=
    equals_answers compares.comparable isNested firstIn leftPresent isRecord enough settled rfl
  have nullSettled : (Comparand.plain .null).Settled program records among :=
    .simple (by simp) (by simp) (by simp) fun _ _ => rfl
  have nullShown (later : Machine) : Value.ShowsAs .null later (.plain .null) := ⟨rfl, by simp⟩
  refine ⟨?_, ?_, ?_, fun isClass => ⟨?_, ?_⟩, fun areEqual => ?_⟩
  · refine ⟨_, .equals compares rfl holds isSome stores settled leftYields rightYields leftNotBase
      notOut leftShown rightShown, isVerdict machine.room, ?_⟩
    rintro ⟨levels, isNested, enough⟩
    exact answers isNested enough
  · refine ⟨equalByOperator program records machine.objects machine.room left (.held right),
      .binary (by decide) leftYields rightYields fun later grows =>
        .binary_eq compares (by rw [grows.depth]; rfl) (holds.grows grows) isRecord stores settled
          (leftShown.grows grows) (rightShown.grows grows),
      .equalByOperator isVerdict _, ?_⟩
    rintro ⟨levels, isNested, enough⟩
    obtain ⟨room, isRoom⟩ : ∃ rest, machine.room = rest + 1 := ⟨machine.room - 1, by omega⟩
    rw [isRoom]
    exact answers isNested (by omega)
  · refine ⟨differByOperator program records machine.objects machine.room left (.held right),
      .binary (by decide) leftYields rightYields fun later grows =>
        .binary_notEq compares (by rw [grows.depth]; rfl) (holds.grows grows) isRecord stores settled
          (leftShown.grows grows) (rightShown.grows grows),
      .differByOperator isVerdict _, ?_⟩
    rintro ⟨levels, isNested, enough⟩
    obtain ⟨room, isRoom⟩ : ∃ rest, machine.room = rest + 2 := ⟨machine.room - 2, by omega⟩
    have answered := answers isNested (show levels ≤ room by omega)
    rw [isRoom, differByOperator, equalByOperator]
    cases verdict : equals program records machine.objects room left (.held right) with
    | ok answer => exact fun tooDeep => by cases tooDeep
    | error failure =>
      intro tooDeep
      cases tooDeep
      exact answered verdict
  · have notStruct : decl.recordShape.isStruct = false := by simpa [TypeDecl.recordShape] using isClass
    refine ⟨equalByOperator program records machine.objects machine.room left (.plain .null),
      .binary (by decide) leftYields (.literal .null) fun later grows =>
        .binary_eq compares (by rw [grows.depth]; rfl) (holds.grows grows) isRecord stores nullSettled
          (leftShown.grows grows) (nullShown later),
      .equalByOperator (fun room => ?_) _, fun enough => ?_⟩
    · cases room with
      | zero => exact .inl rfl
      | succ room =>
        rw [equals_null_class isRecord notStruct]
        exact .no_false id
    · obtain ⟨room, isRoom⟩ : ∃ rest, machine.room = rest + 2 := ⟨machine.room - 2, by omega⟩
      rw [isRoom, equalByOperator, equals_null_class isRecord notStruct]
      exact fun tooDeep => by cases tooDeep
  · have notStruct : decl.recordShape.isStruct = false := by simpa [TypeDecl.recordShape] using isClass
    refine ⟨if machine.depth < Machine.maxDepth then .ok false else .error .callDepth,
      .binary (by decide) (.literal .null) leftYields fun later grows => ?_, ?_, fun enough => ?_⟩
    · have compared := Achieves.null_eq compares isRecord notStruct (leftShown.grows grows)
      rw [grows.depth] at compared
      exact compared
    · split
      · exact .no_false id
      · exact .inl rfl
    · rw [if_pos (by unfold Machine.room at enough; omega)]
      exact fun tooDeep => by cases tooDeep
  · have leftComponent : (Value.object first).IsComponent among := .inr ⟨first, firstIn, rfl⟩
    have rightComponent : (Value.object second).IsComponent among := .inr ⟨second, secondIn, rfl⟩
    have equalValues : EqualValues records machine.objects (.object first) (.object second) :=
      .instances leftPresent rightPresent sameClass isRecord areEqual
    have hashes := hashRuns hasInstances machine.room
    have leftHash := YieldsInt.hash span hashes rfl holds hasInstances.instances leftComponent leftYields
      leftNotBase
    have rightHash := YieldsInt.hash span hashes rfl holds hasInstances.instances rightComponent
      rightYields rightNotBase
    rw [← (recordHash_eq hasInstances equalValues leftComponent rightComponent machine.room).1] at rightHash
    refine ⟨_, leftHash, rightHash, ?_⟩
    rintro hashable ⟨levels, isNested, enough⟩
    rw [valueHash, getD_of_present leftPresent]
    exact recordHash_ok hasInstances hashable firstIn isNested leftPresent enough

end Operands

/-! ### Lists of cells -/

def cellDecl : TypeDecl :=
  let params : List Param := [.plain (.simple "int") "Head", .plain (.simple "Cell") "Tail"]
  ⟨"Cell", .recordClass, [], [], some params, [], none, [], ⟨0, 0⟩⟩

def cellEnv : PassEnv :=
  let unit : CompilationUnit := ⟨[], none, [cellDecl]⟩
  { pass := "desugar", unit, view := unit.analyze 0 unit.vocabulary }

def cellLowered : TypeDecl :=
  match lowerRecord 0 cellDecl cellEnv { nextName := 0, nextId := 0 } with
  | .ok (lowered, _) => lowered
  | .error _ => cellDecl

set_option maxRecDepth 8000 in
theorem cellDecl_lowered : ∃ after,
    lowerRecord 0 cellDecl cellEnv { nextName := 0, nextId := 0 } = .ok (cellLowered, after) := ⟨_, rfl⟩

def cell (head : Int) (tail : Value) : Object := ⟨"Cell", [("Head", .int head), ("Tail", tail)], false⟩

def cellMachine : Machine :=
  { objects := #[cell 1 (.object 2), cell 1 (.object 3), cell 2 .null, cell 2 .null],
    scopes := #[⟨[("a", .object 0), ("b", .object 1)], none⟩] }

theorem cellDecl_components :
    cellDecl.components = [.plain (.simple "int") "Head", .plain (.simple "Cell") "Tail"] := rfl

theorem cellMachine_instances :
    (⟨[cellLowered]⟩ : Program).HasInstances cellEnv.view.types [cellDecl] cellMachine.objects
      {0, 1, 2, 3} where
  has := by
    rw [forall_mem_singleton]
    obtain ⟨after, ran⟩ := cellDecl_lowered
    exact ⟨⟨0, cellEnv, _, _, after, rfl, ran, rfl⟩, rfl, by decide⟩
  notSequence := by
    rw [forall_mem_singleton]
    decide
  noObject := rfl
  apart := by
    rw [forall_mem_singleton, forall_mem_singleton]
    exact fun _ => rfl
  instances := by
    have stored (head : Int) (tail : Value) (isTail : tail.IsComponent {0, 1, 2, 3}) :
        ∀ param ∈ cellDecl.components, ∃ value,
          (cell head tail).fields.lookup param.name = some value ∧ value.IsComponent {0, 1, 2, 3} := by
      rw [cellDecl_components, forall_mem_cons, forall_mem_singleton]
      exact ⟨⟨.int head, rfl, .inl rfl⟩, tail, rfl, isTail⟩
    rintro address (rfl | rfl | rfl | rfl)
    · exact ⟨_, cellDecl, rfl, rfl, stored 1 (.object 2) (.inr ⟨2, by simp, rfl⟩)⟩
    · exact ⟨_, cellDecl, rfl, rfl, stored 1 (.object 3) (.inr ⟨3, by simp, rfl⟩)⟩
    · exact ⟨_, cellDecl, rfl, rfl, stored 2 .null (.inl rfl)⟩
    · exact ⟨_, cellDecl, rfl, rfl, stored 2 .null (.inl rfl)⟩

theorem cell_equal {mine others : Value}
    (tail : EqualValues [cellDecl] cellMachine.objects mine others) :
    EqualComponents [cellDecl] cellMachine.objects cellDecl.components (cell head mine)
      (cell head others) := by
  unfold EqualComponents
  rw [cellDecl_components, forall_mem_cons, forall_mem_singleton]
  refine ⟨fun left right isLeft isRight => ?_, fun left right isLeft isRight => ?_⟩
  · cases isLeft
    cases isRight
    exact .basic rfl rfl (by simp [Value.builtinEq, Value.number?, Value.sameNumber])
  · cases isLeft
    cases isRight
    exact tail

theorem cell_nests {tail : Value} (present : cellMachine.objects[address]? = some (cell head tail))
    (nests : Nests [cellDecl] cellMachine.objects levels tail) :
    Nests [cellDecl] cellMachine.objects (levels + 1) (.object address) := by
  have isRecord : record? [cellDecl] (cell head tail).className = some cellDecl := rfl
  refine .held present isRecord ?_
  rw [cellDecl_components, forall_mem_cons, forall_mem_singleton]
  refine ⟨fun value isValue => ?_, fun value isValue => ?_⟩
  · cases isValue
    exact .simple (by simp) (by simp)
  · cases isValue
    exact nests

theorem cellMachine_hashable :
    AreHashable cellEnv.view.types [cellDecl] cellMachine.objects {0, 1, 2, 3} := by
  have isCell {className : String} {decl : TypeDecl}
      (isRecord : record? [cellDecl] className = some decl) : decl = cellDecl :=
    mem_singleton.1 (record?_eq_some isRecord).1
  have isClass : ¬cellEnv.view.types.isPlainValue
      (cellEnv.view.types.names.bind (.simple "Cell")) = true := by decide
  have tailHashable (tail : Value) : IsHashable cellEnv.view.types [cellDecl] cellMachine.objects
      (.plain (.simple "Cell") "Tail") tail :=
    (if_neg isClass).mpr fun _ _ _ _ _ isRecord => by rw [isCell isRecord]; rfl
  have headHashable (head : Int) : IsHashable cellEnv.view.types [cellDecl] cellMachine.objects
      (.plain (.simple "int") "Head") (.int head) := by
    unfold IsHashable
    split
    · rfl
    · exact fun _ _ _ isObject => by cases isObject
  intro address isIn object decl present isRecord param isParam value isStored
  rw [isCell isRecord, cellDecl_components] at isParam
  rcases isIn with rfl | rfl | rfl | rfl <;> cases present <;>
    rcases mem_cons.1 isParam with rfl | isTail
  iterate 4
    · cases isStored
      exact headHashable _
    · obtain rfl := mem_singleton.1 isTail
      exact tailHashable value

/-- The lists have the same items, so `a == b` holds and both have one hash. -/
theorem record_equality_cells :
    YieldsBool ⟨[cellLowered]⟩ 0 ⟨.null, none⟩ cellMachine
        (cellDecl.span.binary .eq (cellDecl.span.ident "a") (cellDecl.span.ident "b")) (.ok true) ∧
      ∃ hash, YieldsInt ⟨[cellLowered]⟩ 0 ⟨.null, none⟩ cellMachine
          (cellDecl.span.methodCall (cellDecl.span.ident "a") "GetHashCode" []) (.ok hash) ∧
        YieldsInt ⟨[cellLowered]⟩ 0 ⟨.null, none⟩ cellMachine
          (cellDecl.span.methodCall (cellDecl.span.ident "b") "GetHashCode" []) (.ok hash) := by
  have leftYields : Provides ⟨[cellLowered]⟩ 0 ⟨.null, none⟩ cellMachine (cellDecl.span.ident "a")
      (.ok (.object 0)) := .ident rfl
  have rightYields : Provides ⟨[cellLowered]⟩ 0 ⟨.null, none⟩ cellMachine (cellDecl.span.ident "b")
      (.ok (.object 1)) := .ident rfl
  obtain ⟨-, equals, -, -, hashes⟩ := record_equality cellMachine_instances (.inl rfl) (.inr (.inl rfl))
    rfl rfl rfl rfl leftYields rightYields (fun isBase => by cases isBase)
    (fun isBase => by cases isBase) (fun _ isOut => by cases isOut) cellDecl.span
  have nests : Nests [cellDecl] cellMachine.objects 2 (.object 0) :=
    cell_nests rfl (cell_nests rfl (.simple (by simp) (by simp)))
  have equal : EqualComponents [cellDecl] cellMachine.objects cellDecl.components
      (cell 1 (.object 2)) (cell 1 (.object 3)) :=
    cell_equal (.instances rfl rfl rfl rfl (cell_equal (.basic rfl rfl (by decide))))
  refine ⟨?_, ?_⟩
  · obtain ⟨verdict, decides, tooDeep | ⟨answer, rfl, iff⟩, answers⟩ := equals
    · exact absurd tooDeep (answers ⟨2, nests, by decide⟩)
    · rw [iff.2 equal] at decides
      exact decides
  · obtain ⟨hash, leftHash, rightHash, isHash⟩ := hashes equal
    obtain ⟨value, rfl⟩ := isHash cellMachine_hashable ⟨2, nests, by decide⟩
    exact ⟨value, leftHash, rightHash⟩

end Unsugar
