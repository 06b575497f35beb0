import Unsugar.Proofs.Records.Equality

open List

namespace Unsugar

open Pass

/-! # Comparing two instances either way

Each record compares the components of its own, with whatever derives from it.  So
`a.Equals(b)` and `b.Equals(a)` compare the same components if both are instances of one
record, and neither compares any if neither record derives from the other.  Where a
record derives from another, each of the two compares components of its own.
-/

/-! ## Built-in equality -/

namespace Value

theorem sameSimple_comm (left right : Value) : left.sameSimple right = right.sameSimple left := by
  cases left <;> cases right <;> first | rfl | exact Bool.beq_comm

theorem sameReference_comm (left right : Value) :
    left.sameReference right = right.sameReference left := by
  cases left <;> cases right <;> first | rfl | exact Bool.beq_comm

theorem sameNumber_comm {left right : Num} : sameNumber left right = sameNumber right left := by
  have doubles (left right : UInt64) : Binary64.equal left right = Binary64.equal right left := by
    unfold Binary64.equal
    rw [Bool.and_comm (!Binary64.isNan left), Bool.beq_comm, Bool.and_comm (_ == _)]
  cases left <;> cases right <;> first | exact Bool.beq_comm | exact doubles _ _

def plainEq (left right : Value) : Bool :=
  match left.number?, right.number? with
  | some left, some right => sameNumber left right
  | _, _ => sameSimple left right

theorem plainEq_comm (left right : Value) : left.plainEq right = right.plainEq left := by
  unfold plainEq
  cases left.number? <;> cases right.number? <;>
    first | exact sameNumber_comm | exact sameSimple_comm _ _

theorem builtinEq_plain {left : Value} (notTuple : ∀ items, left ≠ .tuple items) (right : Value) :
    left.builtinEq right = left.plainEq right := by
  rw [builtinEq]
  · rfl
  · exact notTuple

mutual

theorem builtinEq_comm : (left right : Value) → left.builtinEq right = right.builtinEq left
  | .tuple items, .tuple others => by
    rw [builtinEq, builtinEq]
    exact builtinEqAll_comm items others
  | .null, right | .int _, right | .double _, right | .bool _, right | .char _, right
  | .str _, right | .object _, right | .list _, right | .closure _, right | .type _, right => by
    rw [builtinEq_plain (by simp)]
    cases right with
    | tuple items => simp [builtinEq, plainEq, number?, sameSimple]
    | _ => rw [builtinEq_plain (by simp), plainEq_comm]
  | .tuple _, .null | .tuple _, .int _ | .tuple _, .double _ | .tuple _, .bool _
  | .tuple _, .char _ | .tuple _, .str _ | .tuple _, .object _ | .tuple _, .list _
  | .tuple _, .closure _ | .tuple _, .type _ => by
    simp [builtinEq, number?, sameSimple]

theorem builtinEqAll_comm : (items others : List Value) →
    builtinEqAll items others = builtinEqAll others items
  | [], [] | [], _ :: _ | _ :: _, [] => by simp [builtinEqAll]
  | item :: items, other :: others => by
    rw [builtinEqAll, builtinEqAll, builtinEq_comm item other, builtinEqAll_comm items others]

end

end Value

/-! ## Comparisons that are made -/

section Among

variable {records : List TypeDecl} {among : Set Nat}

theorem Value.Among.address {address : Nat} (isAmong : (Value.object address).Among records among) :
    address ∈ among := by
  cases isAmong with
  | object isIn => exact isIn
  | simple notObject => exact absurd rfl (notObject address)

theorem Value.Among.items {items : List Value} (isAmong : (Value.tuple items).Among records among) :
    ∀ item ∈ items, item.Among records among := by
  cases isAmong with
  | tuple all => exact all
  | simple _ notTuple => exact absurd rfl (notTuple items)

end Among

section Meeting

variable (program : Program) (records : List TypeDecl) (objects : Array Object)

/-- The pairs of values that are compared when two values are. -/
inductive Met (left right : Value) : Value → Value → Prop where
  | here : Met left right left right
  | item {items others : List Value} (met : Met left right (.tuple items) (.tuple others))
      {index : Nat} {mine other : Value} (isMine : items[index]? = some mine)
      (isOther : others[index]? = some other) : Met left right mine other
  | component {first second : Nat} (met : Met left right (.object first) (.object second))
      {entry otherEntry : Object} (present : objects[first]? = some entry)
      (otherPresent : objects[second]? = some otherEntry)
      (sameClass : entry.className = otherEntry.className) {decl : TypeDecl}
      (isRecord : record? records entry.className = some decl) {param : Param}
      (isParam : param ∈ decl.components) {mine other : Value}
      (isMine : entry.fields.lookup param.name = some mine)
      (isOther : otherEntry.fields.lookup param.name = some other) : Met left right mine other

/-- Whenever two objects are compared, they are of one class, or neither's class derives
    from the other's. -/
def Unmixed (left right : Value) : Prop :=
  ∀ first second, Met records objects left right (.object first) (.object second) →
    ∀ entry other, objects[first]? = some entry → objects[second]? = some other →
      entry.className = other.className ∨ (program.derives entry.className other.className = false ∧
          program.derives other.className entry.className = false)

end Meeting

/-- Two verdicts are one answer, unless calls go too deep for one of them. -/
def Agree (verdict other : Except Failure Bool) : Prop :=
  verdict = .error .callDepth ∨ other = .error .callDepth ∨
    ∃ answer, verdict = .ok answer ∧ other = .ok answer

namespace Agree

variable {verdict other : Except Failure Bool}

theorem refl (answer : Bool) : Agree (.ok answer) (.ok answer) := .inr (.inr ⟨answer, rfl, rfl⟩)

theorem bind {next otherNext : Bool → Except Failure Bool} (agree : Agree verdict other)
    (rest : ∀ answer, Agree (next answer) (otherNext answer)) :
    Agree (verdict >>= next) (other >>= otherNext) := by
  obtain rfl | rfl | ⟨answer, rfl, rfl⟩ := agree
  · exact .inl rfl
  · exact .inr (.inl rfl)
  · exact rest answer

theorem symm (agree : Agree verdict other) : Agree other verdict := by
  obtain isDeep | isDeep | ⟨answer, isAnswer, isOther⟩ := agree
  · exact .inr (.inl isDeep)
  · exact .inl isDeep
  · exact .inr (.inr ⟨answer, isOther, isAnswer⟩)

end Agree

section Either

variable {program : Program} {records : List TypeDecl} {objects : Array Object} {room : Nat}

theorem Met.trans {left right mine other item otherItem : Value}
    (met : Met records objects left right mine other)
    (below : Met records objects mine other item otherItem) :
    Met records objects left right item otherItem := by
  induction below with
  | here => exact met
  | item _ isMine isOther ih => exact .item ih isMine isOther
  | component _ present otherPresent sameClass isRecord isParam isMine isOther ih =>
    exact .component ih present otherPresent sameClass isRecord isParam isMine isOther

theorem Unmixed.below {left right mine other : Value}
    (unmixed : Unmixed program records objects left right)
    (met : Met records objects left right mine other) : Unmixed program records objects mine other :=
  fun first second below => unmixed first second (met.trans below)

theorem Met.symm {left right mine other : Value} (met : Met records objects left right mine other) :
    Met records objects right left other mine := by
  induction met with
  | here => exact .here
  | item _ isMine isOther ih => exact .item ih isOther isMine
  | component _ present otherPresent sameClass isRecord isParam isMine isOther ih =>
    exact .component ih otherPresent present sameClass.symm
      (sameClass ▸ isRecord) isParam isOther isMine

theorem Unmixed.symm {left right : Value} (unmixed : Unmixed program records objects left right) :
    Unmixed program records objects right left := by
  intro first second met entry other present otherPresent
  obtain sameClass | ⟨apart, otherApart⟩ := unmixed second first met.symm other entry otherPresent present
  · exact .inl sameClass.symm
  · exact .inr ⟨otherApart, apart⟩

theorem unlessClear_agree {left right : Value} {verdict other : Except Failure Bool}
    (agree : Agree verdict other) :
    Agree (unlessClear left right verdict) (unlessClear right left other) := by
  unfold unlessClear
  rw [right.sameReference_comm left, Bool.or_comm right.isNull]
  split
  · exact .refl _
  · split
    · exact .refl _
    · exact agree

/-- With room for so many calls, instances are compared alike either way. -/
def EqualsAgrees (program : Program) (records : List TypeDecl) (objects : Array Object)
    (among : Set Nat) (room : Nat) : Prop :=
  ∀ (first second : Nat) (left right : Object), first ∈ among → second ∈ among →
    objects[first]? = some left → objects[second]? = some right → (record? records left.className).isSome →
    (record? records right.className).isSome →
    Unmixed program records objects (.object first) (.object second) →
    Agree (equals program records objects room left (.held right))
      (equals program records objects room right (.held left))

theorem sameValue_clear {equals : Object → Comparand → Except Failure Bool} {left right : Value}
    (noObject : ∀ address, left ≠ .object address)
    (notBoth : ∀ items others, left = .tuple items → right ≠ .tuple others) :
    sameValue records objects equals left right =
      unlessClear left right (.ok (left.builtinEq right)) := by
  cases left with
  | object address => exact absurd rfl (noObject address)
  | tuple items =>
    cases right with
    | tuple others => exact absurd rfl (notBoth items others rfl)
    | _ => rfl
  | _ => rfl

theorem sameValue_agrees_clear {equals : Object → Comparand → Except Failure Bool} {left right : Value}
    (noObject : ∀ address, left ≠ .object address) (noOther : ∀ address, right ≠ .object address)
    (notBoth : ∀ items others, left = .tuple items → right ≠ .tuple others) :
    Agree (sameValue records objects equals left right)
      (sameValue records objects equals right left) := by
  rw [sameValue_clear noObject notBoth,
    sameValue_clear noOther fun items others isTuple isOther => notBoth others items isOther isTuple,
    right.builtinEq_comm]
  exact unlessClear_agree (.refl _)

theorem sameValue_agrees_other {first : Nat} {right : Value}
    (noObject : ∀ address, right ≠ .object address) :
    Agree (sameValue records objects (equals program records objects room) (.object first) right)
      (sameValue records objects (equals program records objects room) right (.object first)) := by
  have unequal : (Value.object first).builtinEq right = false := by
    rw [Value.builtinEq_plain (by simp)]
    cases right with
    | object address => exact absurd rfl (noObject address)
    | _ => rfl
  rw [sameValue_clear noObject (by simp), right.builtinEq_comm, unequal, sameValue]
  cases isNull : right.isNull with
  | true =>
    cases right with
    | null => exact .refl _
    | _ => cases isNull
  | false =>
    refine unlessClear_agree ?_
    split
    · rename_i isRecord
      obtain ⟨decl, isRecord⟩ := Option.isSome_iff_exists.mp isRecord
      have isPlain : right.comparand objects = .plain right := by
        cases right with
        | object address => exact absurd rfl (noObject address)
        | _ => rfl
      rw [isPlain]
      cases room with
      | zero => exact .inl rfl
      | succ room =>
        rw [equals_plain isRecord isNull]
        exact .refl _
    · rw [unequal]
      exact .refl _

section Objects

variable {first second : Nat} {left right : Object} (present : objects[first]? = some left)
  (otherPresent : objects[second]? = some right)

include present otherPresent

theorem sameValue_agrees_apart {decl : TypeDecl}
    (isRecord : record? records left.className = some decl)
    (noRecord : record? records right.className = none)
    (unmixed : Unmixed program records objects (.object first) (.object second)) :
    Agree (sameValue records objects (equals program records objects room) (.object first) (.object second))
      (sameValue records objects (equals program records objects room) (.object second)
        (.object first)) := by
  have notSame : first ≠ second := by
    rintro rfl
    cases present.symm.trans otherPresent
    rw [isRecord] at noRecord
    cases noRecord
  have apart : program.derives right.className left.className = false := by
    obtain sameClass | ⟨_, apart⟩ := unmixed _ _ .here _ _ present otherPresent
    · rw [sameClass, noRecord] at isRecord
      cases isRecord
    · exact apart
  have unequal : (Value.object second).builtinEq (.object first) = false := by
    rw [Value.builtinEq_plain (by simp)]
    exact beq_eq_false_iff_ne.mpr notSame.symm
  rw [sameValue, sameValue, getD_of_present present, getD_of_present otherPresent, isRecord, noRecord,
    unequal, Value.comparand_object otherPresent]
  refine unlessClear_agree ?_
  cases room with
  | zero => exact .inl rfl
  | succ room =>
    rw [equals_apart isRecord apart]
    exact .refl _

theorem sameValue_agrees_objects {among : Set Nat} (firstIn : first ∈ among) (secondIn : second ∈ among)
    (agrees : EqualsAgrees program records objects among room)
    (unmixed : Unmixed program records objects (.object first) (.object second)) :
    Agree (sameValue records objects (equals program records objects room) (.object first) (.object second))
      (sameValue records objects (equals program records objects room) (.object second)
        (.object first)) := by
  cases isLeft : record? records left.className with
  | none =>
    cases isRight : record? records right.className with
    | none =>
      rw [sameValue, sameValue, getD_of_present present, getD_of_present otherPresent, isLeft,
        isRight, Value.builtinEq_comm]
      exact unlessClear_agree (.refl _)
    | some decl => exact (sameValue_agrees_apart otherPresent present isRight isLeft unmixed.symm).symm
  | some decl =>
    cases isRight : record? records right.className with
    | none => exact sameValue_agrees_apart present otherPresent isLeft isRight unmixed
    | some other =>
      rw [sameValue, sameValue, getD_of_present present, getD_of_present otherPresent, isLeft,
        isRight, Value.comparand_object present, Value.comparand_object otherPresent]
      refine unlessClear_agree (agrees first second left right firstIn secondIn present otherPresent
        ?_ ?_ unmixed)
      · rw [isLeft]
        rfl
      · rw [isRight]
        rfl

end Objects

variable {among : Set Nat}

mutual

theorem sameValue_agrees (comparable : Comparable program records objects among)
    (agrees : EqualsAgrees program records objects among room) :
    (left right : Value) → left.Among records among → right.Among records among →
      Unmixed program records objects left right →
      Agree (sameValue records objects (equals program records objects room) left right)
        (sameValue records objects (equals program records objects room) right left)
  | .object first, right, isLeft, isRight, unmixed => by
    cases right with
    | object second =>
      obtain ⟨left, present⟩ := comparable.present first isLeft.address
      obtain ⟨right, otherPresent⟩ := comparable.present second isRight.address
      exact sameValue_agrees_objects present otherPresent isLeft.address isRight.address agrees unmixed
    | _ => exact sameValue_agrees_other (by simp)
  | .tuple items, right, isLeft, isRight, unmixed => by
    cases right with
    | object second => exact (sameValue_agrees_other (by simp)).symm
    | tuple others =>
      rw [sameValue, sameValue, (Value.tuple others).builtinEq_comm]
      refine unlessClear_agree ?_
      by_cases sameLength : items.length = others.length
      · rw [if_pos sameLength, if_pos sameLength.symm]
        exact sameItems_agrees comparable agrees items others isLeft.items isRight.items
          fun index mine other isMine isOther => unmixed.below (.item .here isMine isOther)
      · rw [if_neg sameLength, if_neg (Ne.symm sameLength)]
        exact .refl _
    | _ => exact sameValue_agrees_clear (by simp) (by simp) (by simp)
  | .null, right, _, _, _ | .int _, right, _, _, _ | .double _, right, _, _, _
  | .bool _, right, _, _, _ | .char _, right, _, _, _ | .str _, right, _, _, _
  | .list _, right, _, _, _ | .closure _, right, _, _, _ | .type _, right, _, _, _ => by
    cases right with
    | object second => exact (sameValue_agrees_other (by simp)).symm
    | _ => exact sameValue_agrees_clear (by simp) (by simp) (by simp)

theorem sameItems_agrees (comparable : Comparable program records objects among)
    (agrees : EqualsAgrees program records objects among room) :
    (items others : List Value) → (∀ item ∈ items, item.Among records among) →
      (∀ item ∈ others, item.Among records among) →
      (∀ (index : Nat) (mine other : Value), items[index]? = some mine → others[index]? = some other →
        Unmixed program records objects mine other) →
      Agree (sameItems records objects (equals program records objects room) items others)
        (sameItems records objects (equals program records objects room) others items)
  | [], [], _, _, _ | [], _ :: _, _, _, _ | _ :: _, [], _, _, _ => by
    simp only [sameItems]
    exact .refl _
  | item :: items, other :: others, areLeft, areRight, unmixed => by
    have first := sameValue_agrees comparable agrees item other (areLeft _ mem_cons_self)
      (areRight _ mem_cons_self) (unmixed 0 _ _ rfl rfl)
    have rest := sameItems_agrees comparable agrees items others
      (fun item isIn => areLeft item (.tail _ isIn)) (fun item isIn => areRight item (.tail _ isIn))
      fun index mine other isMine isOther => unmixed (index + 1) mine other isMine isOther
    rw [sameItems, sameItems]
    exact first.bind fun _ => rest.bind fun _ => .refl _

end

theorem sameComponents_agrees {same other : Value → Value → Except Failure Bool} {left right : Object}
    {params : List Param}
    (agrees : ∀ param ∈ params, ∃ mine others, left.fields.lookup param.name = some mine ∧
      right.fields.lookup param.name = some others ∧ Agree (same mine others) (other others mine)) :
    Agree (sameComponents same (.held left) (.held right) params)
      (sameComponents other (.held right) (.held left) params) := by
  induction params with
  | nil => exact .refl _
  | cons param rest ih =>
    obtain ⟨mine, others, isMine, isOther, agree⟩ := agrees param mem_cons_self
    have restAgrees := ih fun param isIn => agrees param (.tail _ isIn)
    rw [sameComponents, sameComponents]
    simp only [Comparand.component, isMine, isOther, Option.getD_some]
    refine agree.bind fun answer => ?_
    cases answer with
    | false => exact .refl _
    | true => exact restAgrees

theorem equalsAgrees (comparable : Comparable program records objects among) (room : Nat) :
    EqualsAgrees program records objects among room := by
  induction room with
  | zero => exact fun _ _ _ _ _ _ _ _ _ _ _ => .inl rfl
  | succ room ih =>
    intro first second left right firstIn secondIn present otherPresent isLeft isRight unmixed
    obtain ⟨decl, isRecord⟩ := Option.isSome_iff_exists.mp isLeft
    obtain ⟨other, isOther⟩ := Option.isSome_iff_exists.mp isRight
    obtain sameClass | ⟨apart, otherApart⟩ := unmixed _ _ .here _ _ present otherPresent
    · have isName := (record?_eq_some isRecord).2
      obtain rfl : decl = other := by
        rw [← sameClass, isRecord] at isOther
        exact Option.some.inj isOther
      have stored {address : Nat} {object : Object} (isIn : address ∈ among)
          (isThere : objects[address]? = some object) (isOwn : object.className = decl.name) :
          ∀ param ∈ decl.components, ∃ value, object.fields.lookup param.name = some value ∧
            value.Among records among := by
        obtain ⟨same, presentSame, stores, _⟩ := comparable.stored address isIn
        obtain rfl : object = same := Option.some.inj (isThere.symm.trans presentSame)
        refine stores decl (by rw [isName]; exact isRecord) ?_
        rw [isOwn]
        exact program.derives_refl
      rw [equals_derived isRecord (by rw [sameClass]; exact program.derives_refl),
        equals_derived isOther (by rw [sameClass]; exact program.derives_refl)]
      refine sameComponents_agrees fun param isParam => ?_
      obtain ⟨mine, isMine, mineAmong⟩ := stored firstIn present isName.symm param isParam
      obtain ⟨others, isOthers, othersAmong⟩ :=
        stored secondIn otherPresent (sameClass.symm.trans isName.symm) param isParam
      refine ⟨mine, others, isMine, isOthers, ?_⟩
      exact sameValue_agrees comparable ih mine others mineAmong othersAmong (unmixed.below
          (.component .here present otherPresent sameClass isRecord isParam isMine isOthers))
    · rw [equals_apart isRecord otherApart, equals_apart isOther apart]
      exact .refl _

end Either

/-! ## Either call -/

section Calls

variable {program : Program} {types : Universe} {records : List TypeDecl} {among : Set Nat}
  {machine : Machine} {scope : Nat} {frame : Frame} {first second : Nat} {left right : Object}
  {leftNode rightNode : Expr}

/-- Of two instances of records, lowered by the pass and with the equality members made
    for them, `a.Equals(b)` and `b.Equals(a)` answer the same, unless one of the calls
    goes too deep, which neither does where the instances nest no deeper than calls may
    go.  Wherever two objects are compared on the way they have to be of one class, or of
    classes neither of which derives from the other. -/
theorem record_equals_symm (compares : program.Compares types records machine.objects among)
    (firstIn : first ∈ among) (secondIn : second ∈ among)
    (leftPresent : machine.objects[first]? = some left)
    (rightPresent : machine.objects[second]? = some right)
    (isLeft : (record? records left.className).isSome)
    (isRight : (record? records right.className).isSome)
    (unmixed : Unmixed program records machine.objects (.object first) (.object second))
    (leftYields : Provides program scope frame machine leftNode (.ok (.object first)))
    (rightYields : Provides program scope frame machine rightNode (.ok (.object second)))
    (leftNotBase : leftNode.kind ≠ .base) (rightNotBase : rightNode.kind ≠ .base)
    (leftNotOut : ∀ inner, leftNode.kind ≠ .out inner)
    (rightNotOut : ∀ inner, rightNode.kind ≠ .out inner) (span : Span) :
    let nests (address levels : Nat) := Nests records machine.objects levels (.object address)
    ∃ verdict other,
      YieldsBool program scope frame machine (span.methodCall leftNode "Equals" [rightNode]) verdict ∧
      YieldsBool program scope frame machine (span.methodCall rightNode "Equals" [leftNode]) other ∧
      Agree verdict other ∧
      ((∃ levels, nests first levels ∧ levels ≤ machine.room) → verdict ≠ .error .callDepth) ∧
      ((∃ levels, nests second levels ∧ levels ≤ machine.room) → other ≠ .error .callDepth) := by
  intro nests
  have leftStores := compares.comparable.settled (.object firstIn)
  have rightStores := compares.comparable.settled (.object secondIn)
  rw [Value.comparand_object leftPresent] at leftStores
  rw [Value.comparand_object rightPresent] at rightStores
  have holds : machine.Holds machine.objects := fun _ _ present => present
  have leftShown : Value.ShowsAs (.object first) machine (.held left) := ⟨first, rfl, leftPresent⟩
  have rightShown : Value.ShowsAs (.object second) machine (.held right) := ⟨second, rfl, rightPresent⟩
  refine ⟨equals program records machine.objects machine.room left (.held right),
    equals program records machine.objects machine.room right (.held left),
    .equals compares rfl holds isLeft leftStores rightStores leftYields rightYields leftNotBase
      rightNotOut leftShown rightShown,
    .equals compares rfl holds isRight rightStores leftStores rightYields leftYields rightNotBase
      leftNotOut rightShown leftShown,
    equalsAgrees compares.comparable machine.room first second left right firstIn secondIn leftPresent
      rightPresent isLeft isRight unmixed, ?_, ?_⟩
  · rintro ⟨levels, isNested, enough⟩
    obtain ⟨decl, isRecord⟩ := Option.isSome_iff_exists.mp isLeft
    exact equals_answers compares.comparable isNested firstIn leftPresent isRecord enough rightStores rfl
  · rintro ⟨levels, isNested, enough⟩
    obtain ⟨decl, isRecord⟩ := Option.isSome_iff_exists.mp isRight
    exact equals_answers compares.comparable isNested secondIn rightPresent isRecord enough leftStores rfl

end Calls

/-! ### Points in the plane and in space -/

def flatDecl : TypeDecl :=
  ⟨"Flat", .recordClass, [], [], some [.plain (.simple "int") "X"], [], none, [], ⟨0, 0⟩⟩

def deepDecl : TypeDecl :=
  let params : List Param := [.plain (.simple "int") "X", .plain (.simple "int") "Y"]
  let span : Span := ⟨0, 0⟩
  ⟨"Deep", .recordClass, [], [], some params, [.simple "Flat"], some [span.ident "X"], [], span⟩

def pointEnv : PassEnv :=
  let unit : CompilationUnit := ⟨[], none, [flatDecl, deepDecl]⟩
  { pass := "desugar", unit, view := unit.analyze 0 unit.vocabulary }

def pointLowered (index : Nat) (decl : TypeDecl) : TypeDecl :=
  match lowerRecord index decl pointEnv { nextName := 0, nextId := 0 } with
  | .ok (lowered, _) => lowered
  | .error _ => decl

def pointProgram : Program := ⟨[pointLowered 0 flatDecl, pointLowered 1 deepDecl]⟩

def flatPoint : Object := ⟨"Flat", [("X", .int 1)], false⟩

def deepPoint : Object := ⟨"Deep", [("X", .int 1), ("Y", .int 2)], false⟩

/-- `new Flat(1)` and twice `new Deep(1, 2)`. -/
def pointMachine : Machine :=
  { objects := #[flatPoint, deepPoint, deepPoint],
    scopes := #[⟨[("a", .object 0), ("b", .object 1), ("c", .object 2)], none⟩] }

set_option maxRecDepth 8000 in
theorem pointDecls_lowered :
    (∃ after, lowerRecord 0 flatDecl pointEnv { nextName := 0, nextId := 0 } =
        .ok (pointLowered 0 flatDecl, after)) ∧
      ∃ after, lowerRecord 1 deepDecl pointEnv { nextName := 0, nextId := 0 } =
        .ok (pointLowered 1 deepDecl, after) := ⟨⟨_, rfl⟩, _, rfl⟩

theorem pointMachine_compares :
    pointProgram.Compares pointEnv.view.types [flatDecl, deepDecl] pointMachine.objects {0, 1, 2} where
  has := by
    obtain ⟨⟨_, ranFlat⟩, _, ranDeep⟩ := pointDecls_lowered
    rw [forall_mem_cons, forall_mem_singleton]
    exact ⟨⟨⟨0, pointEnv, _, _, _, rfl, ranFlat, rfl⟩, rfl, by decide⟩,
      ⟨1, pointEnv, _, _, _, rfl, ranDeep, rfl⟩, rfl, by decide⟩
  noObject := rfl
  comparable := by
    have number (value : Int) : (Value.int value).Among [flatDecl, deepDecl] {0, 1, 2} :=
      .simple (by simp) (by simp) (by simp) fun _ _ => rfl
    have apart : pointProgram.derives "Flat" "Deep" = false := by decide +kernel
    have isOne {decl : TypeDecl} (isRecord : record? [flatDecl, deepDecl] decl.name = some decl) :
        decl = flatDecl ∨ decl = deepDecl := by
      simpa using (record?_eq_some isRecord).1
    have flatStores : flatPoint.Stores pointProgram [flatDecl, deepDecl] {0, 1, 2} := by
      intro decl isRecord derives param isParam
      obtain rfl | rfl := isOne isRecord
      · obtain rfl := mem_singleton.mp isParam
        exact ⟨.int 1, rfl, number 1⟩
      · cases derives.symm.trans apart
    have deepStores : deepPoint.Stores pointProgram [flatDecl, deepDecl] {0, 1, 2} := by
      intro decl isRecord _ param isParam
      obtain rfl | rfl := isOne isRecord
      · obtain rfl := mem_singleton.mp isParam
        exact ⟨.int 1, rfl, number 1⟩
      · obtain rfl | isParam := mem_cons.mp isParam
        · exact ⟨.int 1, rfl, number 1⟩
        · obtain rfl := mem_singleton.mp isParam
          exact ⟨.int 2, rfl, number 2⟩
    refine ⟨?_⟩
    rintro address (rfl | rfl | rfl)
    · exact ⟨_, rfl, flatStores, .inl rfl⟩
    · exact ⟨_, rfl, deepStores, .inl rfl⟩
    · exact ⟨_, rfl, deepStores, .inl rfl⟩

/-- What compares with an instance that derives from its record may be different from
    what it compares with. -/
theorem record_equals_not_symm :
    YieldsBool pointProgram 0 ⟨.null, none⟩ pointMachine
        (flatDecl.span.methodCall (flatDecl.span.ident "a") "Equals" [flatDecl.span.ident "b"])
        (.ok true) ∧
      YieldsBool pointProgram 0 ⟨.null, none⟩ pointMachine
        (flatDecl.span.methodCall (flatDecl.span.ident "b") "Equals" [flatDecl.span.ident "a"])
        (.ok false) := by
  have compares := pointMachine_compares
  have flatStores := compares.comparable.settled (.object (.inl rfl : 0 ∈ ({0, 1, 2} : Set Nat)))
  have deepStores := compares.comparable.settled (.object (.inr (.inl rfl) : 1 ∈ ({0, 1, 2} : Set Nat)))
  have flatYields : Provides pointProgram 0 ⟨.null, none⟩ pointMachine (flatDecl.span.ident "a")
      (.ok (.object 0)) := .ident rfl
  have deepYields : Provides pointProgram 0 ⟨.null, none⟩ pointMachine (flatDecl.span.ident "b")
      (.ok (.object 1)) := .ident rfl
  have derives : pointProgram.derives "Deep" "Flat" = true := by decide +kernel
  have apart : pointProgram.derives "Flat" "Deep" = false := by decide +kernel
  have holds : pointMachine.Holds pointMachine.objects := fun _ _ present => present
  have flatShown : Value.ShowsAs (.object 0) pointMachine (.held flatPoint) := ⟨0, rfl, rfl⟩
  have deepShown : Value.ShowsAs (.object 1) pointMachine (.held deepPoint) := ⟨1, rfl, rfl⟩
  have room : Machine.maxDepth - pointMachine.depth = 255 + 1 := rfl
  constructor
  · have compared : YieldsBool pointProgram 0 ⟨.null, none⟩ pointMachine
        (flatDecl.span.methodCall (flatDecl.span.ident "a") "Equals" [flatDecl.span.ident "b"])
        (equals pointProgram [flatDecl, deepDecl] pointMachine.objects (255 + 1) flatPoint
          (.held deepPoint)) := .equals compares room holds rfl flatStores deepStores flatYields
      deepYields (fun isBase => by cases isBase) (fun _ isOut => by cases isOut) flatShown deepShown
    have isFlat : record? [flatDecl, deepDecl] "Flat" = some flatDecl := rfl
    have same : sameComponents (sameValue [flatDecl, deepDecl] pointMachine.objects
        (equals pointProgram [flatDecl, deepDecl] pointMachine.objects 255))
        (.held flatPoint) (.held deepPoint) flatDecl.components = .ok true := by
      change (sameValue [flatDecl, deepDecl] pointMachine.objects
        (equals pointProgram [flatDecl, deepDecl] pointMachine.objects 255) (.int 1) (.int 1) >>= _) = _
      rw [sameValue_basic rfl, show (Value.int 1).builtinEq (.int 1) = true by decide]
      rfl
    rw [equals_derived isFlat derives, same] at compared
    exact compared
  · have compared : YieldsBool pointProgram 0 ⟨.null, none⟩ pointMachine
        (flatDecl.span.methodCall (flatDecl.span.ident "b") "Equals" [flatDecl.span.ident "a"])
        (equals pointProgram [flatDecl, deepDecl] pointMachine.objects (255 + 1) deepPoint
          (.held flatPoint)) := .equals compares room holds rfl deepStores flatStores deepYields
      flatYields (fun isBase => by cases isBase) (fun _ isOut => by cases isOut) deepShown flatShown
    have isDeep : record? [flatDecl, deepDecl] "Deep" = some deepDecl := rfl
    rw [equals_apart isDeep apart] at compared
    exact compared

/-- Both instances of the derived record say that they are equal. -/
theorem record_equals_symm_points :
    ∃ answer,
      YieldsBool pointProgram 0 ⟨.null, none⟩ pointMachine
          (flatDecl.span.methodCall (flatDecl.span.ident "b") "Equals" [flatDecl.span.ident "c"])
          (.ok answer) ∧
        YieldsBool pointProgram 0 ⟨.null, none⟩ pointMachine
          (flatDecl.span.methodCall (flatDecl.span.ident "c") "Equals" [flatDecl.span.ident "b"])
          (.ok answer) := by
  have number {name : String} {value : Value} (isStored : deepPoint.fields.lookup name = some value) :
      ∃ number, value = .int number := by
    simp only [deepPoint, List.lookup_cons, List.lookup_nil] at isStored
    split at isStored
    · exact ⟨1, (Option.some.inj isStored).symm⟩
    · split at isStored
      · exact ⟨2, (Option.some.inj isStored).symm⟩
      · cases isStored
  have met {mine other : Value} (met : Met [flatDecl, deepDecl] pointMachine.objects (.object 1)
      (.object 2) mine other) :
      mine = .object 1 ∧ other = .object 2 ∨ ∃ number, mine = .int number := by
    induction met with
    | here => exact .inl ⟨rfl, rfl⟩
    | item _ _ _ ih =>
      obtain ⟨isObject, _⟩ | ⟨_, isNumber⟩ := ih
      · cases isObject
      · cases isNumber
    | component _ present _ _ _ _ isMine _ ih =>
      obtain ⟨isObject, _⟩ | ⟨_, isNumber⟩ := ih
      · cases isObject
        cases present
        exact .inr (number isMine)
      · cases isNumber
  have unmixed : Unmixed pointProgram [flatDecl, deepDecl] pointMachine.objects (.object 1)
      (.object 2) := by
    intro first second compared entry other present otherPresent
    obtain ⟨isFirst, isSecond⟩ | ⟨_, isNumber⟩ := met compared
    · cases isFirst
      cases isSecond
      cases present
      cases otherPresent
      exact .inl rfl
    · cases isNumber
  have nests (address : Nat) (isDeep : pointMachine.objects[address]? = some deepPoint) :
      Nests [flatDecl, deepDecl] pointMachine.objects 1 (.object address) := by
    have isRecord : record? [flatDecl, deepDecl] deepPoint.className = some deepDecl := rfl
    refine .held isDeep isRecord fun param _ value isValue => ?_
    obtain ⟨_, rfl⟩ := number isValue
    exact .simple (by simp) (by simp)
  have firstYields : Provides pointProgram 0 ⟨.null, none⟩ pointMachine (flatDecl.span.ident "b")
      (.ok (.object 1)) := .ident rfl
  have secondYields : Provides pointProgram 0 ⟨.null, none⟩ pointMachine (flatDecl.span.ident "c")
      (.ok (.object 2)) := .ident rfl
  obtain ⟨verdict, other, decides, otherDecides, agree, answers, otherAnswers⟩ :=
    record_equals_symm pointMachine_compares (.inr (.inl rfl)) (.inr (.inr rfl)) rfl rfl rfl rfl unmixed
      firstYields secondYields (fun isBase => by cases isBase) (fun isBase => by cases isBase)
      (fun _ isOut => by cases isOut) (fun _ isOut => by cases isOut) flatDecl.span
  obtain isDeep | isDeep | ⟨answer, rfl, rfl⟩ := agree
  · exact absurd isDeep (answers ⟨1, nests 1 rfl, by decide⟩)
  · exact absurd isDeep (otherAnswers ⟨1, nests 2 rfl, by decide⟩)
  · exact ⟨answer, decides, otherDecides⟩

end Unsugar
