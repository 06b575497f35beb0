import Unsugar.Proofs.Records.EqualsRuns

open List

namespace Unsugar

/-! # Verdicts

A comparison ends with an answer unless calls go too deep, and they do not go deeper
than the values that are compared nest.
-/

/-- A verdict that is right about what holds, unless calls went too deep. -/
def IsVerdict (verdict : Except Failure Bool) (holds : Prop) : Prop :=
  verdict = .error .callDepth ∨ ∃ answer, verdict = .ok answer ∧ (answer = true ↔ holds)

namespace IsVerdict

variable {verdict : Except Failure Bool} {holds other : Prop}

theorem of_ok {answer : Bool} (same : answer = true ↔ holds) : IsVerdict (.ok answer) holds :=
  .inr ⟨answer, rfl, same⟩

theorem congr (isVerdict : IsVerdict verdict holds) (same : holds ↔ other) :
    IsVerdict verdict other := by
  rcases isVerdict with tooDeep | ⟨answer, isAnswer, iff⟩
  · exact .inl tooDeep
  · exact .inr ⟨answer, isAnswer, iff.trans same⟩

theorem no_false (notHolds : ¬holds) : IsVerdict (.ok false) holds :=
  of_ok (by simp [notHolds])

theorem and {rest : Except Failure Bool} (isVerdict : IsVerdict verdict holds)
    (isRest : IsVerdict rest other) :
    IsVerdict (verdict >>= fun holds => if holds then rest else .ok false) (holds ∧ other) := by
  rcases isVerdict with rfl | ⟨answer, rfl, iff⟩
  · exact .inl rfl
  · cases answer with
    | false => exact .no_false fun both => by simpa using iff.2 both.1
    | true => exact isRest.congr (and_iff_right (iff.1 rfl)).symm

end IsVerdict

/-- An expression answers whether something holds, or calls go too deep, which they do
    not where there is room enough. -/
def Tells (program : Program) (scope : Nat) (frame : Frame) (machine : Machine) (node : Expr)
    (holds enough : Prop) : Prop :=
  ∃ verdict, YieldsBool program scope frame machine node verdict ∧ IsVerdict verdict holds ∧
    (enough → verdict ≠ .error .callDepth)

/-- How many more calls can be made. -/
def Machine.room (machine : Machine) : Nat := maxDepth - machine.depth

/-! ## Room enough -/

/-- A value in which instances of records nest at most so deep. -/
inductive Nests (records : List TypeDecl) (objects : Array Object) : Nat → Value → Prop where
  | simple {levels : Nat} {value : Value} (notObject : ∀ address, value ≠ .object address)
      (notTuple : ∀ items, value ≠ .tuple items) : Nests records objects levels value
  | tuple {levels : Nat} {items : List Value} (all : ∀ item ∈ items, Nests records objects levels item) :
      Nests records objects levels (.tuple items)
  | other {levels address : Nat} {object : Object} (present : objects[address]? = some object)
      (noRecord : record? records object.className = none) : Nests records objects levels (.object address)
  | held {levels address : Nat} {object : Object} {decl : TypeDecl}
      (present : objects[address]? = some object)
      (isRecord : record? records object.className = some decl)
      (components : ∀ param ∈ decl.components, ∀ value,
        object.fields.lookup param.name = some value → Nests records objects levels value) :
      Nests records objects (levels + 1) (.object address)

theorem Nests.components {records : List TypeDecl} {objects : Array Object} {levels address : Nat}
    {object : Object} {decl : TypeDecl} (nests : Nests records objects levels (.object address))
    (present : objects[address]? = some object)
    (isRecord : record? records object.className = some decl) :
    ∃ fewer, levels = fewer + 1 ∧ ∀ param ∈ decl.components, ∀ value,
      object.fields.lookup param.name = some value → Nests records objects fewer value := by
  cases nests with
  | simple notObject => exact absurd rfl (notObject address)
  | other presentOther noRecord =>
    obtain rfl : object = _ := Option.some.inj (present.symm.trans presentOther)
    rw [noRecord] at isRecord
    cases isRecord
  | @held fewer _ _ _ presentHeld isOther components =>
    obtain rfl : object = _ := Option.some.inj (present.symm.trans presentHeld)
    obtain rfl : decl = _ := Option.some.inj (isRecord.symm.trans isOther)
    exact ⟨fewer, rfl, components⟩

theorem unlessClear_answers {left right : Value} {verdict : Except Failure Bool}
    (answers : left.isNull = false → right.isNull = false → verdict ≠ .error .callDepth) :
    unlessClear left right verdict ≠ .error .callDepth := by
  unfold unlessClear
  split
  · exact fun tooDeep => by cases tooDeep
  · split
    · exact fun tooDeep => by cases tooDeep
    · rename_i notNull
      simp only [Bool.or_eq_true, not_or, Bool.not_eq_true] at notNull
      exact answers notNull.1 notNull.2

section Answering

variable {program : Program} {records : List TypeDecl} {objects : Array Object} {among : Set Nat}
  {left right : Object} {decl : TypeDecl}

theorem sameComponents_answers {same : Value → Value → Except Failure Bool} {params : List Param}
    (answers : ∀ param ∈ params, ∃ mine others, left.fields.lookup param.name = some mine ∧
      right.fields.lookup param.name = some others ∧ same mine others ≠ .error .callDepth) :
    sameComponents same (.held left) (.held right) params ≠ .error .callDepth := by
  induction params with
  | nil => simp [sameComponents]
  | cons param rest ih =>
    obtain ⟨mine, others, isMine, isOther, answered⟩ := answers param mem_cons_self
    have restAnswers := ih fun other isIn => answers other (.tail _ isIn)
    rw [sameComponents]
    simp only [Comparand.component, isMine, isOther, Option.getD_some]
    change (same mine others >>= _) ≠ _
    cases verdict : same mine others with
    | error failure =>
      intro tooDeep
      cases tooDeep
      exact answered verdict
    | ok holds =>
      cases holds with
      | false => exact fun tooDeep => by cases tooDeep
      | true => exact restAnswers

theorem sameItems_answers {equals : Object → Comparand → Except Failure Bool} {items others : List Value}
    (answers : ∀ item ∈ items, ∀ other ∈ others,
      sameValue records objects equals item other ≠ .error .callDepth) :
    sameItems records objects equals items others ≠ .error .callDepth := by
  induction items generalizing others with
  | nil => exact fun tooDeep => by cases others <;> cases tooDeep
  | cons item items ih =>
    cases others with
    | nil => exact fun tooDeep => by cases tooDeep
    | cons other others =>
      have first := answers item mem_cons_self other mem_cons_self
      have rest := ih fun item isIn other isOther =>
        answers item (.tail _ isIn) other (.tail _ isOther)
      rw [sameItems]
      cases verdict : sameValue records objects equals item other with
      | error failure =>
        intro tooDeep
        cases tooDeep
        exact first verdict
      | ok holds =>
        change (sameItems records objects equals items others >>= _) ≠ _
        cases restVerdict : sameItems records objects equals items others with
        | error failure =>
          intro tooDeep
          cases tooDeep
          exact rest restVerdict
        | ok others => exact fun tooDeep => by cases tooDeep

theorem equals_answers_of {room : Nat} {operand : Comparand}
    (settled : operand.Settled program records among) (notNull : operand.isNull = false)
    (isRecord : record? records left.className = some decl)
    (leftStores : left.Stores program records among)
    (answers : ∀ param ∈ decl.components, ∀ mine others, left.fields.lookup param.name = some mine →
      others.Among records among →
      sameValue records objects (equals program records objects room) mine others ≠ .error .callDepth) :
    equals program records objects (room + 1) left operand ≠ .error .callDepth := by
  obtain ⟨-, isName⟩ := record?_eq_some isRecord
  rw [equals, isRecord]
  dsimp only
  cases fits : operand.fits program decl with
  | false => exact fun tooDeep => by cases tooDeep
  | true =>
    cases operand with
    | plain value =>
      have isNull : value.isNull = true := fits
      have isNotNull : value.isNull = false := notNull
      rw [isNull] at isNotNull
      cases isNotNull
    | held right =>
      have isOwn : record? records decl.name = some decl := by rw [isName]; exact isRecord
      have derives : program.derives left.className decl.name = true := by
        rw [isName]
        exact program.derives_refl
      refine sameComponents_answers fun param isParam => ?_
      obtain ⟨mine, isMine, -⟩ := leftStores decl isOwn derives param isParam
      obtain ⟨others, isOther, othersAmong⟩ := settled decl isOwn fits param isParam
      exact ⟨mine, others, isMine, isOther, answers param isParam mine others isMine othersAmong⟩

section

variable (isRecord : record? records left.className = some decl)

include isRecord

theorem equals_plain {room : Nat} {value : Value} (notNull : value.isNull = false) :
    equals program records objects (room + 1) left (.plain value) = .ok false := by
  rw [equals, isRecord]
  have fits : (Comparand.plain value).fits program decl = false := notNull
  dsimp only
  rw [fits]
  rfl

theorem equals_apart {room : Nat} (apart : program.derives right.className left.className = false) :
    equals program records objects (room + 1) left (.held right) = .ok false := by
  obtain ⟨-, isName⟩ := record?_eq_some isRecord
  rw [equals, isRecord]
  have fits : (Comparand.held right).fits program decl = false := by
    unfold Comparand.fits
    rw [isName]
    exact apart
  dsimp only
  rw [fits]
  rfl

theorem equals_derived {room : Nat}
    (derives : program.derives right.className left.className = true) :
    equals program records objects (room + 1) left (.held right) =
      sameComponents (sameValue records objects (equals program records objects room)) (.held left)
        (.held right) decl.components := by
  obtain ⟨-, isName⟩ := record?_eq_some isRecord
  rw [equals, isRecord]
  have fits : (Comparand.held right).fits program decl = true := by
    unfold Comparand.fits
    rw [isName]
    exact derives
  dsimp only
  rw [fits]
  rfl

end

theorem sameValue_tuple_other {equals : Object → Comparand → Except Failure Bool} {items : List Value}
    {other : Value} (notTuple : ∀ others, other ≠ .tuple others) :
    sameValue records objects equals (.tuple items) other =
      unlessClear (.tuple items) other (.ok false) := by
  cases other with
  | tuple others => exact absurd rfl (notTuple others)
  | _ => rfl

theorem sameValue_answers (comparable : Comparable program records objects among) {levels : Nat}
    {value : Value} (nests : Nests records objects levels value) (isAmong : value.Among records among)
    {room : Nat} (enough : levels ≤ room) {other : Value} (otherAmong : other.Among records among) :
    sameValue records objects (equals program records objects room) value other ≠
      .error .callDepth := by
  induction nests generalizing room other with
  | @simple levels value notObject notTuple =>
    have isClear : sameValue records objects (equals program records objects room) value other =
        unlessClear value other (.ok (value.builtinEq other)) := by
      cases value with
      | object address => exact absurd rfl (notObject address)
      | tuple items => exact absurd rfl (notTuple items)
      | _ => rfl
    rw [isClear]
    exact unlessClear_answers fun _ _ tooDeep => by cases tooDeep
  | @tuple levels items all ih =>
    cases isAmong with
    | simple _ notTuple => exact absurd rfl (notTuple items)
    | tuple itemsAmong =>
      by_cases isTuple : ∃ others, other = .tuple others
      · obtain ⟨others, rfl⟩ := isTuple
        have othersAmong : ∀ item ∈ others, Value.Among records among item := by
          cases otherAmong with
          | tuple all => exact all
          | simple _ notTuple => exact absurd rfl (notTuple others)
        rw [sameValue]
        refine unlessClear_answers fun _ _ => ?_
        split
        · exact sameItems_answers fun item isIn other isOther =>
            ih item isIn (itemsAmong item isIn) enough (othersAmong other isOther)
        · exact fun tooDeep => by cases tooDeep
      · rw [sameValue_tuple_other fun others isOthers => isTuple ⟨others, isOthers⟩]
        exact unlessClear_answers fun _ _ tooDeep => by cases tooDeep
  | @other levels address object present noRecord =>
    rw [sameValue, getD_of_present present, noRecord]
    exact unlessClear_answers fun _ _ tooDeep => by cases tooDeep
  | @held levels address object decl present isRecord components ih =>
    rw [sameValue, getD_of_present present, isRecord]
    refine unlessClear_answers fun _ notNull => ?_
    obtain ⟨room, rfl⟩ : ∃ rest, room = rest + 1 := ⟨room - 1, by omega⟩
    cases isAmong with
    | simple notObject => exact absurd rfl (notObject address)
    | object isIn =>
      obtain ⟨same, presentSame, stores, -⟩ := comparable.stored address isIn
      obtain rfl : object = same := Option.some.inj (present.symm.trans presentSame)
      obtain ⟨-, isName⟩ := record?_eq_some isRecord
      refine equals_answers_of (comparable.settled otherAmong) ?_ isRecord stores
        fun param isParam mine others isMine othersAmong => ?_
      · cases other with
        | object _ => rfl
        | _ => exact notNull
      · obtain ⟨same, isSame, sameAmong⟩ := stores decl (by rw [isName]; exact isRecord)
          (by rw [isName]; exact program.derives_refl) param isParam
        obtain rfl : mine = same := Option.some.inj (isMine.symm.trans isSame)
        exact ih param isParam mine isMine sameAmong (by omega) othersAmong

theorem equals_answers (comparable : Comparable program records objects among) {levels address : Nat}
    (nests : Nests records objects levels (.object address)) (isIn : address ∈ among)
    (present : objects[address]? = some left) (isRecord : record? records left.className = some decl)
    {room : Nat} (enough : levels ≤ room) {operand : Comparand}
    (settled : operand.Settled program records among) (notNull : operand.isNull = false) :
    equals program records objects room left operand ≠ .error .callDepth := by
  obtain ⟨same, presentSame, stores, -⟩ := comparable.stored address isIn
  obtain rfl : left = same := Option.some.inj (present.symm.trans presentSame)
  obtain ⟨fewer, rfl, components⟩ := nests.components present isRecord
  obtain ⟨-, isName⟩ := record?_eq_some isRecord
  obtain ⟨room, rfl⟩ : ∃ rest, room = rest + 1 := ⟨room - 1, by omega⟩
  refine equals_answers_of settled notNull isRecord stores
    fun param isParam mine others isMine othersAmong => ?_
  obtain ⟨same, isSame, sameAmong⟩ := stores decl (by rw [isName]; exact isRecord)
    (by rw [isName]; exact program.derives_refl) param isParam
  obtain rfl : mine = same := Option.some.inj (isMine.symm.trans isSame)
  exact sameValue_answers comparable (components param isParam mine isMine) sameAmong (by omega)
    othersAmong

end Answering

end Unsugar
