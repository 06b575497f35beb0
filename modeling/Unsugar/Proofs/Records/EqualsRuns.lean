import Unsugar.Proofs.Eval.Expectations
import Unsugar.Proofs.Records.LoweredRecords

open List

namespace Unsugar

/-! # Comparing instances of records

What `Equals` of a record computes, as a function of the objects that are compared
and of how deep calls may still go; and that the lowered members compute it.
-/

variable {address : Nat} {nodes : List Expr} {verdict : Except Failure Bool} {name : String}
  {recur : Answer} {param : Param}

def TypeDecl.components (decl : TypeDecl) : List Param := decl.recordShape.params

/-- A value that takes part in a comparison: an object by what it holds. -/
inductive Comparand where
  | held (object : Object)
  | plain (value : Value)

namespace Comparand

def isNull : Comparand → Bool
  | held _ => false
  | plain value => value.isNull

def isLibrary (name : String) : Comparand → Bool
  | held _ => false
  | plain value => value.isLibrary name

def component : Comparand → String → Except Failure Value
  | held object, name => .ok ((object.fields.lookup name).getD .null)
  | plain _, name => if name == "HasValue" then .ok (.bool false) else .error .nullReference

end Comparand

section Functions

variable (program : Program) (records : List TypeDecl) (objects : Array Object)

def record? (className : String) : Option TypeDecl :=
  records.find? fun decl => decl.name == className

def Value.comparand : Value → Comparand
  | .object address => .held (objects.getD address default)
  | value => .plain value

/-- A comparison that `object.Equals` may decide without asking the operands. -/
def unlessClear (left right : Value) (verdict : Except Failure Bool) : Except Failure Bool :=
  if left.sameReference right then .ok true
  else if left.isNull || right.isNull then .ok false
  else verdict

mutual

def sameValue (equals : Object → Comparand → Except Failure Bool) : Value → Value → Except Failure Bool
  | .object address, right =>
    let object := objects.getD address default
    unlessClear (.object address) right <|
      if (record? records object.className).isSome then equals object (right.comparand objects)
      else .ok ((Value.object address).builtinEq right)
  | .tuple items, right =>
    unlessClear (.tuple items) right <|
      match right with
      | .tuple others =>
        if items.length = others.length then sameItems equals items others
        else .ok ((Value.tuple items).builtinEq right)
      | _ => .ok ((Value.tuple items).builtinEq right)
  | left, right => unlessClear left right (.ok (left.builtinEq right))

def sameItems (equals : Object → Comparand → Except Failure Bool) :
    List Value → List Value → Except Failure Bool
  | left :: lefts, right :: rights => do
    let first ← sameValue equals left right
    let others ← sameItems equals lefts rights
    return first && others
  | _, _ => .ok true

end

def sameComponents (same : Value → Value → Except Failure Bool) (left right : Comparand) :
    List Param → Except Failure Bool
  | [] => .ok true
  | param :: rest => do
    let mine ← left.component param.name
    let others ← right.component param.name
    if ← same mine others then sameComponents same left right rest else return false

/-- Whether the overload of a record for its own instances takes a value. -/
def Comparand.fits (decl : TypeDecl) : Comparand → Bool
  | .held object => program.derives object.className decl.name
  | .plain value => value.isNull

def equals : (room : Nat) → Object → Comparand → Except Failure Bool
  | 0, _, _ => .error .callDepth
  | room + 1, left, right =>
    match record? records left.className with
    | none => .ok false
    | some decl =>
      if !right.fits program decl || right.isNull && !decl.recordShape.isStruct then .ok false
      else sameComponents (sameValue records objects (equals room)) (.held left) right decl.components

end Functions

variable {objects : Array Object} {decl : TypeDecl} {verdicts : List (Except Failure Bool)}
  {value : Value} {program : Program}

theorem getD_of_present {object : Object}
    (present : objects[address]? = some object) : objects.getD address default = object := by
  rw [Array.getD_eq_getD_getElem?, present]
  rfl

theorem Value.comparand_object {entry : Object} (present : objects[address]? = some entry) :
    (Value.object address).comparand objects = .held entry :=
  congrArg Comparand.held (getD_of_present present)

/-! ## Comparable objects -/

/-- A value that holds no other objects than these, and does not belong to a library
    type that is named as a record is. -/
inductive Value.Among (records : List TypeDecl) (among : Set Nat) : Value → Prop where
  | object {address : Nat} (isIn : address ∈ among) : Value.Among records among (.object address)
  | tuple {items : List Value} (all : ∀ item ∈ items, Value.Among records among item) :
      Value.Among records among (.tuple items)
  | simple {value : Value} (notObject : ∀ address, value ≠ .object address)
      (notTuple : ∀ items, value ≠ .tuple items) (notType : ∀ name, value ≠ .type name)
      (notLibrary : ∀ decl ∈ records, value.isLibrary decl.name = false) :
      Value.Among records among value

def Object.Stores (program : Program) (records : List TypeDecl) (among : Set Nat) (object : Object) :
    Prop :=
  ∀ decl, record? records decl.name = some decl → program.derives object.className decl.name = true →
    ∀ param ∈ decl.components, ∃ value, object.fields.lookup param.name = some value ∧
      value.Among records among

/-- A machine in which these objects can be compared: instances of records, which
    store components that can be compared, and objects of classes without `Equals`. -/
structure Comparable (program : Program) (records : List TypeDecl) (objects : Array Object)
    (among : Set Nat) : Prop where
  stored : ∀ address ∈ among, ∃ object, objects[address]? = some object ∧
    object.Stores program records among ∧
    ((record? records object.className).isSome ∨ ∀ (machine : Machine) (value : Value),
      program.findMethod? machine object.className "Equals" [value] = none)

open Pass

/-! ## Running `Equals`

The lowered `Equals` of a record ends as the function `equals` says: with the same
verdict, or with the same failure.
-/

/-! ## Conjunctions -/

/-- Conditions are tested in order, up to the first that does not hold. -/
def allOf : List (Except Failure Bool) → Except Failure Bool
  | [] => .ok true
  | verdict :: rest => verdict >>= fun holds => if holds then allOf rest else .ok false

section Conjunctions

variable {program : Program} {scope : Nat} {frame : Frame} {start : Machine} {span : Span}

def YieldsBool (program : Program) (scope : Nat) (frame : Frame) (start : Machine) (node : Expr)
    (verdict : Except Failure Bool) : Prop :=
  Provides program scope frame start node (verdict.map .bool)

theorem YieldsBool.foldl
    (others : Forall₂ (YieldsBool program scope frame start) nodes verdicts) {first : Expr}
    (yields : YieldsBool program scope frame start first verdict) :
    YieldsBool program scope frame start (nodes.foldl (span.binary .and) first)
      (allOf (verdict :: verdicts)) := by
  induction others generalizing first verdict with
  | nil =>
    have same : allOf [verdict] = verdict := by
      cases verdict with
      | error failure => rfl
      | ok holds => cases holds <;> rfl
    rw [same]
    exact yields
  | @cons node second nodes verdicts head _ ih =>
    have same : allOf (verdict :: second :: verdicts) =
        allOf ((verdict >>= fun holds => if holds then second else .ok false) :: verdicts) := by
      cases verdict with
      | error failure => rfl
      | ok holds => cases holds <;> rfl
    rw [same]
    exact ih (yields.and head)

theorem YieldsBool.conjunction (span : Span)
    (yields : Forall₂ (YieldsBool program scope frame start) nodes verdicts) :
    YieldsBool program scope frame start (span.conjunction nodes) (allOf verdicts) := by
  cases yields with
  | nil => exact .literal (.bool true)
  | cons head others => exact head.foldl others

end Conjunctions

theorem sameComponents_allOf (same : Value → Value → Except Failure Bool) {left right : Comparand}
    {params : List Param} :
    sameComponents same left right params = allOf (params.map fun param => do
      let mine ← left.component param.name
      let others ← right.component param.name
      same mine others) := by
  induction params with
  | nil => rfl
  | cons param rest ih =>
    unfold sameComponents
    rw [ih, map_cons, allOf]
    cases left.component param.name with
    | error failure => rfl
    | ok mine =>
      cases right.component param.name with
      | error failure => rfl
      | ok others => rfl

/-! ## Static methods of `object` -/

section ObjectMethods

variable {program : Program} {scope : Nat} {frame : Frame} {start : Machine} (shape : RecordShape)

theorem Provides.objectCall {method : String} {args : List Expr} {expected : List (Except Failure Value)}
    (rest : List Value → Except Failure Value) (noObject : program.find? "object" = none)
    (argsYield : Forall₂ (Provides program scope frame start) args expected)
    (areValues : ∀ arg ∈ args, ∀ inner, arg.kind ≠ .out inner)
    (runs : ∀ values later, expected.mapM id = .ok values → start.Grows later →
      Achieves program (fun recur => Eval.staticMethod recur "object" method values) later
        (rest values)) :
    Provides program scope frame start (shape.objectCall method args) (expected.mapM id >>= rest) := by
  have undeclared : program.declares "object" = false := by simp [Program.declares, noObject]
  refine .methodCall rest argsYield (.typeRef _ _) (fun isBase => by cases isBase) areValues
    fun values later isValues grows => .builtin ?_ (runs values later isValues grows)
  simp [Eval.startClass?, undeclared]

theorem Value.sameReference_null (value : Value) : value.sameReference .null = value.isNull := by
  cases value <;> rfl

theorem YieldsBool.isNull {node : Expr} (noObject : program.find? "object" = none)
    (notOut : ∀ inner, node.kind ≠ .out inner)
    (yields : Provides program scope frame start node (.ok value)) :
    YieldsBool program scope frame start (shape.isNull node) (.ok value.isNull) := by
  have argsYield : Forall₂ (Provides program scope frame start) [node, shape.span.nullLit]
      [.ok value, .ok .null] := .cons yields (.cons (.literal .null) .nil)
  refine Provides.objectCall shape (fun _ => .ok (.bool value.isNull)) noObject argsYield ?_
    fun values later isValues _ => ?_
  · intro arg isIn inner
    rcases mem_cons.1 isIn with rfl | isNull
    · exact notOut inner
    · obtain rfl := mem_singleton.1 isNull
      exact fun isOut => by cases isOut
  · obtain rfl : [value, .null] = values := Except.ok.inj isValues
    exact .of_eq fun _ => by rw [← Value.sameReference_null]; rfl

theorem YieldsBool.isNull_ident (noObject : program.find? "object" = none)
    (found : start.valueOf? scope name = some value) :
    YieldsBool program scope frame start (shape.isNull (shape.span.ident name)) (.ok value.isNull) :=
  .isNull shape noObject (fun inner isOut => by cases isOut) (.ident found)

end ObjectMethods

/-! ## Operands -/

def Value.ShowsAs (value : Value) (machine : Machine) : Comparand → Prop
  | .held entry => ∃ address, value = .object address ∧ machine.objects[address]? = some entry
  | .plain other => value = other ∧ ∀ address, value ≠ .object address

/-- What takes part in a comparison holds nothing that cannot be compared. -/
def Comparand.Settled (program : Program) (records : List TypeDecl) (among : Set Nat) :
    Comparand → Prop
  | .held object => object.Stores program records among
  | .plain value => value.Among records among

theorem Comparand.Settled.notLibrary {records : List TypeDecl} {among : Set Nat}
    {comparand : Comparand} (settled : comparand.Settled program records among)
    (isIn : decl ∈ records) : comparand.isLibrary decl.name = false := by
  cases comparand with
  | held object => rfl
  | plain value =>
    cases settled with
    | object _ | tuple _ => rfl
    | simple _ _ _ notLibrary => exact notLibrary decl isIn

def Machine.Holds (machine : Machine) (objects : Array Object) : Prop :=
  ∀ (address : Nat) (object : Object), objects[address]? = some object →
    machine.objects[address]? = some object

theorem Machine.Holds.grows {before after : Machine} (holds : before.Holds objects)
    (grows : before.Grows after) : after.Holds objects :=
  fun address object present => grows.objects address object (holds address object present)

namespace Value.ShowsAs

variable {machine later : Machine} {value : Value} {comparand : Comparand}
  (shown : value.ShowsAs machine comparand)

include shown

theorem grows (grows : machine.Grows later) : value.ShowsAs later comparand := by
  cases comparand with
  | held object =>
    obtain ⟨address, isObject, present⟩ := shown
    exact ⟨address, isObject, grows.objects _ _ present⟩
  | plain other => exact shown

theorem of_objects (same : later.objects = machine.objects) : value.ShowsAs later comparand := by
  cases comparand with
  | held object =>
    obtain ⟨address, isObject, present⟩ := shown
    exact ⟨address, isObject, by rw [same]; exact present⟩
  | plain other => exact shown

theorem copied : (machine.copied value).1.ShowsAs (machine.copied value).2 comparand := by
  rcases machine.copied_cases value with same | ⟨address, object, rfl, present, -, isCopy⟩
  · rw [same]
    exact shown
  · rw [isCopy]
    cases comparand with
    | held other =>
      obtain ⟨same, isSame, presentOther⟩ := shown
      cases isSame
      obtain rfl : object = other := Option.some.inj (present.symm.trans presentOther)
      exact ⟨machine.objects.size, rfl, by simp⟩
    | plain other => exact absurd rfl (shown.2 address)

theorem isNull_eq : value.isNull = comparand.isNull := by
  cases comparand with
  | held object =>
    obtain ⟨address, rfl, -⟩ := shown
    rfl
  | plain other => rw [shown.1]; rfl

theorem fitsRecord_eq (ownName : decl.name ∉ valueTypeNames)
    (notLibrary : comparand.isLibrary decl.name = false) :
    program.fitsRecord machine decl value = comparand.fits program decl := by
  unfold Program.fitsRecord
  cases comparand with
  | held object =>
    obtain ⟨address, rfl, present⟩ := shown
    refine (congrArg (false || ·) (Program.isInstance_object ownName machine _ address)).trans ?_
    rw [getD_of_present present]
    rfl
  | plain other =>
    obtain ⟨rfl, notObject⟩ := shown
    refine (congrArg (value.isNull || ·)
      (Program.isInstance_other ownName notObject notLibrary)).trans ?_
    exact Bool.or_false _

end Value.ShowsAs

theorem Value.Among.shows {among : Set Nat} {records : List TypeDecl} {machine : Machine}
    (isAmong : value.Among records among)
    (present : ∀ address ∈ among, ∃ object, objects[address]? = some object)
    (holds : machine.Holds objects) : value.ShowsAs machine (value.comparand objects) := by
  cases isAmong with
  | object isIn =>
    obtain ⟨object, isThere⟩ := present _ isIn
    rw [Value.comparand_object isThere]
    exact ⟨_, rfl, holds _ _ isThere⟩
  | tuple _ => exact ⟨rfl, fun _ isObject => by cases isObject⟩
  | simple notObject _ _ _ =>
    cases value with
    | object address => exact absurd rfl (notObject address)
    | _ => exact ⟨rfl, notObject⟩

/-! ## Comparing values -/

structure Program.Compares (program : Program) (types : Universe) (records : List TypeDecl)
    (objects : Array Object) (among : Set Nat) : Prop where
  has : ∀ decl ∈ records, program.HasRecord types decl
  noObject : program.find? "object" = none
  comparable : Comparable program records objects among

/-- With room for so many calls, `Equals` of instances ends as `equals` says. -/
def EqualsRuns (program : Program) (records : List TypeDecl) (objects : Array Object)
    (among : Set Nat) (room : Nat) : Prop :=
  ∀ (machine : Machine) (this : Nat) (left : Object) (value : Value) (right : Comparand),
    Machine.maxDepth - machine.depth = room → machine.Holds objects →
    machine.objects[this]? = some left → (record? records left.className).isSome →
    left.Stores program records among → value.ShowsAs machine right →
    right.Settled program records among →
    Calls program (fun recur => recur (.invoke (.object this) "Equals" [value] none)) machine
      ((equals program records objects room left right).map .bool)

def Eval.asAnswer : Value → Eval Bool
  | .bool result => return result
  | _ => unsupported "Equals returned no bool"

theorem Eval.objectEquals_eq {left right : Value} : objectEquals recur left right =
      if left.sameReference right then pure true
      else if left.isNull || right.isNull then pure false
      else recur (.invoke left "Equals" [right] none) >>= fun result => asAnswer result.value := by
  unfold objectEquals
  split
  · rfl
  · split <;> rfl

theorem Eval.builtinMethod_equals {target other : Value}
    (notNull : target.isNull = false) (notTuple : ∀ items, target ≠ .tuple items)
    (notType : ∀ name, target ≠ .type name) :
    builtinMethod program recur target "Equals" [other] =
      pure (.bool (target.builtinEq other)) := by
  cases target with
  | null => cases notNull
  | tuple items => exact absurd rfl (notTuple items)
  | type name => exact absurd rfl (notType name)
  | _ => rfl

section Comparing

variable {program : Program} {types : Universe} {records : List TypeDecl} {objects : Array Object}
  {among : Set Nat} {room : Nat}

theorem Comparable.present (comparable : Comparable program records objects among) :
    ∀ address ∈ among, ∃ object, objects[address]? = some object := by
  intro address isIn
  obtain ⟨object, present, -⟩ := comparable.stored address isIn
  exact ⟨object, present⟩

theorem Comparable.settled (comparable : Comparable program records objects among)
    (isAmong : value.Among records among) : (value.comparand objects).Settled program records among := by
  cases isAmong with
  | object isIn =>
    obtain ⟨object, present, stores, -⟩ := comparable.stored _ isIn
    rw [Value.comparand_object present]
    exact stores
  | tuple all => exact .tuple all
  | simple notObject notTuple notType notLibrary =>
    cases value with
    | object address => exact absurd rfl (notObject address)
    | _ => exact .simple notObject notTuple notType notLibrary

variable {machine : Machine}

theorem Achieves.objectEquals {left right : Value}
    (asked : left.isNull = false → right.isNull = false →
      Calls program (fun recur => recur (.invoke left "Equals" [right] none)) machine
        (verdict.map .bool)) :
    Achieves program (fun recur => Eval.objectEquals recur left right) machine
      (unlessClear left right verdict) := by
  unfold unlessClear
  by_cases isSame : left.sameReference right = true
  · rw [if_pos isSame]
    exact .of_eq fun recur => by
      rw [Eval.objectEquals_eq, if_pos isSame]
      rfl
  · rw [if_neg isSame]
    by_cases isNull : (left.isNull || right.isNull) = true
    · rw [if_pos isNull]
      exact .of_eq fun recur => by
        rw [Eval.objectEquals_eq, if_neg isSame, if_pos isNull]
        rfl
    · rw [if_neg isNull]
      simp only [Bool.or_eq_true, not_or, Bool.not_eq_true] at isNull
      have answered : Achieves program (fun recur =>
          recur (.invoke left "Equals" [right] none) >>= fun result => Eval.asAnswer result.value)
          machine (verdict.map Value.bool >>= fun _ => verdict) := by
        refine Calls.bind (fun _ => verdict) (asked isNull.1 isNull.2) fun value later isValue _ => ?_
        cases verdict with
        | error failure => cases isValue
        | ok holds =>
          obtain rfl : Value.bool holds = value := Except.ok.inj isValue
          exact .of_eq fun _ => rfl
      refine (answered.of_same fun recur => ?_).congr ?_
      · rw [Eval.objectEquals_eq, if_neg isSame, if_neg (by simp [isNull])]
      · cases verdict <;> rfl

theorem Achieves.tupleEquals {same : Object → Comparand → Except Failure Bool}
    {items others : List Value} (sameLength : items.length = others.length)
    (isRoom : Machine.maxDepth - machine.depth = room) (holds : machine.Holds objects)
    (compared : ∀ item ∈ items, ∀ other ∈ others, ∀ later : Machine,
      Machine.maxDepth - later.depth = room → later.Holds objects →
      Achieves program (fun recur => Eval.objectEquals recur item other) later
        (sameValue records objects same item other)) :
    Achieves program (fun recur => Eval.tupleEquals recur items others) machine
      (sameItems records objects same items others) := by
  induction items generalizing others machine with
  | nil =>
    cases others with
    | nil => exact .pure true machine
    | cons other others => cases sameLength
  | cons item items ih =>
    cases others with
    | nil => cases sameLength
    | cons other others =>
      refine .bind _ (compared item mem_cons_self other mem_cons_self machine isRoom holds)
        fun first later _ grows => ?_
      have others := ih (Nat.succ.inj sameLength) (by rwa [grows.depth])
        (holds.grows grows) fun item isIn other isOther =>
          compared item (.tail _ isIn) other (.tail _ isOther)
      exact others.map (first && ·)

theorem objectEquals_computes (compares : program.Compares types records objects among)
    (runs : EqualsRuns program records objects among room) {left right : Value}
    (leftAmong : left.Among records among) (rightAmong : right.Among records among)
    (isRoom : Machine.maxDepth - machine.depth = room) (holds : machine.Holds objects) :
    Achieves program (fun recur => Eval.objectEquals recur left right) machine
      (sameValue records objects (equals program records objects room) left right) := by
  have present := compares.comparable.present
  induction leftAmong generalizing right machine with
  | @object address isIn =>
    obtain ⟨object, isThere, stores, known⟩ := compares.comparable.stored address isIn
    refine .objectEquals fun notNull _ => ?_
    rw [getD_of_present isThere]
    split
    · rename_i isRecord
      exact runs machine address object right _ isRoom holds (holds _ _ isThere) isRecord stores
        (rightAmong.shows present holds) (compares.comparable.settled rightAmong)
    · rename_i noRecord
      refine .builtin ?_ (.of_eq fun recur => ?_)
      · have noMethod := known.resolve_left noRecord machine right
        simp only [Eval.startClass?, Option.bind_some, Array.getD_eq_getD_getElem?,
          holds _ _ isThere, Option.getD_some]
        exact noMethod
      · rw [Eval.builtinMethod_equals notNull (fun _ isTuple => by cases isTuple)
          (fun _ isType => by cases isType)]
        rfl
  | @tuple items all ih =>
    refine .objectEquals fun _ _ => .builtin rfl ?_
    cases rightAmong with
    | object isIn => exact .of_eq fun _ => rfl
    | @tuple others othersAmong =>
      dsimp only
      by_cases sameLength : items.length = others.length
      · rw [if_pos sameLength]
        have compared := Achieves.tupleEquals sameLength isRoom holds
          fun item isIn other isOther machine isRoom holds =>
            ih item isIn (othersAmong other isOther) isRoom holds
        exact (compared.map Value.bool).of_same fun recur => if_pos sameLength
      · rw [if_neg sameLength]
        refine Achieves.of_same (.pure _ _) fun recur => if_neg sameLength
    | simple notObject notTuple _ _ =>
      cases right with
      | object address => exact absurd rfl (notObject address)
      | tuple others => exact absurd rfl (notTuple others)
      | _ => exact .of_eq fun _ => rfl
  | @simple value notObject notTuple notType _ =>
    have isPlain : sameValue records objects (equals program records objects room) value right =
        unlessClear value right (.ok (value.builtinEq right)) := by
      cases value with
      | object address => exact absurd rfl (notObject address)
      | tuple items => exact absurd rfl (notTuple items)
      | _ => rfl
    rw [isPlain]
    refine .objectEquals fun notNull _ => .builtin ?_ (.of_eq fun recur => ?_)
    · cases value with
      | object address => exact absurd rfl (notObject address)
      | type name => exact absurd rfl (notType name)
      | _ => rfl
    · rw [Eval.builtinMethod_equals notNull notTuple notType]
      rfl

end Comparing

/-! ## The bodies of `Equals` -/

section Bodies

variable {program : Program} {types : Universe} {records : List TypeDecl} {objects : Array Object}
  {among : Set Nat} {room : Nat} {scope : Nat} {frame : Frame} {start : Machine} (shape : RecordShape)
  {this : Nat} {left : Object} {right : Comparand} {other : Expr} {value : Value}

theorem Provides.component {span : Span}
    (yields : Provides program scope frame start other (.ok value)) (shown : value.ShowsAs start right)
    (isKnown : right.isNull = true ∨ ∃ object item, right = .held object ∧
      object.fields.lookup name = some item) :
    Provides program scope frame start (span.member other name) (right.component name) := by
  rcases isKnown with isNull | ⟨object, item, rfl, isStored⟩
  · cases right with
    | held object => cases isNull
    | plain plain =>
      obtain ⟨rfl, -⟩ := shown
      cases value with
      | null =>
        refine .member yields fun later _ => ?_
        by_cases hasValue : (name == "HasValue") = true
        · exact Achieves.congr (.of_eq fun _ => by
            unfold Eval.getMember
            simp only [hasValue, if_true]
            rfl) (if_pos hasValue).symm
        · refine Achieves.congr ((Achieves.raiseNull later).of_same fun _ => ?_) (if_neg hasValue).symm
          unfold Eval.getMember
          simp only [if_neg hasValue]
      | _ => cases isNull
  · obtain ⟨address, rfl, present⟩ := shown
    have isItem : (Comparand.held object).component name = .ok item := by
      simp [Comparand.component, isStored]
    rw [isItem]
    exact yields.stored present isStored

def Comparand.Offers (records : List TypeDecl) (among : Set Nat) (decl : TypeDecl) : Comparand → Prop
  | .held object => ∀ param ∈ decl.components, ∃ value,
      object.fields.lookup param.name = some value ∧ value.Among records among
  | .plain value => value.isNull = true

theorem Comparand.Offers.component {decl : TypeDecl} (offers : right.Offers records among decl)
    (isParam : param ∈ decl.components) :
    (right.isNull = true ∨ ∃ object item, right = .held object ∧
      object.fields.lookup param.name = some item) ∧
    ∀ item, right.component param.name = .ok item → item.Among records among := by
  cases right with
  | held object =>
    obtain ⟨value, isStored, isAmong⟩ := offers param isParam
    refine ⟨.inr ⟨object, value, rfl, isStored⟩, fun item isItem => ?_⟩
    obtain rfl : value = item := by simpa [Comparand.component, isStored] using isItem
    exact isAmong
  | plain value =>
    refine ⟨.inl offers, fun item isItem => ?_⟩
    dsimp only [Comparand.component] at isItem
    split at isItem
    · cases isItem
      exact .simple (by simp) (by simp) (by simp) fun _ _ => rfl
    · cases isItem

variable {decl : TypeDecl}
  (compares : program.Compares types records objects among)
  (runs : EqualsRuns program records objects among room)
  (isRoom : Machine.maxDepth - start.depth = room) (holds : start.Holds objects)
  (isThis : frame.this = .object this) (present : start.objects[this]? = some left)
  (leftOffers : (Comparand.held left).Offers records among decl)
  (rightOffers : right.Offers records among decl)
  (yields : Provides program scope frame start other (.ok value)) (shown : value.ShowsAs start right)

include compares runs isRoom holds isThis present leftOffers rightOffers yields shown

theorem YieldsBool.component (isParam : param ∈ decl.components) :
    YieldsBool program scope frame start
      (shape.objectCall "Equals" [shape.ownMember param.name, shape.span.member other param.name])
      (do
        let mine ← (Comparand.held left).component param.name
        let others ← right.component param.name
        sameValue records objects (equals program records objects room) mine others) := by
  obtain ⟨mine, isStored, mineAmong⟩ := leftOffers param isParam
  have isMine : (Comparand.held left).component param.name = .ok mine := by
    simp [Comparand.component, isStored]
  obtain ⟨isKnown, othersAmong⟩ := rightOffers.component isParam
  have isSelf : Provides program scope frame start shape.span.self (.ok (.object this)) := by
    rw [← isThis]
    exact .self
  have argsYield : Forall₂ (Provides program scope frame start)
      [shape.ownMember param.name, shape.span.member other param.name]
      [.ok mine, right.component param.name] :=
    .cons (isSelf.stored present isStored) (.cons (yields.component shown isKnown) .nil)
  have compared : Provides program scope frame start
      (shape.objectCall "Equals" [shape.ownMember param.name, shape.span.member other param.name])
      ([.ok mine, right.component param.name].mapM id >>= fun values =>
        (sameValue records objects (equals program records objects room) (values.getD 0 .null)
          (values.getD 1 .null)).map .bool) := by
    refine .objectCall shape _ compares.noObject argsYield ?_ fun values later isValues grows => ?_
    · intro arg isIn inner isOut
      rcases mem_cons.1 isIn with rfl | isOther
      · cases isOut
      · rcases mem_cons.1 isOther with rfl | isNone
        · cases isOut
        · cases isNone
    · cases isItem : right.component param.name with
      | error failure =>
        rw [isItem] at isValues
        cases isValues
      | ok item =>
        rw [isItem] at isValues
        obtain rfl : [mine, item] = values := Except.ok.inj isValues
        exact (objectEquals_computes compares runs mineAmong (othersAmong item isItem)
          (by rw [grows.depth]; exact isRoom) (holds.grows grows)).map Value.bool
  refine fun later grows => (compared later grows).congr ?_
  rw [isMine]
  cases right.component param.name <;> rfl

theorem YieldsBool.equalsSelf (notOut : ∀ inner, other.kind ≠ .out inner) :
    YieldsBool program scope frame start (shape.span.conjunction
        ((if decl.recordShape.isStruct then [] else [shape.span.unary .not (shape.isNull other)]) ++
          decl.components.map fun param => shape.objectCall "Equals"
            [shape.ownMember param.name, shape.span.member other param.name]))
      (if right.isNull && !decl.recordShape.isStruct then .ok false
        else sameComponents (sameValue records objects (equals program records objects room))
          (.held left) right decl.components) := by
  have components : Forall₂ (YieldsBool program scope frame start)
      (decl.components.map fun param => shape.objectCall "Equals"
        [shape.ownMember param.name, shape.span.member other param.name])
      (decl.components.map fun param => do
        let mine ← (Comparand.held left).component param.name
        let others ← right.component param.name
        sameValue records objects (equals program records objects room) mine others) := by
    rw [forall₂_map_left_iff, forall₂_map_right_iff, forall₂_same]
    exact fun param isParam => .component shape compares runs isRoom holds isThis present
      leftOffers rightOffers yields shown isParam
  rw [sameComponents_allOf]
  cases isStruct : decl.recordShape.isStruct with
  | true =>
    have compared := YieldsBool.conjunction shape.span components
    simpa using compared
  | false =>
    have notNull : YieldsBool program scope frame start (shape.span.unary .not (shape.isNull other))
        (.ok (!right.isNull)) := by
      rw [← shown.isNull_eq]
      exact Provides.not (YieldsBool.isNull shape compares.noObject notOut yields)
    have compared := YieldsBool.conjunction shape.span (.cons notNull components)
    cases isNull : right.isNull with
    | true =>
      rw [isNull] at compared
      exact compared
    | false =>
      rw [isNull] at compared
      exact compared

end Bodies

/-! ## Calls of `Equals` -/

theorem Program.convertTo_named (ownName : name ≠ "double") {args : List TypeSyntax}
    {value : Value} : Program.convertTo (.named name args) value = value := by
  unfold Program.convertTo
  split
  · rename_i isNullable
    cases isNullable
  · rename_i isDouble
    cases isDouble
    exact absurd rfl ownName
  · rfl

theorem TypeDecl.equalsCode_takes (ownName : decl.name ∉ valueTypeNames) (isOwn : Bool)
    (value : Value) : Forall₂ Param.Takes (decl.equalsCode isOwn).params [value] := by
  have notDouble : decl.name ≠ "double" := fun isDouble => ownName (by rw [isDouble]; decide)
  cases isOwn with
  | true => exact .cons ⟨rfl, Program.convertTo_named notDouble⟩ .nil
  | false => exact .cons ⟨rfl, Program.convertTo_named (by decide)⟩ .nil

section Calling

variable {program : Program} {types : Universe} {records : List TypeDecl} {objects : Array Object}
  {among : Set Nat}

theorem record?_eq_some {className : String} {decl : TypeDecl}
    (isRecord : record? records className = some decl) : decl ∈ records ∧ decl.name = className := by
  refine ⟨mem_of_find?_eq_some isRecord, ?_⟩
  simpa using find?_some isRecord

theorem Program.derives_refl (program : Program) : program.derives name name = true := by
  simp [derives, derivesWithin]

theorem Value.ShowsAs.called {machine : Machine} {value : Value} {right : Comparand}
    (shown : value.ShowsAs machine right) :
    (machine.copied value).1.ShowsAs (machine.called [param] [value]) right :=
  shown.copied.of_objects rfl

theorem Machine.valueOf?_called_single (machine : Machine) (param : Param) (value : Value) :
    (machine.called [param] [value]).valueOf? (machine.scopes.size + 1) param.name =
      some (machine.copied value).1 :=
  Machine.valueOf?_called (.refl _) (by simp [bindVars, assocSet, Machine.copiedAll])

variable {machine : Machine} {this : Nat} {left : Object} {value : Value} {right : Comparand}
  {decl : TypeDecl} {room : Nat}

theorem Calls.equalsObject (ownName : decl.name ∉ valueTypeNames)
    (room : machine.depth < Machine.maxDepth)
    (shown : value.ShowsAs machine right) (notLibrary : right.isLibrary decl.name = false)
    (notFits : right.fits program decl = false) :
    Calls program
      (fun recur => Eval.runMember program recur (decl.equalsCode false) (.object this) [value])
      machine (.ok (.bool false)) := by
  have taken := decl.equalsCode_takes ownName false value
  refine .returns decl.span rfl taken room (Provides.and_stops ?_ _ (.refl _))
  refine .typeTest (.ident (machine.valueOf?_called_single _ value)) fun later grows => ?_
  have fits : program.fitsRecord later decl (machine.copied value).1 = right.fits program decl :=
    (shown.called.grows grows).fitsRecord_eq ownName notLibrary
  rw [notFits] at fits
  exact (Bool.or_eq_false_iff.1 fits).2

theorem Calls.equalsSelf (compares : program.Compares types records objects among)
    (runs : EqualsRuns program records objects among room) (ownName : decl.name ∉ valueTypeNames)
    (isRoom : Machine.maxDepth - machine.depth = room + 1) (holds : machine.Holds objects)
    (present : machine.objects[this]? = some left) (shown : value.ShowsAs machine right)
    (leftOffers : (Comparand.held left).Offers records among decl)
    (rightOffers : right.Offers records among decl) :
    Calls program
      (fun recur => Eval.runMember program recur (decl.equalsCode true) (.object this) [value])
      machine
      ((if right.isNull && !decl.recordShape.isStruct then .ok false
        else sameComponents (sameValue records objects (equals program records objects room))
          (.held left) right decl.components).map .bool) := by
  have taken := decl.equalsCode_takes ownName true value
  have grows := machine.grows_called [.plain decl.recordShape.selfType "other"] [value]
  have isOther := machine.valueOf?_called_single (.plain decl.recordShape.selfType "other") value
  refine .returns decl.span rfl taken (by omega) ?_
  refine YieldsBool.equalsSelf decl.recordShape compares runs ?_ ?_ rfl ?_ leftOffers
    rightOffers (.ident isOther) shown.called (fun inner isOut => by cases isOut) _ (.refl _)
  · have isDeeper : machine.deeper.depth = machine.depth + 1 := rfl
    rw [grows.depth, isDeeper]
    omega
  · have deeperHolds : machine.deeper.Holds objects := holds
    exact deeperHolds.grows grows
  · exact grows.objects _ _ present

theorem equalsRuns (compares : program.Compares types records objects among) (room : Nat) :
    EqualsRuns program records objects among room := by
  induction room with
  | zero =>
    intro machine this left value right isRoom holds present isRecord stores shown settled
    obtain ⟨decl, isDecl⟩ := Option.isSome_iff_exists.1 isRecord
    obtain ⟨isIn, isName⟩ := record?_eq_some isDecl
    have found := (compares.has decl isIn).findEquals machine value
    rw [isName] at found
    exact .invoke present found
      (.limit (decl.equalsCode_takes (compares.has decl isIn).ownName _ value) (by omega))
  | succ room ih =>
    intro machine this left value right isRoom holds present isRecord stores shown settled
    obtain ⟨decl, isDecl⟩ := Option.isSome_iff_exists.1 isRecord
    obtain ⟨isIn, isName⟩ := record?_eq_some isDecl
    have has := compares.has decl isIn
    have found := has.findEquals machine value
    rw [isName, shown.fitsRecord_eq has.ownName (settled.notLibrary isIn)] at found
    refine .invoke present found ?_
    unfold equals
    rw [isDecl]
    dsimp only
    cases fits : right.fits program decl with
    | false => exact .equalsObject has.ownName (by omega) shown (settled.notLibrary isIn) fits
    | true =>
      have ownOffers : (Comparand.held left).Offers records among decl :=
        stores decl (by rw [isName]; exact isDecl) (by rw [isName]; exact program.derives_refl)
      have rightOffers : right.Offers records among decl := by
        cases right with
        | held object => exact settled decl (by rw [isName]; exact isDecl) fits
        | plain other => exact fits
      exact .equalsSelf compares ih has.ownName isRoom holds present shown ownOffers rightOffers

end Calling

end Unsugar
