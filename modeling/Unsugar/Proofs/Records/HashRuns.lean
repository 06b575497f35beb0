import Unsugar.Proofs.Records.EqualsRuns

open List

namespace Unsugar

open Pass

/-! # Running `==` and `!=` on records

The operators of a record call `Equals`, one or two calls further down.
-/

def equalByOperator (program : Program) (records : List TypeDecl) (objects : Array Object) :
    (room : Nat) → Object → Comparand → Except Failure Bool
  | 0, _, _ => .error .callDepth
  | room + 1, left, right => equals program records objects room left right

def differByOperator (program : Program) (records : List TypeDecl) (objects : Array Object) :
    (room : Nat) → Object → Comparand → Except Failure Bool
  | 0, _, _ => .error .callDepth
  | room + 1, left, right =>
    (equalByOperator program records objects room left right).map fun holds => !holds

section Operators

variable {program : Program} {types : Universe} {records : List TypeDecl} {objects : Array Object}
  {among : Set Nat} {room : Nat} {machine : Machine} {decl : TypeDecl} {left right : Value}
  {leftSide rightSide : Comparand}

def TypeDecl.operands (decl : TypeDecl) : List Param :=
  [.plain decl.recordShape.selfType "left", .plain decl.recordShape.selfType "right"]

theorem operands_called (decl : TypeDecl) (leftShown : left.ShowsAs machine leftSide)
    (rightShown : right.ShowsAs machine rightSide) :
    ∃ first second : Value,
      (machine.called decl.operands [left, right]).valueOf? (machine.scopes.size + 1) "left" =
        some first ∧
      (machine.called decl.operands [left, right]).valueOf? (machine.scopes.size + 1) "right" =
        some second ∧
      first.ShowsAs (machine.called decl.operands [left, right]) leftSide ∧
      second.ShowsAs (machine.called decl.operands [left, right]) rightSide := by
  let once := (machine.copied left).2
  have leftOnce := leftShown.copied
  have rightOnce := rightShown.grows (machine.grows_copied left)
  have isBound : bindVars decl.operands (machine.copiedAll [left, right]).1 [] =
      [("left", (machine.copied left).1), ("right", (once.copied right).1)] := rfl
  refine ⟨(machine.copied left).1, (once.copied right).1, Machine.valueOf?_called (.refl _) ?_,
    Machine.valueOf?_called (.refl _) ?_, (leftOnce.grows (once.grows_copied right)).of_objects rfl,
    rightOnce.copied.of_objects rfl⟩
  · rw [isBound]
    rfl
  · rw [isBound]
    rfl

variable {entry : Object}

theorem YieldsBool.equals {scope : Nat} {frame : Frame} {start : Machine} {span : Span}
    {leftNode rightNode : Expr} (compares : program.Compares types records objects among)
    (isRoom : Machine.maxDepth - start.depth = room) (holds : start.Holds objects)
    (isRecord : (record? records entry.className).isSome)
    (stores : entry.Stores program records among)
    (settled : rightSide.Settled program records among)
    (leftYields : Provides program scope frame start leftNode (.ok left))
    (rightYields : Provides program scope frame start rightNode (.ok right))
    (notBase : leftNode.kind ≠ .base) (notOut : ∀ inner, rightNode.kind ≠ .out inner)
    (leftShown : left.ShowsAs start (.held entry)) (rightShown : right.ShowsAs start rightSide) :
    YieldsBool program scope frame start (span.methodCall leftNode "Equals" [rightNode])
      (Unsugar.equals program records objects room entry rightSide) := by
  obtain ⟨this, rfl, present⟩ := leftShown
  have argsYield : Forall₂ (Provides program scope frame start) [rightNode] [.ok right] :=
    .cons rightYields .nil
  refine Provides.methodCall
    (fun _ => (Unsugar.equals program records objects room entry rightSide).map .bool)
    argsYield leftYields notBase
    (fun arg isIn => by rw [mem_singleton.1 isIn]; exact notOut)
    fun values later isValues grows => ?_
  obtain rfl : [right] = values := Except.ok.inj isValues
  exact equalsRuns compares room later this entry right rightSide (by rw [grows.depth]; exact isRoom)
    (holds.grows grows) (grows.objects _ _ present) isRecord stores (rightShown.grows grows) settled

theorem TypeDecl.operands_taken {decl : TypeDecl} (ownName : decl.name ∉ valueTypeNames)
    {left right : Value} : Forall₂ Param.Takes decl.operands [left, right] := by
  have notDouble : decl.name ≠ "double" := fun isDouble => ownName (by rw [isDouble]; decide)
  exact .cons ⟨rfl, Program.convertTo_named notDouble⟩
    (.cons ⟨rfl, Program.convertTo_named notDouble⟩ .nil)

/-- A call of an operator returns what its value is where the operands have names. -/
theorem Calls.operator (has : program.HasRecord types decl) (op : BinaryOp) (value : Expr)
    (leftShown : left.ShowsAs machine leftSide) (rightShown : right.ShowsAs machine rightSide)
    {expected : Except Failure Value}
    (limited : ¬ machine.depth < Machine.maxDepth → expected = .error .callDepth)
    (provides : machine.depth < Machine.maxDepth → ∀ called : Machine, machine.deeper.Grows called →
      ∀ first second, called.valueOf? (machine.scopes.size + 1) "left" = some first →
        called.valueOf? (machine.scopes.size + 1) "right" = some second →
        first.ShowsAs called leftSide → second.ShowsAs called rightSide →
        Provides program (machine.scopes.size + 1) ⟨.null, some decl.name⟩ called value expected) :
    Calls program (fun recur => Eval.runMember program recur
      ((decl.recordShape.operator op value).code decl.name) .null [left, right]) machine expected := by
  have taken : Forall₂ Param.Takes ((decl.recordShape.operator op value).code decl.name).params
      [left, right] := decl.operands_taken has.ownName
  by_cases isRoom : machine.depth < Machine.maxDepth
  · obtain ⟨first, second, isFirst, isSecond, firstShown, secondShown⟩ :=
      operands_called decl leftShown rightShown
    exact .returns decl.span rfl taken isRoom (provides isRoom _
      (machine.grows_called decl.operands [left, right]) first second isFirst isSecond firstShown
      secondShown _ (.refl _))
  · rw [limited isRoom]
    exact .limit taken (by omega)

theorem Calls.eqOperator (compares : program.Compares types records objects among)
    (has : program.HasRecord types decl) (isRoom : Machine.maxDepth - machine.depth = room)
    (holds : machine.Holds objects) (isRecord : (record? records entry.className).isSome)
    (stores : entry.Stores program records among)
    (settled : rightSide.Settled program records among)
    (leftShown : left.ShowsAs machine (.held entry)) (rightShown : right.ShowsAs machine rightSide) :
    Calls program (fun recur => Eval.runMember program recur
        (decl.recordShape.eqOperator.code decl.name) .null [left, right]) machine
      ((equalByOperator program records objects room entry rightSide).map .bool) := by
  refine .operator has .eq _ leftShown rightShown (fun noRoom => ?_)
    fun _ called grows first second isFirst isSecond firstShown secondShown => ?_
  · obtain rfl : room = 0 := by omega
    rfl
  obtain ⟨room, rfl⟩ : ∃ less, room = less + 1 := ⟨room - 1, by omega⟩
  have isDeeper : machine.deeper.depth = machine.depth + 1 := rfl
  have deeperHolds : machine.deeper.Holds objects := holds
  have equals : YieldsBool program (machine.scopes.size + 1) ⟨.null, some decl.name⟩ called
      (decl.span.methodCall (decl.span.ident "left") "Equals" [decl.span.ident "right"])
      (Unsugar.equals program records objects room entry rightSide) :=
    .equals compares (by rw [grows.depth, isDeeper]; omega) (deeperHolds.grows grows) isRecord stores
      settled (.ident isFirst) (.ident isSecond) (fun isBase => by cases isBase)
      (fun inner isOut => by cases isOut) firstShown secondShown
  have notNull : YieldsBool program (machine.scopes.size + 1) ⟨.null, some decl.name⟩ called
      (decl.recordShape.isNull (decl.span.ident "left")) (.ok false) := by
    rw [← show first.isNull = false from firstShown.isNull_eq]
    exact .isNull_ident decl.recordShape compares.noObject isFirst
  split
  · exact equals
  · exact Provides.conditional notNull
      (YieldsBool.isNull_ident decl.recordShape compares.noObject isSecond) equals

theorem Eval.operatorEq_found {recur : Answer} {negated : Bool} {className : String} {code : Code}
    (isClass : operandClass? left right machine = (.ok (some className), machine))
    (found : program.findOperator? className (if negated then .notEq else .eq) = some code) :
    operatorEq program recur negated left right machine =
      (runMember program recur code .null [left, right] >>= fun result => pure result.value) machine := by
  unfold operatorEq
  dsimp only
  rw [bind_ok isClass]
  dsimp only
  rw [found]

theorem Eval.operandClass?_left {address : Nat} (present : machine.objects[address]? = some entry)
    (right : Value) :
    operandClass? (.object address) right machine = (.ok (some entry.className), machine) :=
  (bind_ok (object_eq present)).trans rfl

theorem Achieves.operatorEq {negated : Bool} {className : String} {code : Code}
    {verdict : Except Failure Bool}
    (isClass : Eval.operandClass? left right machine = (.ok (some className), machine))
    (found : program.findOperator? className (if negated then .notEq else .eq) = some code)
    (calls : Calls program (fun recur => Eval.runMember program recur code .null [left, right]) machine
      (verdict.map .bool)) :
    Achieves program (fun recur => Eval.operatorEq program recur negated left right) machine
      (verdict.map .bool) := by
  have called : Achieves program (fun recur =>
      Eval.runMember program recur code .null [left, right] >>= fun result => Pure.pure result.value)
      machine (verdict.map Value.bool >>= .ok) :=
    Calls.bind .ok calls fun value _ _ _ => .pure value _
  refine (called.of_here fun recur => Eval.operatorEq_found isClass found).congr ?_
  cases verdict <;> rfl

variable (compares : program.Compares types records objects among)

include compares

theorem Achieves.binary_eq (isRoom : Machine.maxDepth - machine.depth = room)
    (holds : machine.Holds objects) (isRecord : record? records entry.className = some decl)
    (stores : entry.Stores program records among)
    (settled : rightSide.Settled program records among)
    (leftShown : left.ShowsAs machine (.held entry)) (rightShown : right.ShowsAs machine rightSide) :
    Achieves program (fun recur => Eval.binary program recur .eq left right) machine
      ((equalByOperator program records objects room entry rightSide).map .bool) := by
  obtain ⟨isIn, isName⟩ := record?_eq_some isRecord
  have has := compares.has decl isIn
  have called := Calls.eqOperator compares has isRoom holds (by rw [isRecord]; rfl) stores settled
    leftShown rightShown
  obtain ⟨address, rfl, present⟩ := leftShown
  have isClass := Eval.operandClass?_left present right
  rw [← isName] at isClass
  exact .operatorEq isClass has.findOperator.1 called

theorem Achieves.binary_notEq (isRoom : Machine.maxDepth - machine.depth = room)
    (holds : machine.Holds objects) (isRecord : record? records entry.className = some decl)
    (stores : entry.Stores program records among)
    (settled : rightSide.Settled program records among)
    (leftShown : left.ShowsAs machine (.held entry)) (rightShown : right.ShowsAs machine rightSide) :
    Achieves program (fun recur => Eval.binary program recur .notEq left right) machine
      ((differByOperator program records objects room entry rightSide).map .bool) := by
  obtain ⟨isIn, isName⟩ := record?_eq_some isRecord
  have has := compares.has decl isIn
  have called : Calls program (fun recur => Eval.runMember program recur
      (decl.recordShape.neOperator.code decl.name) .null [left, right]) machine
      ((differByOperator program records objects room entry rightSide).map .bool) := by
    refine .operator has .notEq _ leftShown rightShown (fun noRoom => ?_)
      fun _ called grows first second isFirst isSecond firstShown secondShown => ?_
    · obtain rfl : room = 0 := by omega
      rfl
    obtain ⟨room, rfl⟩ : ∃ less, room = less + 1 := ⟨room - 1, by omega⟩
    have isDeeper : machine.deeper.depth = machine.depth + 1 := rfl
    have deeperHolds : machine.deeper.Holds objects := holds
    have equal : YieldsBool program (machine.scopes.size + 1) ⟨.null, some decl.name⟩ called
        (decl.span.binary .eq (decl.span.ident "left") (decl.span.ident "right"))
        (equalByOperator program records objects room entry rightSide) :=
      .binary (by decide) (.ident isFirst) (.ident isSecond) fun later more =>
        .binary_eq compares (by rw [more.depth, grows.depth, isDeeper]; omega)
          ((deeperHolds.grows grows).grows more) isRecord stores settled (firstShown.grows more)
          (secondShown.grows more)
    refine fun later more => (Provides.not (.paren equal) later more).congr ?_
    rw [differByOperator]
    cases equalByOperator program records objects room entry rightSide <;> rfl
  obtain ⟨address, rfl, present⟩ := leftShown
  have isClass := Eval.operandClass?_left present right
  rw [← isName] at isClass
  exact .operatorEq isClass has.findOperator.2 called

theorem Calls.eqOperator_null (has : program.HasRecord types decl)
    (isClass : decl.recordShape.isStruct = false) (rightShown : right.ShowsAs machine (.held entry)) :
    Calls program (fun recur => Eval.runMember program recur
        (decl.recordShape.eqOperator.code decl.name) .null [.null, right]) machine
      ((if machine.depth < Machine.maxDepth then .ok false else .error .callDepth : Except Failure Bool).map
        .bool) := by
  have nullShown : Value.ShowsAs .null machine (.plain .null) := ⟨rfl, fun _ isObject => by cases isObject⟩
  refine .operator has .eq _ nullShown rightShown (fun noRoom => by rw [if_neg noRoom]; rfl)
    fun isRoom called grows first second isFirst isSecond firstShown secondShown => ?_
  obtain ⟨rfl, -⟩ := firstShown
  have leftNull : YieldsBool program (machine.scopes.size + 1) ⟨.null, some decl.name⟩ called
      (decl.recordShape.isNull (decl.span.ident "left")) (.ok true) :=
    .isNull_ident decl.recordShape compares.noObject isFirst
  have rightNotNull : YieldsBool program (machine.scopes.size + 1) ⟨.null, some decl.name⟩ called
      (decl.recordShape.isNull (decl.span.ident "right")) (.ok false) := by
    rw [← show second.isNull = false from secondShown.isNull_eq]
    exact .isNull_ident decl.recordShape compares.noObject isSecond
  rw [if_pos isRoom, isClass]
  exact .conditional_true leftNull rightNotNull

theorem Achieves.null_eq (isRecord : record? records entry.className = some decl)
    (isClass : decl.recordShape.isStruct = false) (rightShown : right.ShowsAs machine (.held entry)) :
    Achieves program (fun recur => Eval.binary program recur .eq .null right) machine
      ((if machine.depth < Machine.maxDepth then .ok false else .error .callDepth :
        Except Failure Bool).map .bool) := by
  obtain ⟨isIn, isName⟩ := record?_eq_some isRecord
  have has := compares.has decl isIn
  have called := Calls.eqOperator_null compares has isClass rightShown
  obtain ⟨address, rfl, present⟩ := rightShown
  have isOperand : Eval.operandClass? .null (.object address) machine =
      (.ok (some entry.className), machine) := (Eval.bind_ok (Eval.object_eq present)).trans rfl
  rw [← isName] at isOperand
  exact .operatorEq isOperand has.findOperator.1 called

end Operators

/-! ## Running `GetHashCode`

The lowered hash of a record mixes the hashes of its components.  A component whose
declared type is not a plain value type is compared with `null` first, by `==`, which
for an instance of a record is the operator of that record.
-/

/-! ## The hash as a function -/

section Functions

variable (program : Program) (types : Universe) (records : List TypeDecl) (objects : Array Object)

def nullByOperator (room : Nat) : Value → Except Failure Bool
  | .object address =>
    equalByOperator program records objects room (objects.getD address default) (.plain .null)
  | value => .ok value.isNull

def valueHash (hash : Object → Except Failure Int) : Value → Except Failure Int
  | .null => .error .nullReference
  | .object address => hash (objects.getD address default)
  | value => .ok value.hashCode

def componentHash (room : Nat) (hash : Object → Except Failure Int) (param : Param) (value : Value) :
    Except Failure Int :=
  if types.isPlainValue (types.names.bind param.type) then valueHash objects hash value
  else do
    if ← nullByOperator program records objects room value then return 0
    else valueHash objects hash value

def mixed (component : Param → Value → Except Failure Int) (object : Object) :
    Int → List Param → Except Failure Int
  | hash, [] => .ok hash
  | hash, param :: rest => do
    let value ← (Comparand.held object).component param.name
    let more ← component param value
    mixed component object (wrap32 (wrap32 (hash * 31) + more)) rest

/-- `GetHashCode` of an instance, with room for so many more calls. -/
def recordHash : (room : Nat) → Object → Except Failure Int
  | 0, _ => .error .callDepth
  | room + 1, object =>
    match record? records object.className with
    | none => .ok 0
    | some decl =>
      mixed (componentHash program types records objects room (recordHash room)) object 17
        decl.components

end Functions

/-! ## Instances of records -/

def Value.isBasic : Value → Bool
  | .null | .int _ | .bool _ | .char _ | .str _ => true
  | _ => false

def Value.IsComponent (among : Set Nat) (value : Value) : Prop :=
  value.isBasic = true ∨ ∃ address ∈ among, value = .object address

def Instances (records : List TypeDecl) (objects : Array Object) (among : Set Nat) : Prop :=
  ∀ address ∈ among, ∃ object decl, objects[address]? = some object ∧
    record? records object.className = some decl ∧
    ∀ param ∈ decl.components, ∃ value, object.fields.lookup param.name = some value ∧
      value.IsComponent among

structure Program.HasInstances (program : Program) (types : Universe) (records : List TypeDecl)
    (objects : Array Object) (among : Set Nat) : Prop where
  has : ∀ decl ∈ records, program.HasRecord types decl
  /-- Texts belong to the library type of this name. -/
  notSequence : ∀ decl ∈ records, decl.name ≠ "IEnumerable"
  noObject : program.find? "object" = none
  apart : ∀ decl ∈ records, ∀ other ∈ records, program.derives decl.name other.name = true →
    decl.name = other.name
  instances : Instances records objects among

theorem Value.IsComponent.among {value : Value} {records : List TypeDecl} {among : Set Nat}
    (isComponent : value.IsComponent among) (notSequence : ∀ decl ∈ records, decl.name ≠ "IEnumerable") :
    value.Among records among := by
  rcases isComponent with isBasic | ⟨address, isIn, rfl⟩
  · refine .simple ?_ ?_ ?_ fun decl isDecl => ?_
    iterate 3 (rintro _ rfl; cases isBasic)
    cases value with
    | null | int _ | bool _ | char _ => rfl
    | str _ => simpa [Value.isLibrary] using notSequence decl isDecl
    | _ => cases isBasic
  · exact .object isIn

section Instances

variable {program : Program} {types : Universe} {records : List TypeDecl} {objects : Array Object}
  {among : Set Nat}
  (hasInstances : program.HasInstances types records objects among)

include hasInstances

theorem Program.HasInstances.derives_iff {decl other : TypeDecl} (isIn : decl ∈ records)
    (otherIn : other ∈ records) :
    program.derives decl.name other.name = true ↔ decl.name = other.name := by
  refine ⟨hasInstances.apart decl isIn other otherIn, fun same => ?_⟩
  rw [same]
  exact program.derives_refl

theorem Program.HasInstances.stores {address : Nat} (isIn : address ∈ among) {object : Object}
    {decl : TypeDecl} (present : objects[address]? = some object)
    (isRecord : record? records object.className = some decl) :
    ∀ param ∈ decl.components, ∃ value, object.fields.lookup param.name = some value ∧
      value.IsComponent among := by
  obtain ⟨same, other, presentSame, isOther, stored⟩ := hasInstances.instances address isIn
  obtain rfl : object = same := Option.some.inj (present.symm.trans presentSame)
  obtain rfl : decl = other := Option.some.inj (isRecord.symm.trans isOther)
  exact stored

theorem Program.HasInstances.compares : program.Compares types records objects among where
  has := hasInstances.has
  noObject := hasInstances.noObject
  comparable := by
    refine ⟨fun address isIn => ?_⟩
    obtain ⟨object, decl, present, isRecord, components⟩ := hasInstances.instances address isIn
    obtain ⟨isDecl, isName⟩ := record?_eq_some isRecord
    refine ⟨object, present, fun other isOther derives param isParam => ?_, .inl (by rw [isRecord]; rfl)⟩
    rw [← isName] at derives
    have sameName := (hasInstances.derives_iff isDecl (record?_eq_some isOther).1).1 derives
    rw [← sameName, isName, isRecord] at isOther
    obtain rfl : decl = other := Option.some.inj isOther
    obtain ⟨value, isStored, isComponent⟩ := components param isParam
    exact ⟨value, isStored, isComponent.among hasInstances.notSequence⟩

end Instances

/-! ## Components -/

def YieldsInt (program : Program) (scope : Nat) (frame : Frame) (start : Machine) (node : Expr)
    (expected : Except Failure Int) : Prop :=
  Provides program scope frame start node (expected.map .int)

/-- With room for so many calls, `GetHashCode` of instances ends as `recordHash` says. -/
def HashRuns (program : Program) (types : Universe) (records : List TypeDecl) (objects : Array Object)
    (among : Set Nat) (room : Nat) : Prop :=
  ∀ (machine : Machine) (address : Nat) (object : Object),
    Machine.maxDepth - machine.depth = room → machine.Holds objects → address ∈ among →
    objects[address]? = some object →
    Calls program (fun recur => recur (.invoke (.object address) "GetHashCode" [] none)) machine
      ((recordHash program types records objects room object).map .int)

section Components

variable {program : Program} {types : Universe} {records : List TypeDecl} {objects : Array Object}
  {among : Set Nat} {room : Nat} {scope : Nat} {frame : Frame} {start : Machine} (span : Span)
  {node : Expr} {value : Value}

theorem Eval.builtinMethod_hash {recur : Answer} (isBasic : value.isBasic = true)
    (notNull : value.isNull = false) :
    builtinMethod program recur value "GetHashCode" [] = pure (.int value.hashCode) := by
  cases value with
  | null => cases notNull
  | int _ | bool _ | char _ | str _ => rfl
  | _ => cases isBasic

theorem YieldsInt.hash (hashes : HashRuns program types records objects among room)
    (isRoom : Machine.maxDepth - start.depth = room) (holds : start.Holds objects)
    (instances : Instances records objects among) (isComponent : value.IsComponent among)
    (yields : Provides program scope frame start node (.ok value)) (notBase : node.kind ≠ .base) :
    YieldsInt program scope frame start (span.methodCall node "GetHashCode" [])
      (valueHash objects (recordHash program types records objects room) value) := by
  refine Provides.methodCall
    (fun _ => (valueHash objects (recordHash program types records objects room) value).map .int) .nil
    yields notBase (fun _ isIn => by cases isIn) fun values later isValues grows => ?_
  obtain rfl : [] = values := Except.ok.inj isValues
  rcases isComponent with isBasic | ⟨address, isIn, rfl⟩
  · cases isNull : value.isNull with
    | true =>
      cases value with
      | null => exact .builtin rfl (Achieves.raiseNull later)
      | _ => cases isNull
    | false =>
      have isHash : valueHash objects (recordHash program types records objects room) value =
          .ok value.hashCode := by
        cases value with
        | null => cases isNull
        | object _ => cases isBasic
        | _ => rfl
      rw [isHash]
      refine .builtin ?_ (.of_eq fun recur => ?_)
      · cases value with
        | object _ | type _ => cases isBasic
        | _ => rfl
      · rw [Eval.builtinMethod_hash isBasic isNull]
        rfl
  · obtain ⟨object, decl, present, -⟩ := instances address isIn
    have called := hashes later address object (by rw [grows.depth]; exact isRoom) (holds.grows grows)
      isIn present
    change Calls program _ later ((recordHash program types records objects room
      (objects.getD address default)).map .int)
    rw [getD_of_present present]
    exact called

theorem YieldsBool.eqNull (hasInstances : program.HasInstances types records objects among)
    (isRoom : Machine.maxDepth - start.depth = room) (holds : start.Holds objects)
    (isComponent : value.IsComponent among) (yields : Provides program scope frame start node (.ok value)) :
    YieldsBool program scope frame start (span.binary .eq node span.nullLit)
      (nullByOperator program records objects room value) := by
  refine Provides.binary (by decide) yields (.literal .null) fun later grows => ?_
  have compares := hasInstances.compares
  rcases isComponent with isBasic | ⟨address, isIn, rfl⟩
  · have notObject (address : Nat) : value ≠ .object address := by
      rintro rfl
      cases isBasic
    cases value with
    | object address => exact absurd rfl (notObject address)
    | null | int _ | bool _ | char _ | str _ => exact .of_eq fun _ => rfl
    | _ => cases isBasic
  · obtain ⟨object, decl, present, isRecord, -⟩ := hasInstances.instances address isIn
    have isAmong : (Value.object address).Among records among := .object isIn
    have shown := isAmong.shows compares.comparable.present (holds.grows grows)
    have settled := compares.comparable.settled isAmong
    rw [Value.comparand_object present] at shown settled
    have nullSettled : (Comparand.plain .null).Settled program records among :=
      .simple (by simp) (by simp) (by simp) fun _ _ => rfl
    have nullShown : Value.ShowsAs .null later (.plain .null) := ⟨rfl, by simp⟩
    have isLater : Machine.maxDepth - later.depth = room := by rw [grows.depth]; exact isRoom
    have compared := Achieves.binary_eq compares isLater (holds.grows grows) isRecord settled nullSettled
      shown nullShown
    rw [← getD_of_present present] at compared
    exact compared

theorem YieldsInt.component (shape : RecordShape)
    (hasInstances : program.HasInstances types records objects among)
    (hashes : HashRuns program types records objects among room)
    (isRoom : Machine.maxDepth - start.depth = room) (holds : start.Holds objects)
    (isComponent : value.IsComponent among) (param : Param)
    (yields : Provides program scope frame start (shape.ownMember param.name) (.ok value)) :
    YieldsInt program scope frame start (shape.componentHash types param)
      (componentHash program types records objects room
        (recordHash program types records objects room) param value) := by
  have hash := YieldsInt.hash shape.span hashes isRoom holds hasInstances.instances isComponent
    yields (fun isBase => by cases isBase)
  unfold RecordShape.componentHash componentHash
  split
  · exact hash
  · have isNull := YieldsBool.eqNull shape.span hasInstances isRoom holds isComponent yields
    have zero : Provides program scope frame start (shape.span.intLit 0) (.ok (.int 0)) :=
      .literal (.int 0)
    have chosen : Provides program scope frame start (shape.span.conditional
        (shape.span.binary .eq (shape.ownMember param.name) shape.span.nullLit) (shape.span.intLit 0)
        (shape.span.methodCall (shape.ownMember param.name) "GetHashCode" [])) _ :=
      .conditional isNull zero hash
    refine fun later grows => (chosen later grows).congr ?_
    cases nullByOperator program records objects room value with
    | error failure => rfl
    | ok isNull => cases isNull <;> rfl

theorem YieldsInt.mix {current : Expr} {hash : Int} {expected : Except Failure Int}
    (currentYields : Provides program scope frame start current (.ok (.int hash)))
    (yields : YieldsInt program scope frame start node expected) :
    YieldsInt program scope frame start
      (span.binary .add (span.binary .mul current (span.intLit 31)) node)
      (expected.map fun more => wrap32 (wrap32 (hash * 31) + more)) := by
  have scaled : Provides program scope frame start (span.binary .mul current (span.intLit 31))
      (.ok (.int (wrap32 (hash * 31)))) :=
    .binary (by decide) currentYields (.literal (.int 31)) fun later _ => .of_eq fun _ => rfl
  cases expected with
  | ok more => exact .binary (by decide) scaled yields fun later _ => .of_eq fun _ => rfl
  | error failure =>
    exact Provides.binary_bind (fun _ => .error failure) (by decide) scaled yields
      fun value later isValue _ => by cases isValue

end Components

/-! ## The body -/

section Body

variable {program : Program} {types : Universe} {records : List TypeDecl} {objects : Array Object}
  {among : Set Nat} {room : Nat} {frame : Frame} {this : Nat} {object : Object}

def Pass.RecordShape.hashStep (shape : RecordShape) (types : Universe) (param : Param) : Stmt :=
  shape.span.assignStmt (shape.span.ident "hash") (shape.span.binary .add
      (shape.span.binary .mul (shape.span.ident "hash") (shape.span.intLit 31))
      (shape.componentHash types param))

theorem Runs.hashSteps (shape : RecordShape)
    (hasInstances : program.HasInstances types records objects among)
    (hashes : HashRuns program types records objects among room)
    (isThis : frame.this = .object this) {outer : Machine} {block : Nat}
    (isNew : outer.scopes.size ≤ block) (isRoom : Machine.maxDepth - outer.depth = room)
    (holds : outer.Holds objects) (present : outer.objects[this]? = some object) (params : List Param)
    (stored : ∀ param ∈ params, ∃ value, object.fields.lookup param.name = some value ∧
      value.IsComponent among) {machine : Machine} (grows : outer.Grows machine) {hash : Int}
    {parent : Option Nat} (isOpen : machine.scopes[block]? = some ⟨[("hash", .int hash)], parent⟩) :
    ∃ outcome after, Runs program (fun recur => Eval.execAll recur
        (params.map (shape.hashStep types) ++ [shape.span.ret (shape.span.ident "hash")]) block frame)
        machine outcome after ∧ outer.Grows after ∧
      Meets ((mixed (componentHash program types records objects room
        (recordHash program types records objects room)) object hash params).map .int)
        (Eval.returned outcome) after := by
  have isBound : machine.valueOf? block "hash" = some (.int hash) := Machine.valueOf?_own isOpen rfl
  induction params generalizing machine hash with
  | nil =>
    have evaluated : Runs program (fun recur => recur (.eval (shape.span.ident "hash") block frame))
        machine (.ok (.int hash)) machine := Evaluates.ident isBound
    exact ⟨_, machine, Runs.execAll_stops (.ret evaluated), grows, rfl⟩
  | cons param rest ih =>
    obtain ⟨value, isStored, isComponent⟩ := stored param mem_cons_self
    have isSelf : Provides program block frame machine shape.span.self (.ok (.object this)) := by
      rw [← isThis]
      exact .self
    have component := YieldsInt.component shape hasInstances hashes (by rw [grows.depth]; exact isRoom)
      (holds.grows grows) isComponent param (isSelf.stored (grows.objects _ _ present) isStored)
    obtain ⟨outcome, middle, runs, more, meets⟩ :=
      YieldsInt.mix shape.span (.ident isBound) component machine (.refl _)
    have isMixed : mixed (componentHash program types records objects room
        (recordHash program types records objects room)) object hash (param :: rest) =
        (componentHash program types records objects room
          (recordHash program types records objects room) param value >>= fun more =>
            mixed (componentHash program types records objects room
              (recordHash program types records objects room)) object
              (wrap32 (wrap32 (hash * 31) + more)) rest) := by
      rw [mixed]
      simp only [Comparand.component, isStored]
      rfl
    rw [isMixed]
    cases isAdded : componentHash program types records objects room
        (recordHash program types records objects room) param value with
    | error failure =>
      rw [isAdded] at meets
      obtain ⟨reason, rfl, explains⟩ := meets
      refine ⟨.error reason, middle, .execAll_stops (Runs.evalStmt (.assign_error runs)),
        grows.trans more, reason, ?_, explains⟩
      exact explains.returned
    | ok added =>
      rw [isAdded] at meets
      obtain rfl : outcome = .ok (.int (wrap32 (wrap32 (hash * 31) + added))) := meets
      have evaluated : Evaluates program block frame _ machine _ middle := runs
      have stillOpen := more.scopes _ _ isOpen
      have assigned : Runs program (fun recur => recur (.eval (shape.span.assign
          (shape.span.ident "hash") _) block frame)) machine (.ok _) _ :=
        evaluated.assign (by simp) (by rw [more.valueOf? isBound]; rfl)
      rw [Machine.assign_own stillOpen rfl] at assigned
      have isOpenNext : (middle.declared block "hash"
          (.int (wrap32 (wrap32 (hash * 31) + added)))).scopes[block]? =
            some ⟨[("hash", .int (wrap32 (wrap32 (hash * 31) + added)))], parent⟩ :=
        Machine.getElem?_declared stillOpen _
      obtain ⟨last, after, restRuns, restGrows, restMeets⟩ := ih
        (fun other isOther => stored other (.tail _ isOther))
        ((grows.trans more).declared isNew "hash" _) isOpenNext (Machine.valueOf?_own isOpenNext rfl)
      exact ⟨last, after, .execAll_cons (Runs.evalStmt assigned) restRuns, restGrows, restMeets⟩

theorem Calls.hash {decl : TypeDecl} {machine : Machine}
    (hasInstances : program.HasInstances types records objects among)
    (hashes : HashRuns program types records objects among room)
    (isRoom : Machine.maxDepth - machine.depth = room + 1) (holds : machine.Holds objects)
    (present : machine.objects[this]? = some object)
    (stored : ∀ param ∈ decl.components, ∃ value, object.fields.lookup param.name = some value ∧
      value.IsComponent among) :
    Calls program (fun recur => Eval.runMember program recur
        ((decl.recordShape.hash types).code decl.name) (.object this) []) machine
      ((mixed (componentHash program types records objects room
        (recordHash program types records objects room)) object 17 decl.components).map .int) := by
  let outer := (machine.withScope ⟨[], none⟩).deeper
  let block := machine.scopes.size + 1
  have outerGrows : machine.deeper.Grows outer := by
    have grows := (Machine.Grows.refl machine).withScope ⟨[], none⟩
    exact { grows with depth := congrArg (· + 1) grows.depth }
  have isOuter : outer.depth = machine.depth + 1 := rfl
  have size : outer.scopes.size = block := by simp [outer, block, Machine.withScope, Machine.deeper]
  have isOpen : ((machine.called [] []).declared block "hash" (.int 17)).scopes[block]? =
      some ⟨[("hash", .int 17)], some machine.scopes.size⟩ :=
    Machine.getElem?_declared (machine.getElem?_called [] []) (.int 17)
  have started : Runs program (fun recur => recur (.exec (decl.span.declare (.simple "int") "hash"
      (some (decl.span.intLit 17))) block ⟨.object this, some decl.name⟩)) (machine.called [] [])
      (.ok ()) ((machine.called [] []).declared block "hash" (.int 17)) :=
    .declare (Evaluates.literal decl.span (.int 17) _)
  have startGrows : outer.Grows ((machine.called [] []).declared block "hash" (.int 17)) :=
    ((Machine.Grows.refl outer).withScope ⟨[], some machine.scopes.size⟩).declared (by omega) _ _
  have outerHolds : outer.Holds objects := holds
  have outerPresent : outer.objects[this]? = some object := present
  have isThis : (⟨.object this, some decl.name⟩ : Frame).this = .object this := rfl
  obtain ⟨outcome, after, runs, grows, meets⟩ := Runs.hashSteps decl.recordShape hasInstances hashes
    isThis (by omega) (by omega) outerHolds outerPresent decl.components stored startGrows isOpen
  have taken : Forall₂ Param.Takes ((decl.recordShape.hash types).code decl.name).params [] := .nil
  have isBody : ((decl.recordShape.hash types).code decl.name).body = .block (decl.span.block
      (decl.span.declare (.simple "int") "hash" (some (decl.span.intLit 17)) ::
        (decl.components.map (decl.recordShape.hashStep types) ++
          [decl.span.ret (decl.span.ident "hash")]))) := rfl
  exact .member isBody taken (by omega) (started.execAll_cons runs) (outerGrows.trans grows) meets

theorem hashRuns (hasInstances : program.HasInstances types records objects among) (room : Nat) :
    HashRuns program types records objects among room := by
  induction room with
  | zero =>
    intro machine address object isRoom holds isIn present
    obtain ⟨same, decl, presentSame, isRecord, -⟩ := hasInstances.instances address isIn
    obtain rfl : object = same := Option.some.inj (present.symm.trans presentSame)
    obtain ⟨isDecl, isName⟩ := record?_eq_some isRecord
    have found := (hasInstances.has decl isDecl).findHash machine
    rw [isName] at found
    exact .invoke (holds _ _ present) found (.limit .nil (by omega))
  | succ room ih =>
    intro machine address object isRoom holds isIn present
    obtain ⟨same, decl, presentSame, isRecord, components⟩ := hasInstances.instances address isIn
    obtain rfl : object = same := Option.some.inj (present.symm.trans presentSame)
    obtain ⟨isDecl, isName⟩ := record?_eq_some isRecord
    have found : program.findMethod? machine object.className "GetHashCode" [] =
        some ((decl.recordShape.hash types).code decl.name, false) := by
      rw [← isName]
      exact (hasInstances.has decl isDecl).findHash machine
    refine .invoke (holds _ _ present) found ?_
    have hashed := Calls.hash hasInstances ih isRoom holds (holds _ _ present) components
    rw [recordHash, isRecord]
    exact hashed

end Body

end Unsugar
