import Unsugar.Eval.Member
import Unsugar.Text.Casing

namespace Unsugar.Eval

/-! # Built-in operations

Arithmetic, equality, formatting and the methods of the small library that a
lowered program relies on.
-/

section Builtin

variable (program : Program) (recur : Answer)

/-! ## Equality -/

def objectEquals (left right : Value) : Eval Bool := do
  if left.sameReference right then return true
  if left.isNull || right.isNull then return false
  match (← recur (.invoke left "Equals" [right] none)).value with
  | .bool result => return result
  | _ => unsupported "Equals returned no bool"

def operandClass? (left right : Value) : Eval (Option String) := do
  match left, right with
  | .object address, _ | _, .object address =>
    return some (← Machine.object address).className
  | _, _ => return none

def operatorEq (negated : Bool) (left right : Value) : Eval Value := do
  let builtin : Value := .bool (left.builtinEq right != negated)
  match ← operandClass? left right with
  | none => return builtin
  | some className =>
    let wanted := if negated then BinaryOp.notEq else BinaryOp.eq
    match program.findOperator? className wanted with
    | some code => return (← runMember program recur code .null [left, right]).value
    | none =>
      if !negated then return builtin
      match program.findOperator? className .eq with
      | none => return builtin
      | some code =>
        match (← runMember program recur code .null [left, right]).value with
        | .bool result => return .bool (!result)
        | _ => unsupported "operator == returned no bool"

/-! ## Arithmetic -/

def intBinary (op : BinaryOp) (left right : Int) : Eval Value := do
  match op with
  | .add => return .int (wrap32 (left + right))
  | .sub => return .int (wrap32 (left - right))
  | .mul => return .int (wrap32 (left * right))
  | .div | .mod =>
    if right = 0 then Machine.raise "DivideByZeroException" "Attempted to divide by zero."
    else if op = .div then return .int (wrap32 (left.tdiv right))
    else return .int (wrap32 (left.tmod right))
  | .lt => return .bool (left < right)
  | .ltEq => return .bool (left ≤ right)
  | .gt => return .bool (right < left)
  | .gtEq => return .bool (right ≤ left)
  | .bitAnd => return .int (bitwise64 (· &&& ·) left right)
  | .bitOr => return .int (bitwise64 (· ||| ·) left right)
  | .bitXor => return .int (bitwise64 (· ^^^ ·) left right)
  | _ => unsupported "unexpected integer operator"

def doubleBinary (op : BinaryOp) (left right : UInt64) : Eval Value := do
  match op with
  | .add => return .double (Binary64.apply (· + ·) left right)
  | .sub => return .double (Binary64.apply (· - ·) left right)
  | .mul => return .double (Binary64.apply (· * ·) left right)
  | .div => return .double (Binary64.apply (· / ·) left right)
  | .mod => return .double (Binary64.remainder left right)
  | .lt => return .bool (Binary64.test (fun a b => decide (a < b)) left right)
  | .ltEq => return .bool (Binary64.test (fun a b => decide (a ≤ b)) left right)
  | .gt => return .bool (Binary64.test (fun a b => decide (b < a)) left right)
  | .gtEq => return .bool (Binary64.test (fun a b => decide (b ≤ a)) left right)
  | _ => unsupported "unexpected floating operator"

def numberBinary (op : BinaryOp) (left right : Value) : Eval Value := do
  match left.number?, right.number? with
  | some (.int left), some (.int right) => intBinary op left right
  | some left, some right => doubleBinary op left.toDouble right.toDouble
  | _, _ => unsupported "operator on values that are not numbers"

/-- A binary operator on evaluated operands.  The operators that may skip their
    right operand yield it when they did not. -/
def binary (op : BinaryOp) (left right : Value) : Eval Value := do
  match op, left, right with
  | .eq, _, _ => operatorEq program recur false left right
  | .notEq, _, _ => operatorEq program recur true left right
  | .and, _, _ | .or, _, _ | .coalesce, _, _ => return right
  | .add, .str _, _ | .add, _, .str _ =>
    return .str ((← recur (.display left)) ++ (← recur (.display right)))
  | .bitAnd, .bool left, .bool right => return .bool (left && right)
  | .bitOr, .bool left, .bool right => return .bool (left || right)
  | .bitXor, .bool left, .bool right => return .bool (left != right)
  | _, _, _ => numberBinary op left right

def unary (op : UnaryOp) (operand : Value) : Eval Value := do
  match op, operand with
  | .not, .bool value => return .bool (!value)
  | .neg, .int value => return .int (wrap32 (-value))
  | .neg, .double bits => return .double (Binary64.negate bits)
  | .bitNot, .int value => return .int (wrap32 (-value - 1))
  | _, _ => unsupported "operator on this value"

/-! ## Text -/

def display (value : Value) : Eval String := do
  match value with
  | .null => return ""
  | .int value => return toString value
  | .double bits => return Decimal.renderShortest bits
  | .bool value => return if value then "True" else "False"
  | .char value => return value.toString
  | .str value => return value
  | .object address =>
    let className := (← Machine.object address).className
    match program.findMethod? (← get) className "ToString" [] with
    | some (code, _) =>
      recur (.display (← runMember program recur code value []).value)
    | none => return className
  | .list address => return if (← Machine.sequence address).isArray then "Array" else "List"
  | .tuple items =>
    let parts ← items.mapM fun item => recur (.display item)
    return "(" ++ ", ".intercalate parts ++ ")"
  | .closure _ => return "Func"
  | .type name => return name

def formatValue (spec : List Char) (value : Value) : Eval String := do
  match value.number?.bind (formatNumber? spec) with
  | some chars => return String.ofList chars
  | none => recur (.display value)

def formatItem (args : List Value) : FormatItem → Eval String
  | .char char => return char.toString
  | .hole text => do
    let hole := Hole.parse text
    match hole.index.bind fun index => args[index]? with
    | none => fault (.formatHole (String.ofList text))
    | some arg =>
      let filled ← formatValue recur hole.spec arg
      return String.ofList (padTo hole.width filled.toList)

def format (text : String) (args : List Value) : Eval String := do
  let pieces ← (formatItems text).mapM (formatItem recur args)
  return String.join pieces

/-! ## Methods of the library -/

def occursIn (part : List Char) : List Char → Bool
  | [] => part.isEmpty
  | char :: rest => part.isPrefixOf (char :: rest) || occursIn part rest

def natural? (value : Int) : Option Nat := if 0 ≤ value then some value.toNat else none

def substring (text : String) (start : Int) (rest : List Value) : Eval Value := do
  let chars := text.toList
  let start := natural? start
  let count := match rest with
    | [.int count] => natural? count
    | [] => start.map fun start => chars.length - start
    | _ => none
  match start, count with
  | some start, some count =>
    if start + count ≤ chars.length then
      return .str (String.ofList ((chars.drop start).take count))
    else raiseRange
  | _, _ => raiseRange
where
  raiseRange : Eval Value :=
    Machine.raise "ArgumentOutOfRangeException"
      "Index and length must refer to a location within the string."

def slice (address : Nat) (start stop : Int) : Eval Value := do
  let list ← Machine.sequence address
  match natural? start, natural? stop with
  | some start, some stop =>
    if start ≤ stop ∧ stop ≤ list.items.length then
      Machine.allocSequence list.isArray ((list.items.drop start).take (stop - start))
    else raiseRange
  | _, _ => raiseRange
where
  raiseRange : Eval Value :=
    Machine.raise "ArgumentOutOfRangeException"
      "Specified argument was out of the range of valid values."

/-- Item-by-item equality that compares every item. -/
def tupleEquals : List Value → List Value → Eval Bool
  | left :: lefts, right :: rights => do
    let first ← objectEquals recur left right
    let others ← tupleEquals lefts rights
    return first && others
  | _, _ => return true

def getOffset (address : Nat) (length : Int) : Eval Value := do
  let fields := (← Machine.object address).fields
  match fields.lookup "Value", fields.lookup "IsFromEnd" with
  | some (.int value), some (.bool true) => return .int (wrap64 (length - value))
  | some (.int value), _ => return .int value
  | _, _ => fault .offsetOfNonIndex

def universalMethod? (target : Value) (method : String) (args : List Value) :
    Option (Eval Value) :=
  match method, args with
  | "Equals", [other] => some do
      match target, other with
      | .tuple left, .tuple right =>
        if left.length = right.length then return .bool (← tupleEquals recur left right)
        else return .bool (target.builtinEq other)
      | _, _ => return .bool (target.builtinEq other)
  | "GetHashCode", [] => some (return .int target.hashCode)
  | "ToString", [] => some (return .str (← display program recur target))
  | _, _ => none

def sortMethod (target : Value) (method : String) (args : List Value) : Eval Value := do
  match target, method, args with
  | .object address, "MemberwiseClone", [] =>
    let object ← Machine.object address
    Machine.allocObject object.className object.isStruct object.fields
  | .object address, "GetOffset", [.int length] => getOffset address length
  | .str text, "Substring", .int start :: rest => substring text start rest
  | .str text, "Contains", [.str part] => return .bool (occursIn part.toList text.toList)
  | .str text, "StartsWith", [.str part] =>
    return .bool (part.toList.isPrefixOf text.toList)
  | .str text, "ToUpper", [] => return .str (Casing.toUpper text)
  | .str text, "ToLower", [] => return .str (Casing.toLower text)
  | .list address, "Add", [item] =>
    Machine.setItems address ((← Machine.sequence address).items ++ [item])
    return .null
  | .list address, "AddRange", [source] =>
    let added ← iterate source
    Machine.setItems address ((← Machine.sequence address).items ++ added)
    return .null
  | .list address, "ToArray", [] =>
    Machine.allocSequence true (← Machine.sequence address).items
  | .list address, "Contains", [item] =>
    return .bool ((← Machine.sequence address).items.any fun other =>
      other.builtinEq item)
  | .list address, "Slice", [.int start, .int stop] => slice address start stop
  | _, _, _ => unsupported "no such method on this value"

def consoleText (args : List Value) : Eval String := do
  match args with
  | [] => return ""
  | [value] => recur (.display value)
  | .str text :: rest => format recur text rest
  | _ => fault .consoleArguments

def isNullOrEmpty : Value → Bool
  | .null => true
  | .str text => text.isEmpty
  | _ => false

/-- The larger of two numbers, or the smaller one.  A comparison that fails
    counts as smaller. -/
def extremum (larger : Bool) (left right : Value) : Eval Value := do
  match left.number?, right.number? with
  | some a, some b =>
    let atLeast :=
      Binary64.test (fun a b => decide (b ≤ a)) a.toDouble b.toDouble
    return if atLeast == larger then left else right
  | _, _ => fault .mathOnNonNumbers

def staticMethod (className method : String) (args : List Value) : Eval Value := do
  match className, method, args with
  | "object", "Equals", [left, right] => return .bool (← objectEquals recur left right)
  | "object", "ReferenceEquals", [left, right] => return .bool (left.sameReference right)
  | "string", "Format", .str text :: rest => return .str (← format recur text rest)
  | "string", "IsNullOrEmpty", [value] => return .bool (isNullOrEmpty value)
  | "Console", "WriteLine", args =>
    Machine.print ((← consoleText recur args) ++ "\n")
    return .null
  | "Console", "Write", args =>
    Machine.print (← consoleText recur args)
    return .null
  | "Math", "Max", [left, right] => extremum true left right
  | "Math", "Min", [left, right] => extremum false left right
  | "Math", "Abs", [.int value] => return .int (wrap32 (if value < 0 then -value else value))
  | "Math", "Abs", [.double bits] => return .double (Binary64.magnitude bits)
  | className, method, args => fault (.noStaticMethod className method args.length)

def builtinMethod (target : Value) (method : String) (args : List Value) : Eval Value := do
  match target with
  | .type className => staticMethod recur className method args
  | .null => Machine.raiseNull
  | target =>
    match target, method with
    | .closure _, "Invoke" => return (← recur (.apply target args)).value
    | _, _ =>
      match universalMethod? program recur target method args with
      | some action => action
      | none => sortMethod target method args

end Builtin

end Unsugar.Eval
