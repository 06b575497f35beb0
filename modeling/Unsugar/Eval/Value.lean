import Unsugar.Digest
import Unsugar.Eval.Number
import Unsugar.Syntax.Declaration

namespace Unsugar

/-! # Values

What expressions evaluate to.  Objects, sequences and closures have identity, so
a value only holds their address in the store.
-/

inductive Value where
  | null
  | int (value : Int)
  | double (bits : UInt64)
  | bool (value : Bool)
  | char (value : Char)
  | str (value : String)
  | object (address : Nat)
  | list (address : Nat)
  | tuple (items : List Value)
  | closure (address : Nat)
  /-- A type used as a receiver, such as `Console`. -/
  | type (name : String)
  deriving Repr, Inhabited

namespace Value

def number? : Value → Option Num
  | int value => some (.int value)
  | double bits => some (.double bits)
  | char value => some (.int value.toNat)
  | _ => none

def isNull : Value → Bool
  | null => true
  | _ => false

/-- Equality of two values of the same simple sort; objects and closures are
    equal when they are the same. -/
def sameSimple : Value → Value → Bool
  | null, null => true
  | bool left, bool right => left == right
  | str left, str right => left == right
  | object left, object right => left == right
  | list left, list right => left == right
  | closure left, closure right => left == right
  | type left, type right => left == right
  | _, _ => false

def sameNumber : Num → Num → Bool
  | .int left, .int right => left == right
  | left, right => Binary64.equal left.toDouble right.toDouble

mutual

/-- Built-in equality: numbers and text by content, tuples item by item,
    everything with identity by identity. -/
def builtinEq : Value → Value → Bool
  | tuple left, other =>
    match other with
    | tuple right => builtinEqAll left right
    | _ => false
  | value, other =>
    match value.number?, other.number? with
    | some left, some right => sameNumber left right
    | _, _ => sameSimple value other

def builtinEqAll : List Value → List Value → Bool
  | [], [] => true
  | value :: left, other :: right => builtinEq value other && builtinEqAll left right
  | _, _ => false

end

/-- Whether two values are one and the same; text counts as the same by
    content, numbers never do. -/
def sameReference : Value → Value → Bool
  | null, null => true
  | object left, object right => left == right
  | list left, list right => left == right
  | closure left, closure right => left == right
  | str left, str right => left == right
  | _, _ => false

mutual

/-- The built-in hash code.  Objects are hashed by the order in which they were
    made. -/
def hashCode : Value → Int
  | null => 0
  | int value => value
  | bool value => if value then 1 else 0
  | char value => value.toNat
  | double bits => wrap32 bits.toNat
  | str value => wrap32 (Digest.ofOpenText value).value.toNat
  | tuple items => hashCodeFrom 17 items
  | object address => (address : Int) + 1
  | list _ | closure _ | type _ => 0

def hashCodeFrom (hash : Int) : List Value → Int
  | [] => hash
  | value :: rest => hashCodeFrom (wrap32 (hash * 31 + hashCode value)) rest

end

def sortName : Value → String
  | null => "Null"
  | int _ => "Int"
  | double _ => "Double"
  | bool _ => "Bool"
  | char _ => "Char"
  | str _ => "Str"
  | object _ => "Object"
  | list _ => "List"
  | tuple _ => "Tuple"
  | closure _ => "Closure"
  | type _ => "Type"

end Value

end Unsugar
