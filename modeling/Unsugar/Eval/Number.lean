import Unsugar.Text.Decimal

namespace Unsugar

/-! # Numbers at run time

Integers are kept as mathematical integers that arithmetic wraps to 32 bits.
Floating numbers are kept as the bits of a binary64, so that equality of values
is decidable and a sign or payload is never lost.
-/

def wrap32 (value : Int) : Int := value.bmod UInt32.size

def wrap64 (value : Int) : Int := value.bmod UInt64.size

def bitwise64 (op : BitVec 64 → BitVec 64 → BitVec 64) (left right : Int) : Int :=
  (op (BitVec.ofInt 64 left) (BitVec.ofInt 64 right)).toInt

namespace Binary64

open Decimal

def signBit : UInt64 := 0x8000000000000000

def ofInt (value : Int) : UInt64 := (Float.ofInt value).toBits

def negate (bits : UInt64) : UInt64 := bits ^^^ signBit

def magnitude (bits : UInt64) : UInt64 := bits &&& ~~~ signBit

def isNan (bits : UInt64) : Bool := Binary64.ofBits bits == .nan

def quietBit : UInt64 := 0x0008000000000000

/-- The NaN that arithmetic yields when an operand is one: the first such
    operand, made quiet. -/
def nanOf? (left right : UInt64) : Option UInt64 :=
  if isNan left then some (left ||| quietBit)
  else if isNan right then some (right ||| quietBit)
  else none

def apply (op : Float → Float → Float) (left right : UInt64) : UInt64 :=
  (nanOf? left right).getD (op (Float.ofBits left) (Float.ofBits right)).toBits

/-- A comparison of binary64 numbers on bits; every comparison with a NaN
    fails. -/
def test (op : Float → Float → Bool) (left right : UInt64) : Bool :=
  op (Float.ofBits left) (Float.ofBits right)

/-- Equality of binary64 numbers on bits: a NaN equals nothing, and both zeros are
    equal. -/
def equal (left right : UInt64) : Bool :=
  !isNan left && !isNan right &&
    (left == right || magnitude left == 0 && magnitude right == 0)

/-- The integer part, held to the signed 64-bit range; a NaN gives zero. -/
def truncate (bits : UInt64) : Int :=
  let clamp (value : Int) : Int := max Int64.minValue.toInt (min Int64.maxValue.toInt value)
  match Binary64.ofBits bits with
  | .nan => 0
  | .infinite negative => if negative then Int64.minValue.toInt else Int64.maxValue.toInt
  | .finite negative significand exponent =>
    let ratio := Ratio.scaled significand 2 exponent
    let whole : Int := (ratio.num / ratio.den : Nat)
    clamp (if negative then -whole else whole)

def quietNan : UInt64 := 0x7ff8000000000000

/-- The exact remainder of truncated division; it has the sign of the
    dividend. -/
def remainder (left right : UInt64) : UInt64 :=
  match Binary64.ofBits left, Binary64.ofBits right with
  | .nan, _ | _, .nan => (nanOf? left right).getD quietNan
  | .infinite _, _ => quietNan
  | .finite .., .infinite _ => left
  | .finite negative leftPart leftExponent, .finite _ rightPart rightExponent =>
    if rightPart = 0 then quietNan
    else
      let exponent := min leftExponent rightExponent
      let dividend := leftPart <<< (leftExponent - exponent).toNat
      let divisor := rightPart <<< (rightExponent - exponent).toNat
      let rest := ((Float.ofNat (dividend % divisor)).scaleB exponent).toBits
      if negative then rest ||| signBit else rest

end Binary64

/-- A number as arithmetic sees it. -/
inductive Num where
  | int (value : Int)
  | double (bits : UInt64)
  deriving DecidableEq, Repr

def Num.toDouble : Num → UInt64
  | int value => Binary64.ofInt value
  | double bits => bits

end Unsugar
