namespace Unsugar.Decimal

/-! # Decimal text of binary64 numbers

A binary64 number is decoded from its bits into sign, significand and power of
two, and written in positional decimal.  Two roundings are offered: the fewest
digits that read back as the same number, and a fixed number of places.  All
arithmetic is on natural numbers, so both are exact.
-/

inductive Binary64 where
  | nan
  | infinite (negative : Bool)
  | finite (negative : Bool) (significand : Nat) (exponent : Int)
  deriving DecidableEq, Repr

def Binary64.lowestExponent : Int := -1074

def Binary64.leastNormal : Nat := 1 <<< 52

def Binary64.ofBits (bits : UInt64) : Binary64 :=
  let bits := bits.toNat
  let negative := bits >>> 63 == 1
  let field : Nat := (bits >>> 52) % 2048
  let fraction := bits % leastNormal
  if field = 2047 then
    if fraction = 0 then .infinite negative else .nan
  else if field = 0 then .finite negative fraction lowestExponent
  else .finite negative (leastNormal + fraction) ((field : Int) - 1075)

/-- A non-negative fraction. -/
structure Ratio where
  num : Nat
  den : Nat
  deriving DecidableEq, Repr

def Ratio.scaled (value base : Nat) (exponent : Int) : Ratio :=
  if 0 ≤ exponent then ⟨value * base.pow exponent.toNat, 1⟩
  else ⟨value, base.pow (-exponent).toNat⟩

def Ratio.shift (ratio : Ratio) (power : Int) : Ratio :=
  if 0 ≤ power then ⟨ratio.num * Nat.pow 10 power.toNat, ratio.den⟩
  else ⟨ratio.num, ratio.den * Nat.pow 10 (-power).toNat⟩

def digitCount (value : Nat) : Nat := (Nat.toDigits 10 value).length

/-- Smallest power of ten, from `power` upward, that lifts the fraction to at
    least one. -/
def liftToOne (ratio : Ratio) : (fuel power : Nat) → Nat
  | 0, power => power
  | fuel + 1, power =>
    if ratio.den ≤ ratio.num * Nat.pow 10 power then power
    else liftToOne ratio fuel (power + 1)

/-- The power of ten of the leading digit of a positive fraction.  Four hundred
    steps are enough for every binary64. -/
def leadingPower (ratio : Ratio) : Int :=
  if ratio.den ≤ ratio.num then digitCount (ratio.num / ratio.den) - 1
  else -(liftToOne ratio 400 0 : Int)

structure Scaled where
  digits : Nat
  power : Int
  deriving DecidableEq, Repr

/-- The reals that round to one binary64, in quarters of the last place. -/
structure Interval where
  lower : Nat
  value : Nat
  upper : Nat
  exponent : Int
  closed : Bool

/-- Halfway to both neighbours; the neighbour below a power of two is only half
    as far away. -/
def Interval.around (significand : Nat) (exponent : Int) : Interval where
  lower :=
    if significand = Binary64.leastNormal ∧ Binary64.lowestExponent < exponent then
      4 * significand - 1
    else 4 * significand - 2
  value := 4 * significand
  upper := 4 * significand + 2
  exponent := exponent - 2
  closed := significand % 2 == 0

def compareScaled (decimal : Scaled) (quarters : Nat) (exponent : Int) : Ordering :=
  let left := Ratio.scaled decimal.digits 10 decimal.power
  let right := Ratio.scaled quarters 2 exponent
  compare (left.num * right.den) (right.num * left.den)

def Interval.contains (interval : Interval) (decimal : Scaled) : Bool :=
  let below := compareScaled decimal interval.lower interval.exponent
  let above := compareScaled decimal interval.upper interval.exponent
  (below == .gt || (interval.closed && below == .eq)) &&
    (above == .lt || (interval.closed && above == .eq))

/-- The neighbours of the value on the grid of `10 ^ power`, the nearer first;
    at equal distance the upper one comes first. -/
def neighbours (ratio : Ratio) (power : Int) : List Scaled :=
  let shifted := ratio.shift (-power)
  let floor := shifted.num / shifted.den
  let rest := shifted.num % shifted.den
  if 2 * rest < shifted.den then [⟨floor, power⟩, ⟨floor + 1, power⟩]
  else [⟨floor + 1, power⟩, ⟨floor, power⟩]

/-- The first grid, from coarse to fine, with a point in the interval. -/
def searchGrids (interval : Interval) (ratio : Ratio) : (fuel : Nat) → Int → Scaled
  | 0, power => (neighbours ratio power).headD ⟨0, power⟩
  | fuel + 1, power =>
    match (neighbours ratio power).find? interval.contains with
    | some decimal => decimal
    | none => searchGrids interval ratio fuel (power - 1)

/-- The shortest decimal that reads back as a positive number.  Seventeen digits
    always do. -/
def shortest (significand : Nat) (exponent : Int) : Scaled :=
  let ratio := Ratio.scaled significand 2 exponent
  searchGrids (.around significand exponent) ratio 17 (leadingPower ratio)

def digitsOf (value : Nat) : List Char := Nat.toDigits 10 value

def Scaled.trim (decimal : Scaled) : Scaled :=
  let digits := digitsOf decimal.digits
  let zeros := (digits.reverse.takeWhile (· == '0')).length
  ⟨decimal.digits / Nat.pow 10 zeros, decimal.power + zeros⟩

/-- Positional text without an exponent, with no more places than digits need. -/
def Scaled.positional (decimal : Scaled) : String :=
  let digits := digitsOf decimal.digits
  if 0 ≤ decimal.power then
    String.ofList (digits ++ List.replicate decimal.power.toNat '0')
  else
    let places := (-decimal.power).toNat
    if places < digits.length then
      String.ofList (digits.take (digits.length - places)) ++ "." ++
        String.ofList (digits.drop (digits.length - places))
    else
      "0." ++ String.ofList (List.replicate (places - digits.length) '0' ++ digits)

def signText (negative : Bool) : String := if negative then "-" else ""

/-- The fewest digits that read back: `1` for one, `-0` for negative zero, never
    an exponent. -/
def renderShortest (bits : UInt64) : String :=
  match Binary64.ofBits bits with
  | .nan => "NaN"
  | .infinite negative => signText negative ++ "inf"
  | .finite negative 0 _ => signText negative ++ "0"
  | .finite negative significand exponent =>
    signText negative ++ (shortest significand exponent).trim.positional

/-- The nearest integer; a half goes to the even neighbour. -/
def Ratio.roundEven (ratio : Ratio) : Nat :=
  let floor := ratio.num / ratio.den
  let rest := ratio.num % ratio.den
  if 2 * rest < ratio.den then floor
  else if ratio.den < 2 * rest then floor + 1
  else if floor % 2 = 0 then floor else floor + 1

def withPlaces (units places : Nat) : String :=
  if places = 0 then String.ofList (digitsOf units)
  else
    let digits := digitsOf units
    let padded := List.replicate (places + 1 - digits.length) '0' ++ digits
    String.ofList (padded.take (padded.length - places)) ++ "." ++
      String.ofList (padded.drop (padded.length - places))

/-- A fixed number of places, rounding the exact value half to even. -/
def renderFixed (bits : UInt64) (places : Nat) : String :=
  match Binary64.ofBits bits with
  | .nan => "NaN"
  | .infinite negative => signText negative ++ "inf"
  | .finite negative significand exponent =>
    signText negative ++
      withPlaces ((Ratio.scaled significand 2 exponent).shift places).roundEven places

def isFinite (bits : UInt64) : Bool :=
  match Binary64.ofBits bits with
  | .finite .. => true
  | _ => false

end Unsugar.Decimal
