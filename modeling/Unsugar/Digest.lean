import Unsugar.Text.Utf8

namespace Unsugar

/-! # Content digests

Texts and configurations are told apart by a 64-bit digest.  It is built for
speed, not against attacks: it only has to notice edits.  A running state takes
in one word after the other by adding the word and multiplying by an odd
constant, and a final rotation mixes high bits into low ones.
-/

def hexWord (word : UInt64) : String :=
  let digits := Nat.toDigits 16 word.toNat
  String.ofList (List.replicate (16 - digits.length) '0' ++ digits)

structure Digest where
  value : UInt64
  deriving DecidableEq, Repr, Inhabited

namespace Digest

/-- The multiplier of the running state; it is odd. -/
def factor : UInt64 := 0xf1357aea2e62a9c5

def absorb (state word : UInt64) : UInt64 := (state + word) * factor

def rotate (state : UInt64) : UInt64 := (state <<< 26) ||| (state >>> 38)

def ofWords (words : List UInt64) : Digest := ⟨rotate (words.foldl absorb 0)⟩

/-- Low half of the full product, exclusive-or its high half. -/
def foldedProduct (left right : UInt64) : UInt64 :=
  let product := left.toNat * right.toNat
  UInt64.ofNat (product % UInt64.size) ^^^ UInt64.ofNat (product / UInt64.size)

/-- The number whose bytes these are, least significant first. -/
def littleEndian (bytes : List UInt8) : UInt64 :=
  UInt64.ofNat (bytes.foldr (fun byte high => byte.toNat + 256 * high) 0)

/-- The two lanes that long inputs are read into. -/
structure Lanes where
  first : UInt64
  second : UInt64

def Lanes.seed : Lanes := ⟨0x243f6a8885a308d3, 0x13198a2e03707344⟩

/-- Read sixteen bytes: the lanes move up and the new word enters second. -/
def Lanes.step (lanes : Lanes) (chunk : List UInt8) : Lanes where
  first := lanes.second
  second :=
    foldedProduct (lanes.first ^^^ littleEndian (chunk.take 8))
      (0xa4093822299f31d0 ^^^ littleEndian (chunk.drop 8))

/-- Read whole chunks of sixteen bytes while there are any. -/
def Lanes.read (lanes : Lanes) (bytes : List UInt8) : (chunks : Nat) → Lanes
  | 0 => lanes
  | chunks + 1 => (lanes.step (bytes.take 16)).read (bytes.drop 16) chunks

def Lanes.mix (lanes : Lanes) (first second : UInt64) : Lanes :=
  ⟨lanes.first ^^^ first, lanes.second ^^^ second⟩

def ofBytesWord (bytes : List UInt8) : UInt64 :=
  let size := bytes.length
  let tail (count : Nat) := littleEndian ((bytes.drop (size - count)).take count)
  let lanes : Lanes :=
    if size = 0 then .seed
    else if size < 4 then
      let byte (index : Nat) : UInt64 := (bytes.getD index 0).toUInt64
      Lanes.seed.mix (byte 0) ((byte (size - 1) <<< 8) ||| byte (size / 2))
    else if size < 8 then
      Lanes.seed.mix (littleEndian (bytes.take 4)) (tail 4)
    else if size ≤ 16 then
      Lanes.seed.mix (littleEndian (bytes.take 8)) (tail 8)
    else
      (Lanes.seed.read bytes ((size - 1) / 16)).mix
        (littleEndian ((bytes.drop (size - 16)).take 8)) (tail 8)
  foldedProduct lanes.first lanes.second ^^^ UInt64.ofNat size

def ofText (text : String) : Digest := ofWords [ofBytesWord (Utf8.encode text), 0xff]

def ofOpenText (text : String) : Digest := ofWords [ofBytesWord (Utf8.encode text)]

def combine (digests : List Digest) : Digest := ofWords (digests.map value)

def toHex (digest : Digest) : String := hexWord digest.value

def hexValue? (char : Char) : Option Nat :=
  if '0' ≤ char ∧ char ≤ '9' then some (char.toNat - '0'.toNat)
  else if 'a' ≤ char ∧ char ≤ 'f' then some (char.toNat - 'a'.toNat + 10)
  else if 'A' ≤ char ∧ char ≤ 'F' then some (char.toNat - 'A'.toNat + 10)
  else none

/-- Read digits after `total`; nothing else may occur, and the number must fit
    into 64 bits. -/
def readHex (total : Nat) : List Char → Option Nat
  | [] => some total
  | char :: rest => do
    let digit ← hexValue? char
    let next := total * 16 + digit
    if next < UInt64.size then readHex next rest else none

def ofHex? (text : String) : Option Digest :=
  let digits := match text.toList with
    | '+' :: rest => rest
    | chars => chars
  if digits.isEmpty then none
  else (readHex 0 digits).map fun number => ⟨UInt64.ofNat number⟩

end Digest

end Unsugar
