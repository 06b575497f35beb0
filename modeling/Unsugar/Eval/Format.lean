import Unsugar.Eval.Value
import Unsugar.Text.Characters

namespace Unsugar

/-! # Composite formatting

A format text mixes characters with holes `index[,alignment][:format]` between
braces; a brace that is text is doubled.
-/

/-- What a format text says: characters to copy and holes to fill. -/
inductive FormatItem where
  | char (char : Char)
  | hole (text : List Char)
  deriving DecidableEq, Repr

/-- Characters up to the next closing brace, and what follows it. -/
def splitHole : List Char → List Char × List Char
  | [] => ([], [])
  | char :: rest =>
    if char = '\x7d' then ([], rest)
    else
      let (hole, after) := splitHole rest
      (char :: hole, after)

/-- Read a format text.  An unclosed hole reaches to the end, and a lone closing
    brace stands for itself. -/
def parseFormat : (fuel : Nat) → List Char → List FormatItem
  | 0, _ => []
  | _, [] => []
  | fuel + 1, char :: rest =>
    match char, rest with
    | '\x7b', '\x7b' :: rest => .char '\x7b' :: parseFormat fuel rest
    | '\x7d', '\x7d' :: rest => .char '\x7d' :: parseFormat fuel rest
    | '\x7b', rest =>
      let (hole, after) := splitHole rest
      .hole hole :: parseFormat fuel after
    | char, rest => .char char :: parseFormat fuel rest

def formatItems (format : String) : List FormatItem :=
  parseFormat format.length format.toList

def splitFirst (separator : Char) (text : List Char) : List Char × List Char :=
  (text.takeWhile (· != separator), (text.dropWhile (· != separator)).drop 1)

def digitsValue? (text : List Char) : Option Nat :=
  if text.isEmpty || !text.all Char.isDigit then none
  else some (text.foldl (fun total char => total * 10 + (char.toNat - '0'.toNat)) 0)

/-- Read an unsigned 64-bit number; a plus sign may stand before it. -/
def readUnsigned? (text : List Char) : Option Nat :=
  let digits := match text with
    | '+' :: rest => rest
    | text => text
  (digitsValue? digits).filter (· < UInt64.size)

/-- Read a signed 64-bit number; either sign may stand before it. -/
def readSigned? (text : List Char) : Option Int :=
  match text with
  | '-' :: rest => ((digitsValue? rest).filter (· ≤ 1 <<< 63)).map fun value => -(value : Int)
  | '+' :: rest => ((digitsValue? rest).filter (· < 1 <<< 63)).map Int.ofNat
  | rest => ((digitsValue? rest).filter (· < 1 <<< 63)).map Int.ofNat

structure Hole where
  /-- Number of the argument, if the hole names one. -/
  index : Option Nat
  width : Int
  spec : List Char
  deriving DecidableEq, Repr

def Hole.parse (text : List Char) : Hole :=
  let (head, spec) := splitFirst ':' text
  let (index, alignment) := splitFirst ',' head
  { index := readUnsigned? (trimBlank index)
    width := (readSigned? (trimBlank alignment)).getD 0
    spec }

def padTo (width : Int) (text : List Char) : List Char :=
  let blanks := List.replicate (width.natAbs - text.length) ' '
  if width < 0 then text ++ blanks else blanks ++ text

def zeroPadded (value : Int) (width : Nat) : List Char :=
  let sign := if value < 0 then ['-'] else []
  let digits := Nat.toDigits 10 value.natAbs
  sign ++ List.replicate (width - sign.length - digits.length) '0' ++ digits

/-- The 64-bit word of an integer in base sixteen. -/
def hexDigits (value : Int) : List Char :=
  Nat.toDigits 16 (value % UInt64.size).toNat

def formatNumber? (spec : List Char) (number : Num) : Option (List Char) :=
  match spec, number with
  | 'F' :: digits, number | 'f' :: digits, number =>
    some (Decimal.renderFixed number.toDouble ((readUnsigned? digits).getD 2)).toList
  | 'D' :: digits, .int value | 'd' :: digits, .int value =>
    some (zeroPadded value ((readUnsigned? digits).getD 0))
  | 'X' :: _, .int value => some ((hexDigits value).map Char.toUpper)
  | 'x' :: _, .int value => some (hexDigits value)
  | _, _ => none

end Unsugar
