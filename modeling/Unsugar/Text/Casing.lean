import Unsugar.Text.Casing.Table

namespace Unsugar.Casing

/-! # Upper and lower case

Case conversion of whole texts by the full Unicode mappings.  A capital sigma
becomes the final form of the small sigma at the end of a word.
-/

def Run.maps (run : Run) (code : Nat) : Bool :=
  run.first ≤ code && code ≤ run.last && (code - run.first) % run.stride == 0

def convert (runs : List Run) (special : List (Nat × List Nat)) (char : Char) : List Char :=
  match special.lookup char.toNat with
  | some codes => codes.map Char.ofNat
  | none =>
    match runs.find? (·.maps char.toNat) with
    | some run => [Char.ofNat ((char.toNat : Int) + run.offset).toNat]
    | none => [char]

def inRanges (ranges : List (Nat × Nat)) (char : Char) : Bool :=
  ranges.any fun range => range.1 ≤ char.toNat && char.toNat ≤ range.2

/-- Whether the first character that matters for case is a letter with case. -/
def meetsCased (text : List Char) : Bool :=
  match text.dropWhile (inRanges ignorableRanges) with
  | [] => false
  | char :: _ => inRanges casedRanges char

def capitalSigma : Char := Char.ofNat 0x3a3

/-- Small sigma as it stands after `before`, which is read backwards, and in
    front of `after`. -/
def smallSigma (before after : List Char) : Char :=
  Char.ofNat (if meetsCased before && !meetsCased after then 0x3c2 else 0x3c3)

def lowerFrom (before : List Char) : List Char → List Char
  | [] => []
  | char :: rest =>
    (if char = capitalSigma then [smallSigma before rest]
      else convert lowerRuns lowerSpecial char) ++ lowerFrom (char :: before) rest

def toUpper (text : String) : String :=
  String.ofList (text.toList.flatMap (convert upperRuns upperSpecial))

def toLower (text : String) : String := String.ofList (lowerFrom [] text.toList)

end Unsugar.Casing
