import Unsugar.Text.Utf8

namespace Unsugar

/-! # File paths

A path is kept as it was written, and compared by its parts: separators that
repeat or trail, and `.` anywhere but in front, do not count.
-/

structure Path where
  text : String
  deriving DecidableEq, Repr, Inhabited

inductive PathPart where
  | root
  /-- A `.` in front of a relative path. -/
  | current
  | parent
  | name (text : List Char)
  deriving DecidableEq, Repr

namespace PathPart

def ofSegment? (segment : List Char) : Option PathPart :=
  if segment = [] ∨ segment = ['.'] then none
  else if segment = ['.', '.'] then some parent
  else some (name segment)

/-- Parts are ordered by kind, and names among themselves by their bytes. -/
def key : PathPart → List Nat
  | root => [0]
  | current => [1]
  | parent => [2]
  | name text => 3 :: (Utf8.encode (String.ofList text)).map UInt8.toNat

end PathPart

namespace Path

def segmentsOf : List Char → List (List Char)
  | [] => [[]]
  | char :: rest =>
    match segmentsOf rest with
    | [] => [[char]]
    | first :: others =>
      if char = '/' then [] :: first :: others else (char :: first) :: others

def segments (path : Path) : List (List Char) := segmentsOf path.text.toList

def anchor? (path : Path) : Option PathPart :=
  match path.segments with
  | [] :: _ :: _ => some .root
  | ['.'] :: _ => some .current
  | _ => none

def parts (path : Path) : List PathPart :=
  path.anchor?.toList ++ path.segments.filterMap PathPart.ofSegment?

/-- Two paths are the same when they have the same key; the order of keys is the
    order of paths. -/
def key (path : Path) : List (List Nat) := path.parts.map PathPart.key

/-- Segments from the last to the first, starting at one that counts. -/
def skipBlank (segments : List (List Char)) : List (List Char) :=
  segments.dropWhile fun segment => (PathPart.ofSegment? segment).isNone

def join (path : Path) (name : String) : Path :=
  if path.text = "" ∨ path.text.toList.getLast? = some '/' then ⟨path.text ++ name⟩
  else ⟨path.text ++ "/" ++ name⟩

def ofSegments (segments : List (List Char)) : Path :=
  ⟨String.ofList (List.intercalate ['/'] segments)⟩

def directory (path : Path) : Path :=
  match skipBlank path.segments.reverse with
  | [] => ⟨""⟩
  | _ :: above =>
    match skipBlank above with
    | [] =>
      match path.anchor? with
      | some .root => ⟨"/"⟩
      | some _ => ⟨"."⟩
      | none => ⟨""⟩
    | segments => ofSegments segments.reverse

/-- A file name without its extension, which starts at the last dot.  A dot in
    front belongs to the name. -/
def stemOf (name : List Char) : List Char :=
  match name.reverse.dropWhile (· != '.') with
  | [] | [_] => name
  | _ :: stem => stem.reverse

def stem? (path : Path) : Option String :=
  match path.segments.reverse.filterMap PathPart.ofSegment? with
  | .name name :: _ => some (String.ofList (stemOf name))
  | _ => none

/-- A path with another extension; one without a file name stays. -/
def withExtension (path : Path) (extension : String) : Path :=
  match skipBlank path.segments.reverse, path.stem? with
  | _ :: above, some stem => ofSegments (above.reverse ++ [(stem ++ "." ++ extension).toList])
  | _, _ => path

/-- A path below a directory without the directory, of which it has as many
    leading segments as given. -/
def below (path : Path) (segments : Nat) : Path :=
  ofSegments (skipBlank (path.segments.drop segments))

def cachePath (output : Path) : Path :=
  (output.directory.join "obj").join (output.stem?.getD "build" ++ ".plume-cache")

end Path

end Unsugar
