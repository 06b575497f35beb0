import Unsugar.Build.Path

namespace Unsugar

/-! # Places in a file system

One file, the directories on the way to it, and what reading and writing it
meets.  The file system limits names and paths by their bytes and takes no path
with a zero character.  A walk along a path ends at the first directory that is
missing, so a name that is too long only matters once it is reached.
-/

inductive FileContent where
  | missing
  | directory
  | bytes (content : List UInt8)
  deriving DecidableEq, Repr, Inhabited

inductive FileRead where
  /-- The file system does not let the place be read. -/
  | refused
  | missing
  | bytes (content : List UInt8)
  deriving DecidableEq, Repr

/-- How far a walk along directories gets. -/
inductive Walk where
  | arrives
  | stops
  /-- A name on the way is too long. -/
  | refused
  deriving DecidableEq, Repr

/-- Whether a file system can hold a name. -/
def PathPart.fits : PathPart → Bool
  | .name text => (String.ofList text).utf8ByteSize ≤ 255
  | _ => true

/-- Whether a file system takes a path at all. -/
def Path.isSound (path : Path) : Bool :=
  path.text.utf8ByteSize ≤ 4095 && path.text.toList.all fun char => char.toNat != 0

def Path.names (path : Path) : List PathPart := path.segments.filterMap PathPart.ofSegment?

/-- Whether a file system can hold the last name of a path. -/
def Path.lastFits (path : Path) : Bool := (path.names.getLast?.map PathPart.fits).getD false

/-- Walk along directories of which the first `depth` exist. -/
def Walk.along : (depth : Nat) → List PathPart → Walk
  | _, [] => arrives
  | depth, name :: rest =>
    if !name.fits then refused
    else
      match depth with
      | 0 => stops
      | depth + 1 => along depth rest

structure FilePlace where
  path : Path
  /-- How many of the directories on the way exist. -/
  depth : Nat := 0
  content : FileContent := .missing
  deriving DecidableEq, Repr

namespace FilePlace

variable (place : FilePlace)

def directories : List PathPart := place.path.names.dropLast

def read : FileRead :=
  if !place.path.isSound then .refused
  else
    match Walk.along place.depth place.directories with
    | .refused => .refused
    | .stops => .missing
    | .arrives =>
      if !place.path.lastFits then .refused
      else
        match place.content with
        | .missing => .missing
        | .directory => .refused
        | .bytes content => .bytes content

/-- Make the directories on the way, from the first on, and tell whether all of
    them are there. -/
def makeDirectories : Bool × FilePlace :=
  if place.path.directory.isSound then
    let made := (place.directories.takeWhile PathPart.fits).length
    (made == place.directories.length, { place with depth := max place.depth made })
  else (false, place)

/-- Fill the file, through a file at `path` beside it, and tell whether that
    worked.  The file system has to hold both names. -/
def fillThrough (path : Path) (content : List UInt8) : Bool × FilePlace :=
  let (made, place) := place.makeDirectories
  if made && path.isSound && path.lastFits && place.path.isSound && place.path.lastFits &&
      place.content != .directory then
    (true, { place with content := .bytes content })
  else (false, place)

def write (content : List UInt8) : Bool × FilePlace := place.fillThrough place.path content

/-- Write the file under another name first, so that it is never seen half
    written. -/
def replace (content : List UInt8) : Bool × FilePlace :=
  place.fillThrough (place.path.withExtension "plume-cache.tmp") content

def makeDirectory : Bool × FilePlace :=
  if !place.path.isSound then (false, place)
  else
    let (made, place) := place.makeDirectories
    match place.content with
    | .bytes _ => (false, place)
    | _ =>
      if made && place.path.lastFits then (true, { place with content := .directory })
      else (false, place)

end FilePlace

end Unsugar
