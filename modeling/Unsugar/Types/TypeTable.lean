import Unsugar.Types.Binding

open List

namespace Unsugar

/-! # The table of types

The types of a unit stand in one table, and a type goes by its place in it.  An entry is
found by the places of its parts, so a type that is asked for again has the place that it
got first.
-/

inductive TypeKey where
  /-- A type without parts. -/
  | plain (type : Ty)
  | applied (name : String) (args : List Nat)
  | array (element : Nat)
  | nullable (inner : Nat)
  | tuple (elements : List Nat)
  deriving DecidableEq

def TypeKey.isNullable : TypeKey → Bool
  | nullable _ => true
  | _ => false

structure TypeTable where
  keys : List TypeKey
  distinct : keys.Nodup

namespace TypeTable

/-- Places keep their entries. -/
def Grows (before after : TypeTable) : Prop :=
  ∀ (place : Nat) (key : TypeKey), before.keys[place]? = some key → after.keys[place]? = some key

theorem nodup_entered {keys : List TypeKey} {key : TypeKey} (distinct : keys.Nodup)
    (isNew : key ∉ keys) : (keys ++ [key]).Nodup := by
  refine nodup_append.mpr ⟨distinct, nodup_cons.mpr ⟨not_mem_nil, nodup_nil⟩, ?_⟩
  rintro old isOld _ isLast rfl
  exact isNew (mem_singleton.mp isLast ▸ isOld)

def enter (key : TypeKey) : StateM TypeTable Nat := fun table =>
  if isThere : key ∈ table.keys then (table.keys.idxOf key, table)
  else (table.keys.length, ⟨table.keys ++ [key], nodup_entered table.distinct isThere⟩)

/-- What is entered while an instance of a generic type is made: whatever its members
    mention. -/
structure Company where
  make : String → List Nat → TypeTable → TypeTable
  grows : ∀ (name : String) (args : List Nat) (table : TypeTable),
    table.Grows (make name args table)

end TypeTable

namespace TypeNames

open TypeTable

variable (names : TypeNames) (company : Company)

def instanceOf (name : String) (args : List Nat) : StateM TypeTable Nat :=
  match names.generic? (lastSegment name) with
  | some _ => do
    modify (company.make name args)
    enter (.applied name args)
  | none => enter (.plain .unknown)

/-- Every array comes with what enumerates it. -/
def arrayPlace (element : Nat) : StateM TypeTable Nat := do
  let _ ← names.instanceOf company "IEnumerable" [element]
  enter (.array element)

def isValueKey : TypeKey → Bool
  | .plain type => names.isValueType type
  | .applied name _ => names.shape (.applied name []) == .structType
  | .nullable _ | .tuple _ => true
  | .array _ => false

def nullablePlace (inner : Nat) : StateM TypeTable Nat := do
  let table ← get
  if table.keys[inner]?.any fun key => names.isValueKey key && !key.isNullable then
    enter (.nullable inner)
  else return inner

/-- Of what a name is bound to, only a bare `Action` has an entry with parts. -/
def namePlace (name : String) : StateM TypeTable Nat :=
  match names.bindName name with
  | .applied name _ => names.instanceOf company name []
  | type => enter (.plain type)

mutual

/-- The place of the type that syntax is bound to. -/
def place : TypeSyntax → StateM TypeTable Nat
  | .absent | .var | .dynamic => enter (.plain .unknown)
  | .void => enter (.plain .void)
  | .named name [] => names.namePlace company name
  | .named name (first :: rest) => do
    let firstPlace ← place first
    let others ← places rest
    names.instanceOf company name (firstPlace :: others)
  | .array element => do names.arrayPlace company (← place element)
  | .nullable inner => do names.nullablePlace (← place inner)
  | .tuple elements => do enter (.tuple (← places elements))

def places : List TypeSyntax → StateM TypeTable (List Nat)
  | [] => return []
  | type :: rest => do
    let first ← place type
    let others ← places rest
    return first :: others

end

end TypeNames

end Unsugar
