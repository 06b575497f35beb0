import Unsugar.Types.Universe

namespace Unsugar

/-! # The table of instances

Declaring the types of a unit makes an instance of every use of a generic type.  The uses
that are written down are made first, while declarations are known by their headers only.
Then each of them is made again from what its declaration defines, with all the uses that
come up when its parameters are replaced.  An instance is entered once everything it is
made from is there.
-/

namespace TypeNames

variable (names : TypeNames)

/-- The part of the arguments that a use of a generic type goes by. -/
def kept {α : Type} (name : String) (args : List α) : List α :=
  match names.template name with
  | .library .list | .library .enumerable => args.take 1
  | _ => args

mutual

/-- The uses that come up when type parameters are replaced, in order.  Every array comes
    with what enumerates it. -/
def made (map : List (String × Ty)) : Ty → List Ty
  | .array element => made map element ++ [.enumerableOf (names.substitute map element)]
  | .nullable inner => made map inner
  | .tuple elements => (madeEach map elements).flatten
  | .applied name args =>
    let (_, old) := names.appliedForm name args
    let (form, new) := names.appliedForm name (names.substituteAll map args)
    (names.kept name (madeEach map args)).flatten ++
      if new = old ∨ names.generic? (lastSegment form) = none then [] else [.applied form new]
  | .unknown | .prim _ | .library _ | .declared _ | .param _ => []

def madeEach (map : List (String × Ty)) : List Ty → List (List Ty)
  | [] => []
  | type :: rest => made map type :: madeEach map rest

end

end TypeNames

namespace Universe

variable (types : Universe)

/-- The types in the open form of a declaration, in the order in which they are replaced. -/
def openTypes (index : Nat) : List Ty :=
  let data := types.definitions[index]?.getD .unknown
  (data.members.flatMap fun member => member.type :: member.params) ++
    data.components.map (·.type) ++ (types.primaries[index]?.getD []).map (·.2)

def requests (type : Ty) : List Ty :=
  match type with
  | .applied name args =>
    match types.names.template name with
    | .library .list => [.enumerableOf (args.headD .unknown)]
    | .full index =>
      (types.openTypes index).flatMap
        (types.names.made (instantiation (types.typeParamsOf index) args))
    | _ => []
  | _ => []

/-- Make an instance that is not in the table yet.  Fails if that takes more than `fuel`
    instances inside one another. -/
def makeInstance : (fuel : Nat) → (table : List Ty) → Ty → Option (List Ty)
  | 0, _, _ => none
  | fuel + 1, table, type =>
    if type ∈ table then some table
    else ((types.requests type).foldlM (makeInstance fuel) table).map (· ++ [type])

def refresh (fuel : Nat) (table : List Ty) (type : Ty) : Option (List Ty) :=
  (types.requests type).foldlM (types.makeInstance fuel) table

/-- The table of instances after the written ones are made, and made again in some order. -/
def declareInstances (fuel : Nat) (order : List Ty) : Option (List Ty) :=
  order.foldlM (types.refresh fuel) types.written

end Universe

end Unsugar
