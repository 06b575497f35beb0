import Unsugar.Analysis.Constant
import Unsugar.Types.Universe

namespace Unsugar

/-! # Facts about nodes

What analysis records for the nodes of a numbered tree, by their identities.
-/

/-- The type of an expression, and its type after the conversion that its
    context applies. -/
structure TypeInfo where
  type : Ty := .unknown
  converted : Ty := .unknown
  deriving DecidableEq, Repr, Inhabited

structure Reference where
  name : String
  kind : SymbolKind
  type : Ty
  /-- The declaring type, for members of types. -/
  container : Option Ty := none
  isStatic : Bool := false
  deriving DecidableEq, Repr, Inhabited

/-- What a name resolves to: one thing, or several candidates. -/
structure Resolution where
  found : Option Reference := none
  candidates : List Reference := []
  deriving DecidableEq, Repr, Inhabited

namespace Resolution

def ofList : List Reference → Resolution
  | [] => {}
  | [only] => { found := some only }
  | several => { candidates := several }

def unique? (resolution : Resolution) : Option Reference :=
  match resolution.found, resolution.candidates with
  | some reference, _ => some reference
  | none, [only] => some only
  | none, _ => none

def toList (resolution : Resolution) : List Reference :=
  resolution.found.toList ++ resolution.candidates

end Resolution

structure NodeFacts where
  info : TypeInfo := {}
  resolution : Resolution := {}
  declared : Option Reference := none
  constant : Option Constant := none
  /-- Whether the node is the `null` literal. -/
  isNull : Bool := false
  deriving Repr, Inhabited

structure Facts where
  nodes : Array NodeFacts

namespace Facts

def empty (count : Nat) : Facts := ⟨Array.replicate count {}⟩

def get (facts : Facts) (id : Option Nat) : NodeFacts :=
  match id with
  | none => {}
  | some id => facts.nodes[id]?.getD {}

def update (facts : Facts) (id : Option Nat) (change : NodeFacts → NodeFacts) : Facts :=
  match id with
  | none => facts
  | some id => ⟨facts.nodes.modify id change⟩

end Facts

end Unsugar
