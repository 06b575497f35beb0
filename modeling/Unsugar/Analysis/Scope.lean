import Unsugar.Analysis.Facts

namespace Unsugar

/-! # Scopes and name resolution

The state that analysis carries through a tree, and what a name means in it.
-/

inductive LookupContext where
  /-- Initializers and arguments of base calls, where parameters of the primary
      constructor hide members. -/
  | initializer
  /-- Bodies of members, where members hide those parameters. -/
  | body
  deriving DecidableEq, Repr, Inhabited

/-- What stays fixed while a subtree is analyzed. -/
structure InferEnv where
  types : Universe
  currentType : Option Ty := none
  context : LookupContext := .body
  result : Ty := .unknown
  /-- Receivers of the enclosing conditional accesses, innermost first. -/
  receivers : List Ty := []
  /-- Types whose static members can be used unqualified. -/
  imports : List Ty := []
  constFields : List ((Ty × String) × Constant) := []

structure InferState where
  facts : Facts
  scopes : List (List (String × Reference)) := []
  /-- The first result seen in the innermost function. -/
  observed : Option Ty := none

abbrev Infer := ReaderT InferEnv (StateM InferState)

namespace Infer

def types : Infer Universe := return (← read).types

def inScope {α : Type} (action : Infer α) : Infer α := do
  modify fun state => { state with scopes := [] :: state.scopes }
  let result ← action
  modify fun state => { state with scopes := state.scopes.tail }
  return result

def isolated {α : Type} (action : Infer α) : Infer α := do
  modify fun state => { state with scopes := [[]] }
  let result ← action
  modify fun state => { state with scopes := [] }
  return result

def addToScope (reference : Reference) :
    List (List (String × Reference)) → List (List (String × Reference))
  | [] => [[(reference.name, reference)]]
  | scope :: rest => ((reference.name, reference) :: scope) :: rest

def declare (name : String) (kind : SymbolKind) (type : Ty) : Infer Reference := do
  let reference : Reference := { name, kind, type }
  modify fun state => { state with scopes := addToScope reference state.scopes }
  return reference

def update (mark : Mark) (change : NodeFacts → NodeFacts) : Infer Unit :=
  modify fun state => { state with facts := state.facts.update mark.id change }

def declareAt (mark : Mark) (name : String) (kind : SymbolKind) (type : Ty) : Infer Unit := do
  let reference ← declare name kind type
  update mark fun facts => { facts with declared := some reference }

/-- Record the type of a node; the context converts it when it can do so
    implicitly. -/
def record (mark : Mark) (type expected : Ty) : Infer Unit := do
  let keeps := expected.isUnknown || expected == .void ||
    !((← types).classify type expected).isImplicit
  let info : TypeInfo := ⟨type, if keeps then type else expected⟩
  update mark fun facts => { facts with info }

/-! ## Names -/

def lookupScopes? (name : String) : List (List (String × Reference)) → Option Reference
  | [] => none
  | scope :: rest => (scope.lookup name).or (lookupScopes? name rest)

end Infer

namespace InferEnv

variable (env : InferEnv)

def primaryParam? (name : String) : Option Reference := do
  let type ← env.currentType
  let paramType ← (env.types.primaryParams type).lookup name
  some { name, kind := .primaryParameter, type := paramType, container := some type }

/-- Members of a type that a name can mean.  With `arity`, methods with another
    number of parameters are left out; with `staticOnly`, instance members. -/
def memberOn (type : Ty) (name : String) (arity : Option Nat) (staticOnly : Bool) :
    Resolution :=
  let fits (member : MemberInfo) : Bool :=
    (!staticOnly || member.isStatic) &&
      match arity with
      | none => true
      | some count => member.kind != .method || member.params.length == count
  .ofList (((env.types.candidates type name).filter fun (_, member) => fits member).map
    fun (owner, member) =>
      { name, kind := member.kind, type := member.type, container := some owner
        isStatic := member.isStatic })

def imported (name : String) (arity : Option Nat) : Resolution :=
  .ofList (env.imports.flatMap fun type => (env.memberOn type name arity true).toList)

def typeNamed (name : String) : Resolution :=
  .ofList (((env.types.names.lookup? name).or (env.types.names.typeParam? name)).toList.map
    fun type => { name, kind := .type, type, isStatic := true })

def firstFound : List Resolution → Resolution
  | [] => {}
  | resolution :: rest => if resolution.toList.isEmpty then firstFound rest else resolution

/-- What a bare name means: a local name, then members and parameters of the
    primary constructor, then imports, then types. -/
def resolveName (scopes : List (List (String × Reference))) (name : String)
    (arity : Option Nat) : Resolution :=
  let inScopes := Resolution.ofList (Infer.lookupScopes? name scopes).toList
  let primary := Resolution.ofList (env.primaryParam? name).toList
  let own := match env.currentType with
    | some type => env.memberOn type name arity false
    | none => {}
  let members := match env.context with
    | .initializer => [primary, own]
    | .body => [own, primary]
  firstFound (inScopes :: members ++ [env.imported name arity, env.typeNamed name])

end InferEnv

namespace Infer

def resolveAt (mark : Mark) (name : String) (arity : Option Nat) : Infer (Option Reference) := do
  let resolution := (← read).resolveName (← get).scopes name arity
  update mark fun facts => { facts with resolution }
  return resolution.unique?

/-- Resolve a member of a type for a node; nothing is known about members of an
    unknown type. -/
def memberAt (mark : Mark) (receiver : Ty) (name : String) (arity : Option Nat)
    (staticOnly : Bool) : Infer (Option Reference) := do
  let env ← read
  let resolution :=
    if receiver.isUnknown then {} else env.memberOn receiver name arity staticOnly
  update mark fun facts => { facts with resolution }
  return resolution.unique?

def valueType : Option Reference → Ty
  | some reference => if reference.kind = .method then .unknown else reference.type
  | none => .unknown

def recordConstant (node : Expr) : Infer Unit := do
  let facts := (← get).facts
  let value ← match node.kind with
    | .ident _ | .member .. =>
      let fields := (← read).constFields
      pure do
        let reference ← (facts.get node.id).resolution.found
        let container ← reference.container
        if reference.kind = .field then fields.lookup (container, reference.name) else none
    | _ => pure (node.fold? fun name => (facts.get name.id).constant)
  match value with
  | some value => update node.mark fun facts => { facts with constant := some value }
  | none => return

end Infer

end Unsugar
