import Unsugar.Lower.Pass

namespace Unsugar.Pass

/-! # Written-out receivers

A bare name that means a member of the enclosing type or one of its bases
becomes `this.Name`, or `Type.Name` for a static member, so that code can move
without changing what its names mean.  Names that come from `using static` are
qualified the same way, and the directives are dropped.
-/

/-- The member that a name refers to.  Overloads that belong to one type and
    agree on being static are qualified alike, so any of them will do. -/
def memberReference? (resolution : Resolution) : Option Reference :=
  let reference := match resolution.unique?, resolution.candidates with
    | some reference, _ => some reference
    | none, [] => none
    | none, first :: rest =>
      if rest.all fun other =>
        other.container == first.container && other.isStatic == first.isStatic
      then some first
      else none
  reference.filter fun reference => reference.kind.isTypeMember

def enclosingType (owner : Owner) : Pass (Option Ty) := do
  let index := match owner with
    | .member type _ => some type
    | .header type => some type
    | .detached => none
  let env ← read
  return do
    let decl ← env.unit.types[← index]?
    env.view.types.names.lookup? decl.name

def inBaseChain (types : Universe) (owner container : Ty) : Bool :=
  let name := (types.data container).name
  (types.chain false Universe.chainLimit owner).any fun type =>
    type == container || (types.data type).name == name

def qualify (node : Expr) (name : String) (reference : Reference) (container : Ty) :
    Pass Expr := do
  let span := node.span
  let receiver ←
    if reference.isStatic then pure (span.typeRef (← syntaxOf container))
    else pure span.self
  setKind node (.member receiver name)

/-- Rules that qualify the bare names that `wanted` selects; it is given the
    member, its type and whether that type is in reach of the enclosing one. -/
def qualifyRules (wanted : Reference → Ty → Bool → Bool) : Rules Pass :=
  { Rules.keep with
    expr := fun site node kind => do
      match kind with
      | .ident name =>
        let view ← view
        match memberReference? (view.resolution node) with
        | some reference =>
          match reference.container with
          | some container =>
            let inReach := match ← enclosingType site.owner with
              | some owner => inBaseChain view.types owner container
              | none => false
            if wanted reference container inReach then
              qualify node name reference container
            else return { node with kind }
          | none => return { node with kind }
        | none => return { node with kind }
      | _ => return { node with kind } }

/-- Qualify names of the enclosing type's own members. -/
def names : Pass CompilationUnit := do
  (← read).unit.rebuild (qualifyRules fun _ _ inReach => inReach)

def staticImports (types : Universe) (usings : List Using) : List Ty :=
  (usings.filter (·.isStatic)).filterMap fun directive =>
    types.names.lookup? (lastSegment directive.path)

def staticUsings : Pass CompilationUnit := do
  let unit := (← read).unit
  let imports := staticImports (← types) unit.usings
  let rules := qualifyRules fun reference container inReach =>
    reference.isStatic && imports.contains container && !inReach
  let unit ← unit.rebuild rules
  if unit.usings.any (·.isStatic) then markChanged
  return { unit with usings := unit.usings.filter fun directive => !directive.isStatic }

end Unsugar.Pass
