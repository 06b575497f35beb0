import Unsugar.Lower.Pass

namespace Unsugar.Pass

/-! # Deconstruction, discards and `out` declarations

`(a, var b) = e;` becomes `T t = e; a = t.Item1; var b = t.Item2;`, `_ = e`
becomes `e`, and a variable declared in an `out` argument is declared before the
statement.
-/

def isWholeStatement (site : Site) (node : Expr) : Bool :=
  match site.parent? with
  | some (.stmt ⟨_, .eval value⟩) => value.id == node.id
  | _ => false

def outVariable? (inner : Expr) : Pass (Option (String × TypeSyntax)) := do
  match inner.kind with
  | .declaration type name =>
    let declared := ((← view).declared? inner.mark).map (·.type)
    match declared.filter (· ≠ .unknown) with
    | some declared => return some (name, ← syntaxOf declared)
    | none => return some (name, if type.isVar then .dynamic else type)
  | .discard =>
    let name ← fresh "d"
    return some (name, ← syntaxOf ((← view).typeInfo inner).converted)
  | _ => return none

/-- Pass a variable that is declared elsewhere.  Whether the argument introduces
    one is read off `input`, the argument before the pass: what a discarding
    assignment leaves behind is no declaration of its own. -/
def outArgument (site : Site) (node input inner : Expr) : Pass Expr := do
  match ← outVariable? input with
  | none => return { node with kind := .out inner }
  | some (name, type) =>
    let point ← installPoint site node node.span
    hoist point name type node.span
    return { node with kind := .out (← setKind inner (.ident name)) }

/-- Statements for the targets of a deconstruction, which read the components of
    `source` in order.  `rebuilt` holds the same targets as they are to be
    written. -/
def assignTargets (types : Universe) (span : Span) (source : Expr) :
    List Expr → List Expr → List (String × Ty) → List Stmt
  | item :: items, target :: targets, (name, type) :: components =>
    let access := span.member source.forget name
    let here := match item with
      | ⟨_, .discard⟩ => []
      | ⟨_, .tuple nested⟩ =>
        let inner := match target.kind with
          | .tuple inner => inner
          | _ => []
        assignTargets types span access nested inner (types.components type nested.length)
      | ⟨_, .declaration written declared⟩ => [span.declare written declared (some access)]
      | _ => [span.assignStmt target access]
    here ++ assignTargets types span source items targets components
  | _, _, _ => []

def deconstruct (node : Stmt) (items targets : List Expr) (value : Expr) : Pass (List Stmt) := do
  let span := node.span
  let types ← types
  let type ← typeOf value
  let name ← fresh "t"
  let written ← localSyntax type
  let rest := assignTargets types span (span.ident name) items targets
    (types.components type items.length)
  splice node (.declare written name (some value)) rest

def deconstructionRules : Rules Pass where
  expr := fun site node kind => do
    match node.kind, kind with
    | .out input, .out inner => outArgument site node input inner
    | .assign none target _, .assign none _ value =>
      if isWholeStatement site node then return { node with kind }
      else
        match target.kind with
        | .discard => replace node value
        | .tuple _ => unsupported "deconstruction outside of an expression statement" node.span
        | _ => return { node with kind }
    | _, _ => return { node with kind }
  stmt := fun _ node kind => do
    match node.kind, kind with
    | .eval ⟨_, .assign none target _⟩, .eval ⟨_, .assign none rebuilt value⟩ =>
      match target.kind, rebuilt.kind with
      | .discard, _ => setStmt node (.eval value)
      | .tuple items, .tuple targets => deconstruct node items targets value
      | _, _ => return [{ node with kind }]
    | _, _ => return [{ node with kind }]
  pattern := fun _ node kind => return { node with kind }

def deconstruction : Pass CompilationUnit := do
  (← read).unit.rebuild deconstructionRules

end Unsugar.Pass
