import Unsugar.Syntax.Rebuild

namespace Unsugar

/-! # Numbering and copying

Numbering gives every node of a tree an identity of its own, children before
parents.  A copy of a subtree is the same subtree under fresh identities: what
is recorded or queued for the first does not apply to the second.
-/

def drawId : StateM Nat Nat := fun next => (next, next + 1)

/-- A lambda takes the identity drawn for the expression that holds it. -/
def ExprKind.relabel (id : Nat) : ExprKind → ExprKind
  | .lambda _ params isAsync body => .lambda (some id) params isAsync body
  | kind => kind

/-- Rules that give every node a fresh identity. -/
def Rules.number : Rules (StateM Nat) where
  expr := fun _ node kind => do
    let id ← drawId
    return ⟨{ node.mark with id := some id }, kind.relabel id⟩
  stmt := fun _ node kind => do
    let id ← drawId
    return [⟨{ node.mark with id := some id }, kind⟩]
  pattern := fun _ node kind => do
    let id ← drawId
    return ⟨{ node.mark with id := some id }, kind⟩

def Site.detached : Site := ⟨.detached, []⟩

def Expr.copy (node : Expr) : StateM Nat Expr := node.rebuild Rules.number .detached

def Stmt.copy (node : Stmt) : StateM Nat Stmt := node.rebuild Rules.number .detached

def Pattern.copy (node : Pattern) : StateM Nat Pattern :=
  node.rebuild Rules.number .detached

def Node.copy : Node → StateM Nat Node
  | .expr node => return .expr (← node.copy)
  | .stmt node => return .stmt (← node.copy)
  | .pattern node => return .pattern (← node.copy)

/-- The unit with every node numbered, and the first number not used. -/
def CompilationUnit.number (unit : CompilationUnit) : CompilationUnit × Nat :=
  (unit.rebuild Rules.number).run 0

def ExprKind.anonymous : ExprKind → ExprKind
  | .lambda _ params isAsync body => .lambda none params isAsync body
  | kind => kind

/-- Rules that take every identity away. -/
def Rules.forget : Rules Id where
  expr := fun _ node kind => pure ⟨node.span.mark, kind.anonymous⟩
  stmt := fun _ node kind => pure [⟨node.span.mark, kind⟩]
  pattern := fun _ node kind => pure ⟨node.span.mark, kind⟩

/-- A copy of an expression whose nodes have no identity. -/
def Expr.forget (node : Expr) : Expr := (node.rebuild Rules.forget .detached : Id Expr)

/-- How many nodes of each sort a subtree has. -/
structure Census where
  exprs : Nat := 0
  stmts : Nat := 0
  patterns : Nat := 0
  types : Nat := 0
  localFunctions : Nat := 0
  deriving DecidableEq, Repr, Inhabited

namespace Census

def counts (census : Census) : List Nat :=
  [census.exprs, census.stmts, census.patterns, census.types, census.localFunctions]

def add (left right : Census) : Census where
  exprs := left.exprs + right.exprs
  stmts := left.stmts + right.stmts
  patterns := left.patterns + right.patterns
  types := left.types + right.types
  localFunctions := left.localFunctions + right.localFunctions

def ofNode (node : Node) : Census :=
  let types := TypeSyntax.sizeAll node.types
  match node with
  | .expr _ => { exprs := 1, types }
  | .stmt ⟨_, .localFunction ..⟩ => { stmts := 1, types, localFunctions := 1 }
  | .stmt _ => { stmts := 1, types }
  | .pattern _ => { patterns := 1, types }

def ofTree (root : Node) : Census :=
  ((root.reachable true).map ofNode).foldl add {}

/-- After a subtree is copied there is another node for each of its nodes, while
    the copy shares its type syntax. -/
def afterCopy (census : Census) : Census :=
  { census.add census with types := census.types }

end Census

end Unsugar
