import Unsugar.Lower.Interpolation
import Unsugar.Lower.NullConditional
import Unsugar.Lower.Record
import Unsugar.Lower.Sugar
import Unsugar.Lower.SwitchExpression

namespace Unsugar.Pass

/-! # Desugaring

One traversal lowers the sugar of expressions; after it, records and types with
a primary constructor are lowered.  On the way it is noted which further passes
the unit needs.
-/

def trigger (change : Triggers → Triggers) : Pass Unit :=
  modify fun state => { state with triggers := change state.triggers }

def isPlainAssign : Expr → Bool
  | ⟨_, .assign none _ _⟩ => true
  | _ => false

def observe : StmtKind → Pass Unit
  | .localFunction .. => trigger fun triggers => { triggers with localFunctions := true }
  | .eval ⟨_, .assign none _ value⟩ =>
    if isPlainAssign value then
      trigger fun triggers => { triggers with chainedAssignment := true }
    else return
  | .switch _ sections =>
    if allConstant sections then return
    else trigger fun triggers => { triggers with switchLabels := true }
  | _ => return

def tests : Pass Unit := trigger fun triggers => { triggers with patterns := true }

def desugarExpr (site : Site) (node : Expr) (kind : ExprKind) : Pass Expr := do
  match kind with
  | .ident name => lowerName site node name
  | .isPattern .. =>
    tests
    return { node with kind }
  | .switch subject arms =>
    let lowered ← lowerSwitchExpression site node subject arms
    tests
    return lowered
  | .index receiver args => lowerIndex site node receiver args
  | .fromEnd value => lowerFromEnd site node value
  | .range start stop => lowerRange site node start stop
  | .conditionalAccess .. => lowerConditionalAccess site node kind
  | .collection items => lowerCollection node items
  | .interpolated parts => lowerInterpolated node parts
  | .copyWith receiver inits => lowerCopyWith node receiver inits
  | .lambda id params isAsync (.expr value) =>
    if ← isVoidAccess value then lowerVoidLambda site node id params isAsync value
    else return { node with kind }
  | _ => return { node with kind }

def desugarRules : Rules Pass where
  expr := desugarExpr
  stmt := fun site node kind => do
    observe node.kind
    match kind with
    | .eval value =>
      if ← isVoidAccess value then lowerVoidStatement site node value
      else return [{ node with kind }]
    | _ => return [{ node with kind }]
  pattern := fun _ node kind => return { node with kind }

def desugarDecls : Nat → List TypeDecl → Pass (List TypeDecl)
  | _, [] => return []
  | index, decl :: rest => do
    let lowered ←
      if decl.kind.isRecord then lowerRecord index decl else lowerPrimary index [] decl
    return lowered :: (← desugarDecls (index + 1) rest)

def desugar : Pass CompilationUnit := do
  let unit := (← read).unit
  if unit.usings.any (·.isStatic) then
    trigger fun triggers => { triggers with staticUsings := true }
  let unit ← unit.rebuild desugarRules
  return { unit with types := ← desugarDecls 0 unit.types }

end Unsugar.Pass
