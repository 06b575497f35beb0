import Unsugar.Lower.ChainedAssignment
import Unsugar.Lower.Deconstruction
import Unsugar.Lower.Desugar
import Unsugar.Lower.ExpressionBodies
import Unsugar.Lower.IsExpressions
import Unsugar.Lower.LocalFunctions
import Unsugar.Lower.Qualification
import Unsugar.Lower.SwitchStatements

namespace Unsugar

/-! # Lowering

The passes in sequence.  A tree is numbered and analyzed before the first pass
that needs a view of it, and again after every pass that changed it, so each pass
reads a view of exactly the tree it changes.
-/

def PassKind.action : PassKind → Pass CompilationUnit
  | .expressionBodies => Pass.expressionBodies
  | .names => Pass.names
  | .deconstruction => Pass.deconstruction
  | .desugar => Pass.desugar
  | .localFunctions => Pass.localFunctions
  | .chainedAssignment => Pass.chainedAssignment
  | .staticUsings => Pass.staticUsings
  | .patterns => Pass.patterns
  | .switchLabels => Pass.switchLabels

structure Analyzed where
  tree : Tree
  view : View
  /-- The first identity that no node has. -/
  nextId : Nat

def Tree.analyze (tree : Tree) : Analyzed :=
  let (unit, count) := tree.unit.number
  let vocabulary := tree.vocabulary.merge unit.vocabulary
  { tree := { tree with unit, vocabulary }
    view := unit.analyze count vocabulary
    nextId := count }

/-- A tree between two passes. -/
structure Lowering where
  tree : Tree
  /-- The analysis of the tree, if it has been made. -/
  analyzed : Option Analyzed := none
  triggers : Triggers := {}
  /-- The units that were analyzed so far, in order. -/
  history : List CompilationUnit := []

namespace Lowering

def analyze (analysis : Tree → Analyzed) (lowering : Lowering) : Analyzed × Lowering :=
  match lowering.analyzed with
  | some analyzed => (analyzed, lowering)
  | none =>
    let analyzed := analysis lowering.tree
    (analyzed, { lowering with
      analyzed := some analyzed
      history := lowering.history ++ [lowering.tree.unit] })

/-- Run one pass on an analyzed tree.  A pass that changes nothing leaves the
    analysis valid. -/
def runOn (analyzed : Analyzed) (pass : PassKind) (lowering : Lowering) :
    Except LowerError Lowering := do
  let env : PassEnv := {
    pass := pass.name
    unit := analyzed.tree.unit
    view := analyzed.view
    hoistsInitializers := pass == .desugar }
  let start : PassState := {
    nextName := analyzed.tree.nextName
    nextId := analyzed.nextId
    triggers := lowering.triggers }
  let result ← pass.action.run env start
  match result.unit with
  | none => return { lowering with triggers := result.triggers }
  | some unit =>
    let vocabulary := analyzed.tree.vocabulary.merge { types := result.written }
    return { lowering with
      tree := { unit, nextName := result.nextName, vocabulary }
      analyzed := none
      triggers := result.triggers }

/-- Run passes one after the other.  What was analyzed is known even when a pass
    fails. -/
def runAll (analysis : Tree → Analyzed) :
    List PassKind → Lowering → Except LowerError Lowering × List CompilationUnit
  | [], lowering => (.ok lowering, lowering.history)
  | pass :: rest, lowering =>
    let (analyzed, lowering) := lowering.analyze analysis
    match runOn analyzed pass lowering with
    | .error error => (.error error, lowering.history)
    | .ok lowering => runAll analysis rest lowering

end Lowering

/-- Lower a tree with the given analysis, and tell which units were analyzed on
    the way. -/
def Tree.lowerTracedWith (analysis : Tree → Analyzed) (tree : Tree) :
    Except LowerError Tree × List CompilationUnit :=
  match Lowering.runAll analysis PassKind.always { tree } with
  | (.error error, history) => (.error error, history)
  | (.ok lowering, _) =>
    match Lowering.runAll analysis lowering.triggers.plan lowering with
    | (.error error, history) => (.error error, history)
    | (.ok lowering, history) =>
      (lowering.tree.unit.validate.map fun _ => lowering.tree, history)

def Tree.lowerTraced (tree : Tree) : Except LowerError Tree × List CompilationUnit :=
  tree.lowerTracedWith Tree.analyze

def Tree.lower (tree : Tree) : Except LowerError Tree := tree.lowerTraced.1

def CompilationUnit.lower (unit : CompilationUnit) : Except LowerError CompilationUnit :=
  ({ unit : Tree }.lower).map (·.unit)

end Unsugar
