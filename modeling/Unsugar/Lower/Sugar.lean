import Unsugar.Syntax.Children
import Unsugar.Lower.Error

namespace Unsugar

/-! # Sugar

The constructs that lowering removes, and the check that none is left.
-/

def ExprKind.sugar? : ExprKind → Option String
  | .isPattern .. => some "pattern test"
  | .switch .. => some "switch expression"
  | .fromEnd _ => some "index from end"
  | .range .. => some "range"
  | .conditionalAccess .. => some "null-conditional access"
  | .memberBinding _ | .elementBinding _ => some "conditional-access binding"
  | .spread _ => some "spread element"
  | .copyWith .. => some "with expression"
  | .interpolated _ => some "interpolated string"
  | .declaration .. => some "declaration expression"
  | .discard => some "discard"
  | .assign _ ⟨_, .tuple _⟩ _ => some "deconstructing assignment"
  | _ => none

def Label.isConstant : Label → Bool
  | .default => true
  | .case ⟨_, .constant _⟩ none => true
  | .case .. => false

def allConstant (sections : List Section) : Bool :=
  sections.all fun sect => sect.labels.all Label.isConstant

def StmtKind.sugar? : StmtKind → Option String
  | .localFunction .. => some "local function"
  | .switch _ sections =>
    if allConstant sections then none else some "switch with pattern labels"
  | _ => none

def Node.sugar? : Node → Option String
  | .expr node => node.kind.sugar?
  | .stmt node => node.kind.sugar?
  | .pattern _ => none

def TypeDecl.sugar? (decl : TypeDecl) : Option String :=
  if decl.kind.isRecord then some "record declaration"
  else if decl.primary.isSome then some "primary constructor"
  else none

/-- Sugar among nodes outside patterns, in order, with where it stands. -/
def sugarIn (roots : List Node) : List (String × Span) :=
  (roots.flatMap (Node.reachable false)).filterMap fun node =>
    node.sugar?.map fun what => (what, node.span)

def TypeDecl.sugar (decl : TypeDecl) : List (String × Span) :=
  (decl.sugar?.toList.map fun what => (what, decl.span)) ++
    sugarIn decl.headerRoots ++
    decl.members.flatMap fun member => sugarIn member.kind.roots

def CompilationUnit.sugar (unit : CompilationUnit) : List (String × Span) :=
  unit.types.flatMap TypeDecl.sugar

def CompilationUnit.validate (unit : CompilationUnit) : Except LowerError Unit :=
  match unit.sugar with
  | [] => .ok ()
  | (what, span) :: _ =>
    .error (.unsupported "validate" (what ++ " remains after lowering") span)

end Unsugar
