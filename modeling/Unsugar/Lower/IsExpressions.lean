import Unsugar.Lower.PatternTest

namespace Unsugar.Pass

/-! # Tests in expressions

Every `is` test becomes a condition.  `if (x is T name)` on a simple subject
declares its variable in the branch instead of hoisting it.
-/

def declarationTest? : Expr → Option (Expr × Pattern × TypeSyntax × String)
  | ⟨_, .isPattern subject ⟨mark, .declaration type name⟩⟩ =>
    if isDesignation name && subject.isSimple then
      some (subject, ⟨mark, .declaration type name⟩, type, name)
    else none
  | _ => none

/-- Whether an expression is the condition of an `if` that declares its
    variable in its branch. -/
def isBranchTest (site : Site) (node : Expr) : Bool :=
  match site.parent? with
  | some (.stmt ⟨_, .ifElse cond _ _⟩) => cond.id == node.id && (declarationTest? node).isSome
  | _ => false

def lowerIs (site : Site) (node subject : Expr) (pattern : Pattern) : Pass Expr := do
  let span := node.span
  let point ← installPoint site node span
  let value : Subject := { expr := subject, type := ← typeOf subject, source := some subject }
  try
    replace node (← patternCondition point span value pattern)
  catch error =>
    throw (error.inNode (← read).pass node.text span)

def lowerBranchTest (node : Stmt) (cond : Expr) (yes : Stmt) (no : Option Stmt) :
    Pass (List Stmt) := do
  match declarationTest? cond with
  | none => return [{ node with kind := .ifElse cond yes no }]
  | some (subject, pattern, type, name) =>
    let span := cond.span
    let declared := ((← view).declared? pattern.mark).map (·.type)
    let written ← match declared.filter (· ≠ .unknown) with
      | some declared => syntaxOf declared
      | none => pure type
    let variableDecl := span.declare written name (some (span.cast type subject.forget))
    setStmt node (.ifElse (span.typeTest subject.forget type)
      (yes.span.block [variableDecl, yes]) no)

def patternRules : Rules Pass where
  expr := fun site node kind => do
    match kind with
    | .isPattern subject pattern =>
      if isBranchTest site node then return { node with kind }
      else lowerIs site node subject pattern
    | _ => return { node with kind }
  stmt := fun _ node kind => do
    match kind with
    | .ifElse cond yes no => lowerBranchTest node cond yes no
    | _ => return [{ node with kind }]
  pattern := fun _ node kind => return { node with kind }

def patterns : Pass CompilationUnit := do
  (← read).unit.rebuild patternRules

end Unsugar.Pass
