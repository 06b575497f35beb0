import Unsugar.Lower.PatternTest
import Unsugar.Lower.Sugar

namespace Unsugar

/-! # Switch statements with patterns

A switch with a label that is not constant becomes a chain of `if` statements.
Labels of one section are alternatives, and the `default` section comes last.  A
`break` that ends a section is dropped; any other `break` that leaves the switch
cannot be expressed.
-/

mutual

/-- The `break` statements that leave the switch a statement stands in. -/
def Stmt.breaks : Stmt → List Stmt
  | ⟨mark, kind⟩ => kind.breaks mark

def StmtKind.breaks (mark : Mark) : StmtKind → List Stmt
  | .breakLoop => [⟨mark, .breakLoop⟩]
  | .block body => breaksIn body
  | .ifElse _ yes no => yes.breaks ++ breaksIn? no
  | _ => []

def breaksIn : List Stmt → List Stmt
  | [] => []
  | node :: rest => node.breaks ++ breaksIn rest

def breaksIn? : Option Stmt → List Stmt
  | none => []
  | some node => node.breaks

end

mutual

/-- The statement without a `break` at its very end, and that `break`. -/
def Stmt.dropBreak? : Stmt → Option (Option Stmt × Stmt)
  | ⟨mark, .breakLoop⟩ => some (none, ⟨mark, .breakLoop⟩)
  | ⟨mark, .block body⟩ =>
    (dropLastBreak? body).map fun (body, dropped) => (some ⟨mark, .block body⟩, dropped)
  | _ => none

/-- Statements without a `break` at the very end, and that `break`. -/
def dropLastBreak? : List Stmt → Option (List Stmt × Stmt)
  | [] => none
  | [last] => last.dropBreak?.map fun (kept, dropped) => (kept.toList, dropped)
  | node :: rest => (dropLastBreak? rest).map fun (rest, dropped) => (node :: rest, dropped)

end

namespace Pass

def sectionBody (span : Span) (body : List Stmt) : Pass Stmt := do
  let (kept, trailing) := match dropLastBreak? body with
    | some (kept, dropped) => (kept, dropped.id)
    | none => (body, none)
  let strays := (breaksIn body).filter fun node => trailing.isNone || node.id != trailing
  match strays with
  | stray :: _ => unsupported "`break` that leaves a switch with pattern labels" stray.span
  | [] =>
    if trailing.isSome then markChanged
    return span.block kept

def isDefaultLabel : Label → Bool
  | .default => true
  | .case .. => false

def labelCondition (id : Nat) (subject : Subject) (pattern : Pattern) (guard : Option Expr) :
    Pass Expr := do
  let span := pattern.span
  let cond ← patternCondition (.stmt id) span subject pattern
  match guard with
  | none => return cond
  | some guard => return span.binary .and cond guard

def labelConditions (id : Nat) (subject : Subject) : List Label → Pass (List Expr)
  | [] => return []
  | .default :: rest => labelConditions id subject rest
  | .case pattern guard :: rest => do
    let cond ← labelCondition id subject pattern guard
    return cond :: (← labelConditions id subject rest)

/-- A switch as a list of conditional bodies and what runs when none is taken. -/
structure SwitchArms where
  arms : List (Expr × Stmt) := []
  otherwise : Option Stmt := none

/-- The arms of sections.  A section with a `default` label runs only when no
    other section does; of several the last counts. -/
def switchArms (id : Nat) (span : Span) (subject : Subject) (seen : SwitchArms) :
    List Section → Pass SwitchArms
  | [] => return seen
  | ⟨labels, body⟩ :: rest => do
    let block ← sectionBody span body
    if labels.any isDefaultLabel then
      switchArms id span subject { seen with otherwise := some block } rest
    else
      match ← labelConditions id subject labels with
      | [] => switchArms id span subject seen rest
      | first :: others =>
        let cond := others.foldl (span.binary .or) first
        switchArms id span subject { seen with arms := seen.arms ++ [(cond, block)] } rest

def ifChain (span : Span) (otherwise : Option Stmt) : List (Expr × Stmt) → Option Stmt
  | [] => otherwise
  | (cond, body) :: rest => some (span.ifElse cond body (ifChain span otherwise rest))

def lowerSwitch (node : Stmt) (subject : Expr) (sections : List Section) : Pass (List Stmt) := do
  let span := node.span
  let type ← typeOf subject
  let (tested, prelude) ←
    if subject.isSimple then pure (subject, [])
    else do
      let name ← fresh "s"
      pure (span.ident name, [span.declare (← localSyntax type) name (some subject)])
  let value : Subject := { expr := tested, type, source := some subject }
  let arms ← switchArms (node.id.getD 0) span value {} sections
  setStmt node (.block (prelude ++ (ifChain span arms.otherwise arms.arms).toList))

def switchRules : Rules Pass :=
  { Rules.keep with
    stmt := fun _ node kind => do
      match kind with
      | .switch subject sections =>
        if allConstant sections then return [{ node with kind }]
        else lowerSwitch node subject sections
      | _ => return [{ node with kind }] }

def switchLabels : Pass CompilationUnit := do
  (← read).unit.rebuild switchRules

end Pass

end Unsugar
