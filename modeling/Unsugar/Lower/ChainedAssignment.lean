import Unsugar.Lower.Pass

namespace Unsugar.Pass

/-! # Chained assignment

`a = b = e;` becomes `var t = e; b = t; a = t;`.  Targets are assigned innermost
first.  Chains inside larger expressions stay.
-/

def assignmentChain : Expr → List Expr × Expr
  | ⟨_, .assign none target value⟩ =>
    let (targets, last) := assignmentChain value
    (target :: targets, last)
  | value => ([], value)

/-- The type that the targets of a chain receive: that of the innermost one, or
    of the value where it is unknown. -/
def chainType (targets : List Expr) (value : Expr) : Pass Ty := do
  match targets.getLast? with
  | some target =>
    let type ← typeOf target
    if type = .unknown then typeOf value else return type
  | none => typeOf value

def splitChain (node : Stmt) (targets : List Expr) (value : Expr) : Pass (List Stmt) := do
  let span := node.span
  let name ← fresh "t"
  let type ← localSyntax (← chainType targets value)
  let assigns := targets.reverse.map fun target => span.assignStmt target (span.ident name)
  splice node (.declare type name (some value)) assigns

def chainRules : Rules Pass :=
  { Rules.keep with
    stmt := fun _ node kind => do
      match kind with
      | .eval value =>
        let (targets, last) := assignmentChain value
        if 1 < targets.length then splitChain node targets last
        else return [{ node with kind }]
      | _ => return [{ node with kind }] }

def chainedAssignment : Pass CompilationUnit := do
  (← read).unit.rebuild chainRules

end Unsugar.Pass
