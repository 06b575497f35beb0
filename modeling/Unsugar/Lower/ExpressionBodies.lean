import Unsugar.Lower.Pass

namespace Unsugar

/-! # Expression bodies

`int M() => e;` becomes `int M() { return e; }`, and a body without a result
`{ e; }`.  Lambdas keep their expression bodies.
-/

def Body.toBlock (returns : Bool) : Body → Body
  | .expr value =>
    let span := value.span
    .block (span.block [if returns then span.ret value else span.evalStmt value])
  | other => other

def Body.isExpr : Body → Bool
  | .expr _ => true
  | _ => false

namespace Pass

def isVoid (type : TypeSyntax) : Pass Bool := return (← view).bind type == .void

def noteBodies (bodies : List Body) : Pass Unit := do
  if bodies.any Body.isExpr then markChanged

def blockMember (member : Member) : Pass Member := do
  match member.kind with
  | .method name typeParams params ret body =>
    noteBodies [body]
    let body := body.toBlock (!(← isVoid ret))
    return { member with kind := .method name typeParams params ret body }
  | .operator op params ret body =>
    noteBodies [body]
    return { member with kind := .operator op params ret (body.toBlock true) }
  | .ctor params initializer body =>
    noteBodies [body]
    return { member with kind := .ctor params initializer (body.toBlock false) }
  | .property type name getter setter init =>
    noteBodies (getter.toList ++ setter.toList)
    let getter := getter.map (Body.toBlock true)
    let setter := setter.map (Body.toBlock false)
    return { member with kind := .property type name getter setter init }
  | .field .. => return member

def blockDecl (decl : TypeDecl) : Pass TypeDecl := do
  return { decl with members := ← decl.members.mapM blockMember }

def blockRules : Rules Pass :=
  { Rules.keep with
    stmt := fun _ node kind => do
      match kind with
      | .localFunction name typeParams params ret (.expr value) =>
        let body := (Body.expr value).toBlock (!(← isVoid ret))
        setStmt node (.localFunction name typeParams params ret body)
      | _ => return [{ node with kind }] }

/-- Turn expression bodies of members and local functions into blocks. -/
def expressionBodies : Pass CompilationUnit := do
  let unit ← (← read).unit.rebuild blockRules
  return { unit with types := ← unit.types.mapM blockDecl }

end Pass

end Unsugar
