import Unsugar.Lower.Subscript

namespace Unsugar.Pass

/-! # Null-conditional access

`a?.b.c?.d` tests each receiver once and reads the access through it:
`a != null && (n = a.b.c) != null ? n.d : null`.  An access without a value
becomes an `if` where a statement can stand, and runs inside a function that is
called only when every test holds elsewhere.
-/

/-- A lowered chain: its tests, and the access when they all hold. -/
structure GuardedAccess where
  guards : List Expr
  value : Expr

section Chains

variable (site : Site) (anchor : Expr)

/-- Read the binding at the root of an access through `receiver`.  Subscripts on
    the way are lowered once their receiver is known. -/
def bindAccess (receiver : Expr) (type : Ty) : Expr → Pass Expr
  | ⟨mark, .member inner name⟩ => do
    return ⟨mark, .member (← bindAccess receiver type inner) name⟩
  | ⟨mark, .call callee args⟩ => do
    return ⟨mark, .call (← bindAccess receiver type callee) args⟩
  | ⟨mark, .index inner args⟩ => do
    let inner ← bindAccess receiver type inner
    let node : Expr := ⟨mark, .index inner args⟩
    match ← SubscriptArg.ofArgs? args with
    | none => return node
    | some arg => replace node (← subscriptOn site anchor mark.span inner arg)
  | ⟨mark, .memberBinding name⟩ =>
    setKind ⟨mark, .memberBinding name⟩ (.member receiver.forget name)
  | ⟨mark, .elementBinding args⟩ => do
    let node : Expr := ⟨mark, .elementBinding args⟩
    match ← SubscriptArg.ofArgs? args with
    | some arg => replace node (← subscript site anchor mark.span receiver type arg)
    | none => setKind node (.index receiver.forget args)
  | ⟨mark, _⟩ =>
    unsupported "conditional access that does not start with a member or element binding"
      mark.span

def guardAccess (outer : Option (Expr × Ty)) : Expr → Pass GuardedAccess
  | ⟨mark, .conditionalAccess receiver access⟩ => do
    let span := mark.span
    let receiver ← match outer with
      | some (outer, type) => bindAccess site anchor outer type receiver
      | none => pure receiver
    let type ← typeOf receiver
    let (stable, capture) ← stabilize site anchor receiver type "n"
    let tested := capture.getD stable.forget
    let guard := span.binary .notEq tested span.nullLit
    let (inner, innerType) := match type with
      | .nullable underlying => (span.member stable.forget "Value", underlying)
      | _ => (stable, type)
    match access with
    | ⟨accessMark, .conditionalAccess next rest⟩ =>
      let chain ← guardAccess (some (inner, innerType))
        ⟨accessMark, .conditionalAccess next rest⟩
      return { chain with guards := guard :: chain.guards }
    | access => return ⟨[guard], ← bindAccess site anchor inner innerType access⟩
  | ⟨mark, _⟩ => unsupported "malformed conditional access" mark.span

end Chains

def continuesChain (site : Site) (node : Expr) : Bool :=
  match site.parent? with
  | some (.expr ⟨_, .conditionalAccess _ access⟩) => access.id == node.id
  | _ => false

def parentTakesIf (site : Site) (node : Expr) : Bool :=
  match site.parent? with
  | some (.stmt ⟨_, .eval value⟩) => value.id == node.id
  | some (.expr ⟨_, .lambda _ _ _ (.expr body)⟩) => body.id == node.id
  | _ => false

/-- Whether a node is a conditional access without a value. -/
def isVoidAccess (node : Expr) : Pass Bool := do
  match node.kind with
  | .conditionalAccess .. => return (← typeOf node) == .void
  | _ => return false

def conditionalValue (span : Span) (type : Ty) (cond value : Expr) : Pass Expr := do
  match type with
  | .void =>
    let call := span.immediate (.simple "bool")
      [span.evalStmt value, span.ret (span.boolLit true)]
    return span.conditional cond call (span.boolLit false)
  | .nullable _ =>
    return span.conditional cond (span.cast (← syntaxOf type) value)
      (← defaultValue span type)
  | _ => return span.conditional cond value (← defaultValue span type)

def lowerConditionalAccess (site : Site) (node : Expr) (kind : ExprKind) : Pass Expr := do
  let rebuilt : Expr := { node with kind }
  if continuesChain site node then return rebuilt
  else if parentTakesIf site node && (← isVoidAccess node) then return rebuilt
  else
    let span := node.span
    let chain ← guardAccess site node none rebuilt
    let type ← typeOf node
    replace node (← conditionalValue span type (span.conjunction chain.guards) chain.value)

/-- Condition and body of the `if` that an access without a value becomes. -/
def lowerVoidAccess (site : Site) (node : Expr) : Pass (Expr × Stmt) := do
  let span := node.span
  let chain ← guardAccess site node none node
  return (span.conjunction chain.guards, span.evalStmt chain.value)

/-- Where an expression statement or an expression-bodied lambda holds an access
    without a value, the site of that access. -/
def lowerVoidStatement (site : Site) (node : Stmt) (value : Expr) : Pass (List Stmt) := do
  let (cond, body) ← lowerVoidAccess (site.below (.stmt node)) value
  setStmt node (.ifElse cond body none)

def lowerVoidLambda (site : Site) (node : Expr) (id : Option Nat) (params : List Param)
    (isAsync : Bool) (value : Expr) : Pass Expr := do
  let (cond, body) ← lowerVoidAccess (site.below (.expr node)) value
  let span := value.span
  let block := span.block [span.ifElse cond body none]
  setKind node (.lambda id params isAsync (.block block))

end Unsugar.Pass
