import Unsugar.Lower.Collection

namespace Unsugar.Pass

/-! # Switch expressions

`s switch { p1 when g => r1, _ => r2 }` becomes `s is p1 && g ? r1 : r2`, with
results cast to the type of the switch.  Without an arm that takes everything,
the chain ends by throwing.
-/

def isCatchAll : Pattern → Bool
  | ⟨_, .discard⟩ => true
  | ⟨_, .paren inner⟩ => isCatchAll inner
  | _ => false

/-- Cast the result of an arm to the type of the switch, unless it has it.
    `input` is the result before the pass. -/
def convertResult (input result : Expr) (target : Ty) : Pass Expr := do
  let isThrow := match input.kind with
    | .throw _ => true
    | _ => false
  let conversion := (← view).classifyConversion input target
  if target.isUnknown || isThrow || conversion == .identity then return result
  else return input.span.cast (← syntaxOf target) result

def switchChain (subject : Expr) (target : Ty) (otherwise : Expr) :
    (input rebuilt : List Arm) → Pass Expr
  | input :: inputs, arm :: arms => do
    let rest ← switchChain subject target otherwise inputs arms
    let result ← convertResult input.result arm.result target
    match arm.guard with
    | none =>
      if isCatchAll arm.pattern then return result
      else
        let test := arm.span.expr (.isPattern subject.forget arm.pattern)
        return arm.span.conditional test result rest
    | some guard =>
      let test := arm.span.expr (.isPattern subject.forget arm.pattern)
      return arm.span.conditional (arm.span.binary .and test guard) result rest
  | _, _ => return otherwise

def lowerSwitchExpression (site : Site) (node subject : Expr) (arms : List Arm) : Pass Expr := do
  let span := node.span
  let target ← contextType node
  let (subject, capture) ← stabilize site node subject (← typeOf subject) "s"
  let failure := span.create (.simple "SwitchExpressionException") [subject.forget]
  let input := match node.kind with
    | .switch _ input => input
    | _ => arms
  let chain ← switchChain subject target (span.expr (.throw failure)) input arms
  replace node (span.after capture chain)

end Unsugar.Pass
