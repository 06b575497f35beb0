import Unsugar.Span

namespace Unsugar

/-! # Lowering errors

Every error carries the span of the construct that caused it.
-/

inductive LowerError where
  /-- A construct that cannot be expressed in the target subset. -/
  | unsupported (pass what : String) (span : Span)
  | within (pass node : String) (span : Span) (cause : LowerError)
  | nonConstant (pass what : String) (span : Span)
  /-- A type or member that lowering needs does not exist. -/
  | resolution (what : String) (span : Span)
  deriving DecidableEq, Repr

namespace LowerError

def message : LowerError → String
  | unsupported pass what _ => pass ++ ": unsupported construct: " ++ what
  | within pass node _ cause =>
    pass ++ ": failed to lower `" ++ node ++ "`: " ++ cause.message
  | nonConstant pass what _ => pass ++ ": " ++ what ++ " must be a compile-time constant"
  | resolution what _ => "cannot resolve " ++ what

def span : LowerError → Span
  | unsupported _ _ span | within _ _ span _ | nonConstant _ _ span | resolution _ span => span

def pass? : LowerError → Option String
  | unsupported pass _ _ | within pass _ _ _ | nonConstant pass _ _ => some pass
  | resolution _ _ => none

/-- Say which node an error was raised for.  The innermost node is kept. -/
def inNode (error : LowerError) (pass node : String) (span : Span) : LowerError :=
  match error with
  | within .. => error
  | _ => .within pass node span error

end LowerError

end Unsugar
