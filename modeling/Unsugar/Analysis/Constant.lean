import Unsugar.Syntax.Tree
import Unsugar.Eval.Number

namespace Unsugar

/-! # Constants

Folding of literals.  Integer arithmetic that leaves the signed 64-bit range has
no constant value.
-/

/-- Values known before a program runs. -/
inductive Constant where
  | int (value : Int)
  | float (bits : UInt64)
  | bool (value : Bool)
  | char (value : Char)
  | str (value : String)
  | null
  deriving DecidableEq, Repr, Inhabited

def Literal.constant : Literal → Constant
  | int value => .int value
  | float bits => .float bits
  | bool value => .bool value
  | char value => .char value
  | str value => .str value
  | null => .null

namespace Constant

def ofInt? (value : Int) : Option Constant :=
  if Int64.minValue.toInt ≤ value ∧ value ≤ Int64.maxValue.toInt then some (.int value) else none

def unary? : UnaryOp → Constant → Option Constant
  | .neg, int value => ofInt? (-value)
  | .neg, float bits => some (float (Binary64.negate bits))
  | .not, bool value => some (bool (!value))
  | .bitNot, int value => some (int (-value - 1))
  | _, _ => none

/-- Division toward zero; its remainder has the sign of the dividend.  Neither
    has a value where the quotient has none. -/
def divide? (pick : Int → Int → Int) (left right : Int) : Option Constant :=
  if right = 0 then none
  else if (ofInt? (left.tdiv right)).isSome then some (.int (pick left right))
  else none

def integers? : BinaryOp → Int → Int → Option Constant
  | .add, left, right => ofInt? (left + right)
  | .sub, left, right => ofInt? (left - right)
  | .mul, left, right => ofInt? (left * right)
  | .div, left, right => divide? Int.tdiv left right
  | .mod, left, right => divide? Int.tmod left right
  | .bitAnd, left, right => some (int (bitwise64 (· &&& ·) left right))
  | .bitOr, left, right => some (int (bitwise64 (· ||| ·) left right))
  | .bitXor, left, right => some (int (bitwise64 (· ^^^ ·) left right))
  | .eq, left, right => some (bool (left = right))
  | .notEq, left, right => some (bool (left ≠ right))
  | .lt, left, right => some (bool (left < right))
  | .ltEq, left, right => some (bool (left ≤ right))
  | .gt, left, right => some (bool (right < left))
  | .gtEq, left, right => some (bool (right ≤ left))
  | .and, _, _ | .or, _, _ | .coalesce, _, _ => none

def binary? : BinaryOp → Constant → Constant → Option Constant
  | op, int left, int right => integers? op left right
  | .add, str left, str right => some (str (left ++ right))
  | .and, bool left, bool right => some (bool (left && right))
  | .or, bool left, bool right => some (bool (left || right))
  | _, _, _ => none

end Constant

section Fold

variable (resolve : Expr → Option Constant)

mutual

/-- The constant value of an expression.  Names mean what `resolve` says. -/
def Expr.fold? : Expr → Option Constant
  | ⟨mark, kind⟩ => kind.fold? mark

def ExprKind.fold? (mark : Mark) : ExprKind → Option Constant
  | .literal value => some value.constant
  | .paren inner => inner.fold?
  | .ident name => resolve ⟨mark, .ident name⟩
  | .member receiver name => resolve ⟨mark, .member receiver name⟩
  | .unary op operand => do Constant.unary? op (← operand.fold?)
  | .binary op left right => do
    let left ← left.fold?
    let right ← right.fold?
    Constant.binary? op left right
  | _ => none

end

end Fold

end Unsugar
