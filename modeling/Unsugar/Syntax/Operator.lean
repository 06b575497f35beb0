namespace Unsugar

/-! # Operators

The operators of the language, with their spelling and how tightly they bind.
-/

/-- Unary operators, written before their operand. -/
inductive UnaryOp where
  | not
  | neg
  | bitNot
  deriving DecidableEq, Repr, Inhabited

def UnaryOp.symbol : UnaryOp → String
  | .not => "!"
  | .neg => "-"
  | .bitNot => "~"

def UnaryOp.ofSymbol? (text : String) : Option UnaryOp :=
  [not, neg, bitNot].find? fun op => op.symbol == text

inductive BinaryOp where
  | add
  | sub
  | mul
  | div
  | mod
  | eq
  | notEq
  | lt
  | ltEq
  | gt
  | gtEq
  | and
  | or
  | bitAnd
  | bitOr
  | bitXor
  | coalesce
  deriving DecidableEq, Repr, Inhabited

namespace BinaryOp

def symbol : BinaryOp → String
  | add => "+"
  | sub => "-"
  | mul => "*"
  | div => "/"
  | mod => "%"
  | eq => "=="
  | notEq => "!="
  | lt => "<"
  | ltEq => "<="
  | gt => ">"
  | gtEq => ">="
  | and => "&&"
  | or => "||"
  | bitAnd => "&"
  | bitOr => "|"
  | bitXor => "^"
  | coalesce => "??"

/-- Binding strength; a higher level binds tighter. -/
def level : BinaryOp → Nat
  | coalesce => 3
  | or => 4
  | and => 5
  | bitOr => 6
  | bitXor => 7
  | bitAnd => 8
  | eq | notEq => 9
  | lt | ltEq | gt | gtEq => 10
  | add | sub => 12
  | mul | div | mod => 13

def groupsRight (op : BinaryOp) : Bool := op == coalesce

def isComparison : BinaryOp → Bool
  | eq | notEq | lt | ltEq | gt | gtEq => true
  | _ => false

def isLogical : BinaryOp → Bool
  | and | or => true
  | _ => false

/-- Every operator, in the order of declaration. -/
def all : List BinaryOp :=
  [add, sub, mul, div, mod, eq, notEq, lt, ltEq, gt, gtEq, and, or,
    bitAnd, bitOr, bitXor, coalesce]

def ofSymbol? (text : String) : Option BinaryOp :=
  all.find? fun op => op.symbol == text

end BinaryOp

/-- Comparisons that a relational pattern may use. -/
inductive Comparison where
  | lt
  | ltEq
  | gt
  | gtEq
  deriving DecidableEq, Repr, Inhabited

def Comparison.toBinary : Comparison → BinaryOp
  | .lt => .lt
  | .ltEq => .ltEq
  | .gt => .gt
  | .gtEq => .gtEq

def Comparison.ofSymbol? (text : String) : Option Comparison :=
  [lt, ltEq, gt, gtEq].find? fun op => op.toBinary.symbol == text

end Unsugar
