import Unsugar.Syntax.Tree

namespace Unsugar.Span

/-! # Building nodes

Shorthands for nodes made at a span.  They have no identity.
-/

section Expressions

variable (span : Span)

def ident (name : String) : Expr := span.expr (.ident name)

def intLit (value : Int) : Expr := span.expr (.literal (.int value))

def boolLit (value : Bool) : Expr := span.expr (.literal (.bool value))

def strLit (value : String) : Expr := span.expr (.literal (.str value))

def nullLit : Expr := span.expr (.literal .null)

def self : Expr := span.expr .self

def typeRef (type : TypeSyntax) : Expr := span.expr (.typeRef type)

def member (receiver : Expr) (name : String) : Expr := span.expr (.member receiver name)

def call (callee : Expr) (args : List Expr) : Expr := span.expr (.call callee args)

def methodCall (receiver : Expr) (name : String) (args : List Expr) : Expr :=
  span.call (span.member receiver name) args

def index (receiver : Expr) (args : List Expr) : Expr := span.expr (.index receiver args)

def create (type : TypeSyntax) (args : List Expr) : Expr := span.expr (.create type args [])

def unary (op : UnaryOp) (operand : Expr) : Expr := span.expr (.unary op operand)

def binary (op : BinaryOp) (left right : Expr) : Expr := span.expr (.binary op left right)

def assign (target value : Expr) : Expr := span.expr (.assign none target value)

def conditional (cond yes no : Expr) : Expr := span.expr (.conditional cond yes no)

def cast (type : TypeSyntax) (operand : Expr) : Expr := span.expr (.cast type operand)

def typeTest (subject : Expr) (type : TypeSyntax) : Expr := span.expr (.typeTest subject type)

def paren (inner : Expr) : Expr := span.expr (.paren inner)

def seq (effects : List Expr) (value : Expr) : Expr := span.expr (.seq effects value)

def lambda (params : List Param) (body : LambdaBody) : Expr :=
  span.expr (.lambda none params false body)

def after (effect : Option Expr) (value : Expr) : Expr :=
  match effect with
  | some effect => span.seq [effect] value
  | none => value

def conjunction : List Expr → Expr
  | [] => span.boolLit true
  | first :: rest => rest.foldl (span.binary .and) first

end Expressions

section Statements

variable (span : Span)

def evalStmt (value : Expr) : Stmt := span.stmt (.eval value)

def declare (type : TypeSyntax) (name : String) (init : Option Expr) : Stmt :=
  span.stmt (.declare type name init)

def block (body : List Stmt) : Stmt := span.stmt (.block body)

def ret (value : Expr) : Stmt := span.stmt (.ret (some value))

def ifElse (cond : Expr) (yes : Stmt) (no : Option Stmt) : Stmt :=
  span.stmt (.ifElse cond yes no)

def assignStmt (target value : Expr) : Stmt := span.evalStmt (span.assign target value)

/-- `((Func<type>)(() => { body }))()`, which runs statements inside an
    expression. -/
def immediate (type : TypeSyntax) (body : List Stmt) : Expr :=
  let function := span.lambda [] (.block (span.block body))
  span.call (span.cast (.named "Func" [type]) function) []

end Statements

end Unsugar.Span
