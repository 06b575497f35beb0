import Unsugar.Span
import Unsugar.Syntax.Operator
import Unsugar.Syntax.TypeSyntax

namespace Unsugar

/-! # Syntax trees

Expressions, statements and patterns are mutually inductive, because a lambda
holds statements and a test holds a pattern.  Each node carries a `Mark`: the
span it was written at, and its identity while a tree is being analyzed and
lowered.  Nodes that a pass makes have no identity until the tree is numbered
again, so nothing recorded for an old node can be taken for a fact about a new
one.
-/

/-- Where a node was written, and which node of a numbered tree it is. -/
structure Mark where
  span : Span
  id : Option Nat := none
  deriving DecidableEq, Repr, Inhabited

/-- A node of its own at this span, without an identity. -/
def Span.mark (span : Span) : Mark := { span }

inductive Literal where
  | int (value : Int)
  | float (bits : UInt64)
  | bool (value : Bool)
  | char (value : Char)
  | str (value : String)
  | null
  deriving DecidableEq, Repr, Inhabited

inductive Passing where
  | byValue
  | out
  | ref
  | input
  | variadic
  deriving DecidableEq, Repr, Inhabited

namespace Passing

def keyword : Passing → String
  | byValue => ""
  | out => "out"
  | ref => "ref"
  | input => "in"
  | variadic => "params"

def ofKeyword? (keyword : String) : Option Passing :=
  [byValue, out, ref, input, variadic].find? fun passing => passing.keyword == keyword

end Passing

mutual

structure Expr where
  mark : Mark
  kind : ExprKind

inductive ExprKind where
  | literal (value : Literal)
  | ident (name : String)
  | self
  | base
  | typeRef (type : TypeSyntax)
  | member (receiver : Expr) (name : String)
  | conditionalAccess (receiver access : Expr)
  | memberBinding (name : String)
  | elementBinding (args : List Expr)
  | call (callee : Expr) (args : List Expr)
  | index (receiver : Expr) (args : List Expr)
  | fromEnd (value : Expr)
  | range (start stop : Option Expr)
  | unary (op : UnaryOp) (operand : Expr)
  | binary (op : BinaryOp) (left right : Expr)
  | assign (op : Option BinaryOp) (target value : Expr)
  | conditional (cond yes no : Expr)
  | isPattern (subject : Expr) (pattern : Pattern)
  | typeTest (subject : Expr) (type : TypeSyntax)
  | cast (type : TypeSyntax) (operand : Expr)
  /-- Evaluates the effects in order and yields the value. -/
  | seq (effects : List Expr) (value : Expr)
  /-- A lambda has an identity of its own, which stays with it when the lambda
      takes the place of another expression. -/
  | lambda (id : Option Nat) (params : List Param) (isAsync : Bool) (body : LambdaBody)
  | create (type : TypeSyntax) (args : List Expr) (inits : List FieldInit)
  | copyWith (receiver : Expr) (inits : List FieldInit)
  | collection (items : List Expr)
  | spread (value : Expr)
  | switch (subject : Expr) (arms : List Arm)
  | throw (value : Expr)
  | defaultOf (type : TypeSyntax)
  | tuple (items : List Expr)
  | await (value : Expr)
  | interpolated (parts : List Part)
  | declaration (type : TypeSyntax) (name : String)
  | discard
  | out (value : Expr)
  | paren (inner : Expr)

structure Stmt where
  mark : Mark
  kind : StmtKind

inductive StmtKind where
  | block (body : List Stmt)
  | eval (value : Expr)
  | declare (type : TypeSyntax) (name : String) (init : Option Expr)
  | ifElse (cond : Expr) (yes : Stmt) (no : Option Stmt)
  | whileLoop (cond : Expr) (body : Stmt)
  | forLoop (init : List Stmt) (cond : Option Expr) (step : List Expr) (body : Stmt)
  | forEach (type : TypeSyntax) (name : String) (iterable : Expr) (body : Stmt)
  | ret (value : Option Expr)
  | breakLoop
  | continueLoop
  | throw (value : Option Expr)
  | switch (subject : Expr) (sections : List Section)
  | localFunction (name : String) (typeParams : List String) (params : List Param)
      (ret : TypeSyntax) (body : Body)
  | empty

structure Pattern where
  mark : Mark
  kind : PatternKind

inductive PatternKind where
  | constant (value : Expr)
  | declaration (type : TypeSyntax) (name : String)
  | var (name : String)
  | recursive (type : TypeSyntax) (positional : List Pattern)
      (properties : List PropertyPattern) (designation : String)
  | list (elements : List Pattern) (designation : String)
  | slice (inner : Option Pattern)
  | relational (op : Comparison) (value : Expr)
  | type (type : TypeSyntax)
  | and (left right : Pattern)
  | or (left right : Pattern)
  | not (inner : Pattern)
  | discard
  | paren (inner : Pattern)

structure Param where
  type : TypeSyntax
  name : String
  passing : Passing
  default : Option Expr

inductive LambdaBody where
  | expr (value : Expr)
  | block (body : Stmt)

/-- Body of a member or local function; `none` for an abstract member or an
    automatic accessor. -/
inductive Body where
  | none
  | expr (value : Expr)
  | block (body : Stmt)

structure Arm where
  span : Span
  pattern : Pattern
  guard : Option Expr
  result : Expr

structure Section where
  labels : List Label
  body : List Stmt

inductive Label where
  | default
  | case (pattern : Pattern) (guard : Option Expr)

/-- A piece of an interpolated string; an empty format is none. -/
inductive Part where
  | text (text : String)
  | hole (value : Expr) (alignment : Option Expr) (format : String)

structure FieldInit where
  name : String
  value : Expr

structure PropertyPattern where
  path : List String
  pattern : Pattern

end

instance : Inhabited Expr := ⟨⟨default, .literal .null⟩⟩
instance : Inhabited Stmt := ⟨⟨default, .empty⟩⟩
instance : Inhabited Pattern := ⟨⟨default, .discard⟩⟩

def Expr.span (node : Expr) : Span := node.mark.span
def Stmt.span (node : Stmt) : Span := node.mark.span
def Pattern.span (node : Pattern) : Span := node.mark.span

def Expr.id (node : Expr) : Option Nat := node.mark.id
def Stmt.id (node : Stmt) : Option Nat := node.mark.id
def Pattern.id (node : Pattern) : Option Nat := node.mark.id

def Span.expr (span : Span) (kind : ExprKind) : Expr := ⟨span.mark, kind⟩

def Span.stmt (span : Span) (kind : StmtKind) : Stmt := ⟨span.mark, kind⟩

/-- Put `replacement` where `node` stands: it keeps its own span and takes over
    the identity of `node`. -/
def Expr.replaceBy (node replacement : Expr) : Expr :=
  { replacement with mark := { replacement.mark with id := node.id } }

/-- A parameter passed by value, without a default. -/
def Param.plain (type : TypeSyntax) (name : String) : Param :=
  ⟨type, name, .byValue, none⟩

end Unsugar
