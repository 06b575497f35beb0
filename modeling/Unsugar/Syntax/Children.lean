import Unsugar.Syntax.Declaration

namespace Unsugar

/-! # Children and reachable nodes

`Node.children` fixes once what the direct children of a node are and in which
order they are evaluated.  `Node.reachable` lists a whole subtree in pre-order,
and `CompilationUnit.reachable` the subtrees of all declarations.
-/

inductive Node where
  | expr (node : Expr)
  | stmt (node : Stmt)
  | pattern (node : Pattern)
  deriving Inhabited

namespace Node

def mark : Node → Mark
  | expr node => node.mark
  | stmt node => node.mark
  | pattern node => node.mark

def span (node : Node) : Span := node.mark.span

def id (node : Node) : Option Nat := node.mark.id

def sortName : Node → String
  | expr _ => "expr"
  | stmt _ => "stmt"
  | pattern _ => "pattern"

def isPattern : Node → Bool
  | pattern _ => true
  | _ => false

def ofExprs (nodes : List Expr) : List Node := nodes.map expr

def ofStmts (nodes : List Stmt) : List Node := nodes.map stmt

def ofExpr? : Option Expr → List Node
  | none => []
  | some node => [expr node]

def ofStmt? : Option Stmt → List Node
  | none => []
  | some node => [stmt node]

def ofParams (params : List Param) : List Node :=
  params.flatMap fun param => ofExpr? param.default

def ofInits (inits : List FieldInit) : List Node :=
  inits.map fun init => expr init.value

def ofBody : Body → List Node
  | .none => []
  | .expr value => [expr value]
  | .block body => [stmt body]

def ofLambdaBody : LambdaBody → List Node
  | .expr value => [expr value]
  | .block body => [stmt body]

def ofArm (arm : Arm) : List Node :=
  pattern arm.pattern :: ofExpr? arm.guard ++ [expr arm.result]

def ofPart : Part → List Node
  | .text _ => []
  | .hole value alignment _ => expr value :: ofExpr? alignment

def ofLabel : Label → List Node
  | .default => []
  | .case tested guard => pattern tested :: ofExpr? guard

def ofSection (sect : Section) : List Node :=
  sect.labels.flatMap ofLabel ++ ofStmts sect.body

end Node

open Node in
def ExprKind.children : ExprKind → List Node
  | .literal _ | .ident _ | .self | .base | .typeRef _ | .memberBinding _
  | .defaultOf _ | .declaration .. | .discard => []
  | .member inner _ | .fromEnd inner | .unary _ inner | .typeTest inner _
  | .cast _ inner | .spread inner | .throw inner | .await inner | .out inner
  | .paren inner => [expr inner]
  | .conditionalAccess left right | .binary _ left right
  | .assign _ left right => [expr left, expr right]
  | .elementBinding items | .collection items | .tuple items => ofExprs items
  | .call head args | .index head args => expr head :: ofExprs args
  | .range start stop => ofExpr? start ++ ofExpr? stop
  | .conditional cond yes no => [expr cond, expr yes, expr no]
  | .isPattern subject tested => [expr subject, pattern tested]
  | .seq effects value => ofExprs effects ++ [expr value]
  | .lambda _ params _ body => ofParams params ++ ofLambdaBody body
  | .create _ args inits => ofExprs args ++ ofInits inits
  | .copyWith receiver inits => expr receiver :: ofInits inits
  | .switch subject arms => expr subject :: arms.flatMap ofArm
  | .interpolated parts => parts.flatMap ofPart

open Node in
def StmtKind.children : StmtKind → List Node
  | .block body => ofStmts body
  | .eval value => [expr value]
  | .declare _ _ init => ofExpr? init
  | .ifElse cond yes no => expr cond :: stmt yes :: ofStmt? no
  | .whileLoop cond body => [expr cond, stmt body]
  | .forLoop init cond step body =>
    ofStmts init ++ ofExpr? cond ++ ofExprs step ++ [stmt body]
  | .forEach _ _ iterable body => [expr iterable, stmt body]
  | .ret value | .throw value => ofExpr? value
  | .switch subject sections => expr subject :: sections.flatMap ofSection
  | .localFunction _ _ params _ body => ofParams params ++ ofBody body
  | .breakLoop | .continueLoop | .empty => []

open Node in
def PatternKind.children : PatternKind → List Node
  | .constant value | .relational _ value => [expr value]
  | .recursive _ positional properties _ =>
    positional.map pattern ++ properties.map fun property => pattern property.pattern
  | .list elements _ => elements.map pattern
  | .slice none => []
  | .slice (some inner) | .not inner | .paren inner => [pattern inner]
  | .and left right | .or left right => [pattern left, pattern right]
  | .declaration .. | .var _ | .type _ | .discard => []

def Node.children : Node → List Node
  | expr node => node.kind.children
  | stmt node => node.kind.children
  | pattern node => node.kind.children

open Node in
def MemberKind.roots : MemberKind → List Node
  | .field _ _ init => ofExpr? init
  | .property _ _ getter setter init =>
    (getter.map ofBody).getD [] ++ (setter.map ofBody).getD [] ++ ofExpr? init
  | .method _ _ params _ body | .operator _ params _ body =>
    ofParams params ++ ofBody body
  | .ctor params initializer body =>
    ofParams params ++ (initializer.map fun init => ofExprs init.args).getD [] ++
      ofBody body

open Node in
/-- Nodes that the header of a type declaration owns: defaults of primary
    parameters and arguments of the base call. -/
def TypeDecl.headerRoots (decl : TypeDecl) : List Node :=
  (decl.primary.map ofParams).getD [] ++ (decl.baseArgs.map ofExprs).getD []

/-! ## Reachable nodes

Subtrees in pre-order.  With `intoPatterns` false, patterns and what they hold
are left out.
-/

section Reachable

variable (intoPatterns : Bool)

mutual

def Expr.reachable : Expr → List Node
  | ⟨mark, kind⟩ => .expr ⟨mark, kind⟩ :: kind.reachable

def ExprKind.reachable : ExprKind → List Node
  | .literal _ | .ident _ | .self | .base | .typeRef _ | .memberBinding _
  | .defaultOf _ | .declaration .. | .discard => []
  | .member inner _ | .fromEnd inner | .unary _ inner | .typeTest inner _
  | .cast _ inner | .spread inner | .throw inner | .await inner | .out inner
  | .paren inner => inner.reachable
  | .conditionalAccess left right | .binary _ left right
  | .assign _ left right => left.reachable ++ right.reachable
  | .elementBinding items | .collection items | .tuple items => exprsReachable items
  | .call head args | .index head args => head.reachable ++ exprsReachable args
  | .range start stop => exprReachable? start ++ exprReachable? stop
  | .conditional cond yes no => cond.reachable ++ yes.reachable ++ no.reachable
  | .isPattern subject tested => subject.reachable ++ tested.reachable
  | .seq effects value => exprsReachable effects ++ value.reachable
  | .lambda _ params _ body => paramsReachable params ++ body.reachable
  | .create _ args inits => exprsReachable args ++ initsReachable inits
  | .copyWith receiver inits => receiver.reachable ++ initsReachable inits
  | .switch subject arms => subject.reachable ++ armsReachable arms
  | .interpolated parts => partsReachable parts

def Stmt.reachable : Stmt → List Node
  | ⟨mark, kind⟩ => .stmt ⟨mark, kind⟩ :: kind.reachable

def StmtKind.reachable : StmtKind → List Node
  | .block body => stmtsReachable body
  | .eval value => value.reachable
  | .declare _ _ init => exprReachable? init
  | .ifElse cond yes no => cond.reachable ++ yes.reachable ++ stmtReachable? no
  | .whileLoop cond body => cond.reachable ++ body.reachable
  | .forLoop init cond step body =>
    stmtsReachable init ++ exprReachable? cond ++ exprsReachable step ++ body.reachable
  | .forEach _ _ iterable body => iterable.reachable ++ body.reachable
  | .ret value | .throw value => exprReachable? value
  | .switch subject sections => subject.reachable ++ sectionsReachable sections
  | .localFunction _ _ params _ body => paramsReachable params ++ body.reachable
  | .breakLoop | .continueLoop | .empty => []

def Pattern.reachable : Pattern → List Node
  | ⟨mark, kind⟩ =>
    if intoPatterns then .pattern ⟨mark, kind⟩ :: kind.reachable else []

def PatternKind.reachable : PatternKind → List Node
  | .constant value | .relational _ value => value.reachable
  | .recursive _ positional properties _ =>
    patternsReachable positional ++ propertiesReachable properties
  | .list elements _ => patternsReachable elements
  | .slice none => []
  | .slice (some inner) | .not inner | .paren inner => inner.reachable
  | .and left right | .or left right => left.reachable ++ right.reachable
  | .declaration .. | .var _ | .type _ | .discard => []

def exprsReachable : List Expr → List Node
  | [] => []
  | node :: rest => node.reachable ++ exprsReachable rest

def exprReachable? : Option Expr → List Node
  | none => []
  | some node => node.reachable

def stmtsReachable : List Stmt → List Node
  | [] => []
  | node :: rest => node.reachable ++ stmtsReachable rest

def stmtReachable? : Option Stmt → List Node
  | none => []
  | some node => node.reachable

def patternsReachable : List Pattern → List Node
  | [] => []
  | node :: rest => node.reachable ++ patternsReachable rest

def propertiesReachable : List PropertyPattern → List Node
  | [] => []
  | ⟨_, inner⟩ :: rest => inner.reachable ++ propertiesReachable rest

def paramsReachable : List Param → List Node
  | [] => []
  | ⟨_, _, _, default⟩ :: rest => exprReachable? default ++ paramsReachable rest

def LambdaBody.reachable : LambdaBody → List Node
  | .expr value => value.reachable
  | .block body => body.reachable

def Body.reachable : Body → List Node
  | .none => []
  | .expr value => value.reachable
  | .block body => body.reachable

def initsReachable : List FieldInit → List Node
  | [] => []
  | ⟨_, value⟩ :: rest => value.reachable ++ initsReachable rest

def armsReachable : List Arm → List Node
  | [] => []
  | ⟨_, tested, guard, result⟩ :: rest =>
    tested.reachable ++ exprReachable? guard ++ result.reachable ++ armsReachable rest

def partsReachable : List Part → List Node
  | [] => []
  | .text _ :: rest => partsReachable rest
  | .hole value alignment _ :: rest =>
    value.reachable ++ exprReachable? alignment ++ partsReachable rest

def sectionsReachable : List Section → List Node
  | [] => []
  | ⟨labels, body⟩ :: rest =>
    labelsReachable labels ++ stmtsReachable body ++ sectionsReachable rest

def labelsReachable : List Label → List Node
  | [] => []
  | .default :: rest => labelsReachable rest
  | .case tested guard :: rest =>
    tested.reachable ++ exprReachable? guard ++ labelsReachable rest

end

def Node.reachable : Node → List Node
  | expr node => node.reachable intoPatterns
  | stmt node => node.reachable intoPatterns
  | pattern node => node.reachable intoPatterns

end Reachable

def Member.reachable (member : Member) : List Node :=
  member.kind.roots.flatMap (Node.reachable true)

def TypeDecl.reachable (decl : TypeDecl) : List Node :=
  decl.headerRoots.flatMap (Node.reachable true) ++ decl.members.flatMap Member.reachable

def CompilationUnit.reachable (unit : CompilationUnit) : List Node :=
  unit.types.flatMap TypeDecl.reachable

def CompilationUnit.spans (unit : CompilationUnit) : List Span :=
  unit.types.flatMap (fun decl => decl.span :: decl.members.map (·.span)) ++
    unit.reachable.map (·.span)

/-! ## Parameters and types written in a tree -/

def paramTypes (params : List Param) : List TypeSyntax := params.map (·.type)

def Node.types : Node → List TypeSyntax
  | expr node =>
    match node.kind with
    | .typeRef type | .typeTest _ type | .cast type _ | .create type _ _
    | .defaultOf type | .declaration type _ => [type]
    | .lambda _ params _ _ => paramTypes params
    | _ => []
  | stmt node =>
    match node.kind with
    | .declare type _ _ | .forEach type _ _ _ => [type]
    | .localFunction _ _ params ret _ => paramTypes params ++ [ret]
    | _ => []
  | pattern node =>
    match node.kind with
    | .declaration type _ | .recursive type _ _ _ | .type type => [type]
    | _ => []

end Unsugar
