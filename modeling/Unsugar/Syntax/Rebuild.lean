import Unsugar.Syntax.Children

namespace Unsugar

/-! # Bottom-up rebuilding

One traversal serves every rebuild of a tree.  It rebuilds a tree children
first, and at each node hands the node as it was, the same node over its
rebuilt children, and the site it stands at to a rule.  The rules of a rebuild
only say what happens at a single node.
-/

/-- Who owns the root of a subtree. -/
inductive Owner where
  | detached
  | header (type : Nat)
  | member (type member : Nat)
  deriving DecidableEq, Repr, Inhabited

/-- Declarations are named by their positions. -/
def Owner.text : Owner → String
  | detached => "none"
  | header type => "header " ++ toString type
  | member type index => "member " ++ toString type ++ "." ++ toString index

/-- Where a node stands: its owner, and its ancestors as they were before the
    rebuild, nearest first. -/
structure Site where
  owner : Owner
  ancestors : List Node

def Site.parent? (site : Site) : Option Node := site.ancestors.head?

def Site.below (site : Site) (node : Node) : Site :=
  { site with ancestors := node :: site.ancestors }

/-- What to do at a node, given the node and its kind over rebuilt children.  A
    statement may become several; the first of them stands for it. -/
structure Rules (m : Type → Type) where
  expr : Site → Expr → ExprKind → m Expr
  stmt : Site → Stmt → StmtKind → m (List Stmt)
  pattern : Site → Pattern → PatternKind → m Pattern

def Rules.keep {m : Type → Type} [Monad m] : Rules m where
  expr := fun _ node kind => pure { node with kind }
  stmt := fun _ node kind => pure [{ node with kind }]
  pattern := fun _ node kind => pure { node with kind }

def Stmt.anonymous (node : Stmt) : Stmt :=
  { node with mark := node.span.mark }

/-- Where only one statement fits, several replacements become a block that
    stands for the statement they replace. -/
def Stmt.gather (node : Stmt) : List Stmt → Stmt
  | [] => { node with kind := .empty }
  | [only] => only
  | first :: rest => { node with kind := .block (first.anonymous :: rest) }

section Rebuild

variable {m : Type → Type} [Monad m] (rules : Rules m)

mutual

def Expr.rebuild (site : Site) : Expr → m Expr
  | ⟨mark, kind⟩ => do
    let rebuilt ← kind.rebuild (site.below (.expr ⟨mark, kind⟩))
    rules.expr site ⟨mark, kind⟩ rebuilt

def ExprKind.rebuild (site : Site) : ExprKind → m ExprKind
  | .literal value => pure (.literal value)
  | .ident name => pure (.ident name)
  | .self => pure .self
  | .base => pure .base
  | .typeRef type => pure (.typeRef type)
  | .member receiver name => return .member (← receiver.rebuild site) name
  | .conditionalAccess receiver access =>
    return .conditionalAccess (← receiver.rebuild site) (← access.rebuild site)
  | .memberBinding name => pure (.memberBinding name)
  | .elementBinding args => return .elementBinding (← rebuildExprs site args)
  | .call callee args =>
    return .call (← callee.rebuild site) (← rebuildExprs site args)
  | .index receiver args =>
    return .index (← receiver.rebuild site) (← rebuildExprs site args)
  | .fromEnd value => return .fromEnd (← value.rebuild site)
  | .range start stop =>
    return .range (← rebuildExpr? site start) (← rebuildExpr? site stop)
  | .unary op operand => return .unary op (← operand.rebuild site)
  | .binary op left right =>
    return .binary op (← left.rebuild site) (← right.rebuild site)
  | .assign op target value =>
    return .assign op (← target.rebuild site) (← value.rebuild site)
  | .conditional cond yes no =>
    return .conditional (← cond.rebuild site) (← yes.rebuild site) (← no.rebuild site)
  | .isPattern subject pattern =>
    return .isPattern (← subject.rebuild site) (← pattern.rebuild site)
  | .typeTest subject type => return .typeTest (← subject.rebuild site) type
  | .cast type operand => return .cast type (← operand.rebuild site)
  | .seq effects value =>
    return .seq (← rebuildExprs site effects) (← value.rebuild site)
  | .lambda id params isAsync body =>
    return .lambda id (← rebuildParams site params) isAsync (← body.rebuild site)
  | .create type args inits =>
    return .create type (← rebuildExprs site args) (← rebuildInits site inits)
  | .copyWith receiver inits =>
    return .copyWith (← receiver.rebuild site) (← rebuildInits site inits)
  | .collection items => return .collection (← rebuildExprs site items)
  | .spread value => return .spread (← value.rebuild site)
  | .switch subject arms =>
    return .switch (← subject.rebuild site) (← rebuildArms site arms)
  | .throw value => return .throw (← value.rebuild site)
  | .defaultOf type => pure (.defaultOf type)
  | .tuple items => return .tuple (← rebuildExprs site items)
  | .await value => return .await (← value.rebuild site)
  | .interpolated parts => return .interpolated (← rebuildParts site parts)
  | .declaration type name => pure (.declaration type name)
  | .discard => pure .discard
  | .out value => return .out (← value.rebuild site)
  | .paren inner => return .paren (← inner.rebuild site)

/-- A statement with everything that follows it in its place. -/
def Stmt.rebuildMany (site : Site) : Stmt → m (List Stmt)
  | ⟨mark, kind⟩ => do
    let rebuilt ← kind.rebuild (site.below (.stmt ⟨mark, kind⟩))
    rules.stmt site ⟨mark, kind⟩ rebuilt

def StmtKind.rebuild (site : Site) : StmtKind → m StmtKind
  | .block body => return .block (← rebuildStmts site body)
  | .eval value => return .eval (← value.rebuild site)
  | .declare type name init => return .declare type name (← rebuildExpr? site init)
  | .ifElse cond yes no =>
    return .ifElse (← cond.rebuild site) (yes.gather (← yes.rebuildMany site))
      (← rebuildStmt? site no)
  | .whileLoop cond body =>
    return .whileLoop (← cond.rebuild site) (body.gather (← body.rebuildMany site))
  | .forLoop init cond step body =>
    return .forLoop (← rebuildEachStmt site init) (← rebuildExpr? site cond)
      (← rebuildExprs site step) (body.gather (← body.rebuildMany site))
  | .forEach type name iterable body =>
    return .forEach type name (← iterable.rebuild site)
      (body.gather (← body.rebuildMany site))
  | .ret value => return .ret (← rebuildExpr? site value)
  | .breakLoop => pure .breakLoop
  | .continueLoop => pure .continueLoop
  | .throw value => return .throw (← rebuildExpr? site value)
  | .switch subject sections =>
    return .switch (← subject.rebuild site) (← rebuildSections site sections)
  | .localFunction name typeParams params ret body =>
    return .localFunction name typeParams (← rebuildParams site params) ret
      (← body.rebuild site)
  | .empty => pure .empty

def Pattern.rebuild (site : Site) : Pattern → m Pattern
  | ⟨mark, kind⟩ => do
    let rebuilt ← kind.rebuild (site.below (.pattern ⟨mark, kind⟩))
    rules.pattern site ⟨mark, kind⟩ rebuilt

def PatternKind.rebuild (site : Site) : PatternKind → m PatternKind
  | .constant value => return .constant (← value.rebuild site)
  | .declaration type name => pure (.declaration type name)
  | .var name => pure (.var name)
  | .recursive type positional properties designation =>
    return .recursive type (← rebuildPatterns site positional)
      (← rebuildProperties site properties) designation
  | .list elements designation =>
    return .list (← rebuildPatterns site elements) designation
  | .slice none => pure (.slice none)
  | .slice (some inner) => return .slice (some (← inner.rebuild site))
  | .relational op value => return .relational op (← value.rebuild site)
  | .type type => pure (.type type)
  | .and left right => return .and (← left.rebuild site) (← right.rebuild site)
  | .or left right => return .or (← left.rebuild site) (← right.rebuild site)
  | .not inner => return .not (← inner.rebuild site)
  | .discard => pure .discard
  | .paren inner => return .paren (← inner.rebuild site)

def rebuildExprs (site : Site) : List Expr → m (List Expr)
  | [] => pure []
  | node :: rest => return (← node.rebuild site) :: (← rebuildExprs site rest)

def rebuildExpr? (site : Site) : Option Expr → m (Option Expr)
  | none => pure none
  | some node => return some (← node.rebuild site)

/-- Statements of a list, each followed by the others it became. -/
def rebuildStmts (site : Site) : List Stmt → m (List Stmt)
  | [] => pure []
  | node :: rest => do
    let items ← node.rebuildMany site
    return items ++ (← rebuildStmts site rest)

def rebuildEachStmt (site : Site) : List Stmt → m (List Stmt)
  | [] => pure []
  | node :: rest => do
    let items ← node.rebuildMany site
    return node.gather items :: (← rebuildEachStmt site rest)

def rebuildStmt? (site : Site) : Option Stmt → m (Option Stmt)
  | none => pure none
  | some node => return some (node.gather (← node.rebuildMany site))

def rebuildPatterns (site : Site) : List Pattern → m (List Pattern)
  | [] => pure []
  | node :: rest => return (← node.rebuild site) :: (← rebuildPatterns site rest)

def rebuildProperties (site : Site) : List PropertyPattern → m (List PropertyPattern)
  | [] => pure []
  | ⟨path, inner⟩ :: rest =>
    return ⟨path, ← inner.rebuild site⟩ :: (← rebuildProperties site rest)

def rebuildParams (site : Site) : List Param → m (List Param)
  | [] => pure []
  | ⟨type, name, passing, default⟩ :: rest =>
    return ⟨type, name, passing, ← rebuildExpr? site default⟩ ::
      (← rebuildParams site rest)

def LambdaBody.rebuild (site : Site) : LambdaBody → m LambdaBody
  | .expr value => return .expr (← value.rebuild site)
  | .block body => return .block (body.gather (← body.rebuildMany site))

def Body.rebuild (site : Site) : Body → m Body
  | .none => pure .none
  | .expr value => return .expr (← value.rebuild site)
  | .block body => return .block (body.gather (← body.rebuildMany site))

def rebuildInits (site : Site) : List FieldInit → m (List FieldInit)
  | [] => pure []
  | ⟨name, value⟩ :: rest =>
    return ⟨name, ← value.rebuild site⟩ :: (← rebuildInits site rest)

def rebuildArms (site : Site) : List Arm → m (List Arm)
  | [] => pure []
  | ⟨span, pattern, guard, result⟩ :: rest =>
    return ⟨span, ← pattern.rebuild site, ← rebuildExpr? site guard,
      ← result.rebuild site⟩ :: (← rebuildArms site rest)

def rebuildParts (site : Site) : List Part → m (List Part)
  | [] => pure []
  | .text text :: rest => return .text text :: (← rebuildParts site rest)
  | .hole value alignment format :: rest =>
    return .hole (← value.rebuild site) (← rebuildExpr? site alignment) format ::
      (← rebuildParts site rest)

def rebuildSections (site : Site) : List Section → m (List Section)
  | [] => pure []
  | ⟨labels, body⟩ :: rest =>
    return ⟨← rebuildLabels site labels, ← rebuildStmts site body⟩ ::
      (← rebuildSections site rest)

def rebuildLabels (site : Site) : List Label → m (List Label)
  | [] => pure []
  | .default :: rest => return .default :: (← rebuildLabels site rest)
  | .case pattern guard :: rest =>
    return .case (← pattern.rebuild site) (← rebuildExpr? site guard) ::
      (← rebuildLabels site rest)

end

def Stmt.rebuild (site : Site) (node : Stmt) : m Stmt :=
  return node.gather (← node.rebuildMany rules site)

def rebuildBody? (site : Site) : Option Body → m (Option Body)
  | none => pure none
  | some body => return some (← body.rebuild rules site)

def MemberKind.rebuild (site : Site) : MemberKind → m MemberKind
  | .field type name init => return .field type name (← rebuildExpr? rules site init)
  | .property type name getter setter init =>
    return .property type name (← rebuildBody? rules site getter)
      (← rebuildBody? rules site setter) (← rebuildExpr? rules site init)
  | .method name typeParams params ret body =>
    return .method name typeParams (← rebuildParams rules site params) ret
      (← body.rebuild rules site)
  | .ctor params none body =>
    return .ctor (← rebuildParams rules site params) none (← body.rebuild rules site)
  | .ctor params (some ⟨target, args⟩) body =>
    return .ctor (← rebuildParams rules site params)
      (some ⟨target, ← rebuildExprs rules site args⟩) (← body.rebuild rules site)
  | .operator op params ret body =>
    return .operator op (← rebuildParams rules site params) ret
      (← body.rebuild rules site)

def rebuildMembers (type : Nat) : Nat → List Member → m (List Member)
  | _, [] => pure []
  | index, member :: rest => do
    let kind ← member.kind.rebuild rules ⟨.member type index, []⟩
    return { member with kind } :: (← rebuildMembers type (index + 1) rest)

def TypeDecl.rebuild (type : Nat) (decl : TypeDecl) : m TypeDecl := do
  let site : Site := ⟨.header type, []⟩
  let primary ← match decl.primary with
    | none => pure none
    | some params => some <$> rebuildParams rules site params
  let baseArgs ← match decl.baseArgs with
    | none => pure none
    | some args => some <$> rebuildExprs rules site args
  let members ← rebuildMembers rules type 0 decl.members
  return { decl with primary, baseArgs, members }

def rebuildTypes : Nat → List TypeDecl → m (List TypeDecl)
  | _, [] => pure []
  | index, decl :: rest =>
    return (← decl.rebuild rules index) :: (← rebuildTypes (index + 1) rest)

def CompilationUnit.rebuild (unit : CompilationUnit) : m CompilationUnit :=
  return { unit with types := ← rebuildTypes rules 0 unit.types }

end Rebuild

end Unsugar
