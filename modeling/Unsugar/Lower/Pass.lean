import Unsugar.Analysis.View
import Unsugar.Types.Syntax
import Unsugar.Print.Unit
import Unsugar.Lower.Error
import Unsugar.Lower.Hoist
import Unsugar.Lower.Plan

namespace Unsugar

/-! # Passes

What the rules of a pass can do: ask the view of the tree they change, draw
fresh names, queue declarations, note that they changed something, and fail.
-/

structure PassEnv where
  pass : String
  unit : CompilationUnit
  view : View
  /-- Whether initializers of types with a primary constructor take hoisted
      declarations; they move into a constructor later. -/
  hoistsInitializers : Bool := false

structure PassState where
  nextName : Nat
  nextId : Nat
  hoists : HoistQueue := {}
  changed : Bool := false
  triggers : Triggers := {}
  /-- Parameters of primary constructors that bodies read, by the index of their
      type. -/
  captured : List (Nat × String) := []
  /-- Types that the pass wrote down, whether or not the tree keeps them. -/
  written : List TypeSyntax := []

abbrev Pass := ReaderT PassEnv (StateT PassState (Except LowerError))

/-- Whether reading an expression more than once is cheap and has no effect. -/
def ExprKind.isSimple : ExprKind → Bool
  | .literal _ | .ident _ | .self | .base | .typeRef _ | .defaultOf _ => true
  | .paren ⟨_, inner⟩ => inner.isSimple
  | _ => false

def Expr.isSimple (node : Expr) : Bool := node.kind.isSimple

def isDesignation (name : String) : Bool := name != "" && name != "_"

namespace Pass

def view : Pass View := return (← read).view

def types : Pass Universe := return (← read).view.types

def markChanged : Pass Unit := modify fun state => { state with changed := true }

def fail {α : Type} (error : LowerError) : Pass α := throw error

def unsupported {α : Type} (what : String) (span : Span) : Pass α := do
  fail (.unsupported (← read).pass what span)

def setKind (node : Expr) (kind : ExprKind) : Pass Expr := do
  markChanged
  return { node with kind }

/-- Put another expression in place of a node. -/
def replace (node replacement : Expr) : Pass Expr := do
  markChanged
  return node.replaceBy replacement

/-- Put a new kind in place of a statement. -/
def setStmt (node : Stmt) (kind : StmtKind) : Pass (List Stmt) := do
  markChanged
  return [{ node with kind }]

/-- Put several statements in place of one; the first stands for it. -/
def splice (node : Stmt) (first : StmtKind) (rest : List Stmt) : Pass (List Stmt) := do
  markChanged
  return { node with kind := first } :: rest

/-- Draw a name that is used nowhere else. -/
def fresh (hint : String) : Pass String := do
  let state ← get
  set { state with nextName := state.nextName + 1 }
  return freshName hint state.nextName

def freshId : Pass Nat := do
  let state ← get
  set { state with nextId := state.nextId + 1 }
  return state.nextId

def typeOf (node : Expr) : Pass Ty := return (← view).typeOf node

def writeType (type : TypeSyntax) : Pass TypeSyntax := do
  modify fun state => { state with written := type :: state.written }
  return type

def syntaxOf (type : Ty) : Pass TypeSyntax := do
  writeType ((← types).names.syntaxOf type)

def localSyntax (type : Ty) : Pass TypeSyntax := do
  writeType ((← types).names.localSyntax type)

def defaultValue (span : Span) (type : Ty) : Pass Expr := do
  if (← types).isPlainValue type then return span.expr (.defaultOf (← syntaxOf type))
  else return span.nullLit

/-! ## Hoisting -/

def returnsValue (node body : Expr) : Pass Bool := do
  let view ← view
  let data := view.types.data (view.typeInfo node).converted
  if data.shape = .delegate then
    return match data.args.getLast? with
      | some result => result != .void
      | none => false
  else return view.typeOf body != .void

/-- Whether an expression is the initializer of an instance field or property of
    a type with a primary constructor. -/
def movesIntoConstructor (owner : Owner) (root : Expr) : Pass Bool := do
  match owner with
  | .member type member =>
    match (← read).unit.types[type]? with
    | none => return false
    | some decl =>
      match decl.members[member]? with
      | none => return false
      | some member =>
        let isInit := match member.kind with
          | .field _ _ (some init) | .property _ _ _ _ (some init) => init.id == root.id
          | _ => false
        return isInit && decl.primary.isSome && !member.isStatic
  | _ => return false

/-- The nearest install point along a chain of nodes, nearest first. -/
def findPoint (owner : Owner) (span : Span) : List Node → Pass InstallPoint
  | [] => outside
  | .stmt node :: rest =>
    match node.id with
    | some id => return .stmt id
    | none => findPoint owner span rest
  | .expr node :: rest => do
    match node.kind with
    | .lambda (some id) _ _ (.expr body) => return .lambda id (← returnsValue node body)
    | _ =>
      match rest, node.id with
      | [], some id =>
        if (← read).hoistsInitializers && (← movesIntoConstructor owner node) then
          return .initializer id
        else outside
      | _, _ => findPoint owner span rest
  | .pattern _ :: rest => findPoint owner span rest
where
  outside : Pass InstallPoint :=
    unsupported "expression-scoped variable outside of any statement or lambda" span

def installPoint (site : Site) (node : Expr) (span : Span) : Pass InstallPoint :=
  findPoint site.owner span (.expr node :: site.ancestors)

def hoist (point : InstallPoint) (name : String) (type : TypeSyntax) (span : Span) : Pass Unit :=
  modify fun state => { state with hoists := state.hoists.declare point ⟨name, type, span⟩ }

def temporary (point : InstallPoint) (hint : String) (type : Ty) (span : Span) : Pass String := do
  let name ← fresh hint
  hoist point name (← syntaxOf type) span
  return name

/-- A form of a value that can be read more than once, and the assignment that
    has to come first if the value is not simple. -/
def stabilize (site : Site) (anchor value : Expr) (type : Ty) (hint : String) :
    Pass (Expr × Option Expr) := do
  if value.isSimple then return (value, none)
  else
    let span := value.span
    let point ← installPoint site anchor span
    let name ← temporary point hint type span
    return (span.ident name, some (span.assign (span.ident name) value))

/-! ## Running -/

def inputPattern (pattern : Pattern) : Pass Pattern := do
  let found := (← read).unit.reachable.findSome? fun node =>
    match node with
    | .pattern candidate => if candidate.id == pattern.id then some candidate else none
    | _ => none
  return found.getD pattern

end Pass

/-- What a pass leaves: the new unit, if it changed anything, the next number
    for a fresh name, and the types it wrote down. -/
structure PassResult where
  unit : Option CompilationUnit
  nextName : Nat
  triggers : Triggers
  written : List TypeSyntax

def Pass.run (action : Pass CompilationUnit) (env : PassEnv) (state : PassState) :
    Except LowerError PassResult := do
  let (unit, state) ← (ReaderT.run action env).run state
  let parents := ParentMap.ofUnit env.unit
  if state.changed || !state.hoists.isEmpty then
    return ⟨some (unit.install parents state.hoists), state.nextName, state.triggers,
      state.written⟩
  else return ⟨none, state.nextName, state.triggers, state.written⟩

end Unsugar
