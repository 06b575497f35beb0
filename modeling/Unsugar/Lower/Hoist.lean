import Unsugar.Syntax.Parents
import Unsugar.Syntax.Build

namespace Unsugar

/-! # Hoisted declarations

Variables that are scoped to an expression become locals, declared at the
nearest point where a statement can stand.  Declarations are queued while a tree
is rebuilt and installed afterwards.
-/

inductive InstallPoint where
  | stmt (id : Nat)
  /-- At the top of a lambda, whose body may become a block. -/
  | lambda (id : Nat) (returnsValue : Bool)
  /-- Before the constructor statement that will take this initializer over. -/
  | initializer (id : Nat)
  deriving DecidableEq, Repr, Inhabited

structure HoistedLocal where
  name : String
  type : TypeSyntax
  span : Span
  deriving Inhabited

def HoistedLocal.stmt (hoisted : HoistedLocal) : Stmt :=
  hoisted.span.declare hoisted.type hoisted.name none

/-- Queued declarations, by the order in which their points were first used. -/
structure HoistQueue where
  entries : List (InstallPoint × List HoistedLocal) := []

namespace HoistQueue

def isEmpty (queue : HoistQueue) : Bool := queue.entries.isEmpty

/-- Add to the declarations of one point, unless the name is there already. -/
def addTo (hoisted : HoistedLocal) (queued : List HoistedLocal) : List HoistedLocal :=
  if queued.any fun other => other.name == hoisted.name then queued else queued ++ [hoisted]

def declareIn (point : InstallPoint) (hoisted : HoistedLocal) :
    List (InstallPoint × List HoistedLocal) → List (InstallPoint × List HoistedLocal)
  | [] => [(point, [hoisted])]
  | (other, queued) :: rest =>
    if other = point then (other, addTo hoisted queued) :: rest
    else (other, queued) :: declareIn point hoisted rest

def declare (queue : HoistQueue) (point : InstallPoint) (hoisted : HoistedLocal) : HoistQueue :=
  ⟨declareIn point hoisted queue.entries⟩

def at? (queue : HoistQueue) (point : InstallPoint) : List HoistedLocal :=
  (queue.entries.lookup point).getD []

def relocate (queue : HoistQueue) (source target : InstallPoint) : HoistQueue :=
  let moved := queue.at? source
  let rest : HoistQueue := ⟨queue.entries.filter fun entry => entry.1 != source⟩
  moved.foldl (fun queue hoisted => queue.declare target hoisted) rest

end HoistQueue

/-! ## Installing -/

def Stmt.hasId (id : Nat) (node : Stmt) : Bool := node.id == some id

/-- Put statements before the first statement with an identity. -/
def insertBefore (id : Nat) (decls : List Stmt) : List Stmt → List Stmt
  | [] => []
  | node :: rest =>
    if node.hasId id then decls ++ node :: rest else node :: insertBefore id decls rest

def insertInSections (id : Nat) (decls : List Stmt) : List Section → List Section
  | [] => []
  | sect :: rest =>
    if sect.body.any (Stmt.hasId id) then
      { sect with body := insertBefore id decls sect.body } :: rest
    else sect :: insertInSections id decls rest

def StmtKind.insert? (id : Nat) (decls : List Stmt) : StmtKind → Option StmtKind
  | .block body =>
    if body.any (Stmt.hasId id) then some (.block (insertBefore id decls body)) else none
  | .switch subject sections =>
    if sections.any fun sect => sect.body.any (Stmt.hasId id) then
      some (.switch subject (insertInSections id decls sections))
    else none
  | _ => none

/-- Rules that insert declarations in the statement `parent`, noting whether they
    did. -/
def Rules.insertIn (parent id : Nat) (decls : List Stmt) : Rules (StateM Bool) :=
  { Rules.keep with
    stmt := fun _ node kind => do
      if node.hasId parent then
        match kind.insert? id decls with
        | some kind =>
          set true
          return [{ node with kind }]
        | none => return [{ node with kind }]
      else return [{ node with kind }] }

def Rules.wrap (id : Nat) (decls : List Stmt) : Rules Id :=
  { Rules.keep with
    stmt := fun _ node kind =>
      pure [if node.hasId id then { node with kind := .block (decls ++ [node.span.stmt kind]) }
        else { node with kind }] }

def LambdaBody.install (returnsValue : Bool) (decls : List Stmt) : LambdaBody → LambdaBody
  | .expr body =>
    let last := if returnsValue then body.span.ret body else body.span.evalStmt body
    .block (body.span.block (decls ++ [last]))
  | .block ⟨mark, .block body⟩ => .block ⟨mark, .block (decls ++ body)⟩
  | .block ⟨mark, kind⟩ => .block ⟨mark, .block (decls ++ [mark.span.stmt kind])⟩

def Rules.openLambda (id : Nat) (returnsValue : Bool) (decls : List Stmt) : Rules Id :=
  { Rules.keep with
    expr := fun _ node kind =>
      pure (match kind with
        | .lambda label params isAsync body =>
          if label == some id then
            { node with kind := .lambda label params isAsync (body.install returnsValue decls) }
          else { node with kind }
        | _ => { node with kind }) }

namespace CompilationUnit

def wrapStmt (unit : CompilationUnit) (id : Nat) (decls : List Stmt) : CompilationUnit :=
  (unit.rebuild (Rules.wrap id decls) : Id CompilationUnit)

/-- Put declarations right before a statement: in the list that held it before
    the pass, if it is still there, else in a block around it. -/
def installBefore (unit : CompilationUnit) (parents : ParentMap) (id : Nat)
    (decls : List Stmt) : CompilationUnit :=
  match parents.parentOf (some id) with
  | .node (.stmt ⟨⟨_, some parent⟩, _⟩) =>
    let (inserted, found) := (unit.rebuild (Rules.insertIn parent id decls)).run false
    if found then inserted else unit.wrapStmt id decls
  | _ => unit.wrapStmt id decls

def installAt (unit : CompilationUnit) (parents : ParentMap)
    (entry : InstallPoint × List HoistedLocal) : CompilationUnit :=
  let decls := entry.2.map HoistedLocal.stmt
  match entry.1 with
  | .stmt id => unit.installBefore parents id decls
  | .lambda id returnsValue =>
    (unit.rebuild (Rules.openLambda id returnsValue decls) : Id CompilationUnit)
  | .initializer _ => unit

/-- Install everything that is queued.  `parents` describes the unit before it
    was rebuilt. -/
def install (unit : CompilationUnit) (parents : ParentMap) (queue : HoistQueue) :
    CompilationUnit :=
  queue.entries.foldl (fun unit entry => unit.installAt parents entry) unit

end CompilationUnit

end Unsugar
