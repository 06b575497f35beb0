import Unsugar.Analysis.Infer
import Unsugar.Syntax.Numbering

namespace Unsugar

/-! # Views

The analysis of a whole unit.  A view answers questions about exactly the nodes
of the numbered unit it was made from.
-/

structure View where
  types : Universe
  facts : Facts

namespace Infer

def declaredType (types : Universe) (decl : TypeDecl) : Ty :=
  if decl.typeParams.isEmpty then (types.names.lookup? decl.name).getD .unknown
  else ((types.names.genericDecl? decl.name).map Ty.declared).getD .unknown

/-- Constant fields with literal values; of two with one name the last counts. -/
def constFields (types : Universe) (decls : List TypeDecl) :
    List ((Ty × String) × Constant) :=
  (decls.flatMap fun decl =>
    decl.members.filterMap fun member =>
      match member.kind with
      | .field _ name (some init) =>
        if member.has .isConst then
          (init.fold? fun _ => none).map fun value => ((declaredType types decl, name), value)
        else none
      | _ => none).reverse

def importedTypes (types : Universe) (usings : List Using) : List Ty :=
  (usings.filter (·.isStatic)).filterMap fun directive => types.names.lookup? directive.path

def inContext {α : Type} (context : LookupContext) (action : Infer α) : Infer α :=
  withReader (fun env => { env with context }) action

def inferAccessor? (body : Option Body) (result : Ty) : Infer Unit :=
  match body with
  | none => return
  | some body => body.inferFunction result

def inferMember (member : Member) : Infer Unit := isolated do
  match member.kind with
  | .field type _ init =>
    let type ← bind type
    inContext .initializer (inferOption init type)
  | .property type _ getter setter init =>
    let type ← bind type
    inContext .initializer (inferOption init type)
    inferAccessor? getter type
    inScope do
      let _ ← declare "value" .parameter type
      inferAccessor? setter .void
  | .method _ _ params ret body | .operator _ params ret body =>
    inferParams params
    body.inferFunction (← bind ret)
  | .ctor params initializer body =>
    inferParams params
    match initializer with
    | some initializer =>
      let _ ← inContext .initializer (inferEach initializer.args [])
    | none => pure ()
    body.inferFunction .void

def inferDefaults (params : List Param) : Infer Unit :=
  params.forM fun param => do inferOption param.default (← bind param.type)

def inferDecl (decl : TypeDecl) : Infer Unit := do
  let types ← types
  let current := declaredType types decl
  withReader (fun env => { env with currentType := some current }) do
    inContext .initializer <| inScope do
      inferDefaults (decl.primary.getD [])
      let base ← bind (decl.bases.headD .absent)
      let _ ← inferEach (decl.baseArgs.getD []) ((types.primaryParams base).map (·.2))
    decl.members.forM inferMember

def markNulls (facts : Facts) (nodes : List Node) : Facts :=
  nodes.foldl (fun facts node =>
    match node with
    | .expr ⟨mark, .literal .null⟩ =>
      facts.update mark.id fun known => { known with isNull := true }
    | _ => facts) facts

end Infer

open Infer in
/-- Analyze a numbered unit of `count` nodes whose forms wrote down
    `vocabulary`. -/
def CompilationUnit.analyze (unit : CompilationUnit) (count : Nat) (vocabulary : Vocabulary) :
    View :=
  let types := Universe.ofUnit unit vocabulary
  let env : InferEnv := {
    types
    imports := importedTypes types unit.usings
    constFields := constFields types unit.types }
  let start : InferState := { facts := markNulls (.empty count) unit.reachable }
  let (_, state) := (unit.types.forM inferDecl).run env |>.run start
  { types, facts := state.facts }

namespace View

variable (view : View)

def typeInfo (node : Expr) : TypeInfo := (view.facts.get node.id).info

def typeOf (node : Expr) : Ty := (view.typeInfo node).type

/-- What a name or member access refers to. -/
def resolution (node : Expr) : Resolution := (view.facts.get node.id).resolution

def declared? (mark : Mark) : Option Reference := (view.facts.get mark.id).declared

def constant? (node : Expr) : Option Constant := (view.facts.get node.id).constant

def classifyConversion (node : Expr) (target : Ty) : Conversion :=
  let facts := view.facts.get node.id
  view.types.classify (if facts.isNull then .null else facts.info.type) target

def bind (type : TypeSyntax) : Ty := view.types.names.bind type

end View

end Unsugar
