import Unsugar.Lower.Pass

namespace Unsugar.Pass

/-! # Primary constructors

A type with a primary constructor gets an ordinary one with the same parameters.
A parameter that a body reads is kept in a private field; initializers of
instance fields and properties move into the constructor, in order.
-/

def captureField (param : String) : String := "__" ++ param

/-- Whether a site lies in the body of an instance member.  Bodies are blocks, so
    everything outside them hangs below an expression. -/
def inInstanceBody (site : Site) : Pass Bool := do
  match site.owner, site.ancestors.getLast? with
  | .member type member, some (.stmt _) =>
    match (← read).unit.types[type]?.bind fun decl => decl.members[member]? with
    | some member => return !member.isStatic
    | none => return false
  | _, _ => return false

def primaryParamsAt (owner : Owner) : Pass (List String) := do
  match owner with
  | .member type _ =>
    let decl := (← read).unit.types[type]?
    return (decl.bind (·.primary)).getD [] |>.map (·.name)
  | _ => return []

def noteCapture (owner : Owner) (name : String) : Pass Unit := do
  match owner with
  | .member type _ =>
    modify fun state => { state with captured := state.captured ++ [(type, name)] }
  | _ => return

def lowerName (site : Site) (node : Expr) (name : String) : Pass Expr := do
  let isPrimary := match ((← view).resolution node).found with
    | some reference => reference.kind = .primaryParameter
    | none => false
  if isPrimary && (← primaryParamsAt site.owner).contains name && (← inInstanceBody site) then
    noteCapture site.owner name
    setKind node (.member node.span.self (captureField name))
  else return { node with kind := .ident name }

/-- A moved initializer as a constructor statement.  Declarations that were
    hoisted for it go along. -/
def moveInitializer (name : String) (value : Expr) : Pass Stmt := do
  let span := value.span
  let id ← freshId
  match value.id with
  | some source =>
    modify fun state =>
      { state with hoists := state.hoists.relocate (.initializer source) (.stmt id) }
  | none => pure ()
  return ⟨⟨span, some id⟩, .eval (span.assign (span.member span.self name) value)⟩

def withoutInitializer (member : Member) : Pass (Member × List Stmt) := do
  if member.isStatic then return (member, [])
  else
    match member.kind with
    | .field type name (some init) =>
      return ({ member with kind := .field type name none }, [← moveInitializer name init])
    | .property type name getter setter (some init) =>
      return ({ member with kind := .property type name getter setter none },
        [← moveInitializer name init])
    | _ => return (member, [])

/-- Replace the primary constructor of a declaration by an ordinary one, whose
    body opens with `leading`. -/
def lowerPrimary (index : Nat) (leading : List Stmt) (decl : TypeDecl) : Pass TypeDecl := do
  match decl.primary with
  | none => return decl
  | some params =>
    let span := decl.span
    let names := (← get).captured.filterMap fun (type, name) =>
      if type = index then some name else none
    let captured := params.filter fun param => names.contains param.name
    let fields := captured.map fun param =>
      (⟨.field param.type (captureField param.name) none, [.isPrivate], span⟩ : Member)
    let keeps := captured.map fun param =>
      span.assignStmt (span.member span.self (captureField param.name))
        (span.ident param.name)
    let moved ← decl.members.mapM withoutInitializer
    let body := leading ++ keeps ++ moved.flatMap (·.2)
    let initializer := decl.baseArgs.map fun args => (⟨.base, args⟩ : CtorInitializer)
    let ctor : Member :=
      ⟨.ctor params initializer (.block (span.block body)), [.isPublic], span⟩
    markChanged
    return { decl with
      members := fields ++ moved.map (·.1) ++ [ctor]
      primary := none
      baseArgs := none }

end Unsugar.Pass
