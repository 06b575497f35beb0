import Unsugar.Lower.Pipeline

namespace Unsugar.Pass

/-! # Runs of rules

How a run is taken apart into the runs of its steps, and what the steps that only
ask a question answer.
-/

variable {α β : Type} {env : PassEnv} {before after : PassState} {action : Pass α}
  {next : α → Pass β}

theorem bind_ok {result : α} (ran : action env before = .ok (result, after)) :
    (action >>= next) env before = next result env after := by
  change (action env before >>= fun (result, state) => next result env state) = _
  rw [ran]
  rfl

theorem bind_eq_ok {result : β} (ran : (action >>= next) env before = .ok (result, after)) :
    ∃ value middle, action env before = .ok (value, middle) ∧
      next value env middle = .ok (result, after) := by
  change (action env before >>= fun (value, state) => next value env state) = _ at ran
  cases first : action env before with
  | error error =>
    rw [first] at ran
    cases ran
  | ok reached =>
    rw [first] at ran
    exact ⟨reached.1, reached.2, rfl, ran⟩

/-- What catches errors ends well where the action does, or where something was
    done about its error. -/
theorem tryCatch_eq_ok {handler : LowerError → Pass α} {result : α}
    (ran : (tryCatch action handler : Pass α) env before = .ok (result, after)) :
    action env before = .ok (result, after) ∨
      ∃ error, handler error env before = .ok (result, after) := by
  change (tryCatch (action env before) fun error => handler error env before :
    Except LowerError (α × PassState)) = _ at ran
  cases first : action env before with
  | ok reached =>
    rw [first] at ran
    exact .inl ran
  | error error =>
    rw [first] at ran
    exact .inr ⟨error, ran⟩

/-! ## Questions -/

theorem read_ok (env : PassEnv) (state : PassState) :
    (read : Pass PassEnv) env state = .ok (env, state) := rfl

theorem view_ok (env : PassEnv) (state : PassState) : view env state = .ok (env.view, state) := rfl

theorem types_ok (env : PassEnv) (state : PassState) :
    types env state = .ok (env.view.types, state) := rfl

theorem typeOf_ok (env : PassEnv) (node : Expr) (state : PassState) :
    typeOf node env state = .ok (env.view.typeOf node, state) := rfl

/-! ## Results -/

def Returns (action : Pass α) (holds : α → Prop) : Prop :=
  ∀ env before result after, action env before = .ok (result, after) → holds result

namespace Returns

theorem pure {value : α} {holds : α → Prop} (isHeld : holds value) :
    Returns (Pure.pure value) holds := by
  rintro env before result after ⟨⟩
  exact isHeld

theorem last {holds : β → Prop} (rest : ∀ value, Returns (next value) holds) :
    Returns (action >>= next) holds := by
  intro env before result after ran
  obtain ⟨value, middle, _, ranRest⟩ := bind_eq_ok ran
  exact rest _ _ _ _ _ ranRest

theorem bind {middle : α → Prop} {holds : β → Prop} (first : Returns action middle)
    (rest : ∀ value, middle value → Returns (next value) holds) :
    Returns (action >>= next) holds := by
  intro env before result after ran
  obtain ⟨value, state, ranFirst, ranRest⟩ := bind_eq_ok ran
  exact rest _ (first _ _ _ _ ranFirst) _ _ _ _ ranRest

theorem ite {condition : Prop} [Decidable condition] {yes no : Pass α} {holds : α → Prop}
    (isYes : Returns yes holds) (isNo : Returns no holds) :
    Returns (if condition then yes else no) holds := by
  split
  · exact isYes
  · exact isNo

theorem mono {holds weaker : α → Prop} (returns : Returns action holds)
    (implies : ∀ result, holds result → weaker result) : Returns action weaker :=
  fun _ _ _ _ ran => implies _ (returns _ _ _ _ ran)

theorem both {left right : α → Prop} (isLeft : Returns action left)
    (isRight : Returns action right) : Returns action fun value => left value ∧ right value :=
  fun _ _ _ _ ran => ⟨isLeft _ _ _ _ ran, isRight _ _ _ _ ran⟩

end Returns

/-! ## What goes on after a choice -/

/-- How a type is checked, once it is known how the subject becomes a value of it. -/
abbrev checkedBy (span : Span) (subject : Subject) (target : Ty) (written : TypeSyntax)
    (conversion : Conversion) : Pass (List Expr × Subject) := do
  if conversion.isIdentityOrReference then
    let checks := if (← types).isValueType subject.type then [] else [nullCheck span subject .notEq]
    return (checks,
      if conversion = .identity then subject else { expr := subject.expr, type := target })
  else
    return ([span.typeTest subject.read written],
      { expr := span.cast written subject.read, type := target })

/-- What the parts of a pattern become, once the type of the subject is checked. -/
abbrev partsOf (point : InstallPoint) (span : Span) (mark : Mark) (type : TypeSyntax)
    (positional : List Pattern) (properties : List PropertyPattern) (designation : String)
    (checked : List Expr × Subject) : Pass TestParts := do
  let members := (← types).components checked.2.type positional.length
  let items ← lowerPositional point span checked.2 members positional
  let parts ← lowerProperties point span checked.2 properties
  let bound ← designate point span mark designation type checked.2.type checked.2.read
  return (((TestParts.append { checks := checked.1 } items).append parts).append bound)

/-- What a copy with changes becomes, once its type is known. -/
abbrev copyAs (node receiver : Expr) (inits : List FieldInit) (type : Ty) : Pass Expr := do
  let copy ← fresh "c"
  let value :=
    if (← types).isValueType type then receiver else node.span.methodCall receiver "__Clone" []
  let written ← syntaxOf type
  let sets := inits.map fun init =>
    node.span.assignStmt (node.span.member (node.span.ident copy) init.name) init.value
  replace node (node.span.immediate written
    (node.span.declare written copy (some value) :: sets ++ [node.span.ret (node.span.ident copy)]))

end Unsugar.Pass

namespace Unsugar

/-! ## The type that a node is wanted as -/

def View.contextType (view : View) (node : Expr) : Ty :=
  let info := view.typeInfo node
  if info.converted = .unknown then info.type else info.converted

/-! ## What a concatenation joins

The parts of an interpolated string are joined from left to right, after an empty
string if the first of them is not text.
-/

def Part.operand (span : Span) : Part → Expr
  | .text content => span.strLit content
  | .hole value _ _ => value

theorem Pass.concatenation_eq {span : Span} {parts : List Part} :
    ∃ first rest, concatenation span parts = rest.foldl (span.binary .add) first ∧
      (first :: rest = parts.map (Part.operand span) ∨
        first :: rest = span.strLit "" :: parts.map (Part.operand span)) := by
  cases parts with
  | nil => exact ⟨_, [], rfl, .inr rfl⟩
  | cons part rest =>
    cases part with
    | text content => exact ⟨_, _, rfl, .inl rfl⟩
    | hole value alignment format => exact ⟨_, _, rfl, .inr rfl⟩

end Unsugar
