import Unsugar.Lower.Pass

namespace Unsugar

/-! # Pattern tests

A test `subject is pattern` becomes a condition.  Every pattern contributes
checks and assignments: `check && ... && (x = ..., true)`, so that variables are
set only after all checks hold.  Designated variables become hoisted locals, and
a subject that would be read more than once is read from a temporary.
-/

namespace Pass

/-- The value that a pattern is matched against. -/
structure Subject where
  /-- How it is read; every read is a copy. -/
  expr : Expr
  type : Ty
  source : Option Expr := none

def Subject.read (subject : Subject) : Expr := subject.expr.forget

/-- What a pattern contributes to a condition. -/
structure TestParts where
  checks : List Expr := []
  assigns : List Expr := []

namespace TestParts

def append (left right : TestParts) : TestParts :=
  ⟨left.checks ++ right.checks, left.assigns ++ right.assigns⟩

def check (test : Expr) : TestParts := { checks := [test] }

def condition (parts : TestParts) (span : Span) : Expr :=
  let sets := if parts.assigns.isEmpty then []
    else [span.seq parts.assigns (span.boolLit true)]
  span.conjunction (parts.checks ++ sets)

def prepend (parts : TestParts) (span : Span) (effect : Expr) : TestParts :=
  match parts.checks with
  | first :: rest => { parts with checks := span.seq [effect] first :: rest }
  | [] => { parts with assigns := effect :: parts.assigns }

end TestParts

/-! ## Questions about patterns -/

/-- Whether comparing a subject with a value needs no test of its type. -/
def comparesDirectly (subject value : Ty) : Bool :=
  subject == value || value.isUnknown ||
    let inner := Universe.underlying subject
    inner == value || (Universe.isNumeric inner && Universe.isNumeric value)

end Pass

open Pass

mutual

/-- A bound on how often lowering a pattern reads a subject of this type. -/
def Pattern.reads (view : View) (subject : Ty) : Pattern → Nat
  | ⟨_, kind⟩ => kind.reads view subject

def PatternKind.reads (view : View) (subject : Ty) : PatternKind → Nat
  | .discard => 0
  | .constant _ | .var _ | .type _ => 1
  | .relational _ value => if comparesDirectly subject (view.typeOf value) then 1 else 3
  | .declaration type _ =>
    if view.bind type = subject ∧ view.types.isValueType subject then 1 else 2
  | .recursive _ positional properties _ => 2 + positional.length + properties.length
  | .list elements _ => 3 + elements.length
  | .slice none => 0
  | .slice (some inner) | .not inner | .paren inner => inner.reads view subject
  | .and left right | .or left right => left.reads view subject + right.reads view subject

end

mutual

/-- Whether a pattern matches everything and binds nothing. -/
def Pattern.isDiscard : Pattern → Bool
  | ⟨_, kind⟩ => kind.isDiscard

def PatternKind.isDiscard : PatternKind → Bool
  | .discard => true
  | .var name => !isDesignation name
  | .paren inner => inner.isDiscard
  | _ => false

end

def View.isNull (view : View) (value : Expr) : Bool :=
  match value.kind with
  | .literal .null => true
  | _ => view.constant? value == some .null

mutual

def Pattern.isNullConstant (view : View) : Pattern → Bool
  | ⟨_, kind⟩ => kind.isNullConstant view

def PatternKind.isNullConstant (view : View) : PatternKind → Bool
  | .constant value => view.isNull value
  | .paren inner => inner.isNullConstant view
  | _ => false

end

def Pattern.isSlice : Pattern → Bool
  | ⟨_, .slice _⟩ => true
  | _ => false

namespace Pass

/-! ## Checks -/

section Tests

variable (point : InstallPoint) (span : Span)

def nullCheck (subject : Subject) (op : BinaryOp) : Expr :=
  span.binary op subject.read span.nullLit

def conversionTo (subject : Subject) (target : Ty) : Pass Conversion := do
  let view ← view
  match subject.source with
  | some source => return view.classifyConversion source target
  | none => return view.types.classifyTypes subject.type target

/-- A check that the subject has a type, and the subject once it holds.  Where
    the conversion cannot fail, only `null` has to be excluded. -/
def typeCheck (subject : Subject) (target : Ty) (written : TypeSyntax) :
    Pass (List Expr × Subject) := do
  let conversion ← if target = .unknown then pure .explicit else conversionTo subject target
  if conversion.isIdentityOrReference then
    let checks :=
      if (← types).isValueType subject.type then [] else [nullCheck span subject .notEq]
    return (checks,
      if conversion = .identity then subject else { expr := subject.expr, type := target })
  else
    return ([span.typeTest subject.read written],
      { expr := span.cast written subject.read, type := target })

def comparedByValue? (type : Ty) : Option Ty :=
  let inner := Universe.underlying type
  if Universe.isNumeric inner || inner == .bool || inner == .string then some inner else none

def comparesByValue (subject : Ty) (value : Expr) : Pass Bool := do
  match comparedByValue? subject with
  | none => return false
  | some type =>
    let info := (← view).typeInfo value
    return info.type == type || info.converted == type ||
      (Universe.isNumeric type && Universe.isNumeric info.type)

/-- A test against a constant: `==` for values that it compares, else
    `object.Equals`. -/
def constantCheck (subject : Subject) (value : Expr) : Pass Expr := do
  if (← view).isNull value then return nullCheck span subject .eq
  else if ← comparesByValue subject.type value then
    return span.binary .eq subject.read value
  else
    return span.methodCall (span.typeRef (.simple "object")) "Equals" [subject.read, value]

def relationalChecks (subject : Subject) (op : BinaryOp) (value : Expr) :
    Pass (List Expr) := do
  let type ← typeOf value
  if comparesDirectly subject.type type then
    return [span.binary op subject.read value]
  else
    let (checks, narrowed) ← typeCheck span subject type (← syntaxOf type)
    return checks ++ [span.binary op narrowed.read value]

def memberSubject (subject : Subject) (name : String) : Pass Subject := do
  let access := span.member subject.read name
  if subject.type = .unknown then return { expr := access, type := .unknown }
  else
    let types ← types
    match types.findMember? subject.type name with
    | some member => return { expr := access, type := member.type }
    | none =>
      let owner := (types.data subject.type).name
      fail (.resolution ("member `" ++ name ++ "` on `" ++ owner ++ "`") span)

/-- Hoist a designated variable and set it.  Its type is the one that analysis
    found, or that of the subject, or the written one. -/
def designate (mark : Mark) (name : String) (written : TypeSyntax) (subjectType : Ty)
    (value : Expr) : Pass TestParts := do
  if !isDesignation name then return {}
  else
    let view ← view
    let declared := ((view.declared? mark).map (·.type)).filter (· ≠ .unknown)
    let isWritten := written.isPresent && !written.isVar
    let type := match declared with
      | some type => type
      | none => if isWritten then view.bind written else subjectType
    let shown ← if isWritten && type.isUnknown then pure written else syntaxOf type
    hoist point name shown span
    return { assigns := [span.assign (span.ident name) value] }

/-- Lower against a subject that can be read as often as the pattern needs. -/
def stabilized (reads : Nat) (subject : Subject) (lower : Subject → Pass TestParts) :
    Pass TestParts := do
  if reads ≤ 1 || subject.expr.isSimple then lower subject
  else
    let name ← temporary point "t" subject.type span
    let parts ← lower { expr := span.ident name, type := subject.type }
    return parts.prepend span (span.assign (span.ident name) subject.read)

def inPattern {α : Type} (node : Pattern) (action : Pass α) : Pass α := do
  try action
  catch error =>
    let input ← inputPattern node
    throw (error.inNode (← read).pass input.text input.span)

/-! ## Sequences -/

/-- A sequence that a list pattern is matched against. -/
structure ListSubject where
  subject : Subject
  length : String
  element : Ty
  count : Nat
  sliceAt : Option Nat

namespace ListSubject

def readLength (list : ListSubject) : Expr := span.member list.subject.read list.length

def int (value : Nat) : Expr := span.intLit value

def lengthLess (list : ListSubject) (value : Nat) : Expr :=
  if value = 0 then list.readLength span
  else span.binary .sub (list.readLength span) (int span value)

def elementAt (list : ListSubject) (index : Nat) : Subject :=
  let fromEnd := match list.sliceAt with
    | some position => decide (position < index)
    | none => false
  let offset :=
    if fromEnd then span.binary .sub (list.readLength span) (int span (list.count - index))
    else int span index
  { expr := span.index list.subject.read [offset], type := list.element }

def slice (list : ListSubject) (start : Nat) : Subject :=
  let after := list.count - start - 1
  let receiver := list.subject.read
  let expr :=
    if list.subject.type = .string then
      span.methodCall receiver "Substring" [int span start, list.lengthLess span (start + after)]
    else span.methodCall receiver "Slice" [int span start, list.lengthLess span after]
  { expr, type := list.subject.type }

/-- Checks that a sequence has enough elements. -/
def checks (list : ListSubject) : Pass (List Expr) := do
  let notNull :=
    if (← types).isValueType list.subject.type then []
    else [nullCheck span list.subject .notEq]
  let test := match list.sliceAt with
    | some _ => span.binary .gtEq (list.readLength span) (int span (list.count - 1))
    | none => span.binary .eq (list.readLength span) (int span list.count)
  return notNull ++ [test]

end ListSubject

def listSubject (subject : Subject) (elements : List Pattern) : Pass ListSubject := do
  let types ← types
  return {
    subject
    length := types.lengthMember subject.type
    element :=
      if subject.type = .string then .char
      else (types.data subject.type).element.getD .unknown
    count := elements.length
    sliceAt := elements.findIdx? Pattern.isSlice }

/-! ## Patterns -/

mutual

def lowerPattern (subject : Subject) : Pattern → Pass TestParts
  | ⟨mark, kind⟩ => inPattern ⟨mark, kind⟩ (lowerPatternKind mark subject kind)

def lowerPatternKind (mark : Mark) (subject : Subject) : PatternKind → Pass TestParts
  | .discard => return {}
  | .paren inner => lowerPattern subject inner
  | .constant value => return .check (← constantCheck span subject value)
  | .relational op value =>
    return { checks := ← relationalChecks span subject op.toBinary value }
  | .type type => do
    let (checks, _) ← typeCheck span subject ((← view).bind type) type
    return { checks }
  | .var name => designate point span mark name .absent subject.type subject.read
  | .declaration type name => do
    let (checks, narrowed) ← typeCheck span subject ((← view).bind type) type
    let bound ← designate point span mark name type subject.type narrowed.read
    return TestParts.append { checks } bound
  | .recursive type positional properties designation => do
    let (checks, narrowed) ← match type with
      | .absent =>
        let isValue := (← types).isValueType subject.type
        pure (if isValue then [] else [nullCheck span subject .notEq], subject)
      | type => typeCheck span subject ((← view).bind type) type
    let members := (← types).components narrowed.type positional.length
    let items ← lowerPositional narrowed members positional
    let parts ← lowerProperties narrowed properties
    let bound ← designate point span mark designation type narrowed.type narrowed.read
    return (((TestParts.append { checks } items).append parts).append bound)
  | .list elements designation => do
    let list ← listSubject subject elements
    let checks ← list.checks span
    let parts ← lowerElements list 0 elements
    let bound ← designate point span mark designation .absent subject.type subject.read
    return ((TestParts.append { checks } parts).append bound)
  | .slice _ => unsupported "slice pattern outside of a list pattern" span
  | .and left right => do
    let left ← lowerPattern subject left
    return left.append (← lowerPattern subject right)
  | .or left right => do
    let left := (← lowerPattern subject left).condition span
    let right := (← lowerPattern subject right).condition span
    return .check (span.binary .or left right)
  | .not inner => do
    if inner.isNullConstant (← view) then return .check (nullCheck span subject .notEq)
    else
      let inner := (← lowerPattern subject inner).condition span
      return .check (span.unary .not inner)

def lowerPositional (subject : Subject) : List (String × Ty) → List Pattern → Pass TestParts
  | (name, type) :: members, node :: rest => do
    let item : Subject := { expr := span.member subject.read name, type }
    let parts ← stabilized point span (node.reads (← view) type) item
      fun item => lowerPattern item node
    return parts.append (← lowerPositional subject members rest)
  | _, _ => return {}

def lowerProperties (subject : Subject) : List PropertyPattern → Pass TestParts
  | [] => return {}
  | ⟨path, node⟩ :: rest => do
    let item ← path.foldlM (memberSubject span) subject
    let parts ← stabilized point span (node.reads (← view) item.type) item
      fun item => lowerPattern item node
    return parts.append (← lowerProperties subject rest)

def lowerElements (list : ListSubject) : Nat → List Pattern → Pass TestParts
  | _, [] => return {}
  | index, node :: rest => do
    let parts ←
      if list.sliceAt = some index then lowerSlice list index node
      else if node.isDiscard then pure {}
      else
        let item := list.elementAt span index
        stabilized point span (node.reads (← view) item.type) item
          fun item => lowerPattern item node
    return parts.append (← lowerElements list (index + 1) rest)

def lowerSlice (list : ListSubject) (index : Nat) : Pattern → Pass TestParts
  | ⟨_, .slice (some inner)⟩ => do
    if inner.isDiscard then return {}
    else
      let item := list.slice span index
      stabilized point span (inner.reads (← view) item.type) item
        fun item => lowerPattern item inner
  | _ => return {}

end

def patternCondition (subject : Subject) (node : Pattern) : Pass Expr := do
  if node.reads (← view) subject.type ≤ 1 || subject.expr.isSimple then
    return (← lowerPattern point span subject node).condition span
  else
    let name ← temporary point "t" subject.type span
    let stable : Subject := { subject with expr := span.ident name }
    let cond := (← lowerPattern point span stable node).condition span
    return span.seq [span.assign (span.ident name) subject.expr] cond

end Tests

end Pass

end Unsugar
