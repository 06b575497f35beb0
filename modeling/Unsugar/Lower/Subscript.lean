import Unsugar.Lower.Pass

namespace Unsugar.Pass

/-! # Indices from the end and ranges

Inside a subscript, `^i` is computed from the length of the receiver and a range
becomes a `Substring` or `Slice` call.  Elsewhere the operators build `Index` and
`Range` values.
-/

inductive SubscriptArg where
  | fromEnd (value : Expr)
  | indexValue (value : Expr)
  | range (start stop : Option Expr)
  | rangeValue (value : Expr)

def SubscriptArg.ofArgs? (args : List Expr) : Pass (Option SubscriptArg) := do
  match args with
  | [arg] =>
    match arg.kind with
    | .fromEnd value => return some (.fromEnd value)
    | .range start stop => return some (.range start stop)
    | _ =>
      let types ← types
      let type ← typeOf arg
      if types.isNamed type "Index" then return some (.indexValue arg)
      else if types.isNamed type "Range" then return some (.rangeValue arg)
      else return none
  | _ => return none

/-- A receiver that can be read repeatedly, with its type and the member that
    holds its length. -/
structure Sequenced where
  receiver : Expr
  type : Ty
  length : String

namespace Sequenced

def read (sequence : Sequenced) : Expr := sequence.receiver.forget

def readLength (sequence : Sequenced) (span : Span) : Expr :=
  span.member sequence.read sequence.length

def fromEnd (sequence : Sequenced) (span : Span) (value : Expr) : Expr :=
  span.binary .sub (sequence.readLength span) value

def offsetOf (sequence : Sequenced) (span : Span) (index : Expr) : Expr :=
  span.methodCall index "GetOffset" [sequence.readLength span]

def bound (sequence : Sequenced) (span : Span) (missing : Expr) :
    Option Expr → Pass Expr
  | none => return missing
  | some value => do
    match value.kind with
    | .fromEnd inner => return sequence.fromEnd span inner
    | _ =>
      if (← types).isNamed (← typeOf value) "Index" then
        return sequence.offsetOf span value
      else return value

end Sequenced

def isZero : Expr → Bool
  | ⟨_, .literal (.int 0)⟩ => true
  | _ => false

section Slices

variable (site : Site) (anchor : Expr) (span : Span)

def slice (sequence : Sequenced) (start stop : Expr) : Pass Expr := do
  if sequence.type ≠ .string then
    return span.methodCall sequence.read "Slice" [start, stop]
  else if isZero start then
    return span.methodCall sequence.read "Substring" [start, stop]
  else
    let (start, capture) ← stabilize site anchor start .int "i"
    let count := span.binary .sub stop start.forget
    return span.after capture
      (span.methodCall sequence.read "Substring" [start.forget, count])

/-- The lowered form of a subscript on a receiver that is simple to read.
    Temporaries are hoisted for `anchor`. -/
def subscript (receiver : Expr) (type : Ty) (arg : SubscriptArg) : Pass Expr := do
  let sequence : Sequenced := ⟨receiver, type, (← types).lengthMember type⟩
  match arg with
  | .fromEnd value =>
    return span.index sequence.read [sequence.fromEnd span value]
  | .indexValue index =>
    return span.index sequence.read [sequence.offsetOf span index]
  | .range start stop =>
    let start ← sequence.bound span (span.intLit 0) start
    let stop ← sequence.bound span (sequence.readLength span) stop
    slice site anchor span sequence start stop
  | .rangeValue range =>
    let (range, capture) ← stabilize site anchor range (← typeOf range) "g"
    let start := sequence.offsetOf span (span.member range.forget "Start")
    let stop := sequence.offsetOf span (span.member range.forget "End")
    return span.after capture (← slice site anchor span sequence start stop)

def subscriptOn (receiver : Expr) (arg : SubscriptArg) : Pass Expr := do
  let type ← typeOf receiver
  let (stable, capture) ← stabilize site anchor receiver type "r"
  return span.after capture (← subscript site anchor span stable type arg)

end Slices

/-- Whether an access starts at a binding of a conditional access. -/
def isBindingRooted : Expr → Bool
  | ⟨_, .member receiver _⟩ | ⟨_, .index receiver _⟩ => isBindingRooted receiver
  | ⟨_, .call callee _⟩ => isBindingRooted callee
  | ⟨_, .memberBinding _⟩ | ⟨_, .elementBinding _⟩ => true
  | _ => false

/-- Lower a subscript.  Where the receiver is not known before a conditional
    access is lowered, the subscript waits for that. -/
def lowerIndex (site : Site) (node : Expr) (receiver : Expr) (args : List Expr) : Pass Expr := do
  let kept : Expr := { node with kind := .index receiver args }
  let waits := match node.kind with
    | .index input _ => isBindingRooted input
    | _ => false
  if waits then return kept
  else
    match ← SubscriptArg.ofArgs? args with
    | none => return kept
    | some arg => replace node (← subscriptOn site node node.span receiver arg)

def inSubscript (node : Expr) : List Node → Bool
  | .expr parent :: rest =>
    match parent.kind with
    | .index _ args | .elementBinding args => args.any fun arg => arg.id == node.id
    | .range .. => inSubscript parent rest
    | _ => false
  | _ => false

def newIndex (span : Span) (value : Expr) (fromEnd : Bool) : Expr :=
  span.create (.simple "Index") [value, span.boolLit fromEnd]

def lowerFromEnd (site : Site) (node value : Expr) : Pass Expr := do
  if inSubscript node site.ancestors then return { node with kind := .fromEnd value }
  else replace node (newIndex node.span value true)

def rangeBound (span : Span) (isEnd : Bool) : (input rebuilt : Option Expr) → Pass Expr
  | some input, some value => do
    let isFromEnd := match input.kind with
      | .fromEnd _ => true
      | _ => false
    if isFromEnd || (← types).isNamed (← typeOf value) "Index" then return value
    else return newIndex span value false
  | _, _ => return newIndex span (span.intLit 0) isEnd

def lowerRange (site : Site) (node : Expr) (start stop : Option Expr) : Pass Expr := do
  if inSubscript node site.ancestors then return { node with kind := .range start stop }
  else
    let (inputStart, inputStop) := match node.kind with
      | .range start stop => (start, stop)
      | _ => (none, none)
    let span := node.span
    let start ← rangeBound span false inputStart start
    let stop ← rangeBound span true inputStop stop
    replace node (span.create (.simple "Range") [start, stop])

end Unsugar.Pass
