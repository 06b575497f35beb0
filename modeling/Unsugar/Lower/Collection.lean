import Unsugar.Lower.Pass

namespace Unsugar.Pass

/-! # Collections with spread elements

A collection with a spread is built by a function that is called at once: it
adds the items to a list one after the other and returns the list, or an array
made from it.  A spread of `null` adds nothing.
-/

def isSpread : Expr → Bool
  | ⟨_, .spread _⟩ => true
  | _ => false

def addItem (buffer : String) (span : Span) (item : Expr) : Pass (List Stmt) := do
  match item.kind with
  | .spread value =>
    let name ← fresh "t"
    let type ← localSyntax (← typeOf value)
    let cond := span.binary .notEq (span.ident name) span.nullLit
    let add := span.methodCall (span.ident buffer) "AddRange" [span.ident name]
    return [span.declare type name (some value), span.ifElse cond (span.evalStmt add) none]
  | _ => return [span.evalStmt (span.methodCall (span.ident buffer) "Add" [item])]

def addItems (buffer : String) : (input rebuilt : List Expr) → Pass (List Stmt)
  | input :: inputs, item :: items => do
    let here ← addItem buffer input.span item
    return here ++ (← addItems buffer inputs items)
  | _, _ => return []

def contextType (node : Expr) : Pass Ty := do
  let info := (← view).typeInfo node
  return if info.converted = .unknown then info.type else info.converted

def lowerCollection (node : Expr) (items : List Expr) : Pass Expr := do
  let input := match node.kind with
    | .collection input => input
    | _ => items
  if !input.any isSpread then return { node with kind := .collection items }
  else
    let span := node.span
    let target ← contextType node
    let types ← types
    let data := types.data target
    let element := ((data.element.or data.args.head?).getD .unknown)
    let elementSyntax ← syntaxOf element
    let toArray := data.shape = .array ∨ target = .unknown
    let listType : TypeSyntax := .named "List" [elementSyntax]
    let buffer ← fresh "b"
    let start := span.declare listType buffer (some (span.create listType []))
    let adds ← addItems buffer input items
    let whole := span.ident buffer
    let result := if toArray then span.methodCall whole "ToArray" [] else whole
    let resultType ←
      if target = .unknown then pure (.array elementSyntax) else syntaxOf target
    replace node (span.immediate resultType (start :: adds ++ [span.ret result]))

end Unsugar.Pass
