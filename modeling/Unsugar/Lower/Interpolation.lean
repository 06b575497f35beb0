import Unsugar.Lower.Pass

namespace Unsugar.Pass

/-! # Interpolated strings

Without alignment or format the parts are concatenated, after an empty string if
the first part is a hole.  Otherwise the string becomes a `string.Format` call
with a composite format in which literal braces are doubled.
-/

def escapeFormat (text : String) : String :=
  String.join (text.toList.map fun char =>
    if char = '\x7b' then "\x7b\x7b"
    else if char = '\x7d' then "\x7d\x7d"
    else String.singleton char)

def isFormatted : Part → Bool
  | .text _ => false
  | .hole _ alignment format => alignment.isSome || format != ""

def concatenation (span : Span) (parts : List Part) : Expr :=
  let pieces := parts.map fun part =>
    match part with
    | .text text => span.strLit text
    | .hole value _ _ => value
  let pieces := match parts with
    | .text _ :: _ => pieces
    | _ => span.strLit "" :: pieces
  match pieces with
  | [] => span.strLit ""
  | first :: rest => rest.foldl (span.binary .add) first

def alignmentText : (input : Option Expr) → Pass String
  | none => return ""
  | some alignment => do
    match (← view).constant? alignment with
    | some (.int width) => return "," ++ toString width
    | _ =>
      fail (.nonConstant (← read).pass "interpolation alignment" alignment.span)

def compositeFormat : (next : Nat) → List Part → Pass String
  | _, [] => return ""
  | next, .text text :: rest => return escapeFormat text ++ (← compositeFormat next rest)
  | next, .hole _ alignment format :: rest => do
    let width ← alignmentText alignment
    let spec := if format == "" then "" else ":" ++ format
    return "\x7b" ++ toString next ++ width ++ spec ++ "\x7d" ++
      (← compositeFormat (next + 1) rest)

def holeValues (parts : List Part) : List Expr :=
  parts.filterMap fun part =>
    match part with
    | .text _ => none
    | .hole value _ _ => some value

def lowerInterpolated (node : Expr) (parts : List Part) : Pass Expr := do
  let span := node.span
  if parts.any isFormatted then
    let input := match node.kind with
      | .interpolated input => input
      | _ => parts
    let format ← compositeFormat 0 input
    replace node (span.methodCall (span.typeRef (.simple "string")) "Format"
      (span.strLit format :: holeValues parts))
  else replace node (concatenation span parts)

end Unsugar.Pass
