namespace Unsugar

/-! # Source spans

A span is a half-open range of byte offsets into a source text.  Every node of
a syntax tree carries one, and a node that lowering makes carries the span of
the construct it was made from, so that a late error still points at text the
user wrote.
-/

/-- A half-open range of byte offsets. -/
structure Span where
  start : UInt32
  stop : UInt32
  deriving DecidableEq, Repr, Inhabited

namespace Span

/-- Number of bytes covered. -/
def length (span : Span) : UInt32 := span.stop - span.start

def isEmpty (span : Span) : Bool := span.start == span.stop

def contains (outer inner : Span) : Bool :=
  outer.start ≤ inner.start && inner.stop ≤ outer.stop

def merge (left right : Span) : Span where
  start := if right.start < left.start then right.start else left.start
  stop := if left.stop < right.stop then right.stop else left.stop

def text (span : Span) : String :=
  toString span.start.toNat ++ ".." ++ toString span.stop.toNat

structure Position where
  line : Nat
  column : Nat
  deriving DecidableEq, Repr, Inhabited

def Position.advance (position : Position) (char : Char) : Position :=
  if char = '\n' then ⟨position.line + 1, 1⟩
  else ⟨position.line, position.column + 1⟩

def Position.readTo (offset : Nat) :
    List Char → (byte : Nat) → Position → Position
  | [], _, position => position
  | char :: rest, byte, position =>
    if offset ≤ byte then position
    else readTo offset rest (byte + char.utf8Size) (position.advance char)

/-- Line and column where the span starts.  An offset past the end of the text
    counts as its end. -/
def position (span : Span) (source : String) : Position :=
  Position.readTo (min span.start.toNat source.utf8ByteSize) source.toList 0 ⟨1, 1⟩

end Span

end Unsugar
