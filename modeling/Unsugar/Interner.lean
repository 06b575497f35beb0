import Unsugar.Text.Utf8

namespace Unsugar

/-! # Interner

Strings are stored once and named by where they are stored: one of sixteen
shards, chosen by the first bytes of the string, and a slot in it.  A new
interner already holds the empty string and the names that lowering emits most.

Several threads may use one interner.  A string is therefore looked for before
anything is written, and looked for again by the step that stores it.
-/

abbrev Interner.shardCount : Nat := 16

def Interner.lastSlot : Nat := 1 <<< 28 - 1

structure Symbol where
  shard : Fin Interner.shardCount
  slot : Nat
  deriving DecidableEq, Repr

namespace Symbol

def empty : Symbol := ⟨0, 0⟩

def isEmpty (symbol : Symbol) : Bool := symbol == empty

/-- A symbol in one word: the highest four bits are the shard, the others the slot. -/
def word (symbol : Symbol) : UInt32 :=
  UInt32.ofNat symbol.shard.val <<< 28 ||| UInt32.ofNat symbol.slot

def ofWord (word : UInt32) : Symbol :=
  ⟨Fin.ofNat Interner.shardCount (word >>> 28).toNat,
    (word &&& UInt32.ofNat Interner.lastSlot).toNat⟩

def render (symbol : Symbol) : String :=
  if symbol.isEmpty then "Name(<empty>)"
  else "Name(" ++ toString symbol.shard.val ++ ":" ++ toString symbol.slot ++ ")"

end Symbol

structure Interner.Shard where
  /-- Where each string of the shard is. -/
  slots : List (String × Nat) := []
  strings : List String := []

structure Interner where
  shards : Vector Interner.Shard Interner.shardCount
  /-- How many strings all shards hold. -/
  total : UInt64

structure Interner.Overflow where
  shard : Fin Interner.shardCount
  count : Nat
  deriving DecidableEq, Repr

namespace Interner

/-- The shard of a string: its first eight bytes as digits in base 31, modulo
    `2 ^ 32`. -/
def shardOf (text : String) : Fin shardCount :=
  let hash : UInt32 := ((Utf8.encode text).take 8).foldl
    (fun hash byte => hash * 31 + byte.toUInt32) 0
  Fin.ofNat shardCount hash.toNat

/-- Only the empty string is stored. -/
def bare : Interner where
  shards := (Vector.replicate shardCount {}).set 0 ⟨[("", 0)], [""]⟩ (by decide)
  total := 1

def find? (interner : Interner) (text : String) : Option Symbol :=
  let shard := shardOf text
  (interner.shards[shard].slots.lookup text).map fun slot => ⟨shard, slot⟩

/-- Write a string to the end of its shard. -/
def push (interner : Interner) (text : String) : Symbol × Interner :=
  let shard := shardOf text
  let held := interner.shards[shard]
  let slot := held.strings.length
  (⟨shard, slot⟩,
    { shards := interner.shards.set shard.val
        ⟨(text, slot) :: held.slots, held.strings ++ [text]⟩ shard.isLt
      total := interner.total + 1 })

/-- Store a string unless it is stored already, and name its place. -/
def store (interner : Interner) (text : String) : Except Overflow Symbol × Interner :=
  match interner.find? text with
  | some symbol => (.ok symbol, interner)
  | none =>
    let shard := shardOf text
    let count := interner.shards[shard].strings.length
    if count ≤ lastSlot then
      let (symbol, after) := interner.push text
      (.ok symbol, after)
    else (.error ⟨shard, count⟩, interner)

def intern (interner : Interner) (text : String) : Except Overflow (Symbol × Interner) :=
  match interner.find? text with
  | some symbol => .ok (symbol, interner)
  | none =>
    let (answer, after) := interner.store text
    answer.map fun symbol => (symbol, after)

/-- The string at a place; an unused place holds the empty string. -/
def lookup (interner : Interner) (symbol : Symbol) : String :=
  interner.shards[symbol.shard].strings.getD symbol.slot ""

def length (interner : Interner) : Nat := interner.total.toNat

/-- The empty string alone counts as nothing. -/
def isEmpty (interner : Interner) : Bool := interner.length ≤ 1

def wellKnown : List String :=
  ["var", "this", "base", "null", "true", "false", "void", "object", "dynamic", "value",
    "int", "long", "double", "bool", "char", "string", "Length", "Count", "Equals",
    "GetHashCode", "ToString", "Deconstruct", "Substring", "Slice", "GetOffset", "Add",
    "AddRange", "ToArray", "Invoke", "Format", "List", "Func", "Action", "Index", "Range",
    "Start", "End", "SwitchExpressionException"]

def fresh : Interner :=
  wellKnown.foldl (fun interner text =>
    match interner.intern text with
    | .ok (_, next) => next
    | .error _ => interner) bare

end Interner

end Unsugar
