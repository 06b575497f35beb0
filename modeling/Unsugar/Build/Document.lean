import Unsugar.Build.PathMap
import Unsugar.Digest

namespace Unsugar

/-! # Cache documents

What a build leaves behind for the next one: for each file the digest of the
text that was lowered and the lowered text, all under the digest of the
configuration.  Encoded, numbers have a fixed width with the lowest byte first,
and a text or a list of entries follows its length.
-/

structure CacheEntry where
  content : Digest
  lowered : String
  deriving DecidableEq, Repr, Inhabited

structure CacheDocument where
  format : UInt32
  config : Digest
  entries : PathMap CacheEntry

inductive DocumentError where
  /-- The bytes end early, or a text is not one. -/
  | malformed
  /-- The bytes are a document of another format. -/
  | format (found : UInt32)
  deriving DecidableEq, Repr

namespace CacheDocument

def currentFormat : UInt32 := 1

end CacheDocument

def DocumentError.message : DocumentError → String
  | malformed => "malformed document"
  | format found =>
    "format " ++ toString found.toNat ++ " (expected " ++
      toString CacheDocument.currentFormat.toNat ++ ")"

namespace Bytes

/-- A number in so many bytes, the lowest first. -/
def ofNumber : (width : Nat) → Nat → List UInt8
  | 0, _ => []
  | width + 1, value => UInt8.ofNat value :: ofNumber width (value / 256)

def toNumber : List UInt8 → Nat
  | [] => 0
  | byte :: rest => byte.toNat + 256 * toNumber rest

def toHex (bytes : List UInt8) : String :=
  String.ofList (bytes.flatMap fun byte =>
    [Nat.digitChar (byte.toNat / 16), Nat.digitChar (byte.toNat % 16)])

/-- Bytes from two hexadecimal digits each. -/
def ofHex? : List Char → Option (List UInt8)
  | [] => some []
  | [_] => none
  | high :: low :: rest => do
    let high ← Digest.hexValue? high
    let low ← Digest.hexValue? low
    return UInt8.ofNat (16 * high + low) :: (← ofHex? rest)

def ofText (text : String) : List UInt8 :=
  let content := Utf8.encode text
  ofNumber 8 content.length ++ content

end Bytes

/-- Reads something off the front of bytes and leaves the rest. -/
abbrev ByteReader (α : Type) : Type := StateT (List UInt8) Option α

namespace ByteReader

def take (count : Nat) : ByteReader (List UInt8) := fun bytes =>
  if count ≤ bytes.length then some (bytes.take count, bytes.drop count) else none

def number (width : Nat) : ByteReader Nat := do
  return Bytes.toNumber (← take width)

def text : ByteReader String := do
  let length ← number 8
  let content ← take length
  StateT.lift (Utf8.decode? content)

def many {α : Type} (item : ByteReader α) : (count : Nat) → ByteReader (List α)
  | 0 => return []
  | count + 1 => do
    let first ← item
    let rest ← many item count
    return first :: rest

end ByteReader

def CacheEntry.encode (path : Path) (entry : CacheEntry) : List UInt8 :=
  Bytes.ofText path.text ++ Bytes.ofNumber 8 entry.content.value.toNat ++
    Bytes.ofText entry.lowered

def CacheEntry.read : ByteReader (Path × CacheEntry) := do
  let path ← ByteReader.text
  let content ← ByteReader.number 8
  let lowered ← ByteReader.text
  return (⟨path⟩, ⟨⟨UInt64.ofNat content⟩, lowered⟩)

namespace CacheDocument

def encode (document : CacheDocument) : List UInt8 :=
  Bytes.ofNumber 4 document.format.toNat ++
    Bytes.ofNumber 8 document.config.value.toNat ++
    Bytes.ofNumber 8 document.entries.size ++
    document.entries.entries.flatMap fun (path, entry) => entry.encode path

def read : ByteReader CacheDocument := do
  let format ← ByteReader.number 4
  let config ← ByteReader.number 8
  let count ← ByteReader.number 8
  let entries ← ByteReader.many CacheEntry.read count
  return ⟨UInt32.ofNat format, ⟨UInt64.ofNat config⟩, PathMap.ofList entries⟩

def decode (bytes : List UInt8) : Except DocumentError CacheDocument :=
  match read.run bytes with
  | none => .error .malformed
  | some (document, _) =>
    if document.format = currentFormat then .ok document
    else .error (.format document.format)

end CacheDocument

end Unsugar
