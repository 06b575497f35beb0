import Unsugar.Build.Document
import Unsugar.Build.FilePlace

namespace Unsugar

/-! # The cache of a build

It is opened from a store, consulted and filled file by file, and kept in the
store again.  Entries that were made under another configuration are dropped
when it is opened, and so are entries of files outside the build.
-/

/-! ## Where cache documents are kept -/

inductive CacheStore where
  | memory (document : Option CacheDocument) (saves : Nat)
  | file (place : FilePlace)

/-- Why a document could not be loaded or saved. -/
inductive CacheError where
  /-- The place of the file cannot be read or written. -/
  | io
  | corrupt (cause : DocumentError)
  deriving DecidableEq, Repr

namespace CacheStore

/-- The document that is kept; none is kept before the first is saved. -/
def load : CacheStore → Except CacheError (Option CacheDocument)
  | memory document _ => .ok document
  | file place =>
    match place.read with
    | .refused => .error .io
    | .missing => .ok none
    | .bytes content =>
      match CacheDocument.decode content with
      | .ok document => .ok (some document)
      | .error cause => .error (.corrupt cause)

/-- Keep a document in place of what was kept.  A failure leaves that as it was,
    but may have made directories. -/
def save (store : CacheStore) (document : CacheDocument) : Except CacheError Unit × CacheStore :=
  match store with
  | memory _ saves => (.ok (), memory (some document) (saves + 1))
  | file place =>
    let (done, place) := place.replace document.encode
    (if done then .ok () else .error .io, file place)

def saves? : CacheStore → Option Nat
  | memory _ saves => some saves
  | file _ => none

end CacheStore

/-! ## Open caches -/

structure BuildCache where
  config : Digest
  entries : PathMap CacheEntry := .empty

namespace BuildCache

def lookup (cache : BuildCache) (path : Path) (content : Digest) : Option String :=
  match cache.entries.find? path with
  | some entry => if entry.content = content then some entry.lowered else none
  | none => none

def insert (cache : BuildCache) (path : Path) (content : Digest) (lowered : String) :
    BuildCache :=
  { cache with entries := cache.entries.insert path ⟨content, lowered⟩ }

def size (cache : BuildCache) : Nat := cache.entries.size

def document (cache : BuildCache) : CacheDocument :=
  ⟨CacheDocument.currentFormat, cache.config, cache.entries⟩

def persist (cache : BuildCache) (store : CacheStore) : Except CacheError Unit × CacheStore :=
  store.save cache.document

end BuildCache

def Path.isAmong (path : Path) (paths : List Path) : Bool :=
  paths.any fun other => other.key == path.key

def CacheDocument.usable (document : CacheDocument) (config : Digest) (force : Bool)
    (paths : List Path) : PathMap CacheEntry :=
  if force ∨ document.config ≠ config then .empty
  else document.entries.restrict (·.isAmong paths)

/-- Open the cache of a build of some files.  A store that cannot be loaded counts
    as empty. -/
def CacheStore.openCache (store : CacheStore) (config : Digest) (force : Bool)
    (paths : List Path) : BuildCache :=
  match store.load with
  | .ok (some document) => ⟨config, document.usable config force paths⟩
  | .ok none | .error _ => { config }

end Unsugar
