import Unsugar.Digest

namespace Unsugar

/-! # Build configurations

Everything besides the source text that a lowered text depends on.
-/

/-- A library that a build refers to. -/
structure Dependency where
  identity : String
  timestamp : UInt64
  deriving DecidableEq, Repr, Inhabited

structure BuildConfig where
  /-- Options as pairs of name and value. -/
  options : List (String × String) := []
  references : List Dependency := []
  toolVersion : String := "0.1.0-alpha.1"
  deriving DecidableEq, Repr, Inhabited

namespace BuildConfig

def optionLe (left right : String × String) : Bool :=
  left.1 < right.1 || (left.1 == right.1 && left.2 ≤ right.2)

def referenceLe (left right : Dependency) : Bool :=
  left.identity < right.identity ||
    (left.identity == right.identity && left.timestamp ≤ right.timestamp)

def optionText (option : String × String) : String :=
  "option:" ++ option.1 ++ "=" ++ option.2

def referenceText (reference : Dependency) : String :=
  "reference:" ++ reference.identity ++ "@" ++ toString reference.timestamp.toNat

def toolText (version : String) : String := "tool:" ++ version

/-- What the digest of a configuration is made of.  Options and references are
    sorted, so that the order they were given in does not matter. -/
def parts (config : BuildConfig) : List String :=
  (config.options.mergeSort optionLe).map optionText ++
    (config.references.mergeSort referenceLe).map referenceText ++
    [toolText config.toolVersion]

def digest (config : BuildConfig) : Digest :=
  Digest.combine (config.parts.map Digest.ofText)

end BuildConfig

end Unsugar
