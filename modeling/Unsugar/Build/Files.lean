import Unsugar.Build.Cache
import Unsugar.Build.Config
import Unsugar.Lower.Pipeline

namespace Unsugar

/-! # Building files

Each file is lowered, or served from the cache when its text has not changed.
A file that fails does not stop the others, and a cache that cannot be kept does
not fail the build.
-/

/-- Why a text has no syntax. -/
structure ParseError where
  message : String
  span : Span
  deriving DecidableEq, Repr

/-- Reads source texts and analyzes their trees. -/
structure FrontEnd where
  parse : String → Except ParseError CompilationUnit
  analyze : Tree → Analyzed := Tree.analyze

/-- A front end that knows the syntax of certain texts; of two entries for a text
    the later counts. -/
def FrontEnd.ofSources (sources : List (String × CompilationUnit)) : FrontEnd where
  parse text :=
    match sources.reverse.lookup text with
    | some unit => .ok unit
    | none =>
      .error ⟨"no syntax registered for this source text",
        ⟨0, UInt32.ofNat (min text.utf8ByteSize (UInt32.size - 1))⟩⟩

structure SourceFile where
  path : Path
  text : String
  deriving DecidableEq, Repr

structure LoweredFile where
  path : Path
  text : String
  /-- Served from the cache without lowering. -/
  fromCache : Bool
  deriving DecidableEq, Repr

inductive TextError where
  | parse (error : ParseError)
  | lower (error : LowerError)
  deriving DecidableEq, Repr

namespace TextError

def message : TextError → String
  | parse error => error.message
  | lower error => error.message

def location : TextError → Span
  | parse error => error.span
  | lower error => error.span

end TextError

structure FileError where
  path : Path
  position : Span.Position
  cause : TextError
  deriving DecidableEq, Repr

namespace FileError

def message (error : FileError) : String :=
  error.path.text ++ ":" ++ toString error.position.line ++ ":" ++
    toString error.position.column ++ ": " ++ error.cause.message

def span? (error : FileError) : Option Span :=
  match error.cause with
  | .parse _ => none
  | .lower error => some error.span

end FileError

namespace FrontEnd

def lowerText (frontEnd : FrontEnd) (text : String) : Except TextError String :=
  match frontEnd.parse text with
  | .error error => .error (.parse error)
  | .ok unit =>
    match ({ unit : Tree }.lowerTracedWith frontEnd.analyze).1 with
    | .error error => .error (.lower error)
    | .ok lowered => .ok lowered.unit.text

def lowerSource (frontEnd : FrontEnd) (file : SourceFile) : Except FileError String :=
  match frontEnd.lowerText file.text with
  | .ok lowered => .ok lowered
  | .error cause => .error ⟨file.path, cause.location.position file.text, cause⟩

def lowerFile (frontEnd : FrontEnd) (cache : BuildCache) (file : SourceFile) :
    Except FileError LoweredFile × BuildCache :=
  let content := Digest.ofText file.text
  match cache.lookup file.path content with
  | some text => (.ok ⟨file.path, text, true⟩, cache)
  | none =>
    match frontEnd.lowerSource file with
    | .error error => (.error error, cache)
    | .ok text => (.ok ⟨file.path, text, false⟩, cache.insert file.path content text)

def lowerFiles (frontEnd : FrontEnd) (cache : BuildCache) :
    List SourceFile → List (Except FileError LoweredFile) × BuildCache
  | [] => ([], cache)
  | file :: rest =>
    let (result, cache) := frontEnd.lowerFile cache file
    let (results, cache) := frontEnd.lowerFiles cache rest
    (result :: results, cache)

end FrontEnd

structure BuildReport where
  results : List (Except FileError LoweredFile)

namespace BuildReport

def lowered (report : BuildReport) : List LoweredFile :=
  report.results.filterMap Except.toOption

def errors (report : BuildReport) : List FileError :=
  report.results.filterMap fun result =>
    match result with
    | .ok _ => none
    | .error error => some error

def hits (report : BuildReport) : Nat := report.lowered.countP (·.fromCache)

def misses (report : BuildReport) : Nat := report.lowered.countP (!·.fromCache)

def isSuccess (report : BuildReport) : Bool := report.results.all Except.isOk

end BuildReport

def FrontEnd.build (frontEnd : FrontEnd) (config : BuildConfig) (force : Bool)
    (files : List SourceFile) (store : CacheStore) : BuildReport × CacheStore :=
  let cache := store.openCache config.digest force (files.map (·.path))
  let (results, cache) := frontEnd.lowerFiles cache files
  (⟨results⟩, (cache.persist store).2)

end Unsugar
