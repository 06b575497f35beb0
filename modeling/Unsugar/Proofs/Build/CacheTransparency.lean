import Mathlib.Data.List.Perm.Subperm
import Unsugar.Build.Files
import Mathlib.Algebra.Ring.Nat

open List

namespace Unsugar

/-! # Documents read back

A document whose texts and entries can be counted in 64 bits is read back from
its bytes.  Readers work on the front of a longer input, so what a reader gives
on `bytes ++ rest` says all there is to know about it.
-/

variable {bytes content : List UInt8}

namespace Bytes

@[simp] theorem length_ofNumber (width value : Nat) : (ofNumber width value).length = width := by
  induction width generalizing value with
  | zero => rfl
  | succ width ih => simp [ofNumber, ih]

theorem toNumber_ofNumber {width value : Nat} (fits : value < 256 ^ width) :
    toNumber (ofNumber width value) = value := by
  induction width generalizing value with
  | zero =>
    have none : value = 0 := by simpa using fits
    simp [ofNumber, toNumber, none]
  | succ width ih =>
    have high : value / 256 < 256 ^ width := by
      rw [Nat.pow_succ] at fits
      omega
    have low : (UInt8.ofNat value).toNat = value % 256 := by simp
    rw [ofNumber, toNumber, ih high, low]
    omega

end Bytes

/-- A reader takes `bytes` off the front of any input and gives `value`. -/
def ByteReader.Reads {α : Type} (reader : ByteReader α) (bytes : List UInt8) (value : α) : Prop :=
  ∀ rest, reader.run (bytes ++ rest) = some (value, rest)

namespace ByteReader.Reads

variable {α β : Type}

theorem pure (value : α) : Reads (Pure.pure value) [] value := fun _ => rfl

theorem bind {reader : ByteReader α} {next : α → ByteReader β} {first second : List UInt8}
    {value : α} {result : β} (head : Reads reader first value)
    (tail : Reads (next value) second result) :
    Reads (reader >>= next) (first ++ second) result := by
  intro rest
  have opened : reader.run (first ++ (second ++ rest)) = some (value, second ++ rest) :=
    head (second ++ rest)
  rw [append_assoc, StateT.run_bind, opened]
  exact tail rest

theorem answer {reader : ByteReader α} {value : α} (result : α → β)
    (read : Reads reader bytes value) :
    Reads (do return result (← reader)) bytes (result value) := by
  have closed : Reads (reader >>= fun value => Pure.pure (result value)) (bytes ++ [])
      (result value) := bind read (pure (result value))
  rw [append_nil] at closed
  exact closed

theorem take {count : Nat} (counted : bytes.length = count) :
    Reads (ByteReader.take count) bytes bytes := by
  intro rest
  change (if count ≤ (bytes ++ rest).length then
    some ((bytes ++ rest).take count, (bytes ++ rest).drop count) else none) = some (bytes, rest)
  subst counted
  simp

theorem number {width value : Nat} (fits : value < 256 ^ width) :
    Reads (ByteReader.number width) (Bytes.ofNumber width value) value := by
  have raw := answer Bytes.toNumber (take (Bytes.length_ofNumber width value))
  rw [Bytes.toNumber_ofNumber fits] at raw
  exact raw

theorem text {content : String} (fits : (Utf8.encode content).length < 256 ^ 8) :
    Reads ByteReader.text (Bytes.ofText content) content := by
  have body : Reads (StateT.lift (Utf8.decode? (Utf8.encode content))) [] content := by
    intro rest
    rw [Utf8.decode?_encode]
    rfl
  have closed : Reads (do
      let bytes ← ByteReader.take (Utf8.encode content).length
      StateT.lift (Utf8.decode? bytes)) (Utf8.encode content ++ []) content :=
    bind (take rfl) body
  rw [append_nil] at closed
  exact bind (number fits) closed

theorem many {item : ByteReader α} {encode : α → List UInt8} {items : List α}
    (each : ∀ value ∈ items, Reads item (encode value) value) :
    Reads (ByteReader.many item items.length) (items.flatMap encode) items := by
  induction items with
  | nil => exact pure []
  | cons value rest ih =>
    have tail := ih fun other member => each other (mem_cons_of_mem _ member)
    exact bind (each value mem_cons_self) (answer (value :: ·) tail)

end ByteReader.Reads

def Storable (text : String) : Prop := (Utf8.encode text).length < 256 ^ 8

theorem CacheEntry.read_encode {path : Path} {entry : CacheEntry} (named : Storable path.text)
    (lowered : Storable entry.lowered) :
    ByteReader.Reads CacheEntry.read (entry.encode path) (path, entry) := by
  have bounded : entry.content.value.toNat < 256 ^ 8 := entry.content.value.toNat_lt
  have content : (⟨UInt64.ofNat entry.content.value.toNat⟩ : Digest) = entry.content := by simp
  have last := ByteReader.Reads.answer (fun text =>
    ((⟨path.text⟩, ⟨⟨UInt64.ofNat entry.content.value.toNat⟩, text⟩) : Path × CacheEntry))
    (.text lowered)
  rw [content] at last
  rw [CacheEntry.encode, append_assoc]
  refine .bind (.text named) (.bind (.number bounded) ?_)
  rw [content]
  exact last

namespace PathMap

variable {α : Type}

theorem insertEntry_after {path : Path} {value : α} {entries : List (Path × α)}
    (after : ∀ entry ∈ entries, entry.1.key < path.key) :
    insertEntry path value entries = entries ++ [(path, value)] := by
  induction entries with
  | nil => rfl
  | cons head rest ih =>
    obtain ⟨other, old⟩ := head
    have later : other.key < path.key := after (other, old) mem_cons_self
    have notBefore : ¬ path.key < other.key := fun before =>
      List.lt_irrefl _ (List.lt_trans before later)
    have different : path.key ≠ other.key := fun same =>
      List.lt_irrefl other.key (same ▸ later)
    have tail := ih fun entry member => after entry (List.mem_cons_of_mem _ member)
    simp [insertEntry, notBefore, different, tail]

theorem entries_foldl_insert {entries : List (Path × α)} (map : PathMap α)
    (sorted : PathSorted (map.entries ++ entries)) :
    (entries.foldl (fun map entry => map.insert entry.1 entry.2) map).entries =
      map.entries ++ entries := by
  induction entries generalizing map with
  | nil => simp
  | cons head rest ih =>
    obtain ⟨path, value⟩ := head
    have after : ∀ entry ∈ map.entries, entry.1.key < path.key := fun entry member =>
      (pairwise_append.mp sorted).2.2 entry member (path, value) mem_cons_self
    have inserted : (map.insert path value).entries = map.entries ++ [(path, value)] :=
      insertEntry_after after
    have still : PathSorted ((map.insert path value).entries ++ rest) := by
      rw [inserted, append_assoc]
      exact sorted
    rw [foldl_cons, ih _ still, inserted, append_assoc, singleton_append]

theorem ofList_entries (map : PathMap α) : ofList map.entries = map := by
  obtain ⟨entries, sorted⟩ := map
  have same : (ofList entries).entries = entries :=
    entries_foldl_insert empty sorted
  cases listed : ofList entries with
  | mk found _ =>
    rw [listed] at same
    subst same
    rfl

end PathMap

variable {document : CacheDocument} {paths : List Path}

namespace CacheDocument

/-- Everything in the document can be counted in 64 bits. -/
structure Fits (document : CacheDocument) : Prop where
  count : document.entries.size < 256 ^ 8
  paths : ∀ entry ∈ document.entries.entries, Storable entry.1.text
  texts : ∀ entry ∈ document.entries.entries, Storable entry.2.lowered

theorem read_encode (fits : document.Fits) :
    ByteReader.Reads CacheDocument.read document.encode document := by
  obtain ⟨format, config, entries⟩ := document
  have formatFits : format.toNat < 256 ^ 4 := format.toNat_lt
  have configFits : config.value.toNat < 256 ^ 8 := config.value.toNat_lt
  have listed : ByteReader.Reads (ByteReader.many CacheEntry.read entries.size)
      (entries.entries.flatMap fun stored => stored.2.encode stored.1) entries.entries :=
    .many fun entry member =>
      CacheEntry.read_encode (fits.paths entry member) (fits.texts entry member)
  have formatBack : UInt32.ofNat format.toNat = format := by simp
  have configBack : (⟨UInt64.ofNat config.value.toNat⟩ : Digest) = config := by simp
  have last := ByteReader.Reads.answer (fun entries =>
    (⟨UInt32.ofNat format.toNat, ⟨UInt64.ofNat config.value.toNat⟩,
      PathMap.ofList entries⟩ : CacheDocument)) listed
  rw [PathMap.ofList_entries, formatBack, configBack] at last
  rw [encode, append_assoc, append_assoc]
  refine .bind (.number formatFits) (.bind (.number configFits) (.bind (.number fits.count) ?_))
  rw [formatBack, configBack]
  exact last

theorem decode_encode (fits : document.Fits) (current : document.format = currentFormat) :
    decode document.encode = .ok document := by
  have run : read.run document.encode = some (document, []) := by
    simpa using read_encode fits []
  simp [decode, run, current]

end CacheDocument

/-! ## The cache does not show

Builds that share a store report for every file what lowering its text alone
gives.  What is kept between builds is `Faithful`: every entry is the lowering of
some text with the recorded digest, under a configuration with the digest of the
document.  Opening, consulting, filling and saving the cache keep it so.
-/

/-- Options and references may be given in another order. -/
def BuildConfig.SameParts (left right : BuildConfig) : Prop :=
  left.options.Perm right.options ∧ left.references.Perm right.references ∧
    left.toolVersion = right.toolVersion

structure BuildStep where
  config : BuildConfig
  force : Bool
  files : List SourceFile

def buildAll (frontEnd : BuildConfig → FrontEnd) :
    List BuildStep → CacheStore → List BuildReport × CacheStore
  | [], store => ([], store)
  | step :: rest, store =>
    let (report, store) :=
      (frontEnd step.config).build step.config step.force step.files store
    let (reports, store) := buildAll frontEnd rest store
    (report :: reports, store)

/-- What the builds use is told apart by digests and can be stored. -/
structure Distinguished (frontEnd : BuildConfig → FrontEnd) (steps : List BuildStep) : Prop where
  texts : ∀ left ∈ steps, ∀ right ∈ steps, ∀ first ∈ left.files, ∀ second ∈ right.files,
    Digest.ofText first.text = Digest.ofText second.text → first.text = second.text
  configs : ∀ left ∈ steps, ∀ right ∈ steps,
    left.config.digest = right.config.digest → left.config.SameParts right.config
  frontEnds : ∀ left ∈ steps, ∀ right ∈ steps,
    left.config.SameParts right.config → frontEnd left.config = frontEnd right.config
  counts : ∀ step ∈ steps, step.files.length < 256 ^ 8
  paths : ∀ step ∈ steps, ∀ file ∈ step.files, Storable file.path.text
  results : ∀ step ∈ steps, ∀ file ∈ step.files, ∀ lowered,
    (frontEnd step.config).lowerText file.text = .ok lowered → Storable lowered

def CacheStore.isEmpty : CacheStore → Bool
  | memory document _ => document.isNone
  | file place => place.content == .missing

/-! ## Entries -/

section Entries

variable {α : Type} {path other : Path} {value entry : α} {entries : List (Path × α)}

theorem mem_insertEntry (member : (other, entry) ∈ insertEntry path value entries) :
    (other, entry) ∈ entries ∨
      entry = value ∧ (other = path ∨ ∃ old, (other, old) ∈ entries) := by
  induction entries with
  | nil =>
    have found : other = path ∧ entry = value := by simpa [insertEntry] using member
    exact .inr ⟨found.2, .inl found.1⟩
  | cons head rest ih =>
    obtain ⟨first, old⟩ := head
    simp only [insertEntry] at member
    split at member
    · rcases mem_cons.mp member with same | later
      · cases same
        exact .inr ⟨rfl, .inl rfl⟩
      · exact .inl later
    · split at member
      · rcases mem_cons.mp member with same | later
        · cases same
          exact .inr ⟨rfl, .inr ⟨old, mem_cons_self⟩⟩
        · exact .inl (mem_cons_of_mem _ later)
      · rcases mem_cons.mp member with same | later
        · cases same
          exact .inl mem_cons_self
        · rcases ih later with found | ⟨same, named | ⟨older, found⟩⟩
          · exact .inl (mem_cons_of_mem _ found)
          · exact .inr ⟨same, .inl named⟩
          · exact .inr ⟨same, .inr ⟨older, mem_cons_of_mem _ found⟩⟩

theorem PathMap.mem_of_find? {map : PathMap α} (found : map.find? path = some value) :
    ∃ written, (written, value) ∈ map.entries := by
  obtain ⟨⟨written, _⟩, located, rfl⟩ := Option.map_eq_some_iff.mp found
  exact ⟨written, mem_of_find?_eq_some located⟩

theorem PathMap.size_le {map : PathMap α} (among : ∀ entry ∈ map.entries, entry.1.isAmong paths) :
    map.size ≤ paths.length := by
  have distinct : (map.entries.map fun entry => entry.1.key).Nodup := by
    refine List.pairwise_map.mpr (map.sorted.imp fun before same => ?_)
    exact List.lt_irrefl _ (same ▸ before)
  have included : (map.entries.map fun entry => entry.1.key) ⊆ paths.map Path.key := by
    intro key member
    obtain ⟨entry, present, rfl⟩ := mem_map.mp member
    obtain ⟨path, listed, same⟩ := any_eq_true.mp (among entry present)
    exact mem_map.mpr ⟨path, listed, by simpa using same⟩
  simpa [PathMap.size] using (List.Nodup.subperm distinct included).length_le

end Entries

/-! ## What is kept between builds -/

section Run

variable {frontEnd : BuildConfig → FrontEnd} {steps : List BuildStep}

/-- Every entry is the lowering of a text with its digest, under a configuration
    with the digest of the document, and is written for a path of some build. -/
def Faithful (frontEnd : BuildConfig → FrontEnd) (steps : List BuildStep) (config : Digest)
    (entries : PathMap CacheEntry) : Prop :=
  ∀ path entry, (path, entry) ∈ entries.entries →
    (∃ step ∈ steps, ∃ file ∈ step.files, step.config.digest = config ∧
      Digest.ofText file.text = entry.content ∧
      (frontEnd step.config).lowerText file.text = .ok entry.lowered) ∧
    (∃ step ∈ steps, ∃ file ∈ step.files, path = file.path)

def CacheStore.Holds (frontEnd : BuildConfig → FrontEnd) (steps : List BuildStep) :
    CacheStore → Prop
  | memory document _ => ∀ kept, document = some kept → Faithful frontEnd steps kept.config kept.entries
  | file place => ∀ content kept, place.content = .bytes content →
      CacheDocument.decode content = .ok kept → Faithful frontEnd steps kept.config kept.entries

theorem Faithful.empty (config : Digest) : Faithful frontEnd steps config .empty := by
  intro path entry member
  exact absurd member not_mem_nil

theorem Faithful.restrict {config : Digest} {entries : PathMap CacheEntry} (wanted : Path → Bool)
    (faithful : Faithful frontEnd steps config entries) :
    Faithful frontEnd steps config (entries.restrict wanted) := by
  intro path entry member
  exact faithful path entry (mem_filter.mp member).1

variable {store : CacheStore} {lowered : String}

theorem CacheStore.Holds.of_isEmpty (empty : store.isEmpty = true) :
    store.Holds frontEnd steps := by
  cases store with
  | memory document saves =>
    intro kept found
    simp [CacheStore.isEmpty, found] at empty
  | file place =>
    intro content kept found
    simp [CacheStore.isEmpty, found] at empty

theorem FilePlace.content_of_read {place : FilePlace}
    (found : place.read = .bytes content) : place.content = .bytes content := by
  unfold FilePlace.read at found
  split at found
  · cases found
  · split at found <;> try cases found
    split at found
    · cases found
    · split at found <;> cases found
      assumption

theorem FilePlace.content_replace (place : FilePlace) :
    (place.replace content).2.content = .bytes content ∨
      (place.replace content).2.content = place.content := by
  have unchanged : place.makeDirectories.2.content = place.content := by
    unfold FilePlace.makeDirectories
    split <;> rfl
  cases made : place.makeDirectories with
  | mk done directories =>
    rw [made] at unchanged
    rw [FilePlace.replace, FilePlace.fillThrough, made]
    dsimp only
    split
    · exact .inl rfl
    · exact .inr unchanged

theorem CacheStore.Holds.of_load (holds : store.Holds frontEnd steps)
    (loaded : store.load = .ok (some document)) :
    Faithful frontEnd steps document.config document.entries := by
  cases store with
  | memory kept saves => exact holds document (Except.ok.inj loaded)
  | file place =>
    simp only [CacheStore.load] at loaded
    cases read : place.read with
    | refused => simp [read] at loaded
    | missing => simp [read] at loaded
    | bytes content =>
      cases decoded : CacheDocument.decode content with
      | error cause => simp [read, decoded] at loaded
      | ok found =>
        simp only [read, decoded, Except.ok.injEq, Option.some.injEq] at loaded
        subst loaded
        exact holds content found (FilePlace.content_of_read read) decoded

theorem CacheStore.Holds.openCache (holds : store.Holds frontEnd steps) (config : Digest)
    (force : Bool) (paths : List Path) :
    (store.openCache config force paths).config = config ∧
      Faithful frontEnd steps config (store.openCache config force paths).entries ∧
      ∀ entry ∈ (store.openCache config force paths).entries.entries, entry.1.isAmong paths := by
  have opensEmpty : Faithful frontEnd steps config .empty ∧
      ∀ entry ∈ (PathMap.empty : PathMap CacheEntry).entries, entry.1.isAmong paths :=
    ⟨.empty config, fun entry member => absurd member not_mem_nil⟩
  unfold CacheStore.openCache
  split
  · rename_i document loaded
    refine ⟨rfl, ?_⟩
    simp only [CacheDocument.usable]
    split
    · exact opensEmpty
    · rename_i usable
      have same : document.config = config := by
        by_contra different
        exact usable (.inr different)
      subst same
      exact ⟨(holds.of_load loaded).restrict _, fun entry member => (mem_filter.mp member).2⟩
  · exact ⟨rfl, opensEmpty⟩
  · exact ⟨rfl, opensEmpty⟩

/-- Saving a faithful document leaves a store that holds one, whether or not the
    document could be written. -/
theorem CacheStore.Holds.save (holds : store.Holds frontEnd steps)
    (faithful : Faithful frontEnd steps document.config document.entries)
    (current : document.format = CacheDocument.currentFormat) (fits : document.Fits) :
    (store.save document).2.Holds frontEnd steps := by
  cases store with
  | memory kept saves =>
    intro found same
    cases same
    exact faithful
  | file place =>
    intro content found written decoded
    change (place.replace document.encode).2.content = .bytes content at written
    rcases place.content_replace with filled | unchanged
    · rw [filled, FileContent.bytes.injEq] at written
      rw [← written, CacheDocument.decode_encode fits current] at decoded
      cases decoded
      exact faithful
    · exact holds content found (unchanged ▸ written) decoded

/-! ## One build -/

structure BuildCache.Serves (frontEnd : BuildConfig → FrontEnd) (steps : List BuildStep)
    (step : BuildStep) (cache : BuildCache) : Prop where
  config : cache.config = step.config.digest
  faithful : Faithful frontEnd steps step.config.digest cache.entries
  among : ∀ entry ∈ cache.entries.entries, entry.1.isAmong (step.files.map (·.path))

def Reports (frontEnd : FrontEnd) (file : SourceFile) (result : Except FileError LoweredFile) :
    Prop :=
  result.map (fun lowered => (lowered.path, lowered.text)) =
    (frontEnd.lowerSource file).map fun text => (file.path, text)

variable {step : BuildStep} {cache : BuildCache} {file : SourceFile}

theorem BuildCache.Serves.lookup (distinct : Distinguished frontEnd steps) (member : step ∈ steps)
    (listed : file ∈ step.files) (serves : cache.Serves frontEnd steps step)
    (found : cache.lookup file.path (Digest.ofText file.text) = some lowered) :
    (frontEnd step.config).lowerText file.text = .ok lowered := by
  unfold BuildCache.lookup at found
  split at found
  · rename_i entry located
    split at found
    · rename_i sameContent
      cases found
      obtain ⟨written, present⟩ := PathMap.mem_of_find? located
      obtain ⟨⟨other, otherMember, source, sourceListed, sameConfig, content, ok⟩, _⟩ :=
        serves.faithful written entry present
      have sameText : source.text = file.text :=
        distinct.texts other otherMember step member source sourceListed file listed
          (content.trans sameContent)
      have sameEnd : frontEnd other.config = frontEnd step.config :=
        distinct.frontEnds other otherMember step member
          (distinct.configs other otherMember step member sameConfig)
      rw [← sameText, ← sameEnd]
      exact ok
    · cases found
  · cases found

theorem Path.isAmong_of_mem {path : Path} (listed : path ∈ paths) : path.isAmong paths := by
  exact any_eq_true.mpr ⟨path, listed, by simp⟩

theorem Path.isAmong_congr {left right : Path} (same : left.key = right.key) :
    left.isAmong paths = right.isAmong paths := by
  simp only [Path.isAmong, same]

theorem BuildCache.Serves.insert (member : step ∈ steps) (listed : file ∈ step.files)
    (serves : cache.Serves frontEnd steps step)
    (ok : (frontEnd step.config).lowerText file.text = .ok lowered) :
    (cache.insert file.path (Digest.ofText file.text) lowered).Serves frontEnd steps step where
  config := serves.config
  faithful := by
    intro path entry present
    rcases mem_insertEntry present with old | ⟨rfl, named | ⟨older, old⟩⟩
    · exact serves.faithful path entry old
    · exact ⟨⟨step, member, file, listed, rfl, rfl, ok⟩, ⟨step, member, file, listed, named⟩⟩
    · exact ⟨⟨step, member, file, listed, rfl, rfl, ok⟩, (serves.faithful path older old).2⟩
  among := by
    intro entry present
    rcases key_of_mem_insertEntry present with same | old
    · rw [Path.isAmong_congr same]
      exact Path.isAmong_of_mem (mem_map.mpr ⟨file, listed, rfl⟩)
    · exact serves.among entry old

theorem FrontEnd.lowerSource_ok {frontEnd : FrontEnd}
    (ok : frontEnd.lowerText file.text = .ok lowered) :
    frontEnd.lowerSource file = .ok lowered := by
  simp [FrontEnd.lowerSource, ok]

theorem FrontEnd.lowerText_ok {frontEnd : FrontEnd} (ok : frontEnd.lowerSource file = .ok lowered) :
    frontEnd.lowerText file.text = .ok lowered := by
  unfold FrontEnd.lowerSource at ok
  split at ok <;> simp_all

variable (distinct : Distinguished frontEnd steps)

include distinct

theorem BuildCache.Serves.lowerFile (member : step ∈ steps) (listed : file ∈ step.files)
    (serves : cache.Serves frontEnd steps step) :
    Reports (frontEnd step.config) file ((frontEnd step.config).lowerFile cache file).1 ∧
      ((frontEnd step.config).lowerFile cache file).2.Serves frontEnd steps step := by
  unfold FrontEnd.lowerFile
  dsimp only
  split
  · rename_i lowered found
    have ok := serves.lookup distinct member listed found
    exact ⟨by simp [Reports, FrontEnd.lowerSource_ok ok, Except.map], serves⟩
  · split
    · rename_i failed
      exact ⟨by simp [Reports, failed, Except.map], serves⟩
    · rename_i lowered succeeded
      exact ⟨by simp [Reports, succeeded, Except.map],
        serves.insert member listed (FrontEnd.lowerText_ok succeeded)⟩

theorem BuildCache.Serves.lowerFiles (member : step ∈ steps) (files : List SourceFile)
    (listed : ∀ file ∈ files, file ∈ step.files) (serves : cache.Serves frontEnd steps step) :
    Forall₂ (Reports (frontEnd step.config)) files
        ((frontEnd step.config).lowerFiles cache files).1 ∧
      ((frontEnd step.config).lowerFiles cache files).2.Serves frontEnd steps step := by
  induction files generalizing cache with
  | nil => exact ⟨.nil, serves⟩
  | cons file rest ih =>
    obtain ⟨reported, served⟩ :=
      serves.lowerFile distinct member (listed file mem_cons_self)
    obtain ⟨others, left⟩ :=
      ih (fun other later => listed other (mem_cons_of_mem _ later)) served
    exact ⟨.cons reported others, left⟩

theorem BuildCache.Serves.fits (member : step ∈ steps) (serves : cache.Serves frontEnd steps step) :
    cache.document.Fits where
  count := by
    have bounded := PathMap.size_le serves.among
    have counted := distinct.counts step member
    rw [length_map] at bounded
    exact Nat.lt_of_le_of_lt bounded counted
  paths := by
    rintro ⟨path, entry⟩ present
    obtain ⟨_, other, otherMember, source, sourceListed, rfl⟩ := serves.faithful path entry present
    exact distinct.paths other otherMember source sourceListed
  texts := by
    rintro ⟨path, entry⟩ present
    obtain ⟨⟨other, otherMember, source, sourceListed, _, _, ok⟩, _⟩ :=
      serves.faithful path entry present
    exact distinct.results other otherMember source sourceListed entry.lowered ok

theorem CacheStore.Holds.build (member : step ∈ steps) (holds : store.Holds frontEnd steps) :
    Forall₂ (Reports (frontEnd step.config)) step.files
        ((frontEnd step.config).build step.config step.force step.files store).1.results ∧
      ((frontEnd step.config).build step.config step.force step.files store).2.Holds
        frontEnd steps := by
  obtain ⟨config, faithful, among⟩ :=
    holds.openCache step.config.digest step.force (step.files.map (·.path))
  have opened : BuildCache.Serves frontEnd steps step
      (store.openCache step.config.digest step.force (step.files.map (·.path))) :=
    ⟨config, faithful, among⟩
  obtain ⟨reported, served⟩ :=
    opened.lowerFiles distinct member step.files fun _ listed => listed
  refine ⟨reported, holds.save ?_ rfl (served.fits distinct member)⟩
  change Faithful frontEnd steps (FrontEnd.lowerFiles _ _ _).2.config _
  rw [served.config]
  exact served.faithful

/-! ## All builds -/

theorem CacheStore.Holds.buildAll (rest : List BuildStep) (included : ∀ step ∈ rest, step ∈ steps)
    (holds : store.Holds frontEnd steps) :
    Forall₂ (fun step (report : BuildReport) =>
        Forall₂ (Reports (frontEnd step.config)) step.files report.results)
      rest (Unsugar.buildAll frontEnd rest store).1 := by
  -- The store changes from build to build; that it holds a faithful document does not.
  induction rest generalizing store with
  | nil => exact .nil
  | cons step rest ih =>
    obtain ⟨reported, kept⟩ := holds.build distinct (included step mem_cons_self)
    exact .cons reported (ih (fun other later => included other (mem_cons_of_mem _ later)) kept)

end Run

/-- Builds that share a store, empty at first, report for every file what lowering
    its text under the configuration of its own build gives. -/
theorem buildAll_reports_lowering (frontEnd : BuildConfig → FrontEnd) (steps : List BuildStep)
    (store : CacheStore) (empty : store.isEmpty = true) (distinct : Distinguished frontEnd steps) :
    List.Forall₂ (fun step (report : BuildReport) =>
        List.Forall₂ (Reports (frontEnd step.config)) step.files report.results)
      steps (buildAll frontEnd steps store).1 := by
  have holds : store.Holds frontEnd steps := .of_isEmpty empty
  exact holds.buildAll distinct steps fun _ member => member

def oneClassFrontEnd : FrontEnd :=
  .ofSources [("a", ⟨[], none, [⟨"A", .classType, [], [], none, [], none, [], ⟨0, 1⟩⟩]⟩)]

/-- A path that comes back with another text and the first one, and then under
    another configuration. -/
def returningPath : List BuildStep :=
  [⟨{}, false, [⟨⟨"x"⟩, "a"⟩]⟩, ⟨{}, false, [⟨⟨"x"⟩, "b"⟩, ⟨⟨"x"⟩, "a"⟩]⟩,
    ⟨{ toolVersion := "2" }, false, [⟨⟨"x"⟩, "a"⟩]⟩]

theorem oneClassFrontEnd_storable {text lowered : String} (isText : text = "a" ∨ text = "b")
    (ok : oneClassFrontEnd.lowerText text = .ok lowered) : Storable lowered := by
  obtain rfl | rfl := isText
  · have isLowered : oneClassFrontEnd.lowerText "a" = .ok "class A\n\x7b\n\x7d\n" := rfl
    rw [isLowered] at ok
    cases ok
    unfold Storable
    decide +kernel
  · have fails : (oneClassFrontEnd.lowerText "b").isOk = false := by decide +kernel
    rw [ok] at fails
    cases fails

theorem distinguished_returningPath : Distinguished (fun _ => oneClassFrontEnd) returningPath where
  texts := by decide +kernel
  configs := by
    intro left leftMember right rightMember same
    have equal : ∀ left ∈ returningPath, ∀ right ∈ returningPath,
        left.config.digest = right.config.digest → left.config = right.config := by
      decide +kernel
    rw [equal left leftMember right rightMember same]
    exact ⟨.refl _, .refl _, rfl⟩
  frontEnds := fun _ _ _ _ _ => rfl
  counts := by decide +kernel
  paths := by
    simp only [Storable]
    decide +kernel
  results := by
    intro step member file listed lowered ok
    have known : ∀ step ∈ returningPath, ∀ file ∈ step.files,
        file.text = "a" ∨ file.text = "b" := by decide +kernel
    exact oneClassFrontEnd_storable (known step member file listed) ok

/-- The text that came back is reported as lowered, and the other as not read. -/
theorem buildAll_reports_returningPath :
    Distinguished (fun _ => oneClassFrontEnd) returningPath ∧
    List.Forall₂ (fun step (report : BuildReport) =>
        List.Forall₂ (Reports oneClassFrontEnd) step.files report.results)
      returningPath
      (buildAll (fun _ => oneClassFrontEnd) returningPath (.memory none 0)).1 :=
  ⟨distinguished_returningPath,
    buildAll_reports_lowering (fun _ => oneClassFrontEnd) returningPath (.memory none 0) rfl
      distinguished_returningPath⟩

end Unsugar
