import Mathlib.Data.List.Nodup
import Mathlib.Data.List.TakeWhile
import Unsugar.Proofs.Build.Interleaving

open List

namespace Unsugar

/-! # What a build keeps for the next

A build whose cache could be saved leaves a document of its own configuration and
of its own files: what was reported for every file that succeeded, and for a file
that failed at most what was there before, made from another content.  Building
the same files again finds every one of them settled, so it serves what succeeded,
fails where it failed and saves the same document.
-/

/-! ## Settled files -/

variable {entry : CacheEntry} {digest : Digest} {paths : List Path}

section Entries

variable {α : Type} {path : Path} {value : α}

theorem find?_insertEntry_self {entries : List (Path × α)} :
    ((insertEntry path value entries).find? (·.1.key == path.key)).map Prod.snd = some value := by
  induction entries with
  | nil => simp [insertEntry]
  | cons head rest ih =>
    obtain ⟨first, old⟩ := head
    rcases lt_trichotomy path.key first.key with before | same | after
    · simp [insertEntry_before before]
    · simp [insertEntry_same same, same]
    · simpa [insertEntry_after after, find?_cons, after.ne] using ih

theorem PathMap.find?_insert_self (map : PathMap α) :
    (map.insert path value).find? path = some value :=
  find?_insertEntry_self

theorem PathMap.restrict_eq_self {map : PathMap α} {wanted : Path → Bool}
    (all : ∀ entry ∈ map.entries, wanted entry.1 = true) : map.restrict wanted = map := by
  obtain ⟨entries, sorted⟩ := map
  have same : entries.filter (fun entry => wanted entry.1) = entries :=
    filter_eq_self.mpr all
  simp only [PathMap.restrict, same]

end Entries

/-- What was reported once is reported by a build that finds it in the cache. -/
def servedAgain (result : Except FileError LoweredFile) : Except FileError LoweredFile :=
  result.map fun lowered => { lowered with fromCache := true }

section Settled

variable {frontEnd : FrontEnd} {cache after : BuildCache} {file : SourceFile} {path : Path}

/-- A file is served, fails or is noted; each way the cache says what it was before
    about its path, or what was reported. -/
theorem FrontEnd.lowerFile_cases (frontEnd : FrontEnd) (cache : BuildCache) (file : SourceFile) :
    (∃ text, cache.entries.find? file.path = some ⟨Digest.ofText file.text, text⟩ ∧
      frontEnd.lowerFile cache file = (.ok ⟨file.path, text, true⟩, cache)) ∨
    (∃ error, cache.lookup file.path (Digest.ofText file.text) = none ∧
      frontEnd.lowerSource file = .error error ∧
      frontEnd.lowerFile cache file = (.error error, cache)) ∨
    (∃ text, frontEnd.lowerSource file = .ok text ∧
      frontEnd.lowerFile cache file = (.ok ⟨file.path, text, false⟩,
        cache.insert file.path (Digest.ofText file.text) text)) := by
  cases found : cache.lookup file.path (Digest.ofText file.text) with
  | some text =>
    refine .inl ⟨text, ?_, by simp [FrontEnd.lowerFile, found]⟩
    unfold BuildCache.lookup at found
    split at found
    · rename_i entry located
      split at found
      · rename_i sameContent
        cases found
        rw [located, ← sameContent]
      · cases found
    · cases found
  | none =>
    cases lowered : frontEnd.lowerSource file with
    | error error =>
      exact .inr (.inl ⟨error, rfl, rfl, by simp [FrontEnd.lowerFile, found, lowered]⟩)
    | ok text => exact .inr (.inr ⟨text, rfl, by simp [FrontEnd.lowerFile, found, lowered]⟩)

theorem FrontEnd.lowerFiles_cons (rest : List SourceFile) :
    frontEnd.lowerFiles cache (file :: rest) = ((frontEnd.lowerFile cache file).1 ::
          (frontEnd.lowerFiles (frontEnd.lowerFile cache file).2 rest).1,
        (frontEnd.lowerFiles (frontEnd.lowerFile cache file).2 rest).2) := rfl

theorem FrontEnd.find?_lowerFile_of_ne (different : file.path.key ≠ path.key) :
    (frontEnd.lowerFile cache file).2.entries.find? path = cache.entries.find? path := by
  rcases frontEnd.lowerFile_cases cache file with ⟨_, _, same⟩ | ⟨_, _, _, same⟩ | ⟨_, _, same⟩
  · rw [same]
  · rw [same]
  · rw [same]
    exact PathMap.find?_insert _ different

theorem FrontEnd.find?_lowerFiles_of_not_mem {files : List SourceFile}
    (absent : path.key ∉ files.map (·.path.key)) :
    (frontEnd.lowerFiles cache files).2.entries.find? path = cache.entries.find? path := by
  induction files generalizing cache with
  | nil => rfl
  | cons file rest ih =>
    rw [map_cons, mem_cons, not_or] at absent
    rw [lowerFiles_cons, ih absent.2]
    exact find?_lowerFile_of_ne (Ne.symm absent.1)

/-- A cache that says the same about the path of a file as one in which the file was
    just lowered has the file settled. -/
theorem FrontEnd.lowerFile_again (same : after.entries.find? file.path =
      (frontEnd.lowerFile cache file).2.entries.find? file.path) :
    frontEnd.lowerFile after file = (servedAgain (frontEnd.lowerFile cache file).1, after) := by
  have sameLookup : after.lookup file.path (Digest.ofText file.text) =
      (frontEnd.lowerFile cache file).2.lookup file.path (Digest.ofText file.text) := by
    unfold BuildCache.lookup
    rw [same]
  rcases frontEnd.lowerFile_cases cache file with
    ⟨text, found, result⟩ | ⟨error, missed, failed, result⟩ | ⟨text, _, result⟩
  · rw [result] at sameLookup ⊢
    have served : after.lookup file.path (Digest.ofText file.text) = some text := by
      rw [sameLookup]
      simp [BuildCache.lookup, found]
    simp [FrontEnd.lowerFile, served, servedAgain, Except.map]
  · rw [result] at sameLookup ⊢
    simp [FrontEnd.lowerFile, sameLookup, missed, failed, servedAgain, Except.map]
  · rw [result] at sameLookup ⊢
    have served : after.lookup file.path (Digest.ofText file.text) = some text := by
      rw [sameLookup]
      simp [BuildCache.lookup, BuildCache.insert, PathMap.find?_insert_self]
    simp [FrontEnd.lowerFile, served, servedAgain, Except.map]

theorem FrontEnd.lowerFiles_again {files : List SourceFile}
    (distinct : (files.map (·.path.key)).Nodup)
    (same : ∀ file ∈ files, after.entries.find? file.path =
      (frontEnd.lowerFiles cache files).2.entries.find? file.path) :
    frontEnd.lowerFiles after files =
      ((frontEnd.lowerFiles cache files).1.map servedAgain, after) := by
  induction files generalizing cache with
  | nil => rfl
  | cons file rest ih =>
    obtain ⟨absent, others⟩ := nodup_cons.mp distinct
    rw [lowerFiles_cons] at same
    -- the files behind the first say nothing about its path
    have first : frontEnd.lowerFile after file =
        (servedAgain (frontEnd.lowerFile cache file).1, after) :=
      lowerFile_again ((same file mem_cons_self).trans (find?_lowerFiles_of_not_mem absent))
    have later := ih others fun other isLater =>
      same other (mem_cons_of_mem _ isLater)
    rw [lowerFiles_cons, first, later, lowerFiles_cons, map_cons]

end Settled

/-! ## What is in the cache after a build -/

def FrontEnd.builtCache (frontEnd : FrontEnd) (config : BuildConfig) (force : Bool)
    (files : List SourceFile) (store : CacheStore) : BuildCache :=
  (frontEnd.lowerFiles (store.openCache config.digest force (files.map (·.path))) files).2

/-- What is kept of a file, by what was reported for it: the report itself, or at
    most something old that was made from another content. -/
def PathMap.Keeps (entries : PathMap CacheEntry) (isOld : CacheEntry → Prop) (file : SourceFile) :
    Except FileError LoweredFile → Prop
  | .ok lowered => lowered.path = file.path ∧
      entries.find? file.path = some ⟨Digest.ofText file.text, lowered.text⟩
  | .error _ => ∀ entry, entries.find? file.path = some entry →
      entry.content ≠ Digest.ofText file.text ∧ isOld entry

theorem PathMap.Keeps.mono {entries : PathMap CacheEntry} {isOld wasThere : CacheEntry → Prop}
    {file : SourceFile} {result : Except FileError LoweredFile}
    (keeps : entries.Keeps isOld file result) (implies : ∀ entry, isOld entry → wasThere entry) :
    entries.Keeps wasThere file result := by
  cases result with
  | ok lowered => exact keeps
  | error error =>
    intro entry found
    obtain ⟨different, old⟩ := keeps entry found
    exact ⟨different, implies entry old⟩

def CacheStore.Held (store : CacheStore) (config : Digest) (path : Path) (entry : CacheEntry) :
    Prop :=
  ∃ document, store.load = .ok (some document) ∧ document.config = config ∧
    document.entries.find? path = some entry

/-- Everything that a build may keep can be counted in 64 bits. -/
structure FrontEnd.Countable (frontEnd : FrontEnd) (files : List SourceFile) (store : CacheStore) :
    Prop where
  count : files.length < 256 ^ 8
  paths : ∀ file ∈ files, Storable file.path.text
  results : ∀ file ∈ files, ∀ lowered, frontEnd.lowerText file.text = .ok lowered → Storable lowered
  stored : ∀ document, store.load = .ok (some document) → document.Fits

section Built

variable {frontEnd : FrontEnd} {cache : BuildCache} {config : BuildConfig} {force : Bool}
  {files : List SourceFile} {store : CacheStore}

theorem FrontEnd.config_lowerFiles (frontEnd : FrontEnd) {cache : BuildCache}
    {files : List SourceFile} : (frontEnd.lowerFiles cache files).2.config = cache.config := by
  induction files generalizing cache with
  | nil => rfl
  | cons file rest ih =>
    rw [lowerFiles_cons, ih]
    rcases frontEnd.lowerFile_cases cache file with ⟨_, _, same⟩ | ⟨_, _, _, same⟩ | ⟨_, _, same⟩
    · rw [same]
    · rw [same]
    · rw [same]
      rfl

variable {path : Path}

theorem FrontEnd.mem_lowerFiles
    (present : (path, entry) ∈ (frontEnd.lowerFiles cache files).2.entries.entries) :
    ((∃ old, (path, old) ∈ cache.entries.entries) ∨ ∃ file ∈ files, path = file.path) ∧
      ((∃ written, (written, entry) ∈ cache.entries.entries) ∨
        ∃ file ∈ files, frontEnd.lowerText file.text = .ok entry.lowered) := by
  induction files generalizing cache with
  | nil => exact ⟨.inl ⟨entry, present⟩, .inl ⟨path, present⟩⟩
  | cons file rest ih =>
    rw [lowerFiles_cons] at present
    obtain ⟨named, made⟩ := ih present
    rcases frontEnd.lowerFile_cases cache file with
      ⟨_, _, same⟩ | ⟨_, _, _, same⟩ | ⟨text, lowered, same⟩
    all_goals
      simp only [same, mem_cons, exists_eq_or_imp] at named made ⊢
    · tauto
    · tauto
    · refine ⟨?_, ?_⟩
      · rcases named with ⟨old, isOld⟩ | isLater
        · rcases mem_insertEntry isOld with before | ⟨_, isFirst | before⟩
          · exact .inl ⟨old, before⟩
          · exact .inr (.inl isFirst)
          · exact .inl before
        · exact .inr (.inr isLater)
      · rcases made with ⟨written, isOld⟩ | isLater
        · rcases mem_insertEntry isOld with before | ⟨rfl, _⟩
          · exact .inl ⟨written, before⟩
          · exact .inr (.inl (FrontEnd.lowerText_ok lowered))
        · exact .inr (.inr isLater)

/-- Nothing is old about a file that succeeded, and a file that failed has what it
    had before. -/
theorem FrontEnd.lowerFiles_keeps {before : PathMap CacheEntry}
    (distinct : (files.map (·.path.key)).Nodup)
    (untouched : ∀ file ∈ files, cache.entries.find? file.path = before.find? file.path) :
    Forall₂ (fun file => (frontEnd.lowerFiles cache files).2.entries.Keeps
        (fun entry => before.find? file.path = some entry) file)
      files (frontEnd.lowerFiles cache files).1 := by
  induction files generalizing cache with
  | nil => exact .nil
  | cons file rest ih =>
    obtain ⟨absent, others⟩ := nodup_cons.mp distinct
    rw [lowerFiles_cons]
    refine .cons ?_ (ih others fun other isLater => ?_)
    · have final : (frontEnd.lowerFiles (frontEnd.lowerFile cache file).2 rest).2.entries.find?
          file.path = (frontEnd.lowerFile cache file).2.entries.find? file.path :=
        find?_lowerFiles_of_not_mem absent
      rcases frontEnd.lowerFile_cases cache file with
        ⟨text, found, result⟩ | ⟨error, missed, _, result⟩ | ⟨text, _, result⟩
      · rw [result] at final ⊢
        exact ⟨rfl, final.trans found⟩
      · rw [result] at final ⊢
        intro entry isFound
        have old : cache.entries.find? file.path = some entry := final.symm.trans isFound
        refine ⟨fun sameContent => ?_, (untouched file mem_cons_self).symm.trans old⟩
        simp [BuildCache.lookup, old, sameContent] at missed
      · rw [result] at final ⊢
        exact ⟨rfl, final.trans (PathMap.find?_insert_self _)⟩
    · have different : file.path.key ≠ other.path.key := fun same =>
        absent (mem_map.mpr ⟨other, isLater, same.symm⟩)
      rw [find?_lowerFile_of_ne different]
      exact untouched other (mem_cons_of_mem _ isLater)

/-- What a build starts from: entries of its files, from a document of its
    configuration. -/
theorem CacheStore.mem_openCache {entry : Path × CacheEntry}
    (present : entry ∈ (store.openCache digest force paths).entries.entries) :
    force = false ∧ entry.1.isAmong paths ∧
      ∃ document, store.load = .ok (some document) ∧ document.config = digest ∧
        entry ∈ document.entries.entries := by
  unfold CacheStore.openCache at present
  split at present
  · rename_i document loaded
    simp only [CacheDocument.usable] at present
    split at present
    · exact absurd present not_mem_nil
    · rename_i isUsable
      obtain ⟨isMember, isWanted⟩ := mem_filter.mp present
      rw [not_or, Bool.not_eq_true, not_not] at isUsable
      exact ⟨isUsable.1, isWanted, document, loaded, isUsable.2, isMember⟩
  · exact absurd present not_mem_nil
  · exact absurd present not_mem_nil

theorem PathMap.find?_of_mem {α : Type} {map : PathMap α} {written : Path} {value : α}
    (present : (written, value) ∈ map.entries) (same : written.key = path.key) :
    map.find? path = some value := by
  have distinct : (map.entries.map fun entry => entry.1.key).Nodup :=
    pairwise_map.mpr (map.sorted.imp fun before => before.ne)
  cases located : map.entries.find? fun entry => entry.1.key == path.key with
  | none =>
    have differs := find?_eq_none.mp located (written, value) present
    simp [same] at differs
  | some entry =>
    have sameKey : entry.1.key = path.key := by simpa using find?_some located
    have sameEntry : entry = (written, value) :=
      inj_on_of_nodup_map distinct (mem_of_find?_eq_some located) present (sameKey.trans same.symm)
    simp [PathMap.find?, located, sameEntry]

theorem CacheStore.held_of_find?_openCache
    (found : (store.openCache digest force paths).entries.find? path = some entry) :
    force = false ∧ store.Held digest path entry := by
  obtain ⟨⟨written, _⟩, located, rfl⟩ := Option.map_eq_some_iff.mp found
  obtain ⟨notForced, _, document, loaded, same, present⟩ :=
    CacheStore.mem_openCache (mem_of_find?_eq_some located)
  have sameKey : written.key = path.key := by simpa using find?_some located
  exact ⟨notForced, document, loaded, same, PathMap.find?_of_mem present sameKey⟩

theorem FrontEnd.builtCache_among :
    ∀ entry ∈ (frontEnd.builtCache config force files store).entries.entries,
      entry.1.isAmong (files.map (·.path)) := by
  rintro ⟨path, entry⟩ present
  rcases (FrontEnd.mem_lowerFiles present).1 with ⟨old, isOld⟩ | ⟨file, listed, same⟩
  · exact (CacheStore.mem_openCache isOld).2.1
  · rw [same]
    exact Path.isAmong_of_mem (mem_map.mpr ⟨file, listed, rfl⟩)

theorem FrontEnd.Countable.fits (countable : frontEnd.Countable files store) :
    (frontEnd.builtCache config force files store).document.Fits where
  count := by
    have bounded : (frontEnd.builtCache config force files store).size ≤ _ :=
      PathMap.size_le FrontEnd.builtCache_among
    rw [length_map] at bounded
    exact Nat.lt_of_le_of_lt bounded countable.count
  paths := by
    rintro ⟨path, entry⟩ present
    rcases (FrontEnd.mem_lowerFiles present).1 with ⟨old, isOld⟩ | ⟨file, listed, rfl⟩
    · obtain ⟨_, _, document, loaded, _, isStored⟩ := CacheStore.mem_openCache isOld
      exact (countable.stored document loaded).paths (path, old) isStored
    · exact countable.paths file listed
  texts := by
    rintro ⟨path, entry⟩ present
    rcases (FrontEnd.mem_lowerFiles present).2 with ⟨written, isOld⟩ | ⟨file, listed, lowered⟩
    · obtain ⟨_, _, document, loaded, _, isStored⟩ := CacheStore.mem_openCache isOld
      exact (countable.stored document loaded).texts (written, entry) isStored
    · exact countable.results file listed _ lowered

theorem CacheStore.config_openCache (store : CacheStore) {force : Bool} :
    (store.openCache digest force paths).config = digest := by
  unfold CacheStore.openCache
  split <;> rfl

theorem FrontEnd.config_builtCache :
    (frontEnd.builtCache config force files store).config = config.digest :=
  (config_lowerFiles frontEnd).trans (CacheStore.config_openCache _)

end Built

/-! ## Saving and loading -/

section Saving

variable {store : CacheStore} {document : CacheDocument} {place : FilePlace} {content : List UInt8}

theorem Walk.along_arrives {names : List PathPart} (fit : ∀ name ∈ names, name.fits) {depth : Nat}
    (enough : names.length ≤ depth) : Walk.along depth names = .arrives := by
  induction names generalizing depth with
  | nil => cases depth <;> rfl
  | cons name rest ih =>
    cases depth with
    | zero => simp at enough
    | succ depth =>
      have fits : name.fits = true := fit name mem_cons_self
      simp only [Walk.along, fits, Bool.not_true, Bool.false_eq_true, if_false]
      exact ih (fun other isLater => fit other (mem_cons_of_mem _ isLater))
        (Nat.le_of_succ_le_succ enough)

structure Path.Replaceable (path : Path) : Prop where
  directory : path.directory.isSound = true
  fit : ∀ name ∈ path.names.dropLast, name.fits = true
  beside : (path.withExtension "plume-cache.tmp").isSound = true
  besideFits : (path.withExtension "plume-cache.tmp").lastFits = true
  sound : path.isSound = true
  lastFits : path.lastFits = true

theorem FilePlace.makeDirectories_of_fit (sound : place.path.directory.isSound = true)
    (fit : ∀ name ∈ place.directories, name.fits = true) :
    place.makeDirectories =
      (true, { place with depth := max place.depth place.directories.length }) := by
  have all : place.directories.takeWhile PathPart.fits = place.directories :=
    takeWhile_eq_self_iff.mpr fit
  simp [FilePlace.makeDirectories, sound, all]

theorem FilePlace.fit_of_makeDirectories (made : place.makeDirectories.1 = true) :
    place.path.directory.isSound = true ∧ ∀ name ∈ place.directories, name.fits = true := by
  unfold FilePlace.makeDirectories at made
  split at made
  · rename_i sound
    have sameLength : (place.directories.takeWhile PathPart.fits).length =
        place.directories.length := by simpa using made
    exact ⟨sound, takeWhile_eq_self_iff.mp (( takeWhile_prefix _).eq_of_length sameLength)⟩
  · cases made

theorem FilePlace.replace_of_replaceable (replaceable : place.path.Replaceable)
    (isFile : place.content ≠ .directory) :
    place.replace content = (true, { place with
        depth := max place.depth place.directories.length
        content := .bytes content }) := by
  rw [FilePlace.replace, FilePlace.fillThrough,
    FilePlace.makeDirectories_of_fit replaceable.directory replaceable.fit]
  simp [replaceable.beside, replaceable.besideFits, replaceable.sound, replaceable.lastFits, isFile]

theorem FilePlace.replaceable_of_replace (done : (place.replace content).1 = true) :
    place.path.Replaceable ∧ place.content ≠ .directory := by
  cases made : place.makeDirectories.1 with
  | false => simp [FilePlace.replace, FilePlace.fillThrough, made] at done
  | true =>
    obtain ⟨sound, fit⟩ := FilePlace.fit_of_makeDirectories made
    rw [FilePlace.replace, FilePlace.fillThrough,
      FilePlace.makeDirectories_of_fit sound fit] at done
    dsimp only at done
    split at done
    · rename_i allowed
      simp only [Bool.and_eq_true, bne_iff_ne, true_and] at allowed
      obtain ⟨⟨⟨⟨beside, besideFits⟩, isSound⟩, lastFits⟩, isFile⟩ := allowed
      exact ⟨⟨sound, fit, beside, besideFits, isSound, lastFits⟩, isFile⟩
    · cases done

theorem FilePlace.read_of_replaceable (replaceable : place.path.Replaceable)
    (reached : place.directories.length ≤ place.depth) (filled : place.content = .bytes content) :
    place.read = .bytes content := by
  have arrives : Walk.along place.depth place.directories = .arrives :=
    Walk.along_arrives replaceable.fit reached
  simp [FilePlace.read, replaceable.sound, arrives, replaceable.lastFits, filled]

theorem CacheStore.replaceable_of_save {place : FilePlace}
    (saved : ((CacheStore.file place).save document).1 = .ok ()) :
    place.path.Replaceable ∧ place.content ≠ .directory := by
  have done : (place.replace document.encode).1 = true := by
    by_contra failed
    simp [CacheStore.save, failed] at saved
  exact FilePlace.replaceable_of_replace done

theorem CacheStore.load_save (fits : document.Fits)
    (current : document.format = CacheDocument.currentFormat)
    (saved : (store.save document).1 = .ok ()) :
    (store.save document).2.load = .ok (some document) := by
  cases store with
  | memory kept saves => rfl
  | file place =>
    obtain ⟨replaceable, isFile⟩ := CacheStore.replaceable_of_save saved
    have read : (place.replace document.encode).2.read = .bytes document.encode := by
      rw [FilePlace.replace_of_replaceable replaceable isFile]
      exact FilePlace.read_of_replaceable replaceable (Nat.le_max_right _ _) rfl
    simp [CacheStore.save, CacheStore.load, read, CacheDocument.decode_encode fits current]

theorem CacheStore.save_again {next : CacheDocument} (saved : (store.save document).1 = .ok ()) :
    ((store.save document).2.save next).1 = .ok () := by
  cases store with
  | memory kept saves => rfl
  | file place =>
    obtain ⟨replaceable, isFile⟩ := CacheStore.replaceable_of_save saved
    simp only [CacheStore.save, FilePlace.replace_of_replaceable replaceable isFile]
    rw [FilePlace.replace_of_replaceable _ (by simp)]
    · rfl
    · exact replaceable

end Saving

/-! ## Builds -/

theorem FrontEnd.build_store (frontEnd : FrontEnd) {config : BuildConfig} {force : Bool}
    {files : List SourceFile} {store : CacheStore} :
    (frontEnd.build config force files store).2 =
      ((frontEnd.builtCache config force files store).persist store).2 := rfl

/-- A build of the files of a document, under its configuration, starts from the
    document. -/
theorem CacheStore.openCache_of_load {store : CacheStore} {document : CacheDocument}
    (loaded : store.load = .ok (some document))
    (among : ∀ entry ∈ document.entries.entries, entry.1.isAmong paths) :
    store.openCache document.config false paths = ⟨document.config, document.entries⟩ := by
  have all : document.entries.restrict (·.isAmong paths) = document.entries :=
    PathMap.restrict_eq_self among
  simp [CacheStore.openCache, loaded, CacheDocument.usable, all]

/-- A build whose cache could be saved keeps its own configuration and files: what it
    reported of a file, or, where the file failed, at most what the store held for
    another content.  The same build after it serves what succeeded, fails as before
    and leaves the same document. -/
theorem build_settles (frontEnd : FrontEnd) (config : BuildConfig) (force : Bool)
    (files : List SourceFile) (store : CacheStore) (distinct : (files.map (·.path.key)).Nodup)
    (countable : frontEnd.Countable files store)
    (saved : ((frontEnd.builtCache config force files store).persist store).1 = .ok ()) :
    ∃ document,
      (frontEnd.build config force files store).2.load = .ok (some document) ∧
      document.config = config.digest ∧
      (∀ entry ∈ document.entries.entries, entry.1.isAmong (files.map (·.path))) ∧
      List.Forall₂ (fun file => document.entries.Keeps
          (fun entry => force = false ∧ store.Held config.digest file.path entry) file)
        files (frontEnd.build config force files store).1.results ∧
      (frontEnd.build config false files (frontEnd.build config force files store).2).1.results =
        (frontEnd.build config force files store).1.results.map servedAgain ∧
      (frontEnd.build config false files (frontEnd.build config force files store).2).2.load =
        .ok (some document) := by
  let cache := frontEnd.builtCache config force files store
  have sameConfig : cache.config = config.digest := FrontEnd.config_builtCache
  have among : ∀ entry ∈ cache.entries.entries, entry.1.isAmong (files.map (·.path)) :=
    FrontEnd.builtCache_among
  have loaded : (cache.persist store).2.load = .ok (some cache.document) :=
    CacheStore.load_save countable.fits rfl saved
  -- the second build starts from what the first ended with, and every file is settled in that
  have opened :
      (cache.persist store).2.openCache config.digest false (files.map (·.path)) = cache := by
    rw [← sameConfig]
    exact CacheStore.openCache_of_load loaded among
  have again : frontEnd.lowerFiles cache files =
      ((frontEnd.build config force files store).1.results.map servedAgain, cache) :=
    FrontEnd.lowerFiles_again distinct fun _ _ => rfl
  have second : frontEnd.build config false files (cache.persist store).2 =
      (⟨(frontEnd.build config force files store).1.results.map servedAgain⟩,
        (cache.persist (cache.persist store).2).2) := by
    simp only [FrontEnd.build, opened, again]
  rw [FrontEnd.build_store, second]
  refine ⟨cache.document, loaded, sameConfig, among, ?_, rfl, ?_⟩
  · refine (FrontEnd.lowerFiles_keeps distinct fun _ _ => rfl).imp fun file result keeps => ?_
    exact keeps.mono fun _ found => CacheStore.held_of_find?_openCache found
  · exact CacheStore.load_save countable.fits rfl (CacheStore.save_again saved)

def olderDocument : CacheDocument :=
  ⟨CacheDocument.currentFormat, BuildConfig.digest {},
    .ofList [(⟨"w"⟩, ⟨Digest.ofText "a", "w"⟩), (⟨"z"⟩, ⟨Digest.ofText "a", "z"⟩)]⟩

def olderStore : CacheStore :=
  .file ⟨Path.cachePath ⟨"bin/App.dll"⟩, 2, .bytes olderDocument.encode⟩

def changedFiles : List SourceFile := [⟨⟨"x"⟩, "a"⟩, ⟨⟨"z"⟩, "b"⟩]

theorem olderDocument_fits : olderDocument.Fits where
  count := by decide +kernel
  paths := by
    simp only [Storable]
    decide +kernel
  texts := by
    simp only [Storable]
    decide +kernel

theorem changedFiles_countable : oneClassFrontEnd.Countable changedFiles olderStore where
  count := by decide +kernel
  paths := by
    simp only [Storable]
    decide +kernel
  results := by
    intro file listed lowered ok
    have known : ∀ file ∈ changedFiles, file.text = "a" ∨ file.text = "b" := by decide +kernel
    exact oneClassFrontEnd_storable (known file listed) ok
  stored := by
    intro document loaded
    have kept : olderStore.load = .ok (some olderDocument) := by
      have read : FilePlace.read ⟨Path.cachePath ⟨"bin/App.dll"⟩, 2, .bytes olderDocument.encode⟩ =
          .bytes olderDocument.encode := by decide +kernel
      simp only [olderStore, CacheStore.load, read,
        CacheDocument.decode_encode olderDocument_fits rfl]
    rw [kept] at loaded
    cases loaded
    exact olderDocument_fits

/-- One file is kept as it was lowered, the other as it was before; the path that is
    not built is dropped. -/
theorem build_settles_changedFiles :
    (changedFiles.map (·.path.key)).Nodup ∧ oneClassFrontEnd.Countable changedFiles olderStore ∧
    ((oneClassFrontEnd.builtCache {} false changedFiles olderStore).persist olderStore).1 = .ok () ∧
    ∃ document,
      (oneClassFrontEnd.build {} false changedFiles olderStore).2.load = .ok (some document) ∧
      List.Forall₂ (fun file => document.entries.Keeps
          (fun entry => olderStore.Held (BuildConfig.digest {}) file.path entry) file)
        changedFiles (oneClassFrontEnd.build {} false changedFiles olderStore).1.results ∧
      (oneClassFrontEnd.build {} false changedFiles
          (oneClassFrontEnd.build {} false changedFiles olderStore).2).2.load =
        .ok (some document) := by
  have distinct : (changedFiles.map (·.path.key)).Nodup := by decide +kernel
  have saved : ((oneClassFrontEnd.builtCache {} false changedFiles olderStore).persist
      olderStore).1 = .ok () := by decide +kernel
  refine ⟨distinct, changedFiles_countable, saved, ?_⟩
  obtain ⟨document, loaded, _, _, keeps, _, again⟩ :=
    build_settles oneClassFrontEnd {} false changedFiles olderStore distinct changedFiles_countable
      saved
  refine ⟨document, loaded, keeps.imp fun _ _ kept => kept.mono fun _ held => held.2, again⟩

end Unsugar
