import Unsugar.Proofs.Build.PersistedCache

open List

namespace Unsugar

/-! # Documents in a file

A document that is saved to a file is loaded from it again.  Bytes that end before
a document does are no document: a reader that gives an answer gives the same one
when more bytes follow, so what ends early cannot be told from what is still to
come.  A document of another format is refused as well, and a build that finds
either starts with nothing.
-/

/-- What a reader gives does not depend on what follows the bytes it takes. -/
def ByteReader.Local {α : Type} (reader : ByteReader α) : Prop :=
  ∀ ⦃bytes : List UInt8⦄ ⦃value : α⦄ ⦃rest : List UInt8⦄, reader.run bytes = some (value, rest) →
    ∀ more, reader.run (bytes ++ more) = some (value, rest ++ more)

namespace ByteReader.Local

variable {α β : Type}

theorem pure (value : α) : Local (Pure.pure value) := by
  intro bytes found rest read more
  cases read
  rfl

theorem lift (answer : Option α) : Local (StateT.lift answer) := by
  intro bytes value rest read more
  cases answer with
  | none => cases read
  | some found =>
    cases read
    rfl

theorem bind {reader : ByteReader α} {next : α → ByteReader β} (head : Local reader)
    (tail : ∀ value, Local (next value)) : Local (reader >>= next) := by
  intro bytes value rest read more
  rw [StateT.run_bind] at read ⊢
  obtain ⟨⟨first, middle⟩, isFirst, isSecond⟩ := Option.bind_eq_some_iff.mp read
  rw [head isFirst more]
  exact tail first isSecond more

theorem take (count : Nat) : Local (ByteReader.take count) := by
  intro bytes value rest read more
  change (if count ≤ bytes.length then some (bytes.take count, bytes.drop count) else none) =
    some (value, rest) at read
  change (if count ≤ (bytes ++ more).length then
    some ((bytes ++ more).take count, (bytes ++ more).drop count) else none) =
      some (value, rest ++ more)
  split at read
  · rename_i enough
    cases read
    rw [if_pos (by rw [length_append]; omega), take_append_of_le_length enough,
      drop_append_of_le_length enough]
  · cases read

theorem number (width : Nat) : Local (ByteReader.number width) :=
  bind (take width) fun _ => pure _

theorem text : Local ByteReader.text :=
  bind (number 8) fun length => bind (take length) fun _ => lift _

theorem many {item : ByteReader α} (each : Local item) (count : Nat) :
    Local (ByteReader.many item count) := by
  induction count with
  | zero => exact pure []
  | succ count ih => exact bind each fun _ => bind ih fun _ => pure _

end ByteReader.Local

theorem CacheEntry.read_local : ByteReader.Local CacheEntry.read :=
  .bind .text fun _ => .bind (.number 8) fun _ => .bind .text fun _ => .pure _

theorem CacheDocument.read_local : ByteReader.Local CacheDocument.read :=
  .bind (.number 4) fun _ => .bind (.number 8) fun _ => .bind (.number 8) fun count =>
    .bind (.many CacheEntry.read_local count) fun _ => .pure _

/-- A reader that takes all of some bytes takes nothing off bytes that end earlier. -/
theorem ByteReader.Local.run_eq_none {α : Type} {reader : ByteReader α} {bytes short : List UInt8}
    {value : α} (isLocal : Local reader) (reads : reader.Reads bytes value)
    (isPrefix : short <+: bytes) (shorter : short ≠ bytes) : reader.run short = none := by
  obtain ⟨missing, rfl⟩ := isPrefix
  cases read : reader.run short with
  | none => rfl
  | some answer =>
    obtain ⟨found, rest⟩ := answer
    have whole : reader.run (short ++ missing) = some (value, []) := by simpa using reads []
    have same := (isLocal read missing).symm.trans whole
    have nothingLeft : rest ++ missing = [] := congrArg Prod.snd (Option.some.inj same)
    simp_all

namespace CacheDocument

theorem decode_of_short {document : CacheDocument} {short : List UInt8} (fits : document.Fits)
    (isPrefix : short <+: document.encode) (shorter : short ≠ document.encode) :
    decode short = .error .malformed := by
  rw [decode, read_local.run_eq_none (read_encode fits) isPrefix shorter]

/-- The format stands in front, so it shows however much follows. -/
theorem format_of_read {document found : CacheDocument} {rest : List UInt8}
    (read : read.run document.encode = some (found, rest)) : found.format = document.format := by
  have front := @ByteReader.Reads.number 4 _ document.format.toNat_lt
  rw [CacheDocument.read, StateT.run_bind, encode, append_assoc, append_assoc, front] at read
  simp only [Option.bind_eq_bind, Option.bind_some, StateT.run_bind] at read
  obtain ⟨⟨config, afterConfig⟩, _, read⟩ := Option.bind_eq_some_iff.mp read
  obtain ⟨⟨count, afterCount⟩, _, read⟩ := Option.bind_eq_some_iff.mp read
  obtain ⟨⟨entries, afterEntries⟩, _, read⟩ := Option.bind_eq_some_iff.mp read
  cases read
  simp

theorem decode_of_format {document : CacheDocument} (other : document.format ≠ currentFormat) :
    ∃ cause, decode document.encode = .error cause := by
  rw [decode]
  split
  · exact ⟨_, rfl⟩
  · rename_i found rest read
    rw [if_neg (format_of_read read ▸ other)]
    exact ⟨_, rfl⟩

end CacheDocument

theorem CacheStore.openCache_of_error {store : CacheStore} {error : CacheError}
    (failed : store.load = .error error) (config : Digest) (force : Bool) (paths : List Path) :
    store.openCache config force paths = { config } := by
  rw [CacheStore.openCache, failed]

/-- A document that can be stored is saved wherever a file can be replaced, and loaded
    again as it was.  Bytes that end before it does and documents of another format are
    corrupt, and a cache opened over them is empty. -/
theorem CacheStore.file_keeps_document (place : FilePlace) (document : CacheDocument)
    (replaceable : place.path.Replaceable) (isFile : place.content ≠ .directory)
    (fits : document.Fits) (current : document.format = CacheDocument.currentFormat) :
    ((CacheStore.file place).save document).1 = .ok () ∧
    ((CacheStore.file place).save document).2.load = .ok (some document) ∧
    ∀ bytes : List UInt8,
      (bytes <+: document.encode ∧ bytes ≠ document.encode ∨
        ∃ other : CacheDocument, other.format ≠ CacheDocument.currentFormat ∧
          bytes = other.encode) →
      ∀ damaged : FilePlace, damaged.read = .bytes bytes →
        (∃ cause, (CacheStore.file damaged).load = .error (.corrupt cause)) ∧
        ∀ config force paths,
          (CacheStore.file damaged).openCache config force paths = { config } := by
  have saved : ((CacheStore.file place).save document).1 = .ok () := by
    rw [CacheStore.save, FilePlace.replace_of_replaceable replaceable isFile]
    rfl
  refine ⟨saved, CacheStore.load_save fits current saved, fun bytes isDamaged damaged read => ?_⟩
  have refused : ∃ cause, CacheDocument.decode bytes = .error cause := by
    rcases isDamaged with ⟨isPrefix, shorter⟩ | ⟨other, isOther, rfl⟩
    · exact ⟨_, CacheDocument.decode_of_short fits isPrefix shorter⟩
    · exact CacheDocument.decode_of_format isOther
  obtain ⟨cause, refused⟩ := refused
  have failed : (CacheStore.file damaged).load = .error (.corrupt cause) := by
    simp [CacheStore.load, read, refused]
  exact ⟨⟨cause, failed⟩, CacheStore.openCache_of_error failed⟩

/-- A place no directory of which exists. -/
def unusedPlace : FilePlace := { path := .cachePath ⟨"bin/App.dll"⟩ }

theorem unusedPlace_replaceable : unusedPlace.path.Replaceable where
  directory := by decide +kernel
  fit := by decide +kernel
  beside := by decide +kernel
  besideFits := by decide +kernel
  sound := by decide +kernel
  lastFits := by decide +kernel

/-- The place after all but the last byte of a document was written there. -/
def cutPlace : FilePlace :=
  { unusedPlace with depth := 2, content := .bytes olderDocument.encode.dropLast }

/-- Two entries are kept in a place that was not used before, and none is found where
    the last byte of the second is missing. -/
theorem file_keeps_olderDocument :
    unusedPlace.path.Replaceable ∧ unusedPlace.content ≠ .directory ∧ olderDocument.Fits ∧
    ((CacheStore.file unusedPlace).save olderDocument).2.load = .ok (some olderDocument) ∧
    olderDocument.encode.dropLast <+: olderDocument.encode ∧
    olderDocument.encode.dropLast ≠ olderDocument.encode ∧
    cutPlace.read = .bytes olderDocument.encode.dropLast ∧
    (∃ cause, (CacheStore.file cutPlace).load = .error (.corrupt cause)) ∧
    (CacheStore.file cutPlace).openCache olderDocument.config false [⟨"w"⟩, ⟨"z"⟩] =
      { config := olderDocument.config } := by
  have isFile : unusedPlace.content ≠ .directory := by decide
  have shorter : olderDocument.encode.dropLast ≠ olderDocument.encode := by decide +kernel
  have isPrefix : olderDocument.encode.dropLast <+: olderDocument.encode :=
    List.dropLast_prefix _
  have read : cutPlace.read = .bytes olderDocument.encode.dropLast := by decide +kernel
  obtain ⟨_, loaded, damaged⟩ := CacheStore.file_keeps_document unusedPlace olderDocument
    unusedPlace_replaceable isFile olderDocument_fits rfl
  obtain ⟨corrupt, opens⟩ := damaged _ (.inl ⟨isPrefix, shorter⟩) cutPlace read
  exact ⟨unusedPlace_replaceable, isFile, olderDocument_fits, loaded, isPrefix, shorter, read,
    corrupt, opens _ _ _⟩

end Unsugar
