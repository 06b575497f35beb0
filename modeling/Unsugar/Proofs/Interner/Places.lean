import Mathlib.Algebra.Order.BigOperators.Group.List
import Mathlib.Algebra.Order.Ring.Nat
import Mathlib.Data.List.Nodup
import Unsugar.Interner

open List

namespace Unsugar

/-! # Places of strings

A shard says twice where its strings are: in the order they came in and by a map
from them.  In a consistent interner the two agree, no string is in another shard
than its own, and the counter is the number of strings.  A string and its symbol
then determine each other, and so do a symbol and its word.
-/

namespace Symbol

variable {symbol other : Symbol}
  (fits : symbol.slot ≤ Interner.lastSlot)

include fits

theorem toNat_word : symbol.word.toNat = symbol.shard.val * 2 ^ 28 + symbol.slot := by
  have isShard : symbol.shard.val < 16 := symbol.shard.isLt
  have isSlot : symbol.slot < 2 ^ 28 := Nat.lt_of_le_of_lt fits (by decide)
  have asWord (number : Nat) (small : number < 2 ^ 28) : (UInt32.ofNat number).toNat = number := by
    rw [UInt32.toNat_ofNat', Nat.mod_eq_of_lt (by omega)]
  have shifted : (UInt32.ofNat symbol.shard.val <<< 28).toNat = symbol.shard.val <<< 28 := by
    have places : (28 : UInt32).toNat % 32 = 28 := by decide
    rw [UInt32.toNat_shiftLeft, asWord _ (by omega), places, Nat.shiftLeft_eq,
      Nat.mod_eq_of_lt (by omega)]
  rw [word, UInt32.toNat_or, shifted, asWord _ isSlot, ← Nat.shiftLeft_add_eq_or_of_lt isSlot,
    Nat.shiftLeft_eq]

theorem ofWord_word : ofWord symbol.word = symbol := by
  have isShard : symbol.shard.val < 16 := symbol.shard.isLt
  have isSlot : symbol.slot < 2 ^ 28 := Nat.lt_of_le_of_lt fits (by decide)
  have high : (symbol.word >>> 28).toNat = symbol.shard.val := by
    have places : (28 : UInt32).toNat % 32 = 28 := by decide
    rw [UInt32.toNat_shiftRight, toNat_word fits, places, Nat.shiftRight_eq_div_pow]
    omega
  have low : (symbol.word &&& UInt32.ofNat Interner.lastSlot).toNat = symbol.slot := by
    have mask : (UInt32.ofNat Interner.lastSlot).toNat = 2 ^ 28 - 1 := by decide
    rw [UInt32.toNat_and, toNat_word fits, mask, Nat.and_two_pow_sub_one_eq_mod]
    omega
  rw [ofWord, high, low]
  congr 1
  exact Fin.ext (Nat.mod_eq_of_lt isShard)

theorem word_inj (otherFits : other.slot ≤ Interner.lastSlot) :
    symbol.word = other.word ↔ symbol = other := by
  refine ⟨fun same => ?_, fun same => by rw [same]⟩
  rw [← ofWord_word fits, same, ofWord_word otherFits]

end Symbol

namespace Interner

structure Shard.Consistent (shard : Shard) (index : Fin shardCount) : Prop where
  located : ∀ text slot, shard.slots.lookup text = some slot ↔ shard.strings[slot]? = some text
  placed : ∀ text ∈ shard.strings, shardOf text = index
  bounded : shard.strings.length ≤ lastSlot + 1

def stored (interner : Interner) : List String := interner.shards.toList.flatMap (·.strings)

structure Consistent (interner : Interner) : Prop where
  shards : ∀ index : Fin shardCount, interner.shards[index].Consistent index
  empty : interner.shards[(0 : Fin shardCount)].strings[0]? = some ""
  total : interner.length = interner.stored.length
  distinct : interner.stored.Nodup

/-- The place of a string in its shard. -/
structure Places (interner : Interner) (text : String) (symbol : Symbol) : Prop where
  shard : symbol.shard = shardOf text
  slot : interner.shards[symbol.shard].strings[symbol.slot]? = some text

/-- Nothing that is stored moves. -/
def Extends (after before : Interner) : Prop :=
  ∀ index : Fin shardCount, before.shards[index].strings <+: after.shards[index].strings

variable {interner after : Interner} {text other : String} {symbol found : Symbol}

theorem Extends.refl (interner : Interner) : interner.Extends interner := fun _ => prefix_rfl

theorem Places.mono (places : interner.Places text symbol) (grown : after.Extends interner) :
    after.Places text symbol where
  shard := places.shard
  slot := by
    obtain ⟨added, split⟩ := grown symbol.shard
    obtain ⟨inside, _⟩ := List.getElem?_eq_some_iff.mp places.slot
    rw [← split, List.getElem?_append_left inside]
    exact places.slot

theorem Places.lookup (places : interner.Places text symbol) : interner.lookup symbol = text := by
  rw [Interner.lookup, getD_eq_getElem?_getD, places.slot]
  rfl

theorem Places.text_unique (places : interner.Places text symbol)
    (others : interner.Places other symbol) : text = other :=
  places.lookup.symm.trans others.lookup

namespace Consistent

variable (consistent : interner.Consistent)
include consistent

theorem find?_eq_some_iff : interner.find? text = some symbol ↔ interner.Places text symbol := by
  have located := (consistent.shards (shardOf text)).located text
  constructor
  · intro isFound
    obtain ⟨slot, inMap, rfl⟩ := Option.map_eq_some_iff.mp isFound
    exact ⟨rfl, (located slot).mp inMap⟩
  · rintro ⟨isShard, isSlot⟩
    obtain ⟨shard, slot⟩ := symbol
    cases isShard
    exact Option.map_eq_some_iff.mpr ⟨slot, (located slot).mpr isSlot, rfl⟩

theorem symbol_unique (places : interner.Places text symbol) (others : interner.Places text found) :
    symbol = found :=
  Option.some.inj ((consistent.find?_eq_some_iff.mpr places).symm.trans
    (consistent.find?_eq_some_iff.mpr others))

theorem fits (places : interner.Places text symbol) : symbol.slot ≤ lastSlot := by
  have inside := (List.getElem?_eq_some_iff.mp places.slot).1
  have bounded := (consistent.shards symbol.shard).bounded
  omega

theorem mem_stored : text ∈ interner.stored ↔ ∃ symbol, interner.Places text symbol := by
  constructor
  · intro isStored
    obtain ⟨shard, isShard, inside⟩ := mem_flatMap.mp isStored
    obtain ⟨index, isIndex, rfl⟩ := getElem_of_mem isShard
    rw [Vector.length_toList] at isIndex
    obtain ⟨slot, isSlot⟩ := getElem?_of_mem inside
    have own := (consistent.shards ⟨index, isIndex⟩).placed text inside
    exact ⟨⟨⟨index, isIndex⟩, slot⟩, own.symm, isSlot⟩
  · rintro ⟨symbol, _, isSlot⟩
    refine mem_flatMap.mpr ⟨interner.shards[symbol.shard], ?_, mem_of_getElem? isSlot⟩
    exact Vector.mem_toList_iff.mpr (Vector.getElem_mem _)

theorem mem_stored_iff_find? : text ∈ interner.stored ↔ ∃ symbol, interner.find? text = some symbol := by
  rw [consistent.mem_stored]
  exact exists_congr fun _ => consistent.find?_eq_some_iff.symm

theorem not_mem_stored (missed : interner.find? text = none) : text ∉ interner.stored := by
  rw [consistent.mem_stored_iff_find?, missed]
  rintro ⟨symbol, isFound⟩
  cases isFound

theorem places_empty : interner.Places "" .empty :=
  ⟨by decide +kernel, consistent.empty⟩

end Consistent

/-! ## Storing -/

def Shard.push (shard : Shard) (text : String) : Shard :=
  ⟨(text, shard.strings.length) :: shard.slots, shard.strings ++ [text]⟩

theorem Shard.Consistent.push {shard : Shard} {index : Fin shardCount}
    (consistent : shard.Consistent index) (absent : text ∉ shard.strings)
    (own : shardOf text = index) (room : shard.strings.length ≤ lastSlot) :
    (shard.push text).Consistent index where
  located := by
    intro sought slot
    have before := consistent.located sought slot
    have last : (shard.strings ++ [text])[slot]? = some sought ↔
        shard.strings[slot]? = some sought ∨ slot = shard.strings.length ∧ text = sought := by
      rcases Nat.lt_trichotomy slot shard.strings.length with inside | rfl | outside
      · simp [getElem?_append_left inside, inside.ne]
      · simp
      · simp [getElem?_append_right outside.le, outside.ne', outside.le,
          Nat.sub_ne_zero_of_lt outside]
    rw [Shard.push, last, ← before, lookup_cons]
    by_cases same : sought = text
    · subst same
      have missing : shard.slots.lookup sought ≠ some slot := fun isFound =>
        absent (mem_of_getElem? (before.mp isFound))
      simp [missing, eq_comm]
    · simp [beq_false_of_ne same, Ne.symm same]
  placed := by
    intro held isHeld
    rcases mem_append.mp isHeld with isOld | isNew
    · exact consistent.placed held isOld
    · rw [mem_singleton.mp isNew, own]
  bounded := by
    rw [Shard.push, length_append, length_singleton]
    omega

theorem shards_push (interner : Interner) {text : String} {index : Fin shardCount} :
    (interner.push text).2.shards[index] =
      if index = shardOf text then interner.shards[index].push text else interner.shards[index] := by
  change (interner.shards.set _ _ (shardOf text).isLt)[index.val] = _
  rw [Vector.getElem_set]
  by_cases same : index = shardOf text
  · subst same
    rw [if_pos rfl, if_pos rfl]
    rfl
  · rw [if_neg fun isSame => same (Fin.ext isSame.symm), if_neg same]
    rfl

theorem perm_flatMap_set {α β : Type} {content : α → List β} {items : List α} {index : Nat}
    {item : α} {added : List β} (isIndex : index < items.length)
    (grows : (content item).Perm (added ++ content items[index])) :
    ((items.set index item).flatMap content).Perm (added ++ items.flatMap content) := by
  induction items generalizing index with
  | nil => cases isIndex
  | cons first rest ih =>
    cases index with
    | zero =>
      rw [set_cons_zero, flatMap_cons, flatMap_cons, ← append_assoc]
      exact grows.append_right _
    | succ index =>
      rw [set_cons_succ, flatMap_cons, flatMap_cons]
      refine (List.Perm.append_left _ (ih (Nat.lt_of_succ_lt_succ isIndex) grows)).trans ?_
      rw [← append_assoc, ← append_assoc]
      exact perm_append_comm.append_right _

theorem stored_push (interner : Interner) {text : String} :
    (interner.push text).2.stored.Perm (text :: interner.stored) := by
  have isIndex : (shardOf text).val < interner.shards.toList.length := by
    rw [Vector.length_toList]
    exact (shardOf text).isLt
  rw [stored, push, Vector.toList_set]
  refine @perm_flatMap_set _ _ _ _ _ _ [text] isIndex ?_
  rw [Vector.getElem_toList]
  exact perm_append_comm

theorem extends_push (interner : Interner) {text : String} :
    (interner.push text).2.Extends interner := by
  intro index
  rw [shards_push]
  split
  · exact prefix_append _ _
  · exact prefix_rfl

theorem places_push (interner : Interner) {text : String} :
    (interner.push text).2.Places text (interner.push text).1 where
  shard := rfl
  slot := by
    change (interner.push text).2.shards[shardOf text].strings[
      interner.shards[shardOf text].strings.length]? = some text
    rw [shards_push, if_pos rfl, Shard.push, getElem?_concat_length]

namespace Consistent

variable (consistent : interner.Consistent)
include consistent

/-- The counter has room for more strings than the shards do. -/
theorem length_stored_le : interner.stored.length ≤ shardCount * (lastSlot + 1) := by
  have each : ∀ count ∈ interner.shards.toList.map (·.strings.length), count ≤ lastSlot + 1 := by
    intro count isCount
    obtain ⟨shard, isShard, rfl⟩ := mem_map.mp isCount
    obtain ⟨index, isIndex, rfl⟩ := getElem_of_mem isShard
    rw [Vector.length_toList] at isIndex
    exact (consistent.shards ⟨index, isIndex⟩).bounded
  simpa [stored, length_flatMap] using sum_le_card_nsmul _ _ each

theorem push (missed : interner.find? text = none)
    (room : (interner.shards.get (shardOf text)).strings.length ≤ lastSlot) :
    (interner.push text).2.Consistent where
  shards := by
    intro index
    rw [shards_push]
    split
    · rename_i own
      subst own
      refine (consistent.shards _).push (fun isHeld => ?_) rfl room
      obtain ⟨slot, isSlot⟩ := getElem?_of_mem isHeld
      exact consistent.not_mem_stored missed (consistent.mem_stored.mpr ⟨⟨_, slot⟩, rfl, isSlot⟩)
    · exact consistent.shards index
  empty := ((consistent.places_empty).mono (extends_push interner)).slot
  total := by
    have few := consistent.length_stored_le
    have small : shardCount * (lastSlot + 1) < 2 ^ 64 - 1 := by decide
    have counted : interner.total.toNat = interner.stored.length := consistent.total
    rw [(stored_push interner).length_eq, length_cons, ← counted]
    change (interner.total + 1).toNat = interner.total.toNat + 1
    rw [UInt64.toNat_add, UInt64.toNat_one, Nat.mod_eq_of_lt (by omega)]
  distinct := (stored_push interner).nodup_iff.mpr
    (nodup_cons.mpr ⟨consistent.not_mem_stored missed, consistent.distinct⟩)

theorem store_ok (stores : interner.store text = (.ok symbol, after)) :
    after.Consistent ∧ after.Extends interner ∧ after.Places text symbol ∧
      ∀ other, other ∈ after.stored ↔ other = text ∨ other ∈ interner.stored := by
  unfold store at stores
  split at stores
  · rename_i place isFound
    cases stores
    have places := consistent.find?_eq_some_iff.mp isFound
    refine ⟨consistent, .refl interner, places, fun other => ⟨.inr, ?_⟩⟩
    rintro (rfl | isStored)
    · exact consistent.mem_stored.mpr ⟨_, places⟩
    · exact isStored
  · rename_i missed
    dsimp only at stores
    split at stores
    · rename_i room
      cases stores
      refine ⟨consistent.push missed room, extends_push interner, places_push interner,
        fun other => ?_⟩
      rw [(stored_push interner).mem_iff, mem_cons]
    · cases stores

theorem store_error {overflow : Overflow} (stores : interner.store text = (.error overflow, after)) :
    after = interner ∧ text ∉ interner.stored ∧
      lastSlot < (interner.shards.get (shardOf text)).strings.length := by
  unfold store at stores
  split at stores
  · cases stores
  · rename_i missed
    dsimp only at stores
    split at stores
    · cases stores
    · rename_i full
      cases stores
      exact ⟨rfl, consistent.not_mem_stored missed, Nat.lt_of_not_le full⟩

theorem store (text : String) : (interner.store text).2.Consistent := by
  cases stores : interner.store text with
  | mk answer after =>
    cases answer with
    | ok symbol => exact (consistent.store_ok stores).1
    | error overflow =>
      obtain ⟨rfl, _⟩ := consistent.store_error stores
      exact consistent

end Consistent

/-! ## A new interner -/

theorem bare_consistent : bare.Consistent where
  shards := by
    intro index
    change ((Vector.replicate shardCount ({} : Shard)).set 0 _ (by decide))[index.val].Consistent index
    rw [Vector.getElem_set]
    split
    · rename_i isFirst
      have first : index = 0 := Fin.ext isFirst.symm
      subst first
      refine ⟨fun text slot => ?_, fun text isHeld => ?_, by decide⟩
      · by_cases same : text = ""
        · subst same
          cases slot <;> simp
        · cases slot <;> simp [lookup_cons, beq_false_of_ne same, Ne.symm same]
      · rw [mem_singleton.mp isHeld]
        decide +kernel
    · rw [Vector.getElem_replicate]
      exact ⟨by simp, by simp, by simp⟩
  empty := by decide
  total := by decide
  distinct := by decide

/-- To intern a string is to store it. -/
theorem intern_eq (interner : Interner) {text : String} :
    interner.intern text = (interner.store text).1.map fun symbol => (symbol, (interner.store text).2) := by
  cases isFound : interner.find? text with
  | some symbol => simp [intern, store, isFound, Except.map]
  | none => simp [intern, isFound]

theorem fresh_consistent : fresh.Consistent := by
  refine List.foldlRecOn wellKnown _ bare_consistent fun start consistent text _ => ?_
  rw [intern_eq]
  split
  · rename_i stores
    cases answer : (start.store text).1 with
    | ok symbol =>
      rw [answer] at stores
      cases stores
      exact consistent.store text
    | error overflow =>
      rw [answer] at stores
      cases stores
  · exact consistent

theorem stored_fresh : fresh.stored.Perm ("" :: wellKnown) := by decide +kernel

end Interner

end Unsugar
