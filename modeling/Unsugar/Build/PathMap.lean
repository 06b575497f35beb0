import Unsugar.Build.Path

namespace Unsugar

/-! # Maps from paths

Entries in the order of their paths, at most one for a path.  The written form
of a path that came first is kept when its value is replaced.
-/

def PathSorted {α : Type} (entries : List (Path × α)) : Prop :=
  entries.Pairwise fun earlier later => earlier.1.key < later.1.key

def insertEntry {α : Type} (path : Path) (value : α) : List (Path × α) → List (Path × α)
  | [] => [(path, value)]
  | (other, old) :: rest =>
    if path.key < other.key then (path, value) :: (other, old) :: rest
    else if path.key = other.key then (other, value) :: rest
    else (other, old) :: insertEntry path value rest

section

variable {α : Type} {path : Path} {value : α} {entries : List (Path × α)}

/-- What is in a list after an insertion was there before, or has the key that
    was inserted. -/
theorem key_of_mem_insertEntry {entry : Path × α}
    (member : entry ∈ insertEntry path value entries) :
    entry.1.key = path.key ∨ entry ∈ entries := by
  induction entries with
  | nil => simp_all [insertEntry]
  | cons head rest ih =>
    obtain ⟨other, old⟩ := head
    simp only [insertEntry] at member
    split at member
    · rcases List.mem_cons.mp member with rfl | later
      · exact .inl rfl
      · exact .inr later
    · split at member
      · rename_i same
        rcases List.mem_cons.mp member with rfl | later
        · exact .inl same.symm
        · exact .inr (List.mem_cons_of_mem _ later)
      · rcases List.mem_cons.mp member with rfl | later
        · exact .inr List.mem_cons_self
        · rcases ih later with same | found
          · exact .inl same
          · exact .inr (List.mem_cons_of_mem _ found)

theorem PathSorted.insertEntry (sorted : PathSorted entries) :
    PathSorted (insertEntry path value entries) := by
  induction entries with
  | nil => simp [PathSorted, Unsugar.insertEntry]
  | cons head rest ih =>
    obtain ⟨other, old⟩ := head
    obtain ⟨first, others⟩ := List.pairwise_cons.mp sorted
    simp only [Unsugar.insertEntry]
    split
    · rename_i before
      refine List.pairwise_cons.mpr ⟨fun entry member => ?_, sorted⟩
      rcases List.mem_cons.mp member with rfl | later
      · exact before
      · exact List.lt_trans before (first entry later)
    · split
      · exact List.pairwise_cons.mpr ⟨first, others⟩
      · rename_i notBefore different
        refine List.pairwise_cons.mpr ⟨fun entry member => ?_, ih others⟩
        rcases key_of_mem_insertEntry member with same | found
        · have after : other.key < path.key := by
            apply Classical.byContradiction
            intro notAfter
            exact different (Std.Trichotomous.trichotomous _ _ notBefore notAfter)
          simpa only [same] using after
        · exact first entry found

end

structure PathMap (α : Type) where
  entries : List (Path × α) := []
  sorted : PathSorted entries := by exact List.Pairwise.nil

namespace PathMap

variable {α : Type}

def empty : PathMap α := {}

def insert (map : PathMap α) (path : Path) (value : α) : PathMap α :=
  ⟨insertEntry path value map.entries, map.sorted.insertEntry⟩

def find? (map : PathMap α) (path : Path) : Option α :=
  (map.entries.find? fun entry => entry.1.key == path.key).map Prod.snd

def restrict (map : PathMap α) (wanted : Path → Bool) : PathMap α :=
  ⟨map.entries.filter fun entry => wanted entry.1, map.sorted.filter _⟩

def ofList (entries : List (Path × α)) : PathMap α :=
  entries.foldl (fun map entry => map.insert entry.1 entry.2) empty

def size (map : PathMap α) : Nat := map.entries.length

end PathMap

end Unsugar
