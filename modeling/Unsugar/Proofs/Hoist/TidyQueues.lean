import Mathlib.Data.List.Nodup
import Unsugar.Lower.Hoist

open List

namespace Unsugar.HoistQueue

/-! # Tidy queues

Queueing and moving declarations leaves one entry for each point, with each name at
most once.
-/

/-- Every point has one entry, which declares every name at most once. -/
structure Tidy (queue : HoistQueue) : Prop where
  points : (queue.entries.map Prod.fst).Nodup
  names : ∀ entry ∈ queue.entries, (entry.2.map HoistedLocal.name).Nodup

theorem tidy_empty : Tidy {} := ⟨nodup_nil, nofun⟩

theorem addTo_nodup {hoisted : HoistedLocal} {queued : List HoistedLocal}
    (distinct : (queued.map HoistedLocal.name).Nodup) :
    ((addTo hoisted queued).map HoistedLocal.name).Nodup := by
  unfold addTo
  split
  · exact distinct
  · next isNew =>
      have absent : hoisted.name ∉ queued.map HoistedLocal.name := by simpa using isNew
      rw [map_append]
      exact distinct.append (nodup_singleton _) (disjoint_singleton.2 absent)

/-! ## Points -/

def points (queue : HoistQueue) : List InstallPoint := queue.entries.map Prod.fst

variable {queue : HoistQueue} {point place : InstallPoint} {hoisted : HoistedLocal}

theorem points_declare : (queue.declare point hoisted).points =
    if point ∈ queue.points then queue.points else queue.points ++ [point] := by
  obtain ⟨entries⟩ := queue
  change (declareIn point hoisted entries).map Prod.fst =
    if point ∈ entries.map Prod.fst then entries.map Prod.fst else entries.map Prod.fst ++ [point]
  induction entries with
  | nil => rfl
  | cons entry rest ih => grind [declareIn]

theorem mem_points_declare (isPoint : place ∈ (queue.declare point hoisted).points) :
    place ∈ queue.points ∨ place = point := by
  rw [points_declare] at isPoint
  split at isPoint
  · exact .inl isPoint
  · simpa using isPoint

theorem Tidy.declare (tidy : queue.Tidy) (point : InstallPoint) (hoisted : HoistedLocal) :
    (queue.declare point hoisted).Tidy where
  points := by
    change (queue.declare point hoisted).points.Nodup
    rw [points_declare]
    split
    · exact tidy.points
    · next isNew => exact tidy.points.append (nodup_singleton _) (disjoint_singleton.2 isNew)
  names := by
    obtain ⟨entries⟩ := queue
    obtain ⟨-, names⟩ := tidy
    change ∀ entry ∈ declareIn point hoisted entries, _
    induction entries with
    | nil => simp [declareIn]
    | cons entry rest ih =>
      obtain ⟨isFirst, areRest⟩ := forall_mem_cons.1 names
      unfold declareIn
      split
      · exact forall_mem_cons.2 ⟨addTo_nodup isFirst, areRest⟩
      · exact forall_mem_cons.2 ⟨isFirst, ih areRest⟩

theorem Tidy.relocate (tidy : queue.Tidy) (source target : InstallPoint) :
    (queue.relocate source target).Tidy := by
  have kept : Tidy ⟨queue.entries.filter fun entry => entry.1 != source⟩ :=
    ⟨tidy.points.sublist (filter_sublist.map Prod.fst),
      fun entry isEntry => tidy.names entry (mem_filter.1 isEntry).1⟩
  unfold HoistQueue.relocate
  generalize queue.at? source = hoisted
  dsimp only
  generalize (⟨queue.entries.filter fun entry => entry.1 != source⟩ : HoistQueue) = rest at kept
  induction hoisted generalizing rest with
  | nil => exact kept
  | cons first others ih => exact ih _ (kept.declare target first)

end Unsugar.HoistQueue
