import Mathlib.Data.List.Induction
import Unsugar.Proofs.Hoist.TidyQueues

open List

namespace Unsugar.HoistQueue

/-! # What a queue holds

A declaration arrives at the point that it is queued at, and once more at every point
that it is moved to.  After any calls a queue holds what arrived at each point and was
not moved away, of every name the declaration that was there first.
-/

section First

variable {α κ : Type} [DecidableEq κ] {key : α → κ} {item : α} {items : List α}

/-- Of the items with the same key the first one only. -/
def firsts (key : α → κ) : List α → List α
  | [] => []
  | item :: rest => item :: (firsts key rest).filter (key · ≠ key item)

theorem mem_keys_firsts {name : κ} : name ∈ (firsts key items).map key ↔ name ∈ items.map key := by
  induction items with
  | nil => rfl
  | cons item rest ih => by_cases isFirst : name = key item <;> grind [firsts]

theorem firsts_concat : firsts key (items ++ [item]) =
    if key item ∈ (firsts key items).map key then firsts key items
    else firsts key items ++ [item] := by
  simp only [mem_keys_firsts]
  induction items with
  | nil => rfl
  | cons first rest ih => grind [firsts]

theorem firsts_filter (keeps : κ → Bool) :
    firsts key (items.filter (keeps ∘ key)) = (firsts key items).filter (keeps ∘ key) := by
  induction items with
  | nil => rfl
  | cons item rest ih =>
    simp only [filter_cons, firsts, filter_filter, Function.comp_apply]
    split
    · rw [firsts, ih, filter_filter]
      simp only [Bool.and_comm, Function.comp_apply]
    · rw [ih]
      refine filter_congr fun other _ => ?_
      by_cases same : key other = key item <;> simp_all

end First

/-! ## Calls -/

inductive Call where
  | declare (point : InstallPoint) (hoisted : HoistedLocal)
  | relocate (source target : InstallPoint)

def call (queue : HoistQueue) : Call → HoistQueue
  | .declare point hoisted => queue.declare point hoisted
  | .relocate source target => queue.relocate source target

/-- Where a declaration goes that stands at a point. -/
def Call.moves (point : InstallPoint) : Call → InstallPoint
  | .declare .. => point
  | .relocate source target => if point = source then target else point

/-- What arrived somewhere and is still there, in the order of its arrival. -/
abbrev Arrivals := List (InstallPoint × HoistedLocal)

namespace Arrivals

def at? (arrivals : Arrivals) (point : InstallPoint) : List HoistedLocal :=
  (arrivals.filter (·.1 == point)).map Prod.snd

def call (arrivals : Arrivals) : Call → Arrivals
  | .declare point hoisted => arrivals ++ [(point, hoisted)]
  | .relocate source target =>
    arrivals.filter (·.1 != source) ++ (arrivals.at? source).map (Prod.mk target)

end Arrivals

/-! ## Points and their declarations -/

variable {queue : HoistQueue} {arrived : Arrivals} {point other : InstallPoint}
  {hoisted : HoistedLocal}

theorem at?_declare : (queue.declare point hoisted).at? other =
    if other = point then addTo hoisted (queue.at? point) else queue.at? other := by
  obtain ⟨entries⟩ := queue
  change ((declareIn point hoisted entries).lookup other).getD [] =
    if _ then addTo hoisted ((entries.lookup point).getD []) else (entries.lookup other).getD []
  induction entries with
  | nil => grind [declareIn, addTo]
  | cons entry rest ih => grind [declareIn]

theorem addTo_eq (queued : List HoistedLocal) : addTo hoisted queued =
    if hoisted.name ∈ queued.map HoistedLocal.name then queued else queued ++ [hoisted] := by
  simp [addTo]

/-- A queue after everything that arrived: of every name the first declaration, and the
    points in the order in which something first arrived at them. -/
structure Holds (queue : HoistQueue) (arrived : Arrivals) : Prop where
  at? : ∀ point, queue.at? point = firsts HoistedLocal.name (arrived.at? point)
  points : queue.points = firsts id (arrived.map Prod.fst)

namespace Holds

theorem declare (holds : queue.Holds arrived) (point : InstallPoint) (hoisted : HoistedLocal) :
    (queue.declare point hoisted).Holds (arrived ++ [(point, hoisted)]) where
  at? other := by
    rw [at?_declare, holds.at?, holds.at?, addTo_eq]
    by_cases isPoint : other = point
    · simp [Arrivals.at?, isPoint, firsts_concat]
    · simp [Arrivals.at?, isPoint, Ne.symm isPoint]
  points := by
    rw [points_declare, holds.points, map_append, map_singleton, firsts_concat, map_id, id]

/-- A name that has arrived does not arrive again. -/
theorem again (holds : queue.Holds arrived)
    (known : hoisted.name ∈ (arrived.at? point).map HoistedLocal.name) :
    queue.Holds (arrived ++ [(point, hoisted)]) where
  at? other := by
    rw [holds.at?]
    rw [← mem_keys_firsts] at known
    by_cases isPoint : other = point
    · simp_all [Arrivals.at?, firsts_concat]
    · simp [Arrivals.at?, Ne.symm isPoint]
  points := by
    have isPoint : point ∈ arrived.map Prod.fst := by
      simp [Arrivals.at?] at known
      grind
    rw [← map_id (arrived.map Prod.fst), ← mem_keys_firsts] at isPoint
    rw [holds.points, map_append, map_singleton, firsts_concat, id, if_pos isPoint]

theorem moved (holds : queue.Holds arrived) (target : InstallPoint) (moved : List HoistedLocal) :
    ((firsts HoistedLocal.name moved).foldl (fun queue hoisted => queue.declare target hoisted)
      queue).Holds (arrived ++ moved.map (Prod.mk target)) := by
  induction moved using List.reverseRecOn with
  | nil => simpa [firsts] using holds
  | append_singleton before last ih =>
    rw [firsts_concat, map_append, ← append_assoc]
    split
    · next known =>
        refine ih.again ?_
        rw [mem_keys_firsts] at known
        simpa [Arrivals.at?] using .inr (mem_map.1 known)
    · rw [foldl_append]
      exact ih.declare target last

theorem without (holds : queue.Holds arrived) (source : InstallPoint) :
    (HoistQueue.mk (queue.entries.filter (·.1 != source))).Holds (arrived.filter (·.1 != source)) where
  at? point := by
    have emptied : (HoistQueue.mk (queue.entries.filter (·.1 != source))).at? point =
        if point = source then [] else queue.at? point := by
      unfold HoistQueue.at?
      induction queue.entries with grind
    rw [emptied, holds.at?, Arrivals.at?, Arrivals.at?, filter_filter]
    split
    · next same =>
        rw [filter_eq_nil_iff.2 (by grind)]
        rfl
    · congr 2
      exact filter_congr fun entry _ => by grind
  points := by
    have kept := @firsts_filter _ _ _ id (arrived.map Prod.fst) (· != source)
    rw [← holds.points, filter_map] at kept
    exact filter_map.symm.trans kept.symm

theorem call (holds : queue.Holds arrived) (call : Call) :
    (queue.call call).Holds (arrived.call call) := by
  cases call with
  | declare point hoisted => exact holds.declare point hoisted
  | relocate source target =>
    have moved := (holds.without source).moved target (arrived.at? source)
    rw [← holds.at? source] at moved
    exact moved

theorem calls (holds : queue.Holds arrived) (calls : List Call) :
    (calls.foldl HoistQueue.call queue).Holds (calls.foldl Arrivals.call arrived) := by
  induction calls generalizing queue arrived with
  | nil => exact holds
  | cons first rest ih => exact ih (holds.call first)

end Holds

/-! ## Where declarations come from -/

end Unsugar.HoistQueue
