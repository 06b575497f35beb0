import Mathlib.Data.Fintype.Card
import Mathlib.Data.Set.Finite.Basic
import Unsugar.Types.Instances
import Unsugar.Proofs.Types.WrittenTypes

open List

namespace Unsugar

open Relation

/-! # Which instances are made

Making instances ends with exactly the reached ones in the table, or does not end.  It ends
if they are finitely many, and none that is not written down is made from itself: an
instance is entered only after everything it is made from, so that a search that comes
back to it does not find it.
-/

/-! ## Steps that may fail -/

section Steps

variable {State Item : Type} {step other : State → Item → Option State}
  {items : List Item} {state : State}

theorem foldlM_keeps {Holds : State → Prop} {Grows : State → State → Prop}
    (Done : Item → State → Prop) (refl : ∀ state, Grows state state)
    (trans : ∀ {first second third}, Grows first second → Grows second third → Grows first third)
    (stays : ∀ {item state after}, Done item state → Grows state after → Done item after)
    (one : ∀ item ∈ items, ∀ state after, Holds state →
      step state item = some after → Holds after ∧ Done item after ∧ Grows state after)
    {after : State} (holds : Holds state) (run : items.foldlM step state = some after) :
    Holds after ∧ (∀ item ∈ items, Done item after) ∧ Grows state after := by
  induction items generalizing state with
  | nil =>
    cases run
    exact ⟨holds, fun _ => nofun, refl _⟩
  | cons item rest ih =>
    rw [foldlM_cons] at run
    obtain ⟨middle, isMiddle, following⟩ := Option.bind_eq_some_iff.mp run
    obtain ⟨ofItem, ofRest⟩ := forall_mem_cons.mp one
    obtain ⟨holdsMiddle, done, grows⟩ := ofItem state middle holds isMiddle
    obtain ⟨holdsAfter, doneRest, growsRest⟩ := ih ofRest holdsMiddle following
    exact ⟨holdsAfter, forall_mem_cons.mpr ⟨stays done growsRest, doneRest⟩, trans grows growsRest⟩

theorem foldlM_succeeds (Holds : State → Prop) (one : ∀ item ∈ items, ∀ state, Holds state →
      ∃ after, step state item = some after ∧ Holds after) (holds : Holds state) :
    ∃ after, items.foldlM step state = some after ∧ Holds after := by
  induction items generalizing state with
  | nil => exact ⟨state, rfl, holds⟩
  | cons item rest ih =>
    obtain ⟨ofItem, ofRest⟩ := forall_mem_cons.mp one
    obtain ⟨middle, isMiddle, holdsMiddle⟩ := ofItem state holds
    obtain ⟨after, following, holdsAfter⟩ := ih ofRest holdsMiddle
    refine ⟨after, ?_, holdsAfter⟩
    rw [foldlM_cons, isMiddle]
    exact following

theorem foldlM_mono
    (more : ∀ state item after, step state item = some after → other state item = some after)
    {after : State} (run : items.foldlM step state = some after) :
    items.foldlM other state = some after := by
  induction items generalizing state with
  | nil => exact run
  | cons item rest ih =>
    rw [foldlM_cons] at run ⊢
    obtain ⟨middle, isMiddle, following⟩ := Option.bind_eq_some_iff.mp run
    rw [more state item middle isMiddle]
    exact ih following

end Steps

namespace Universe

variable {types : Universe} {table after : List Ty} {type other : Ty} {fuel : Nat}

/-- An instance is made from another that is not written down. -/
def AsksFor (types : Universe) (type other : Ty) : Prop :=
  other ∈ types.requests type ∧ other ∉ types.written

/-- The instances that come up. -/
inductive Reached (types : Universe) : Ty → Prop
  | written {type : Ty} (isWritten : type ∈ types.written) : Reached types type
  | asked {type other : Ty} (reached : Reached types type) (asks : other ∈ types.requests type) :
      Reached types other

/-! ## Tables that are made -/

/-- Reached instances, of which those that are not written down come after what they are
    made from. -/
inductive Grown (types : Universe) : List Ty → Prop
  | written : Grown types types.written
  | entered {table : List Ty} {type : Ty} (grown : Grown types table) (reached : types.Reached type)
      (complete : ∀ other ∈ types.requests type, other ∈ table) : Grown types (table ++ [type])

namespace Grown

theorem reached (grown : types.Grown table) : ∀ type ∈ table, types.Reached type := by
  induction grown with
  | written => exact fun _ => .written
  | entered _ isReached _ ih =>
    intro type isIn
    rcases mem_append.mp isIn with isThere | isLast
    · exact ih type isThere
    · rw [mem_singleton.mp isLast]
      exact isReached

theorem closed (grown : types.Grown table) : ∀ type ∈ table, type ∉ types.written →
    ∀ other ∈ types.requests type, other ∈ table := by
  induction grown with
  | written => exact fun _ isWritten notWritten => absurd isWritten notWritten
  | entered _ _ complete ih =>
    intro type isIn notWritten other asked
    rcases mem_append.mp isIn with isThere | isLast
    · exact mem_append_left _ (ih type isThere notWritten other asked)
    · rw [mem_singleton.mp isLast] at asked
      exact mem_append_left _ (complete other asked)

theorem mem_of_asks (grown : types.Grown table) (asks : TransGen types.AsksFor type other)
    (isIn : type ∈ table) (notWritten : type ∉ types.written) : other ∈ table := by
  induction asks using TransGen.head_induction_on with
  | single asks => exact grown.closed _ isIn notWritten _ asks.1
  | head asks _ ih =>
    exact ih (grown.closed _ isIn notWritten _ asks.1) asks.2

theorem acyclic (grown : types.Grown table) : ∀ type ∈ table, ¬ TransGen types.AsksFor type type := by
  have unwritten {type other : Ty} (asks : TransGen types.AsksFor type other) :
      other ∉ types.written := by
    obtain ⟨_, -, last⟩ := TransGen.tail'_iff.mp asks
    exact last.2
  induction grown with
  | written => exact fun type isWritten asks => unwritten asks isWritten
  | @entered table last grown _ complete ih =>
    intro type isIn asks
    by_cases isThere : type ∈ table
    · exact ih type isThere asks
    · rcases mem_append.mp isIn with isThere' | isLast
      · exact isThere isThere'
      · obtain rfl := mem_singleton.mp isLast
        obtain ⟨next, asksNext, back⟩ := TransGen.head'_iff.mp asks
        have nextThere := complete next asksNext.1
        rcases reflTransGen_iff_eq_or_transGen.mp back with isSame | cycle
        · exact isThere (isSame ▸ nextThere)
        · exact isThere (grown.mem_of_asks cycle nextThere asksNext.2)

end Grown

/-! ## What a run makes -/

theorem makeInstance_succ {fuel : Nat} {table : List Ty} {type : Ty} :
    types.makeInstance (fuel + 1) table type =
      if type ∈ table then some table
      else ((types.requests type).foldlM (types.makeInstance fuel) table).map (· ++ [type]) := rfl

theorem makeInstance_grows (reached : types.Reached type) (grown : types.Grown table)
    (run : types.makeInstance fuel table type = some after) :
    types.Grown after ∧ type ∈ after ∧ table ⊆ after := by
  induction fuel generalizing table type after with
  | zero => cases run
  | succ fuel ih =>
    rw [makeInstance_succ] at run
    split at run
    · next isIn =>
        cases run
        exact ⟨grown, isIn, List.Subset.refl _⟩
    · obtain ⟨made, isMade, rfl⟩ := Option.map_eq_some_iff.mp run
      obtain ⟨grownMade, complete, more⟩ := foldlM_keeps (fun type table => type ∈ table)
        List.Subset.refl List.Subset.trans (fun isIn more => more isIn)
        (fun other asks _ _ grown => ih (.asked reached asks) grown) grown isMade
      exact ⟨.entered grownMade reached complete, mem_append_right _ (mem_singleton.mpr rfl),
        List.Subset.trans more (subset_append_left _ _)⟩

theorem refresh_grows (reached : types.Reached type) (grown : types.Grown table)
    (run : types.refresh fuel table type = some after) :
    types.Grown after ∧ (∀ other ∈ types.requests type, other ∈ after) ∧ table ⊆ after :=
  foldlM_keeps (fun type table => type ∈ table)
    List.Subset.refl List.Subset.trans (fun isIn more => more isIn)
    (fun _ asks _ _ grown => makeInstance_grows (.asked reached asks) grown) grown run

variable {order : List Ty}

theorem declareInstances_grows (lists : ∀ type, type ∈ order ↔ type ∈ types.written)
    (run : types.declareInstances fuel order = some table) :
    types.Grown table ∧ (∀ type ∈ order, ∀ other ∈ types.requests type, other ∈ table) ∧
      types.written ⊆ table :=
  foldlM_keeps (fun type table => ∀ other ∈ types.requests type, other ∈ table)
    List.Subset.refl List.Subset.trans (fun complete more other asks => more (complete other asks))
    (fun _ isIn _ _ grown => refresh_grows (.written ((lists _).mp isIn)) grown) .written run

theorem mem_declareInstances (lists : ∀ type, type ∈ order ↔ type ∈ types.written)
    (run : types.declareInstances fuel order = some table) : type ∈ table ↔ types.Reached type := by
  obtain ⟨grown, refreshed, more⟩ := declareInstances_grows lists run
  refine ⟨grown.reached type, fun reached => ?_⟩
  induction reached with
  | written isWritten => exact more isWritten
  | @asked type other _ asks isIn =>
    by_cases isWritten : type ∈ types.written
    · exact refreshed type ((lists type).mpr isWritten) other asks
    · exact grown.closed type isIn isWritten other asks

/-! ## Runs that end -/

theorem makeInstance_mono {more : Nat} (enough : fuel ≤ more)
    (run : types.makeInstance fuel table type = some after) :
    types.makeInstance more table type = some after := by
  induction fuel generalizing more table type after with
  | zero => cases run
  | succ fuel ih =>
    obtain ⟨more, rfl⟩ := Nat.exists_eq_add_of_le' enough
    rw [← Nat.add_assoc, makeInstance_succ]
    rw [makeInstance_succ] at run
    split at run
    · next isIn => rw [if_pos isIn, run]
    · next notIn =>
        obtain ⟨made, isMade, rfl⟩ := Option.map_eq_some_iff.mp run
        rw [if_neg notIn, foldlM_mono (fun _ _ _ => ih (by omega)) isMade]
        rfl

/-- An instance is made with this much fuel, whatever else is in the table. -/
def Settles (types : Universe) (fuel : Nat) (type : Ty) : Prop :=
  ∀ table, types.written ⊆ table →
    ∃ after, types.makeInstance fuel table type = some after ∧ types.written ⊆ after

theorem Settles.mono {more : Nat} (settles : types.Settles fuel type) (enough : fuel ≤ more) :
    types.Settles more type := by
  intro table isStart
  obtain ⟨after, run, stays⟩ := settles table isStart
  exact ⟨after, makeInstance_mono enough run, stays⟩

theorem settles_all {requested : List Ty} (each : ∀ type ∈ requested, ∃ fuel, types.Settles fuel type) :
    ∃ fuel, ∀ type ∈ requested, types.Settles fuel type := by
  induction requested with
  | nil => exact ⟨0, fun _ => nofun⟩
  | cons type rest ih =>
    obtain ⟨ofType, ofRest⟩ := forall_mem_cons.mp each
    obtain ⟨fuel, settles⟩ := ofType
    obtain ⟨more, others⟩ := ih ofRest
    refine ⟨max fuel more, forall_mem_cons.mpr ⟨settles.mono (Nat.le_max_left _ _), ?_⟩⟩
    exact fun type isIn => (others type isIn).mono (Nat.le_max_right _ _)

theorem settles_of_requests
    (requests : ∀ other ∈ types.requests type, ∃ fuel, types.Settles fuel other) :
    ∃ fuel, types.Settles fuel type := by
  obtain ⟨fuel, settles⟩ := settles_all requests
  refine ⟨fuel + 1, fun table isStart => ?_⟩
  rw [makeInstance_succ]
  split
  · exact ⟨table, rfl, isStart⟩
  · obtain ⟨made, isMade, stays⟩ := foldlM_succeeds (fun table => types.written ⊆ table)
      (fun other asks table isStart => settles other asks table isStart) isStart
    rw [isMade]
    exact ⟨_, rfl, List.Subset.trans stays (subset_append_left _ _)⟩

theorem settles_written (isWritten : type ∈ types.written) : types.Settles 1 type := by
  intro table isStart
  exact ⟨table, if_pos (isStart isWritten), isStart⟩

/-- Of finitely many instances that are not made from themselves each can be made. -/
theorem exists_settles (finite : {type | types.Reached type}.Finite)
    (acyclic : ∀ type, types.Reached type → ¬ TransGen types.AsksFor type type)
    (reached : types.Reached type) : ∃ fuel, types.Settles fuel type := by
  let Within (inner outer : {type | types.Reached type}) : Prop :=
    TransGen types.AsksFor outer.1 inner.1
  have : Finite {type | types.Reached type} := finite
  have : IsTrans _ Within := ⟨fun _ _ _ first second => TransGen.trans second first⟩
  have : Std.Irrefl Within := ⟨fun type => acyclic type.1 type.2⟩
  have wellFounded : WellFounded Within := Finite.wellFounded_of_trans_of_irrefl Within
  have each (inner : {type | types.Reached type}) : ∃ fuel, types.Settles fuel inner.1 := by
    induction inner using wellFounded.induction with
    | h type ih =>
      refine settles_of_requests fun other asks => ?_
      by_cases isWritten : other ∈ types.written
      · exact ⟨1, settles_written isWritten⟩
      · exact ih ⟨other, .asked type.2 asks⟩ (.single ⟨asks, isWritten⟩)
  exact each ⟨type, reached⟩

/-- Making the instances of a unit comes to an end, in whatever order the written ones are
    made again, exactly if finitely many are reached and none of them is made from itself
    through instances that are not written down; and then it makes those that are reached. -/
theorem declareInstances_ends_iff (lists : ∀ type, type ∈ order ↔ type ∈ types.written) :
    ((∃ fuel table, types.declareInstances fuel order = some table) ↔
      {type | types.Reached type}.Finite ∧
        ∀ type, types.Reached type → ¬ TransGen types.AsksFor type type) ∧
      ∀ fuel table, types.declareInstances fuel order = some table →
        ∀ type, type ∈ table ↔ types.Reached type := by
  refine ⟨⟨?_, ?_⟩, fun fuel table run type => mem_declareInstances lists run⟩
  · rintro ⟨fuel, table, run⟩
    have isTable : {type | types.Reached type} = {type | type ∈ table} :=
      Set.ext fun type => (mem_declareInstances lists run).symm
    obtain ⟨grown, -, -⟩ := declareInstances_grows lists run
    refine ⟨isTable ▸ table.finite_toSet, fun type reached => grown.acyclic type ?_⟩
    exact (mem_declareInstances lists run).mpr reached
  · rintro ⟨finite, acyclic⟩
    have requested : ∀ other ∈ order.flatMap types.requests, ∃ fuel, types.Settles fuel other := by
      intro other isIn
      obtain ⟨type, isType, asks⟩ := List.mem_flatMap.mp isIn
      exact exists_settles finite acyclic (.asked (.written ((lists type).mp isType)) asks)
    obtain ⟨fuel, settles⟩ := settles_all requested
    have refreshes : ∀ type ∈ order, ∀ table, types.written ⊆ table →
        ∃ after, types.refresh fuel table type = some after ∧ types.written ⊆ after := by
      intro type isType table isStart
      have settlesEach : ∀ other ∈ types.requests type, types.Settles fuel other :=
        fun other asks => settles other (List.mem_flatMap.mpr ⟨type, isType, asks⟩)
      exact foldlM_succeeds (fun table => types.written ⊆ table) settlesEach isStart
    obtain ⟨table, run, -⟩ := foldlM_succeeds _ refreshes (List.Subset.refl types.written)
    exact ⟨fuel, table, run⟩

def selfMade : CompilationUnit :=
  let holding (decl : TypeDecl) (type : TypeSyntax) (field : String) : TypeDecl :=
    { decl with members := [⟨.field type field none, [.isPublic], ⟨1, 2⟩⟩] }
  ⟨[], none, [ holding (emptyDecl .classType "A" ["T"]) (.named "B" [.simple "T"]) "x",
    holding (emptyDecl .classType "B" ["T"]) (.named "B" [.simple "T"]) "y",
    holding (emptyDecl .classType "C" []) (.named "A" [.simple "int"]) "z"]⟩

/-- Four instances are reached, and `B<int>` is made from itself before it is entered. -/
theorem declareInstances_ends_iff_selfMade :
    let types := Universe.ofUnit selfMade selfMade.vocabulary
    {type | types.Reached type}.Finite ∧
      ¬ ∃ fuel table, types.declareInstances fuel types.written = some table := by
  intro types
  let instances : List Ty := [.enumerableOf .char, .applied "B" [.param "T"],
    .applied "A" [.int], .applied "B" [.int]]
  have isWritten : ∀ type ∈ types.written, type ∈ instances := by decide +kernel
  have isClosed : ∀ type ∈ instances, ∀ other ∈ types.requests type, other ∈ instances := by
    decide +kernel
  have isListed : ∀ type, types.Reached type → type ∈ instances := by
    intro type reached
    induction reached with
    | written isIn => exact isWritten _ isIn
    | asked _ asks isIn => exact isClosed _ isIn _ asks
  have reachesA : types.Reached (.applied "A" [.int]) := .written (by decide +kernel)
  have reachesB : types.Reached (.applied "B" [.int]) := .asked reachesA (by decide +kernel)
  refine ⟨instances.finite_toSet.subset isListed, fun ends => ?_⟩
  refine ((declareInstances_ends_iff fun _ => Iff.rfl).1.mp ends).2 _ reachesB (.single ?_)
  exact ⟨by decide +kernel, by decide +kernel⟩

end Universe

end Unsugar
