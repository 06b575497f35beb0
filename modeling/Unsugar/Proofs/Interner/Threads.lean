import Mathlib.Logic.Function.Basic
import Mathlib.Data.List.Dedup
import Unsugar.Proofs.Interner.Places

open List

namespace Unsugar

/-! # Threads over one interner

Several threads intern strings and look names up in one interner.  A thread that
interns a string takes two steps: it looks for the string, and if that is missing
it stores it, which looks once more, since other threads may have taken steps in
between.  In whatever order the steps come, a string keeps the one name that the
first thread to store it was given.
-/

/-- An interner and, for each thread, the string that it looked for in vain and has
    not stored yet. -/
structure Sharing (Thread : Type) where
  interner : Interner
  waiting : Thread → Option String

namespace Sharing

variable {Thread : Type}

/-- What a step shows to its thread.  Threads know names as words. -/
inductive Event (Thread : Type) where
  | missed (thread : Thread) (text : String)
  /-- A call that interns a string is over. -/
  | ended (thread : Thread) (text : String) (answer : Except Interner.Overflow UInt32)
  | looked (thread : Thread) (name : UInt32) (text : String)
  | counted (thread : Thread) (count : Nat)

section Steps

variable [DecidableEq Thread]

inductive Step : Sharing Thread → Event Thread → Sharing Thread → Prop where
  | find {interner : Interner} {waiting : Thread → Option String} {thread : Thread} {text : String}
      {symbol : Symbol} (idle : waiting thread = none) (isFound : interner.find? text = some symbol) :
      Step ⟨interner, waiting⟩ (.ended thread text (.ok symbol.word)) ⟨interner, waiting⟩
  | miss {interner : Interner} {waiting : Thread → Option String} {thread : Thread} {text : String}
      (idle : waiting thread = none) (isMissing : interner.find? text = none) :
      Step ⟨interner, waiting⟩ (.missed thread text)
        ⟨interner, Function.update waiting thread (some text)⟩
  | store {interner after : Interner} {waiting : Thread → Option String} {thread : Thread}
      {text : String} {answer : Except Interner.Overflow Symbol} (waits : waiting thread = some text)
      (stores : interner.store text = (answer, after)) :
      Step ⟨interner, waiting⟩ (.ended thread text (answer.map Symbol.word))
        ⟨after, Function.update waiting thread none⟩
  | look {interner : Interner} {waiting : Thread → Option String} {thread : Thread} {name : UInt32}
      (idle : waiting thread = none) :
      Step ⟨interner, waiting⟩ (.looked thread name (interner.lookup (.ofWord name)))
        ⟨interner, waiting⟩
  | count {interner : Interner} {waiting : Thread → Option String} {thread : Thread}
      (idle : waiting thread = none) :
      Step ⟨interner, waiting⟩ (.counted thread interner.length) ⟨interner, waiting⟩

/-- Steps of any threads in any order, from a new interner. -/
inductive Run : List (Event Thread) → Sharing Thread → Prop where
  | start : Run [] ⟨.fresh, fun _ => none⟩
  | step {history : List (Event Thread)} {event : Event Thread} {state next : Sharing Thread}
      (ran : Run history state) (steps : Step state event next) : Run (history ++ [event]) next

end Steps

def Event.named? : Event Thread → Option (String × UInt32)
  | .ended _ text (.ok name) => some (text, name)
  | _ => none

/-- The strings that were named, each with its name. -/
def named (history : List (Event Thread)) : List (String × UInt32) := history.filterMap Event.named?

/-- All strings that were stored at first or were named since. -/
def known (history : List (Event Thread)) : List String :=
  "" :: Interner.wellKnown ++ (named history).map Prod.fst

@[simp] theorem named_append {before after : List (Event Thread)} :
    named (before ++ after) = named before ++ named after := filterMap_append

@[simp] theorem known_append {before after : List (Event Thread)} :
    known (before ++ after) = known before ++ (named after).map Prod.fst := by
  simp [known]

/-! ## What every step keeps -/

/-- What is known of an interner from what its threads were shown. -/
structure Sound (history : List (Event Thread)) (interner : Interner) : Prop where
  consistent : interner.Consistent
  places : ∀ entry ∈ named history, ∃ symbol, interner.Places entry.1 symbol ∧ symbol.word = entry.2
  stored : ∀ text, text ∈ interner.stored ↔ text ∈ known history

namespace Sound

variable {history : List (Event Thread)} {interner : Interner} {event : Event Thread}

theorem start : Sound ([] : List (Event Thread)) .fresh where
  consistent := Interner.fresh_consistent
  places := by simp [named]
  stored text := by simp [Interner.stored_fresh.mem_iff, known, named]

variable (sound : Sound history interner)

include sound

theorem silent (isSilent : event.named? = none) : Sound (history ++ [event]) interner := by
  have same : named (history ++ [event]) = named history := by simp [named, isSilent]
  refine ⟨sound.consistent, ?_, fun text => ?_⟩
  · rw [same]
    exact sound.places
  · rw [sound.stored, known, known, same]

theorem ended {thread : Thread} {text : String} {symbol : Symbol} {after : Interner}
    (stores : interner.store text = (.ok symbol, after)) :
    Sound (history ++ [.ended thread text (.ok symbol.word)]) after := by
  obtain ⟨consistent, grown, places, stored⟩ := sound.consistent.store_ok stores
  have one : named [Event.ended thread text (.ok symbol.word)] = [(text, symbol.word)] := rfl
  refine ⟨consistent, fun entry isNamed => ?_, fun other => ?_⟩
  · rw [named_append, one, mem_append, mem_singleton] at isNamed
    rcases isNamed with before | rfl
    · obtain ⟨found, isPlace, isWord⟩ := sound.places entry before
      exact ⟨found, isPlace.mono grown, isWord⟩
    · exact ⟨symbol, places, rfl⟩
  · rw [stored, sound.stored, known_append, one, mem_append]
    exact or_comm.trans (or_congr_right mem_singleton.symm)

theorem lookup {text : String} {name : UInt32} (isNamed : (text, name) ∈ named history) :
    interner.lookup (.ofWord name) = text := by
  obtain ⟨symbol, places, rfl⟩ := sound.places _ isNamed
  rw [Symbol.ofWord_word (sound.consistent.fits places), places.lookup]

theorem same_iff {text other : String} {name another : UInt32}
    (isNamed : (text, name) ∈ named history) (isOther : (other, another) ∈ named history) :
    text = other ↔ name = another := by
  constructor
  · rintro rfl
    obtain ⟨symbol, places, rfl⟩ := sound.places _ isNamed
    obtain ⟨found, others, rfl⟩ := sound.places _ isOther
    rw [sound.consistent.symbol_unique places others]
  · rintro rfl
    rw [← sound.lookup isNamed, sound.lookup isOther]

theorem empty_iff {text : String} {name : UInt32} (isNamed : (text, name) ∈ named history) :
    text = "" ↔ name = Symbol.empty.word := by
  have empty := sound.consistent.places_empty
  obtain ⟨symbol, places, rfl⟩ := sound.places _ isNamed
  rw [Symbol.word_inj (sound.consistent.fits places) (sound.consistent.fits empty)]
  constructor
  · rintro rfl
    exact sound.consistent.symbol_unique places empty
  · rintro rfl
    exact places.text_unique empty

theorem stored_perm : interner.stored.Perm (known history).dedup := by
  refine (perm_ext_iff_of_nodup sound.consistent.distinct (nodup_dedup _)).mpr fun text => ?_
  rw [mem_dedup, sound.stored]

theorem length : interner.length = (known history).dedup.length :=
  sound.consistent.total.trans sound.stored_perm.length_eq

end Sound

variable [DecidableEq Thread] {history : List (Event Thread)} {state next : Sharing Thread}
  {event : Event Thread}

theorem Step.sound (steps : Step state event next) (sound : Sound history state.interner) :
    Sound (history ++ [event]) next.interner := by
  cases steps with
  | find idle isFound =>
    exact sound.ended (by simp [Interner.store, isFound])
  | miss => exact sound.silent rfl
  | @store _ _ _ _ _ answer waits stores =>
    cases answer with
    | ok symbol => exact sound.ended stores
    | error overflow =>
      obtain ⟨rfl, _⟩ := sound.consistent.store_error stores
      exact sound.silent rfl
  | look => exact sound.silent rfl
  | count => exact sound.silent rfl

theorem Run.sound (ran : Run history state) : Sound history state.interner := by
  induction ran with
  | start =>
    dsimp only
    exact .start
  | step _ steps ih => exact steps.sound ih

/-- Every event of a run was shown at a state that the events before it lead to. -/
theorem Run.shown (ran : Run history state) {before after : List (Event Thread)}
    (split : history = before ++ event :: after) :
    ∃ state next : Sharing Thread, Run before state ∧ Step state event next := by
  induction ran generalizing after with
  | start => simp at split
  | @step earlier last middle final ran steps ih =>
    rcases eq_nil_or_concat after with rfl | ⟨later, shown, rfl⟩
    · obtain ⟨rfl, same⟩ := append_inj' split rfl
      cases same
      exact ⟨middle, final, ran, steps⟩
    · rw [concat_eq_append, ← cons_append, ← append_assoc] at split
      exact ih (append_inj' split rfl).1

end Sharing

/-- However the steps of any number of threads follow each other, a string and its name
    determine each other, the empty string alone has the empty name, and every later look
    at a name gives its string.  The count is that of the different strings, the strings
    held are those that were there at first and those that were named since, and an
    overflow, which only a full shard shows, changes nothing.  No thread that has missed a
    string is kept from ending its call. -/
theorem Sharing.names_consistent {Thread : Type} [DecidableEq Thread]
    {history : List (Event Thread)} {state : Sharing Thread} (ran : Run history state) :
    (∀ text name other another, (text, name) ∈ named history → (other, another) ∈ named history →
      (text = other ↔ name = another)) ∧
    (∀ text name, (text, name) ∈ named history → (text = "" ↔ name = Symbol.empty.word) ∧
      state.interner.lookup (.ofWord name) = text) ∧
    (∀ before after thread name found, history = before ++ .looked thread name found :: after →
      ∀ text, (text, name) ∈ named before → found = text) ∧
    state.interner.stored.Perm (known history).dedup ∧
    state.interner.length = state.interner.stored.length ∧
    (∀ before after thread count, history = before ++ .counted thread count :: after →
      count = (known before).dedup.length) ∧
    (∀ thread text overflow next, Step state (.ended thread text (.error overflow)) next →
      next.interner = state.interner ∧ text ∉ known history ∧
        Interner.lastSlot < (state.interner.shards.get (Interner.shardOf text)).strings.length) ∧
    ∀ thread text, state.waiting thread = some text →
      ∃ answer next, Step state (.ended thread text answer) next := by
  have sound := ran.sound
  refine ⟨fun _ _ _ _ => sound.same_iff,
    fun _ _ isNamed => ⟨sound.empty_iff isNamed, sound.lookup isNamed⟩, ?_, sound.stored_perm,
    sound.consistent.total, ?_, ?_, ?_⟩
  · intro before after thread name found split text isNamed
    obtain ⟨_, _, earlier, steps⟩ := ran.shown split
    cases steps
    exact earlier.sound.lookup isNamed
  · intro before after thread count split
    obtain ⟨_, _, earlier, steps⟩ := ran.shown split
    cases steps
    exact earlier.sound.length
  · intro thread text overflow next steps
    generalize shown : Event.ended thread text (.error overflow) = event at steps
    cases steps with
    | find => cases shown
    | miss => cases shown
    | @store _ _ _ _ _ answer waits stores =>
      cases answer with
      | ok symbol => cases shown
      | error cause =>
        cases shown
        obtain ⟨rfl, absent, full⟩ := sound.consistent.store_error stores
        exact ⟨rfl, fun isKnown => absent ((sound.stored text).mpr isKnown), full⟩
    | look => cases shown
    | count => cases shown
  · intro thread text waits
    exact ⟨_, _, .store waits rfl⟩

/-- Two threads miss the same string, and both store it. -/
def bothMiss (name : UInt32) : List (Sharing.Event Bool) :=
  [.missed false "x", .missed true "x", .ended false "x" (.ok name), .ended true "x" (.ok name)]

theorem bothMiss_run : ∃ state name, Sharing.Run (bothMiss name) state := by
  have isMissing : Interner.fresh.find? "x" = none := by decide +kernel
  obtain ⟨symbol, after, stores⟩ :
      ∃ symbol after, Interner.fresh.store "x" = (.ok symbol, after) := by
    have isOk : (Interner.fresh.store "x").1.isOk = true := by decide +kernel
    cases stores : Interner.fresh.store "x" with
    | mk answer after =>
      rw [stores] at isOk
      cases answer with
      | ok symbol => exact ⟨symbol, after, rfl⟩
      | error overflow => cases isOk
  obtain ⟨consistent, _, places, _⟩ := Interner.fresh_consistent.store_ok stores
  have again : after.store "x" = (.ok symbol, after) := by
    simp [Interner.store, consistent.find?_eq_some_iff.mpr places]
  have first : Sharing.Run [.missed false "x"] _ := Sharing.Run.start.step (.miss rfl isMissing)
  have second : Sharing.Run [.missed false "x", .missed true "x"] _ :=
    first.step (.miss (by simp) isMissing)
  have third : Sharing.Run [.missed false "x", .missed true "x",
      .ended false "x" (.ok symbol.word)] _ := second.step (.store (by simp) stores)
  exact ⟨_, symbol.word, third.step (.store (by simp) again)⟩

theorem names_consistent_bothMiss : ∃ (state : Sharing Bool) (name : UInt32),
    Sharing.Run (bothMiss name) state ∧
    ("x", name) ∈ Sharing.named (bothMiss name) ∧
    state.interner.lookup (.ofWord name) = "x" ∧ name ≠ Symbol.empty.word ∧
    state.interner.length = 40 := by
  obtain ⟨state, name, ran⟩ := bothMiss_run
  obtain ⟨_, named, _, stored, counted, _⟩ := Sharing.names_consistent ran
  have isNamed : ("x", name) ∈ Sharing.named (bothMiss name) := List.mem_cons_self
  obtain ⟨isEmpty, looked⟩ := named "x" name isNamed
  refine ⟨state, name, ran, isNamed, looked, fun same => ?_, ?_⟩
  · exact absurd (isEmpty.mpr same) (by decide)
  · have known : Sharing.known (bothMiss name) = "" :: Interner.wellKnown ++ ["x", "x"] := rfl
    rw [counted, stored.length_eq, known]
    decide +kernel

end Unsugar
