import Mathlib.Data.List.Nodup
import Unsugar.Lower.Pass

open List

namespace Unsugar

/-! # Fresh names

A tree counts the names that were drawn on it, and hands the count on to whatever
a pass makes of it.  The digits at the end of a name tell which number it was given,
as long as no hint ends in a digit, so no name is drawn twice.
-/

/-! ## Hints and numbers -/

/-- A hint that ends in a digit would run into the number behind it. -/
def IsHint (hint : String) : Prop := ∀ char ∈ hint.toList.getLast?, char.isDigit = false

instance (hint : String) : Decidable (IsHint hint) :=
  Option.decidableForallMem hint.toList.getLast?

example : freshName "t1" 0 = freshName "t" 10 := by decide +kernel

theorem toList_freshName (hint : String) (number : Nat) :
    (freshName hint number).toList = '_' :: '_' :: hint.toList ++ Nat.toDigits 10 number := by
  simp [freshName, String.toList_append, Nat.toList_repr]

theorem isDigit_of_mem_toDigits {number : Nat} : ∀ char ∈ Nat.toDigits 10 number, char.isDigit :=
  fun _ isIn => Nat.isDigit_of_mem_toDigits (by decide) (by decide) isIn

/-- The digits at the end of a fresh name are those of its number. -/
theorem takeWhile_freshName {hint : String} (isHint : IsHint hint) (number : Nat) :
    (freshName hint number).toList.reverse.takeWhile Char.isDigit =
      (Nat.toDigits 10 number).reverse := by
  have before : ('_' :: '_' :: hint.toList).reverse.takeWhile Char.isDigit = [] := by
    rw [reverse_cons, reverse_cons]
    cases spelled : hint.toList.reverse with
    | nil => rfl
    | cons last rest =>
      have isLast : hint.toList.getLast? = some last := by
        rw [← head?_reverse, spelled]
        rfl
      simp [isHint last isLast]
  rw [toList_freshName, reverse_append, takeWhile_append_of_pos, before, append_nil]
  exact fun char isIn => isDigit_of_mem_toDigits char (mem_reverse.1 isIn)

theorem number_of_freshName {left right : String} (isLeft : IsHint left) (isRight : IsHint right)
    {first second : Nat} (same : freshName left first = freshName right second) : first = second := by
  have digits := takeWhile_freshName isLeft first
  rw [same, takeWhile_freshName isRight, reverse_inj] at digits
  have read := congrArg (Nat.ofDigitChars 10 · 0) digits
  simpa [Nat.ofDigitChars_ten_toDigits] using read.symm

/-! ## Names drawn on one tree after the other -/

/-- From one tree to a later one: each name is drawn on the latest tree, by itself or by
    the rules of a pass, and trees are made of trees that count as far. -/
inductive Tree.Draws : Tree → List (String × String) → Tree → Prop where
  | start (tree : Tree) : tree.Draws [] tree
  | fresh {first last : Tree} {drawn : List (String × String)} (hint : String)
      (before : first.Draws drawn last) :
      first.Draws (drawn ++ [(hint, (last.fresh hint).1)]) (last.fresh hint).2
  | inPass {first last : Tree} {drawn : List (String × String)} {hint name : String} {env : PassEnv}
      {state after : PassState} (before : first.Draws drawn last)
      (counts : state.nextName = last.nextName)
      (ran : Pass.fresh hint env state = .ok (name, after)) :
      first.Draws (drawn ++ [(hint, name)]) { last with nextName := after.nextName }
  | remade {first last : Tree} {drawn : List (String × String)} (unit : CompilationUnit)
      (vocabulary : Vocabulary) (before : first.Draws drawn last) :
      first.Draws drawn { last with unit, vocabulary }

theorem Tree.Draws.numbered {first last : Tree} {drawn : List (String × String)}
    (draws : first.Draws drawn last) :
    last.nextName = first.nextName + drawn.length ∧ drawn.map Prod.snd =
      drawn.mapIdx fun index call => freshName call.1 (first.nextName + index) := by
  induction draws with
  | start => exact ⟨rfl, rfl⟩
  | fresh hint before ih =>
    obtain ⟨counts, names⟩ := ih
    simp [Tree.fresh, mapIdx_append, counts, names, Nat.add_assoc]
  | inPass before counted ran ih =>
    obtain ⟨counts, names⟩ := ih
    cases ran
    simp [mapIdx_append, counted, counts, names, Nat.add_assoc]
  | remade unit vocabulary before ih => exact ih

/-- No name is drawn twice, and the number of the next one is how many were drawn. -/
theorem Tree.Draws.names_nodup {first last : Tree} {drawn : List (String × String)}
    (draws : first.Draws drawn last) (hints : ∀ call ∈ drawn, IsHint call.1) :
    (drawn.map Prod.snd).Nodup ∧ last.nextName = first.nextName + drawn.length := by
  obtain ⟨counts, names⟩ := draws.numbered
  refine ⟨?_, counts⟩
  rw [names, nodup_iff_getElem?_ne_getElem?]
  intro early late isBefore isLate same
  rw [length_mapIdx] at isLate
  simp only [getElem?_mapIdx, getElem?_eq_getElem isLate,
    getElem?_eq_getElem (Nat.lt_trans isBefore isLate), Option.map_some, Option.some.injEq] at same
  have := number_of_freshName (hints _ (getElem_mem _)) (hints _ (getElem_mem _)) same
  omega

theorem Tree.Draws.three_names_nodup :
    let names := [("t", freshName "t" 0), ("i", freshName "i" 1), ("t", freshName "t" 2)]
    ∃ last, Tree.Draws { unit := ⟨[], none, []⟩ } names last ∧
      (names.map Prod.snd).Nodup ∧ last.nextName = 3 := by
  let unit : CompilationUnit := ⟨[], none, []⟩
  let env : PassEnv := ⟨"patterns", unit, ⟨⟨unit.typeNames {}, #[], #[], []⟩, .empty 0⟩, false⟩
  have draws : Tree.Draws { unit } _ _ :=
    .inPass (.remade ⟨[], some "P", []⟩ {} (.fresh "i" (.fresh "t" (.start _)))) rfl
      (rfl : Pass.fresh "t" env { nextName := 2, nextId := 0 } = .ok _)
  have hints : ∀ hint ∈ ["t", "i", "t"], IsHint hint := by decide
  exact ⟨_, draws, draws.names_nodup fun call isDrawn => hints _ (mem_map.2 ⟨call, isDrawn, rfl⟩)⟩

end Unsugar
