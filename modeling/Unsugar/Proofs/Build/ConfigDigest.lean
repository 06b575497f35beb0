import Mathlib.Data.List.Sort
import Mathlib.Data.Prod.Lex
import Mathlib.Data.String.Basic
import Unsugar.Proofs.Build.CacheTransparency

open List

namespace Unsugar

/-! # What the digest of a configuration tells apart

A configuration is digested part by part, so two configurations whose parts are
told apart by digests have one digest exactly if their parts are the same texts.
What kind of part a text is shows in its first letter, and a reference can be read
back from its text, since no time holds the mark in front of it.  An option cannot:
the text does not show where its name ends.  So a change of the options goes
unnoticed exactly where it moves an `=` between a name and its value.
-/

/-- Sorting by keys that tell values apart forgets the order and nothing else. -/
theorem mergeSort_eq_iff_perm {α κ : Type} [LinearOrder κ] {key : α → κ} {le : α → α → Bool}
    (injective : Function.Injective key)
    (order : ∀ left right, le left right ↔ key left ≤ key right) {left right : List α} :
    left.mergeSort le = right.mergeSort le ↔ left.Perm right := by
  have sorted (values : List α) :
      (values.mergeSort le).Pairwise fun first second => le first second :=
    pairwise_mergeSort (fun first second third before after =>
        (order _ _).mpr (le_trans ((order first second).mp before) ((order second third).mp after)))
      (fun first second => by
        rw [Bool.or_eq_true, order, order]
        exact le_total (key first) (key second))
      values
  constructor
  · intro same
    exact (left.mergeSort_perm le).symm.trans (same ▸ right.mergeSort_perm le)
  · intro perm
    refine List.Perm.eq_of_pairwise (fun first second _ _ before after => ?_) (sorted left)
      (sorted right) ((left.mergeSort_perm le).trans (perm.trans (right.mergeSort_perm le).symm))
    exact injective (le_antisymm ((order _ _).mp before) ((order _ _).mp after))

theorem eq_of_map_eq {α β : Type} {image : α → β} {left right : List α}
    (apart : ∀ first ∈ left, ∀ second ∈ right, image first = image second → first = second)
    (same : left.map image = right.map image) : left = right := by
  refine ext_getElem (by simpa using congrArg List.length same) fun index inLeft inRight => ?_
  refine apart _ (getElem_mem inLeft) _ (getElem_mem inRight) ?_
  have sameImage := congrArg (·[index]?) same
  simpa [inLeft, inRight] using sameImage

theorem append_cons_inj_of_notMem_left {α : Type} {mark : α}
    {left right leftRest rightRest : List α} (leftFree : mark ∉ left)
    (rightFree : mark ∉ right) (same : left ++ mark :: leftRest = right ++ mark :: rightRest) :
    left = right ∧ leftRest = rightRest := by
  induction left generalizing right with
  | nil =>
    cases right with
    | nil => exact ⟨rfl, (List.cons.inj same).2⟩
    | cons head rest =>
      have isHead : mark = head := (List.cons.inj same).1
      exact absurd (isHead ▸ mem_cons_self) rightFree
  | cons head rest ih =>
    cases right with
    | nil =>
      have isHead : head = mark := (List.cons.inj same).1
      exact absurd (isHead ▸ mem_cons_self) leftFree
    | cons other others =>
      obtain ⟨sameHead, sameTail⟩ := List.cons.inj same
      obtain ⟨sameRest, sameEnd⟩ := ih (fun later => leftFree (mem_cons_of_mem _ later))
        (fun later => rightFree (mem_cons_of_mem _ later)) sameTail
      exact ⟨by rw [sameHead, sameRest], sameEnd⟩

namespace BuildConfig

/-! ## Parts -/

theorem optionLe_iff (left right : String × String) :
    optionLe left right ↔ toLex left ≤ toLex right := by
  simp [optionLe, Prod.Lex.le_iff]

theorem referenceLe_iff (left right : Dependency) : referenceLe left right ↔
      toLex (left.identity, left.timestamp.toNat) ≤
        toLex (right.identity, right.timestamp.toNat) := by
  simp [referenceLe, Prod.Lex.le_iff, UInt64.le_iff_toNat_le]

def optionTexts (config : BuildConfig) : List String :=
  (config.options.mergeSort optionLe).map optionText

def referenceTexts (config : BuildConfig) : List String :=
  (config.references.mergeSort referenceLe).map referenceText

theorem parts_eq (config : BuildConfig) :
    config.parts = config.optionTexts ++ config.referenceTexts ++ [toolText config.toolVersion] :=
  rfl

/-- What kind of part a text is shows in its first letter. -/
theorem head?_optionText {option : String × String} :
    (optionText option).toList.head? = some 'o' := by
  simp [optionText, String.toList_append]

theorem head?_referenceText {reference : Dependency} :
    (referenceText reference).toList.head? = some 'r' := by
  simp [referenceText, String.toList_append]

theorem head?_toolText {version : String} : (toolText version).toList.head? = some 't' := by
  simp [toolText, String.toList_append]

theorem toolText_injective : Function.Injective toolText := by
  intro left right same
  simpa [toolText] using same

theorem referenceText_injective : Function.Injective referenceText := by
  intro left right same
  have digits (number : Nat) : '@' ∉ (Nat.toDigits 10 number).reverse := fun present => by
    have isDigit :=
      Nat.isDigit_of_mem_toDigits (by decide) (by decide) (mem_reverse.mp present)
    exact absurd isDigit (by decide)
  have spelled := congrArg (fun text => text.toList.reverse) same
  simp only [referenceText, String.toList_append, append_assoc, reverse_append,
    toString, Nat.toList_repr] at spelled
  obtain ⟨sameTime, sameIdentity⟩ :=
    append_cons_inj_of_notMem_left (digits _) (digits _) spelled
  have times : left.timestamp.toNat = right.timestamp.toNat := by
    rw [← Nat.ofDigitChars_ten_toDigits (n := left.timestamp.toNat),
      reverse_injective sameTime, Nat.ofDigitChars_ten_toDigits]
  have identities : left.identity.toList.reverse = right.identity.toList.reverse :=
    append_cancel_right sameIdentity
  cases left
  cases right
  congr 1
  · exact String.toList_inj.mp (reverse_injective identities)
  · exact UInt64.toNat_inj.mp times

def joinedOption (option : String × String) : String := option.1 ++ "=" ++ option.2

theorem joinedOption_inj {left right : String × String} (leftFree : '=' ∉ left.1.toList)
    (rightFree : '=' ∉ right.1.toList) (same : joinedOption left = joinedOption right) :
    left = right := by
  have spelled := congrArg String.toList same
  simp only [joinedOption, String.toList_append, append_assoc] at spelled
  obtain ⟨sameName, sameValue⟩ := append_cons_inj_of_notMem_left leftFree rightFree spelled
  exact Prod.ext (String.toList_inj.mp sameName) (String.toList_inj.mp sameValue)

variable {left right : BuildConfig}

theorem parts_eq_iff : left.parts = right.parts ↔
      left.optionTexts = right.optionTexts ∧ left.referenceTexts = right.referenceTexts ∧
        left.toolVersion = right.toolVersion := by
  have options (config : BuildConfig) :
      config.parts.filter (·.toList.head? == some 'o') = config.optionTexts := by
    simp [parts_eq, optionTexts, referenceTexts, filter_map, Function.comp_def,
      head?_optionText, head?_referenceText, head?_toolText]
  have references (config : BuildConfig) :
      config.parts.filter (·.toList.head? == some 'r') = config.referenceTexts := by
    simp [parts_eq, optionTexts, referenceTexts, filter_map, Function.comp_def,
      head?_optionText, head?_referenceText, head?_toolText]
  have tool (config : BuildConfig) :
      config.parts.getLast? = some (toolText config.toolVersion) := by
    rw [parts_eq, getLast?_concat]
  constructor
  · intro same
    refine ⟨?_, ?_, ?_⟩
    · rw [← options left, same, options right]
    · rw [← references left, same, references right]
    · apply toolText_injective
      apply Option.some.inj
      rw [← tool left, same, tool right]
  · rintro ⟨sameOptions, sameReferences, sameTool⟩
    rw [parts_eq, parts_eq, sameOptions, sameReferences, sameTool]

theorem referenceTexts_eq_iff :
    left.referenceTexts = right.referenceTexts ↔ left.references.Perm right.references := by
  have injective : Function.Injective fun reference : Dependency =>
      toLex (reference.identity, reference.timestamp.toNat) := by
    rintro ⟨leftIdentity, leftTime⟩ ⟨rightIdentity, rightTime⟩ same
    simpa [UInt64.toNat_inj] using same
  rw [referenceTexts, referenceTexts, (map_injective_iff.mpr referenceText_injective).eq_iff,
    mergeSort_eq_iff_perm injective referenceLe_iff]

theorem optionTexts_eq_iff : left.optionTexts = right.optionTexts ↔
      (left.options.mergeSort optionLe).map joinedOption =
        (right.options.mergeSort optionLe).map joinedOption := by
  have tagged (options : List (String × String)) :
      options.map optionText = (options.map joinedOption).map ("option:" ++ ·) := by
    simp [optionText, joinedOption, String.append_assoc]
  have injective : Function.Injective (List.map ("option:" ++ · : String → String)) := by
    refine map_injective_iff.mpr fun first second same => ?_
    simpa using same
  rw [optionTexts, optionTexts, tagged, tagged, injective.eq_iff]

theorem joinedOptions_eq_iff_perm {left right : List (String × String)}
    (leftFree : ∀ option ∈ left, '=' ∉ option.1.toList)
    (rightFree : ∀ option ∈ right, '=' ∉ option.1.toList) :
    (left.mergeSort optionLe).map joinedOption = (right.mergeSort optionLe).map joinedOption ↔
      left.Perm right := by
  rw [← mergeSort_eq_iff_perm toLex.injective optionLe_iff]
  refine ⟨eq_of_map_eq fun first isLeft second isRight => ?_, fun same => by rw [same]⟩
  exact joinedOption_inj (leftFree first (mem_mergeSort.mp isLeft))
    (rightFree second (mem_mergeSort.mp isRight))

/-! ## Digests -/

/-- Digests tell the parts of two configurations apart, and so does their digest. -/
structure ToldApart (left right : BuildConfig) : Prop where
  texts : ∀ first ∈ left.parts, ∀ second ∈ right.parts,
    Digest.ofText first = Digest.ofText second → first = second
  combined : Digest.combine (left.parts.map Digest.ofText) =
      Digest.combine (right.parts.map Digest.ofText) →
    left.parts.map Digest.ofText = right.parts.map Digest.ofText

theorem digest_eq_iff_parts (apart : left.ToldApart right) :
    left.digest = right.digest ↔ left.parts = right.parts := by
  refine ⟨fun same => ?_, fun same => by rw [digest, digest, same]⟩
  exact eq_of_map_eq apart.texts (apart.combined same)

end BuildConfig

/-- Two configurations have one digest exactly if they have the same references, the
    same tool, and options that are the same texts in the same order, wherever a name
    ends in them.  Where no name holds an `=`, these are the same options. -/
theorem BuildConfig.digest_eq_iff (left right : BuildConfig) (apart : left.ToldApart right) :
    (left.digest = right.digest ↔
      (left.options.mergeSort optionLe).map joinedOption =
          (right.options.mergeSort optionLe).map joinedOption ∧
        left.references.Perm right.references ∧ left.toolVersion = right.toolVersion) ∧
    ((∀ option ∈ left.options ++ right.options, '=' ∉ option.1.toList) →
      (left.digest = right.digest ↔ left.SameParts right)) := by
  have exactly : left.digest = right.digest ↔
      (left.options.mergeSort optionLe).map joinedOption =
          (right.options.mergeSort optionLe).map joinedOption ∧
        left.references.Perm right.references ∧ left.toolVersion = right.toolVersion := by
    rw [digest_eq_iff_parts apart, parts_eq_iff, optionTexts_eq_iff, referenceTexts_eq_iff]
  refine ⟨exactly, fun free => exactly.trans ?_⟩
  rw [joinedOptions_eq_iff_perm]
  · rfl
  · exact fun option listed => free option (List.mem_append_left _ listed)
  · exact fun option listed => free option (List.mem_append_right _ listed)

def longName : BuildConfig := { options := [("a=b", "c")] }

def shortName : BuildConfig := { options := [("a", "b=c")] }

theorem longName_toldApart_shortName : longName.ToldApart shortName where
  texts := by decide +kernel
  combined := by decide +kernel

/-- The change from one to the other goes unnoticed. -/
theorem digest_longName_eq_shortName :
    longName.ToldApart shortName ∧ longName.digest = shortName.digest ∧
      ¬ longName.SameParts shortName := by
  refine ⟨longName_toldApart_shortName, ?_, fun same => ?_⟩
  · refine (BuildConfig.digest_eq_iff longName shortName longName_toldApart_shortName).1.mpr
      ⟨?_, .refl _, rfl⟩
    decide +kernel
  · exact absurd (List.singleton_perm_singleton.mp same.1) (by decide)

/-! ## What a digest cannot miss

The step that takes a word in is a bijection of the running state, and so is the
rotation at the end, since the multiplier is odd.  A change of one word therefore
changes the state, whatever follows, and with it the digest.  The parts of a
configuration are digested in an order that does not depend on the order they were
given in.
-/

namespace Digest

/-- The multiplier is odd, so it can be divided by. -/
theorem factor_mul_inverse : factor * 0x781494a55daaed0d = 1 := by decide

theorem mul_factor_inj {left right : UInt64} (same : left * factor = right * factor) :
    left = right := by
  have divided := congrArg (· * 0x781494a55daaed0d) same
  simpa only [UInt64.mul_assoc, factor_mul_inverse, UInt64.mul_one] using divided

theorem absorb_left_injective {word : UInt64} : Function.Injective (absorb · word) := by
  intro left right same
  dsimp only [absorb] at same
  exact (UInt64.add_left_inj word).mp (mul_factor_inj same)

theorem absorb_right_injective (state : UInt64) : Function.Injective (absorb state) := by
  intro left right same
  dsimp only [absorb] at same
  exact (UInt64.add_right_inj state).mp (mul_factor_inj same)

theorem toBitVec_rotate {state : UInt64} :
    (rotate state).toBitVec = state.toBitVec.rotateLeft 26 := rfl

/-- A rotation moves bits and loses none. -/
theorem getLsbD_rotate {state : UInt64} {bit : Nat} (isBit : bit < 64) :
    (rotate state).toBitVec.getLsbD ((bit + 26) % 64) = state.toBitVec.getLsbD bit := by
  rw [toBitVec_rotate, BitVec.getLsbD_rotateLeft]
  by_cases low : bit < 38
  · have stays : (bit + 26) % 64 = bit + 26 := Nat.mod_eq_of_lt (by omega)
    simp [stays, show bit + 26 < 64 by omega]
  · have wraps : (bit + 26) % 64 = bit - 38 := by omega
    simp [wraps, show bit - 38 < 26 by omega, show 38 + (bit - 38) = bit by omega]

theorem rotate_injective : Function.Injective rotate := by
  intro left right same
  refine UInt64.toBitVec_inj.mp (BitVec.eq_of_getLsbD_eq fun bit isBit => ?_)
  rw [← getLsbD_rotate isBit, same, getLsbD_rotate isBit]

theorem foldl_absorb_injective (words : List UInt64) :
    Function.Injective fun state => words.foldl absorb state := by
  induction words with
  | nil => exact fun _ _ same => same
  | cons word rest ih => exact fun _ _ same => absorb_left_injective (ih same)

/-- Two lists of one length that differ at one position and nowhere else. -/
structure DifferAt {α : Type} (left right : List α) (index : Nat) : Prop where
  length : left.length = right.length
  here : left[index]? ≠ right[index]?
  elsewhere : ∀ other, other ≠ index → left[other]? = right[other]?

theorem DifferAt.tail {α : Type} {first second : α} {left right : List α} {index : Nat}
    (differ : DifferAt (first :: left) (second :: right) (index + 1)) :
    first = second ∧ DifferAt left right index := by
  refine ⟨Option.some.inj (differ.elsewhere 0 (Nat.succ_ne_zero index).symm),
    Nat.succ.inj differ.length, differ.here, fun other isOther => ?_⟩
  exact differ.elsewhere (other + 1) fun same => isOther (Nat.succ.inj same)

theorem DifferAt.head {α : Type} {first second : α} {left right : List α}
    (differ : DifferAt (first :: left) (second :: right) 0) : first ≠ second ∧ left = right := by
  refine ⟨fun same => differ.here (congrArg some same), ext_getElem? fun index => ?_⟩
  exact differ.elsewhere (index + 1) (Nat.succ_ne_zero index)

theorem foldl_absorb_ne {left right : List UInt64} {index : Nat} (differ : DifferAt left right index)
    (state : UInt64) : left.foldl absorb state ≠ right.foldl absorb state := by
  induction left generalizing right index state with
  | nil =>
    have none : right = [] := eq_nil_of_length_eq_zero differ.length.symm
    exact absurd (by rw [none]) differ.here
  | cons first rest ih =>
    cases right with
    | nil => cases differ.length
    | cons second others =>
      cases index with
      | zero =>
        obtain ⟨different, rfl⟩ := differ.head
        exact fun same =>
          different (absorb_right_injective state (foldl_absorb_injective rest same))
      | succ index =>
        obtain ⟨rfl, later⟩ := differ.tail
        exact ih later (absorb state first)

theorem DifferAt.map {α β : Type} {change : α → β} (injective : Function.Injective change)
    {left right : List α} {index : Nat} (differ : DifferAt left right index) :
    DifferAt (left.map change) (right.map change) index where
  length := by rw [length_map, length_map, differ.length]
  here same := by
    rw [getElem?_map, getElem?_map] at same
    exact differ.here (Option.map_injective injective same)
  elsewhere other isOther := by
    rw [getElem?_map, getElem?_map, differ.elsewhere other isOther]

theorem value_injective : Function.Injective value := fun _ _ same => by
  rwa [Digest.mk.injEq]

end Digest

theorem BuildConfig.parts_of_sameParts {left right : BuildConfig} (same : left.SameParts right) :
    left.parts = right.parts := by
  obtain ⟨options, references, tool⟩ := same
  refine parts_eq_iff.mpr ⟨?_, referenceTexts_eq_iff.mpr references, tool⟩
  rw [optionTexts, optionTexts, (mergeSort_eq_iff_perm toLex.injective optionLe_iff).mpr options]

/-- The order in which options and references are given does not show in the digest of
    a configuration, and among digests that are combined a change of exactly one always
    shows, wherever it is. -/
theorem Digest.combine_notices_one_change :
    (∀ left right : BuildConfig, left.options.Perm right.options →
      left.references.Perm right.references → left.toolVersion = right.toolVersion →
        left.digest = right.digest) ∧
    ∀ (left right : List Digest) (index : Nat), DifferAt left right index →
      combine left ≠ combine right := by
  constructor
  · intro left right options references tool
    rw [BuildConfig.digest, BuildConfig.digest,
      BuildConfig.parts_of_sameParts ⟨options, references, tool⟩]
  · intro left right index differ same
    exact foldl_absorb_ne (differ.map value_injective) 0
      (rotate_injective (value_injective.eq_iff.mpr same))

def repeatedOption : BuildConfig where
  options := [("nullable", "enable"), ("define", "A"), ("define", "A")]
  references := [⟨"core", 2⟩, ⟨"core", 1⟩]

def repeatedOptionApart : BuildConfig where
  options := [("define", "A"), ("nullable", "enable"), ("define", "A")]
  references := [⟨"core", 1⟩, ⟨"core", 2⟩]

/-- An option that is given twice may be given apart, and a change in the middle of three
    digests shows. -/
theorem combine_notices_middle_change :
    repeatedOption.options.Perm repeatedOptionApart.options ∧
    repeatedOption.references.Perm repeatedOptionApart.references ∧
    repeatedOption.toolVersion = repeatedOptionApart.toolVersion ∧
    repeatedOption.digest = repeatedOptionApart.digest ∧
    Digest.DifferAt [Digest.mk 5, ⟨6⟩, ⟨5⟩] [⟨5⟩, ⟨5⟩, ⟨5⟩] 1 ∧
    Digest.combine [⟨5⟩, ⟨6⟩, ⟨5⟩] ≠ Digest.combine [⟨5⟩, ⟨5⟩, ⟨5⟩] := by
  have options : repeatedOption.options.Perm repeatedOptionApart.options := by decide
  have references : repeatedOption.references.Perm repeatedOptionApart.references := by decide
  have differ : Digest.DifferAt [Digest.mk 5, ⟨6⟩, ⟨5⟩] [⟨5⟩, ⟨5⟩, ⟨5⟩] 1 := by
    refine ⟨rfl, by decide, fun other isOther => ?_⟩
    match other, isOther with
    | 0, _ | 2, _ | _ + 3, _ => rfl
  exact ⟨options, references, rfl,
    Digest.combine_notices_one_change.1 _ _ options references rfl, differ,
    Digest.combine_notices_one_change.2 _ _ 1 differ⟩

end Unsugar
