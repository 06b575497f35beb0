import Unsugar.Proofs.Patterns.Conditions
import Mathlib.Data.List.TakeWhile

open List

namespace Unsugar

/-! # What interpolated strings say

An interpolated string is written as a composite format, or as a concatenation
when no hole has an alignment or a format.  `interpolated_evaluates` says that
both evaluate to the texts and the filled holes in order: reading a format undoes
writing it, wherever braces meet the edge of a hole.
-/

open Pass

/-! ## The text of holes -/

def Value.text? : Value → Option String
  | .null => some ""
  | .int value => some (toString value)
  | .bool value => some (if value then "True" else "False")
  | .char value => some value.toString
  | .str value => some value
  | _ => none

def Value.formatted (format : String) (value : Value) : String :=
  match value.number?.bind (formatNumber? format.toList) with
  | some chars => String.ofList chars
  | none => value.text?.getD ""

/-- Text in a field of some width, at its right end or, for a negative width, at its
    left end. -/
def aligned (width : Int) (text : String) : String :=
  String.ofList (if width < 0 then text.toList.rightpad width.natAbs ' '
    else text.toList.leftpad width.natAbs ' ')

def View.widthOf (view : View) (alignment : Option Expr) : Int :=
  match alignment.bind view.constant? with
  | some (.int width) => width
  | _ => 0

def interpolation (view : View) : List Part → List Value → String
  | [], _ | .hole .. :: _, [] => ""
  | .text text :: rest, values => text ++ interpolation view rest values
  | .hole _ alignment format :: rest, value :: values =>
    aligned (view.widthOf alignment) (value.formatted format) ++ interpolation view rest values

/-- A format without a closing brace, and an alignment that is a constant integer of 64
    bits. -/
def Part.IsConstant (view : View) : Part → Prop
  | .text _ => True
  | .hole _ alignment format => '\x7d' ∉ format.toList ∧ ∀ node, alignment = some node →
      ∃ width, view.constant? node = some (.int width) ∧ -2 ^ 63 ≤ width ∧ width < 2 ^ 63

theorem padTo_eq {width : Int} {text : String} :
    String.ofList (padTo width text.toList) = aligned width text := by
  unfold padTo aligned List.rightpad List.leftpad
  split <;> rfl

theorem aligned_zero {text : String} : aligned 0 text = text := by
  simp [aligned, List.leftpad]

theorem Value.formatted_empty (value : Value) : value.formatted "" = value.text?.getD "" := by
  unfold Value.formatted
  have noFormat : value.number?.bind (formatNumber? "".toList) = none := by
    cases value.number? <;> rfl
  rw [noFormat]

/-! ## Reading numbers back -/

variable {value : Value} {char : Char} {view : View}

theorem isBlank_of_isDigit (isDigit : char.isDigit = true) : isBlank char = false := by
  have bounds : 48 ≤ char.toNat ∧ char.toNat ≤ 57 := by
    simpa [Char.isDigit, UInt32.le_iff_toNat_le] using isDigit
  simp [isBlank, blankRanges]
  omega

theorem trimBlank_eq {text : List Char} (noBlank : ∀ char ∈ text, isBlank char = false) :
    trimBlank text = text := by
  have noneBefore : text.dropWhile isBlank = text := by
    cases text with
    | nil => rfl
    | cons first rest =>
      rw [dropWhile_cons, noBlank first mem_cons_self]
      rfl
  have noneAfter : text.reverse.dropWhile isBlank = text.reverse := by
    cases reversed : text.reverse with
    | nil => rfl
    | cons last rest =>
      have present : last ∈ text := mem_reverse.1 (reversed ▸ mem_cons_self)
      rw [dropWhile_cons, noBlank last present]
      rfl
  rw [trimBlank, noneBefore, trimBlankEnd, noneAfter, reverse_reverse]

theorem toList_toString_int {number : Int} : (toString number).toList =
      (if number < 0 then ['-'] else []) ++ Nat.toDigits 10 number.natAbs := by
  cases number with
  | ofNat number =>
    change number.repr.toList = _
    rw [Nat.toList_repr, if_neg (show ¬Int.ofNat number < 0 from Int.not_lt.2 (Int.natCast_nonneg number))]
    rfl
  | negSucc number =>
    change ("-" ++ (number + 1).repr).toList = _
    rw [String.toList_append, Nat.toList_repr, if_pos (Int.negSucc_lt_zero number)]
    rfl

theorem mem_toString_int {number : Int} (present : char ∈ (toString number).toList) :
    char = '-' ∨ char.isDigit = true := by
  rw [toList_toString_int, mem_append] at present
  rcases present with isSign | isDigit
  · split at isSign
    · exact .inl (mem_singleton.1 isSign)
    · cases isSign
  · exact .inr (Nat.isDigit_of_mem_toDigits (by decide) (by decide) isDigit)

theorem readSigned?_toString {number : Int} (atLeast : -2 ^ 63 ≤ number)
    (below : number < 2 ^ 63) : readSigned? (toString number).toList = some number := by
  have limit : (1 <<< 63 : Nat) = 2 ^ 63 := rfl
  rw [toList_toString_int]
  split
  · next negative =>
      rw [cons_append, nil_append]
      simp only [readSigned?, digitsValue?_toDigits, Option.filter_some]
      rw [if_pos (decide_eq_true (by rw [limit]; omega))]
      change some (-(number.natAbs : Int)) = some number
      congr 1
      omega
  · next notNegative =>
      rw [nil_append]
      cases written : Nat.toDigits 10 number.natAbs with
      | nil => exact absurd written Nat.toDigits_ne_nil
      | cons first rest =>
        have isDigit : first.isDigit = true :=
          Nat.isDigit_of_mem_toDigits (by decide) (by decide) (written ▸ mem_cons_self)
        unfold readSigned?
        split
        · next isSign =>
            cases isSign
            cases isDigit
        · next isSign =>
            cases isSign
            cases isDigit
        · rw [← written, digitsValue?_toDigits, Option.filter_some,
            if_pos (decide_eq_true (by rw [limit]; omega)), Option.map_some]
          change some (number.natAbs : Int) = some number
          congr 1
          omega

/-! ## Reading a hole back -/

theorem splitFirst_append {separator : Char} {before after : List Char}
    (absent : separator ∉ before) :
    splitFirst separator (before ++ separator :: after) = (before, after) := by
  have others : ∀ char ∈ before, (char != separator) = true := by
    rintro char present
    simpa using fun isSeparator : char = separator => absent (isSeparator ▸ present)
  unfold splitFirst
  rw [takeWhile_append_of_pos others, dropWhile_append_of_pos others]
  simp

theorem splitFirst_absent {separator : Char} {text : List Char} (absent : separator ∉ text) :
    splitFirst separator text = (text, []) := by
  have others : ∀ char ∈ text, (char != separator) = true := by
    rintro char present
    simpa using fun isSeparator : char = separator => absent (isSeparator ▸ present)
  unfold splitFirst
  simp [dropWhile_eq_nil_iff.2 others, takeWhile_eq_self_iff.2 others]

def holeText (next : Nat) (width : Option Int) (format : String) : List Char :=
  Nat.toDigits 10 next ++ (width.elim [] fun width => ',' :: (toString width).toList) ++
    (if format = "" then [] else ':' :: format.toList)

variable {next : Nat} {width : Option Int} {env : PassEnv}

theorem mem_holeText {format : String} (present : char ∈ holeText next width format) :
    char.isDigit = true ∨ char = ',' ∨ char = '-' ∨ char = ':' ∨ char ∈ format.toList := by
  unfold holeText at present
  rw [mem_append, mem_append] at present
  rcases present with (isDigit | inWidth) | inFormat
  · exact .inl (Nat.isDigit_of_mem_toDigits (by decide) (by decide) isDigit)
  · cases width with
    | none => cases inWidth
    | some width =>
      rcases mem_cons.1 inWidth with isComma | isWritten
      · exact .inr (.inl isComma)
      · rcases mem_toString_int isWritten with isSign | isDigit
        · exact .inr (.inr (.inl isSign))
        · exact .inl isDigit
  · split at inFormat
    · cases inFormat
    · rcases mem_cons.1 inFormat with isColon | isFormat
      · exact .inr (.inr (.inr (.inl isColon)))
      · exact .inr (.inr (.inr (.inr isFormat)))

theorem head?_holeText {format : String} : (holeText next width format).head? ≠ some '\x7b' := by
  unfold holeText
  cases written : Nat.toDigits 10 next with
  | nil => exact absurd written Nat.toDigits_ne_nil
  | cons first rest =>
    have isDigit : first.isDigit = true :=
      Nat.isDigit_of_mem_toDigits (by decide) (by decide) (written ▸ mem_cons_self)
    rintro ⟨⟩
    cases isDigit

theorem parse_holeText {format : String} (bound : next < 2 ^ 64)
    (inRange : ∀ number, width = some number → -2 ^ 63 ≤ number ∧ number < 2 ^ 63) :
    Hole.parse (holeText next width format) = ⟨some next, width.getD 0, format.toList⟩ := by
  have digits {char : Char} (present : char ∈ Nat.toDigits 10 next) : char.isDigit = true :=
    Nat.isDigit_of_mem_toDigits (by decide) (by decide) present
  have noComma : ',' ∉ Nat.toDigits 10 next := fun present => absurd (digits present) (by decide)
  have noColon : ':' ∉ Nat.toDigits 10 next ++
      width.elim [] fun width => ',' :: (toString width).toList := by
    rw [mem_append]
    rintro (isDigit | inWidth)
    · exact absurd (digits isDigit) (by decide)
    · cases width with
      | none => cases inWidth
      | some width =>
        rcases mem_cons.1 inWidth with isComma | isWritten
        · exact absurd isComma (by decide)
        · exact absurd (mem_toString_int isWritten) (by decide)
  have headAndFormat : splitFirst ':' (holeText next width format) =
      (Nat.toDigits 10 next ++ (width.elim [] fun width => ',' :: (toString width).toList),
        format.toList) := by
    unfold holeText
    split
    · next noFormat =>
        rw [append_nil, splitFirst_absent noColon, noFormat, String.toList_empty]
    · exact splitFirst_append noColon
  have index : readUnsigned? (trimBlank (Nat.toDigits 10 next)) = some next := by
    rw [trimBlank_eq fun char present => isBlank_of_isDigit (digits present),
      readUnsigned?_toDigits bound]
  unfold Hole.parse
  rw [headAndFormat]
  cases width with
  | none =>
    simp only [Option.elim_none, append_nil, splitFirst_absent noComma, index]
    rfl
  | some width =>
    obtain ⟨atLeast, below⟩ := inRange width rfl
    have noBlank : ∀ char ∈ (toString width).toList, isBlank char = false := by
      intro char present
      rcases mem_toString_int present with rfl | isDigit
      · rfl
      · exact isBlank_of_isDigit isDigit
    simp only [Option.elim_some, splitFirst_append noComma, index, trimBlank_eq noBlank,
      readSigned?_toString atLeast below, Option.getD_some]

/-! ## Reading a format back -/

/-- What a format text is read as, whatever the bound on reading, if it is large
    enough. -/
def Scans (text : List Char) (items : List FormatItem) : Prop :=
  ∀ fuel, text.length ≤ fuel → parseFormat fuel text = items

namespace Scans

variable {text rest inner : List Char} {items : List FormatItem} {char : Char}

theorem nil : Scans [] [] := by
  intro fuel _
  cases fuel <;> rfl

variable (scans : Scans rest items)

include scans

theorem openBrace : Scans ('\x7b' :: '\x7b' :: rest) (.char '\x7b' :: items) := by
  intro fuel enough
  rw [length_cons, length_cons] at enough
  obtain ⟨fuel, rfl⟩ : ∃ less, fuel = less + 1 := ⟨fuel - 1, by omega⟩
  change FormatItem.char '\x7b' :: parseFormat fuel rest = _
  rw [scans fuel (by omega)]

theorem closeBrace : Scans ('\x7d' :: '\x7d' :: rest) (.char '\x7d' :: items) := by
  intro fuel enough
  rw [length_cons, length_cons] at enough
  obtain ⟨fuel, rfl⟩ : ∃ less, fuel = less + 1 := ⟨fuel - 1, by omega⟩
  change FormatItem.char '\x7d' :: parseFormat fuel rest = _
  rw [scans fuel (by omega)]

theorem other (notOpen : char ≠ '\x7b') (notClose : char ≠ '\x7d') :
    Scans (char :: rest) (.char char :: items) := by
  intro fuel enough
  rw [length_cons] at enough
  obtain ⟨fuel, rfl⟩ : ∃ less, fuel = less + 1 := ⟨fuel - 1, by omega⟩
  rw [parseFormat.eq_def]
  dsimp only
  split
  · exact absurd rfl notOpen
  · exact absurd rfl notClose
  · exact absurd rfl notOpen
  · rw [scans fuel (by omega)]

theorem hole (notOpen : inner.head? ≠ some '\x7b') (notClosed : '\x7d' ∉ inner) :
    Scans ('\x7b' :: (inner ++ '\x7d' :: rest)) (.hole inner :: items) := by
  have split : ∀ text : List Char, '\x7d' ∉ text →
      splitHole (text ++ '\x7d' :: rest) = (text, rest) := by
    intro text absent
    induction text with
    | nil => rfl
    | cons char text ih =>
      have notClose : char ≠ '\x7d' := fun isClose => absent (isClose ▸ mem_cons_self)
      rw [cons_append, splitHole, if_neg notClose,
        ih fun present => absent (mem_cons_of_mem _ present)]
  intro fuel enough
  rw [length_cons, length_append, length_cons] at enough
  obtain ⟨fuel, rfl⟩ : ∃ less, fuel = less + 1 := ⟨fuel - 1, by omega⟩
  have parsed : parseFormat (fuel + 1) ('\x7b' :: (inner ++ '\x7d' :: rest)) =
      .hole (splitHole (inner ++ '\x7d' :: rest)).1 ::
        parseFormat fuel (splitHole (inner ++ '\x7d' :: rest)).2 := by
    cases inner with
    | nil => rfl
    | cons first others =>
      rw [parseFormat.eq_def]
      dsimp only [cons_append]
      split
      · next isDoubled =>
          cases isDoubled
          exact absurd rfl notOpen
      · next isClose _ => exact absurd isClose (by decide)
      · rfl
      · next notHole _ _ => exact absurd rfl notHole
  rw [parsed, split inner notClosed, scans fuel (by omega)]

theorem escaped (text : String) :
    Scans ((escapeFormat text).toList ++ rest) (text.toList.map .char ++ items) := by
  rw [escapeFormat, String.toList_join]
  induction text.toList with
  | nil => exact scans
  | cons char chars ih =>
    rw [map_cons, flatMap_cons, append_assoc, map_cons, cons_append]
    split
    · next isOpen =>
        rw [isOpen]
        exact ih.openBrace
    · next notOpen =>
        split
        · next isClose =>
            rw [isClose]
            exact ih.closeBrace
        · next notClose =>
            rw [String.toList_singleton]
            exact ih.other notOpen notClose

end Scans

/-! ## Filling a format -/

def Fills (recur : Answer) (args : List Value) (machine : Machine) (items : List FormatItem)
    (text : String) : Prop :=
  ∃ pieces, items.mapM (Eval.formatItem recur args) machine = (.ok pieces, machine) ∧
    String.join pieces = text

def Value.Shows (recur : Answer) (machine : Machine) (value : Value) : Prop :=
  ∃ text, value.text? = some text ∧ recur (.display value) machine = (.ok text, machine)

section Filling

variable {recur : Answer} {args : List Value} {machine : Machine} {items : List FormatItem}
  {text : String}

theorem Fills.cons {item : FormatItem} {piece : String}
    (filled : Eval.formatItem recur args item machine = (.ok piece, machine))
    (rest : Fills recur args machine items text) :
    Fills recur args machine (item :: items) (piece ++ text) := by
  obtain ⟨pieces, ran, rfl⟩ := rest
  refine ⟨piece :: pieces, ?_, String.join_cons ..⟩
  rw [mapM_cons, Eval.bind_ok filled, Eval.bind_ok ran]
  rfl

theorem Fills.chars (rest : Fills recur args machine items text) (chars : List Char) :
    Fills recur args machine (chars.map .char ++ items) (String.ofList chars ++ text) := by
  induction chars with
  | nil =>
    rw [map_nil, nil_append, String.ofList_nil, String.empty_append]
    exact rest
  | cons char chars ih =>
    have filled : Eval.formatItem recur args (.char char) machine =
        (.ok (String.singleton char), machine) := rfl
    have joined : String.ofList (char :: chars) ++ text =
        String.singleton char ++ (String.ofList chars ++ text) := by
      simp [← String.toList_inj]
    rw [joined]
    exact .cons filled ih

theorem Value.Shows.fills {inner : List Char} {next : Nat} {width : Int} {format : String}
    (shows : value.Shows recur machine)
    (parsed : Hole.parse inner = ⟨some next, width, format.toList⟩)
    (found : args[next]? = some value) :
    Eval.formatItem recur args (.hole inner) machine =
      (.ok (aligned width (value.formatted format)), machine) := by
  obtain ⟨text, isText, displayed⟩ := shows
  have formatted : Eval.formatValue recur format.toList value machine =
      (.ok (value.formatted format), machine) := by
    unfold Eval.formatValue Value.formatted
    cases value.number?.bind (formatNumber? format.toList) with
    | some chars => rfl
    | none =>
      dsimp only
      rw [isText, Option.getD_some]
      exact displayed
  unfold Eval.formatItem
  simp only [parsed, Option.bind_some, found]
  rw [Eval.bind_ok formatted, ← padTo_eq]
  rfl

theorem Fills.format {format : String} (scans : Scans format.toList items)
    (fills : Fills recur args machine items text) :
    Eval.format recur format args machine = (.ok text, machine) := by
  obtain ⟨pieces, ran, rfl⟩ := fills
  unfold Eval.format formatItems
  rw [scans format.length (String.length_toList ▸ le_rfl), Eval.bind_ok ran]
  rfl

end Filling

theorem alignmentText_ok (state : PassState) {value : Expr} {alignment : Option Expr}
    {format : String} (constant : (Part.hole value alignment format).IsConstant env.view) :
    ∃ width : Option Int, width.getD 0 = env.view.widthOf alignment ∧
      (∀ number, width = some number → -2 ^ 63 ≤ number ∧ number < 2 ^ 63) ∧
      alignmentText alignment env state =
        .ok (width.elim "" fun width => "," ++ toString width, state) := by
  cases alignment with
  | none =>
    refine ⟨none, rfl, ?_, rfl⟩
    rintro number ⟨⟩
  | some node =>
    obtain ⟨width, isWidth, atLeast, below⟩ := constant.2 node rfl
    refine ⟨some width, ?_, ?_, ?_⟩
    · simp [View.widthOf, isWidth]
    · rintro number ⟨⟩
      exact ⟨atLeast, below⟩
    · unfold alignmentText
      dsimp only
      rw [bind_ok (view_ok env state), isWidth]
      rfl

theorem compositeFormat_fills (state : PassState) {input : List Part}
    (constant : ∀ part ∈ input, part.IsConstant env.view) (next : Nat)
    (few : next + input.length ≤ 2 ^ 64) :
    ∃ format items, compositeFormat next input env state = .ok (format, state) ∧
      Scans format.toList items ∧
      ∀ recur args machine values, args.drop next = values →
        values.length = (holeValues input).length →
        (∀ value ∈ values, value.Shows recur machine) →
        Fills recur args machine items (interpolation env.view input values) := by
  induction input generalizing next with
  | nil => exact ⟨"", [], rfl, .nil, fun _ _ _ _ _ _ _ => ⟨[], rfl, rfl⟩⟩
  | cons part rest ih =>
    have others : ∀ other ∈ rest, other.IsConstant env.view := fun other present =>
      constant other (mem_cons_of_mem _ present)
    rw [length_cons] at few
    cases part with
    | text text =>
      obtain ⟨format, items, written, scans, fills⟩ :=
        ih others next (by omega)
      refine ⟨escapeFormat text ++ format, text.toList.map .char ++ items, ?_, ?_, ?_⟩
      · rw [compositeFormat, bind_ok written]
        rfl
      · rw [String.toList_append]
        exact scans.escaped text
      · intro recur args machine values isRest same shows
        have filled := (fills recur args machine values isRest same shows).chars text.toList
        rw [String.ofList_toList] at filled
        exact filled
    | hole value alignment format =>
      obtain ⟨after, items, written, scans, fills⟩ :=
        ih others (next + 1) (by omega)
      have isConstant := constant _ mem_cons_self
      obtain ⟨width, isWidth, inRange, aligns⟩ := alignmentText_ok state isConstant
      have notClosed : '\x7d' ∉ holeText next width format := by
        intro present
        rcases mem_holeText present with wrong | wrong | wrong | wrong | inFormat
        · exact absurd wrong (by decide)
        · exact absurd wrong (by decide)
        · exact absurd wrong (by decide)
        · exact absurd wrong (by decide)
        · exact isConstant.1 inFormat
      have written : compositeFormat next (.hole value alignment format :: rest) env state =
          .ok ("\x7b" ++ toString next ++ width.elim "" (fun width => "," ++ toString width) ++
            (if format == "" then "" else ":" ++ format) ++ "\x7d" ++ after, state) := by
        rw [compositeFormat, bind_ok aligns, bind_ok written]
        rfl
      have spelled : ("\x7b" ++ toString next ++
          width.elim "" (fun width => "," ++ toString width) ++
          (if format == "" then "" else ":" ++ format) ++ "\x7d" ++ after).toList =
            '\x7b' :: (holeText next width format ++ '\x7d' :: after.toList) := by
        unfold holeText
        by_cases noFormat : format = "" <;> cases width <;>
          simp [noFormat, Nat.toString_eq_repr, Nat.toList_repr]
      refine ⟨_, .hole (holeText next width format) :: items, written, ?_, ?_⟩
      · rw [spelled]
        exact scans.hole head?_holeText notClosed
      · intro recur args machine values isRest same shows
        cases values with
        | nil => cases same
        | cons first others =>
          have found : args[next]? = some first := by
            rw [← head?_drop, isRest]
            rfl
          have isOthers : args.drop (next + 1) = others := by
            rw [← tail_drop, isRest]
            rfl
          rw [interpolation, ← isWidth]
          exact .cons ((shows first mem_cons_self).fills (parse_holeText (by omega) inRange) found)
            (fills _ _ _ _ isOthers (by simpa [holeValues] using same)
              fun other present => shows other (mem_cons_of_mem _ present))

/-! ## Evaluating what is written -/

section Evaluation

variable {program : Program} {scope : Nat} {frame : Frame} {before middle after : Machine}
  {values : List Value}

theorem Value.shows (isText : value.text?.isSome = true) (fuel : Nat) (machine : Machine) :
    value.Shows (Eval.run program (fuel + 1)) machine := by
  obtain ⟨text, isText⟩ := Option.isSome_iff_exists.1 isText
  refine ⟨text, isText, ?_⟩
  cases value with
  | null | int _ | bool _ | char _ | str _ =>
    cases isText
    rfl
  | double _ | object _ | list _ | tuple _ | closure _ | type _ => cases isText

variable {span : Span}

theorem Evaluates.formatCall {format text : String} {args : List Expr}
    (undeclared : program.declares "string" = false)
    (argsEval : EvaluatesAll program scope frame args before values after)
    (isText : ∀ value ∈ values, value.text?.isSome = true)
    (filled : ∀ recur : Answer, (∀ value ∈ values, value.Shows recur after) →
      Eval.format recur format values after = (.ok text, after)) :
    Evaluates program scope frame (span.methodCall (span.typeRef (.simple "string")) "Format"
      (span.strLit format :: args)) before (.str text) after := by
  obtain ⟨argsEnough, argsRun⟩ := argsEval.answers
  refine .of_step (argsEnough + 2) fun fuel enough => ?_
  obtain ⟨rest, rfl⟩ : ∃ rest, fuel = rest + 2 := ⟨fuel - 2, by omega⟩
  have arguments : Eval.evalAll (Eval.run program (rest + 2)) (span.strLit format :: args) scope
      frame before = (.ok (.str format :: values), after) := by
    have others := argsRun (rest + 2) (by omega)
    unfold Eval.evalAll at others ⊢
    rw [mapM_cons, Eval.bind_ok (show Eval.run program (rest + 2)
      (.eval (span.strLit format) scope frame) before = (.ok (.str format), before) from rfl),
      Eval.bind_ok others]
    rfl
  have answered : Eval.builtinMethod program (Eval.run program (rest + 1)) (.type "string") "Format"
      (.str format :: values) after = (.ok (.str text), after) := by
    change (Eval.format (Eval.run program (rest + 1)) format values >>= fun text =>
      (pure (.str text) : Eval Value)) after = _
    rw [Eval.bind_ok (filled _ fun value present =>
      Value.shows (isText value present) rest after)]
    rfl
  have invoked : Eval.run program (rest + 2)
      (.invoke (.type "string") "Format" (.str format :: values) none) after =
        (.ok { value := .str text }, after) := by
    change Eval.invoke program (Eval.run program (rest + 1)) (.type "string") "Format"
      (.str format :: values) none after = _
    unfold Eval.invoke
    dsimp only
    rw [undeclared]
    exact Eval.bind_ok answered
  have called : Eval.callMember program (Eval.run program (rest + 2))
      (span.typeRef (.simple "string")) "Format" (.str format :: values) scope frame after =
        (.ok { value := .str text }, after) := by
    rw [Eval.callMember_eq (by rintro ⟨⟩)]
    exact (Eval.bind_ok rfl).trans invoked
  change Eval.call program (Eval.run program (rest + 2)) (span.member _ "Format") _ scope frame
    before = _
  unfold Eval.call
  rw [Eval.bind_ok arguments]
  exact Eval.bind_ok called

theorem Evaluates.join {left right : Expr} {leftText : String}
    (leftEval : Evaluates program scope frame left before (.str leftText) middle)
    (rightEval : Evaluates program scope frame right middle value after)
    (isText : value.text?.isSome = true) :
    Evaluates program scope frame (span.binary .add left right) before
      (.str (leftText ++ value.text?.getD "")) after := by
  obtain ⟨leftEnough, leftRuns⟩ := leftEval
  obtain ⟨rightEnough, rightRuns⟩ := rightEval
  refine .of_step (max leftEnough rightEnough + 1) fun fuel enough => ?_
  obtain _ | rest := fuel
  · omega
  have shows : value.Shows (Eval.run program (rest + 1)) after := Value.shows isText rest after
  obtain ⟨text, isText, displayed⟩ := shows
  change Eval.evalBinary program (Eval.run program (rest + 1)) .add left right scope frame before = _
  unfold Eval.evalBinary
  rw [Eval.bind_ok (leftRuns _ (by omega))]
  dsimp only
  rw [Eval.bind_ok (rightRuns _ (by omega)), isText]
  change (Eval.run program (rest + 1) (.display (.str leftText)) >>= _) after = _
  rw [Eval.bind_ok (show Eval.run program (rest + 1) (.display (.str leftText)) after =
    (.ok leftText, after) from rfl), Eval.bind_ok displayed]
  rfl

theorem Evaluates.joinParts {parts : List Part} {left : Expr} {leftText : String}
    (unformatted : parts.any isFormatted = false)
    (leftEval : Evaluates program scope frame left before (.str leftText) middle)
    (holesEval : EvaluatesAll program scope frame (holeValues parts) middle values after)
    (isText : ∀ value ∈ values, value.text?.isSome = true) :
    Evaluates program scope frame (parts.foldl (fun joined part => span.binary .add joined
      (part.operand span)) left) before
      (.str (leftText ++ interpolation view parts values)) after := by
  induction parts generalizing left leftText middle values with
  | nil =>
    cases holesEval
    rw [interpolation, String.append_empty]
    exact leftEval
  | cons part rest ih =>
    rw [any_cons, Bool.or_eq_false_iff] at unformatted
    cases part with
    | text text =>
      have joined : Evaluates program scope frame (span.binary .add left (span.strLit text))
          before (.str (leftText ++ text)) middle :=
        leftEval.join (.literal span (.str text) middle) rfl
      rw [interpolation, ← String.append_assoc]
      exact ih unformatted.2 joined holesEval isText
    | hole node alignment format =>
      cases holesEval with
      | @cons _ _ _ next _ value values first others =>
        have joined : Evaluates program scope frame (span.binary .add left node) before
            (.str (leftText ++ value.text?.getD "")) next :=
          leftEval.join first (isText value mem_cons_self)
        have plain : aligned (view.widthOf alignment) (value.formatted format) =
            value.text?.getD "" := by
          have unaligned : alignment = none ∧ format = "" := by
            simpa [isFormatted] using unformatted.1
          rw [unaligned.1, unaligned.2, Value.formatted_empty]
          exact aligned_zero
        rw [interpolation, plain, ← String.append_assoc]
        exact ih unformatted.2 joined others fun other present =>
          isText other (mem_cons_of_mem _ present)

theorem Evaluates.concatenation {parts : List Part} (unformatted : parts.any isFormatted = false)
    (holesEval : EvaluatesAll program scope frame (holeValues parts) before values after)
    (isText : ∀ value ∈ values, value.text?.isSome = true) :
    Evaluates program scope frame (Pass.concatenation span parts) before
      (.str (interpolation view parts values)) after := by
  have literal (text : String) : Evaluates program scope frame (span.strLit text) before
      (.str text) before := .literal span (.str text) before
  cases parts with
  | nil =>
    cases holesEval
    exact literal ""
  | cons part rest =>
    cases part with
    | text text =>
      rw [any_cons, Bool.or_eq_false_iff] at unformatted
      change Evaluates program scope frame
        ((rest.map (Part.operand span)).foldl (span.binary .add) (span.strLit text)) _ _ _
      rw [foldl_map]
      exact .joinParts unformatted.2 (literal text) holesEval isText
    | hole node alignment format =>
      change Evaluates program scope frame
        (((Part.hole node alignment format :: rest).map (Part.operand span)).foldl
          (span.binary .add) (span.strLit "")) _ _ _
      rw [foldl_map, ← String.empty_append (s := interpolation ..)]
      exact .joinParts unformatted (literal "") holesEval isText

end Evaluation

/-! ## Interpolated strings -/

def Part.SameShape : Part → Part → Prop
  | .text content, .text other => content = other
  | .hole _ alignment format, .hole _ other otherFormat =>
    alignment.isSome = other.isSome ∧ format = otherFormat
  | _, _ => False

theorem sameShape_of_rebuildParts {rules : Rules Pass} {site : Site} {input parts : List Part}
    {before after : PassState}
    (rebuilt : rebuildParts rules site input env before = .ok (parts, after)) :
    Forall₂ Part.SameShape input parts := by
  induction input generalizing parts before with
  | nil =>
    cases rebuilt
    exact .nil
  | cons part rest ih =>
    cases part with
    | text text =>
      rw [rebuildParts] at rebuilt
      obtain ⟨others, last, ranRest, rebuilt⟩ := bind_eq_ok rebuilt
      cases rebuilt
      exact .cons rfl (ih ranRest)
    | hole value alignment format =>
      rw [rebuildParts] at rebuilt
      obtain ⟨value, first, _, rebuilt⟩ := bind_eq_ok rebuilt
      obtain ⟨aligned, second, ranAlignment, rebuilt⟩ := bind_eq_ok rebuilt
      obtain ⟨others, last, ranRest, rebuilt⟩ := bind_eq_ok rebuilt
      cases rebuilt
      refine .cons (And.intro ?_ rfl) (ih ranRest)
      cases alignment with
      | none =>
        cases ranAlignment
        rfl
      | some node =>
        rw [rebuildExpr?] at ranAlignment
        obtain ⟨node, third, _, ranAlignment⟩ := bind_eq_ok ranAlignment
        cases ranAlignment
        rfl

section Shape

variable {input parts : List Part}

theorem isFormatted_of_sameShape {part other : Part} (same : part.SameShape other) :
    isFormatted part = isFormatted other := by
  cases part with
  | text text =>
    cases other with
    | text other => rfl
    | hole value alignment format => cases same
  | hole value alignment format =>
    cases other with
    | text other => cases same
    | hole otherValue otherAlignment otherFormat =>
      obtain ⟨sameAlignment, rfl⟩ := same
      rw [isFormatted, isFormatted, sameAlignment]

variable (same : Forall₂ Part.SameShape input parts)

include same

theorem any_isFormatted_of_sameShape : parts.any isFormatted = input.any isFormatted := by
  induction same with
  | nil => rfl
  | cons first _ ih =>
    rw [any_cons, any_cons, ih, isFormatted_of_sameShape first]

theorem length_holeValues_of_sameShape : (holeValues input).length = (holeValues parts).length := by
  induction same with
  | nil => rfl
  | @cons part other _ _ first _ ih =>
    cases part with
    | text text =>
      cases other with
      | text other => exact ih
      | hole value alignment format => cases first
    | hole value alignment format =>
      cases other with
      | text other => cases first
      | hole otherValue otherAlignment otherFormat =>
        exact congrArg (· + 1) ih

theorem interpolation_of_sameShape (unformatted : input.any isFormatted = false)
    {values : List Value} : interpolation view parts values = interpolation view input values := by
  induction same generalizing values with
  | nil => rfl
  | @cons part other _ _ first _ ih =>
    rw [any_cons, Bool.or_eq_false_iff] at unformatted
    cases part with
    | text text =>
      cases other with
      | text other =>
        cases first
        rw [interpolation, interpolation, ih unformatted.2]
      | hole value alignment format => cases first
    | hole value alignment format =>
      cases other with
      | text other => cases first
      | hole otherValue otherAlignment otherFormat =>
        obtain ⟨sameAlignment, rfl⟩ := first
        have unaligned : alignment = none ∧ format = "" := by
          simpa [isFormatted] using unformatted.1
        have otherUnaligned : otherAlignment = none := by
          simpa [unaligned.1] using sameAlignment.symm
        cases values with
        | nil => rfl
        | cons value values =>
          rw [interpolation, interpolation, ih unformatted.2, unaligned.1, otherUnaligned]

end Shape

def formatCall (span : Span) (format : String) (parts : List Part) : Expr :=
  span.methodCall (span.typeRef (.simple "string")) "Format"
    (span.strLit format :: holeValues parts)

/-- Interpolated strings say what they are written to say.  Whatever their texts, and
    whatever formats without a closing brace and constant alignments their holes have,
    an interpolated string is lowered to a `string.Format` call, or to a concatenation
    where no hole has either.  When its holes evaluate to `null`, integers, truth values,
    characters or strings, what it is lowered to evaluates to its texts and the values of
    its holes, formatted and aligned, in order; and so does the call, also where the
    concatenation takes its place. -/
theorem interpolated_evaluates {site : Site} {mark : Mark} {input parts : List Part}
    {env : PassEnv} {start middle : PassState}
    (rebuilt : rebuildParts desugarRules (site.below (.expr ⟨mark, .interpolated input⟩)) input env
      start = .ok (parts, middle))
    (constant : ∀ part ∈ input, part.IsConstant env.view) (few : input.length ≤ 2 ^ 64) :
    ∃ lowered finish format,
      Expr.rebuild desugarRules site ⟨mark, .interpolated input⟩ env start =
        .ok (lowered, finish) ∧
      compositeFormat 0 input env middle = .ok (format, middle) ∧
      lowered.kind = (if input.any isFormatted then formatCall mark.span format parts
        else concatenation mark.span parts).kind ∧
      ∀ program scope frame before values after, program.declares "string" = false →
        EvaluatesAll program scope frame (holeValues parts) before values after →
        (∀ value ∈ values, value.text?.isSome = true) →
        Evaluates program scope frame lowered before
          (.str (interpolation env.view input values)) after ∧
        Evaluates program scope frame (formatCall mark.span format parts) before
          (.str (interpolation env.view input values)) after := by
  have same := sameShape_of_rebuildParts rebuilt
  have sameFormatted := any_isFormatted_of_sameShape same
  obtain ⟨format, items, written, scans, fills⟩ :=
    compositeFormat_fills middle constant 0 (by omega)
  have ran : ∃ finish, Expr.rebuild desugarRules site ⟨mark, .interpolated input⟩ env start =
      .ok ((⟨mark, .interpolated input⟩ : Expr).replaceBy
        (if input.any isFormatted then formatCall mark.span format parts
          else concatenation mark.span parts), finish) := by
    change ∃ finish, ((rebuildParts desugarRules (site.below (.expr ⟨mark, .interpolated input⟩))
      input >>= fun parts => pure (.interpolated parts)) >>= desugarRules.expr site
        ⟨mark, .interpolated input⟩) env start = _
    rw [bind_ok (bind_ok rebuilt)]
    change ∃ finish, lowerInterpolated ⟨mark, .interpolated input⟩ parts env middle = _
    unfold lowerInterpolated
    rw [sameFormatted]
    cases input.any isFormatted with
    | true =>
      refine ⟨{ middle with changed := true }, ?_⟩
      dsimp only
      rw [if_pos rfl, bind_ok written]
      rfl
    | false => exact ⟨{ middle with changed := true }, rfl⟩
  obtain ⟨finish, ran⟩ := ran
  refine ⟨_, finish, format, ran, written, rfl, ?_⟩
  intro program scope frame before values after undeclared holesEval isText
  have called : Evaluates program scope frame (formatCall mark.span format parts) before
      (.str (interpolation env.view input values)) after :=
    .formatCall undeclared holesEval isText fun recur shows =>
      Fills.format scans (fills recur values after values rfl
        (holesEval.length_eq.trans (length_holeValues_of_sameShape same).symm) shows)
  have evaluated : Evaluates program scope frame
      (if input.any isFormatted then formatCall mark.span format parts
        else concatenation mark.span parts) before
      (.str (interpolation env.view input values)) after := by
    cases formatted : input.any isFormatted with
    | true => exact called
    | false =>
      rw [← interpolation_of_sameShape same formatted]
      exact .concatenation (sameFormatted.trans formatted) holesEval isText
  exact ⟨evaluated.of_kind rfl, called⟩

/-! ## Braces at the edges of a hole -/

def bracedParts : List Part :=
  [.text "\x7b", .hole ⟨.numbered 0, .ident "x"⟩ (some ⟨.numbered 1, .literal (.int 5)⟩) "D3",
    .text "\x7d ", .hole ⟨.numbered 2, .ident "y"⟩ none ""]

def bracedReturn : Stmt := ⟨.numbered 4, .ret (some ⟨.numbered 3, .interpolated bracedParts⟩)⟩

def bracedUnit : CompilationUnit :=
  ⟨[], none, [⟨"C", .classType, [], [], none, [], none,
    [⟨.method "M" [] [.plain (.simple "int") "x", .plain (.simple "string") "y"]
      (.simple "string") (.block ⟨.numbered 5, .block [bracedReturn]⟩), [], ⟨0, 0⟩⟩], ⟨0, 0⟩⟩]⟩

def bracedEnv : PassEnv :=
  { pass := "desugar", unit := bracedUnit, view := bracedUnit.analyze 6 bracedUnit.vocabulary }

def bracedMachine : Machine := { scopes := #[⟨[("x", .int 7), ("y", .str "s")], none⟩] }

set_option maxRecDepth 8000 in
theorem bracedParts_kept : rebuildParts desugarRules (Site.below ⟨.member 0 0, [.stmt bracedReturn]⟩
      (.expr ⟨.numbered 3, .interpolated bracedParts⟩)) bracedParts bracedEnv
    { nextName := 0, nextId := 6 } = .ok (bracedParts, { nextName := 0, nextId := 6 }) := rfl

set_option maxRecDepth 8000 in
theorem bracedParts_constant : ∀ part ∈ bracedParts, part.IsConstant bracedEnv.view := by
  have width : bracedEnv.view.constant? ⟨.numbered 1, .literal (.int 5)⟩ = some (.int 5) := rfl
  intro part present
  simp only [bracedParts, mem_cons, not_mem_nil, or_false] at present
  rcases present with rfl | rfl | rfl | rfl
  · trivial
  · refine ⟨by decide, ?_⟩
    rintro node ⟨⟩
    exact ⟨5, width, by decide, by decide⟩
  · trivial
  · exact ⟨by decide, fun node isNode => nomatch isNode⟩

theorem interpolated_evaluates_braced : ∃ lowered finish,
    (⟨.numbered 3, .interpolated bracedParts⟩ : Expr).rebuild desugarRules
      ⟨.member 0 0, [.stmt bracedReturn]⟩ bracedEnv { nextName := 0, nextId := 6 } =
        .ok (lowered, finish) ∧
    Evaluates ⟨[]⟩ 0 ⟨.null, none⟩ lowered bracedMachine (.str "\x7b  007\x7d s")
      bracedMachine := by
  obtain ⟨lowered, finish, format, ran, -, -, evaluates⟩ :=
    interpolated_evaluates bracedParts_kept bracedParts_constant (by decide)
  have holes : EvaluatesAll ⟨[]⟩ 0 ⟨.null, none⟩ (holeValues bracedParts) bracedMachine
      [.int 7, .str "s"] bracedMachine :=
    .cons (Answers.of_step 0 fun _ _ => rfl) (.single (Answers.of_step 0 fun _ _ => rfl))
  exact ⟨lowered, finish, ran, (evaluates _ _ _ _ _ _ rfl holes (by decide)).1⟩

end Unsugar
