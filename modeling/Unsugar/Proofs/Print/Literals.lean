import Mathlib.Tactic.SplitIfs
import Unsugar.Print.Tree

open List

namespace Unsugar.Quoted

/-! # Reading literals back

A reader that stands behind an opening quote takes every backslash together with the
letter behind it, and stops at the first quote that no backslash precedes.  What is
written inside quotes is read back as it was, whatever follows the closing quote;
in the text of a template only after pairs of braces became single ones.
-/

/-! ## Escaped characters -/

variable {quote : Char} {text : List Char}

/-- The character that a letter behind a backslash stands for. -/
def unescape? (quote letter : Char) : Option Char :=
  if letter = '\\' then some '\\'
  else if letter = 'n' then some '\n'
  else if letter = 'r' then some '\r'
  else if letter = 't' then some '\t'
  else if letter = '0' then some '\x00'
  else if letter = quote then some quote
  else none

/-- Read up to the closing quote: the characters in front of it, and all that follows. -/
def scan (quote : Char) : List Char → Option (List Char × List Char)
  | [] => none
  | char :: rest =>
    if char = quote then some ([], rest)
    else if char = '\\' then
      match rest with
      | [] => none
      | letter :: rest =>
        (unescape? quote letter).bind fun char => (scan quote rest).map (.map (char :: ·) id)
    else (scan quote rest).map (.map (char :: ·) id)

theorem scan_escapeChar (isQuote : quote = '"' ∨ quote = '\'') (char : Char) (rest : List Char) :
    scan quote (escapeChar quote char ++ rest) = (scan quote rest).map (.map (char :: ·) id) := by
  have escaped (letter : Char) (means : unescape? quote letter = some char) :
      scan quote (['\\', letter] ++ rest) = (scan quote rest).map (.map (char :: ·) id) := by
    have noQuote : '\\' ≠ quote := by rcases isQuote with rfl | rfl <;> decide
    rw [scan.eq_def]
    simp only [cons_append, nil_append, if_neg noQuote, if_true, means, Option.bind_some]
  unfold escapeChar
  split_ifs with isBackslash _ _ _ _ isClosing
  case pos => exact escaped _ (by simp [unescape?, isBackslash])
  case neg =>
    rw [scan.eq_def]
    simp only [cons_append, nil_append, if_neg isClosing, if_neg isBackslash]
  all_goals
    subst char
    refine escaped _ ?_
    rcases isQuote with rfl | rfl <;> rfl

theorem scan_escape (isQuote : quote = '"' ∨ quote = '\'') (text rest : List Char) :
    scan quote (escape quote text ++ quote :: rest) = some (text, rest) := by
  induction text with
  | nil =>
    change scan quote (quote :: rest) = _
    rw [scan.eq_def]
    exact if_pos rfl
  | cons char text ih =>
    rw [escape, flatMap_cons, append_assoc, scan_escapeChar isQuote]
    exact congrArg (Option.map _) ih

/-! ## Braces -/

def isBrace (char : Char) : Bool := char == openBrace || char == closeBrace

/-- Put one brace in place of two.  A brace that stands alone is an error. -/
def collapse? : List Char → Option (List Char)
  | [] => some []
  | char :: rest =>
    if isBrace char then
      match rest with
      | [] => none
      | second :: rest => if second = char then (collapse? rest).map (char :: ·) else none
    else (collapse? rest).map (char :: ·)

theorem doubleBraces_cons {char : Char} : doubleBraces (char :: text) =
      (if isBrace char then [char, char] else [char]) ++ doubleBraces text := by
  simp [doubleBraces, isBrace]

theorem collapse?_doubleBraces : collapse? (doubleBraces text) = some text := by
  induction text with
  | nil => rfl
  | cons char text ih =>
    rw [doubleBraces_cons, collapse?.eq_def]
    cases brace : isBrace char <;> simp [brace, ih]

theorem filter_doubleBraces : (doubleBraces text).filter isBrace =
    (text.filter isBrace).flatMap fun brace => [brace, brace] := by
  induction text with
  | nil => rfl
  | cons char text ih =>
    rw [doubleBraces_cons, filter_append, ih]
    cases brace : isBrace char <;> simp [brace]

theorem filter_escape :
    (escape '"' text).filter isBrace = text.filter isBrace := by
  have each (char : Char) : (escapeChar '"' char).filter isBrace = [char].filter isBrace := by
    unfold escapeChar
    split_ifs
    case neg => rfl
    all_goals
      subst char
      decide
  induction text with
  | nil => rfl
  | cons char text ih =>
    change (escapeChar '"' char ++ escape '"' text).filter isBrace = ([char] ++ text).filter isBrace
    rw [filter_append, filter_append, each, ih]

/-! ## Literals -/

/-- A printed literal is read back from its opening quote up to its closing one; so is
    the text of a template, whose braces are all written twice. -/
theorem printed_literals_read_back :
    (∀ text rest, ∃ inside, (Literal.str text).render.toList ++ rest = '"' :: inside ∧
      scan '"' inside = some (text.toList, rest)) ∧
    (∀ char rest, ∃ inside, (Literal.char char).render.toList ++ rest = '\'' :: inside ∧
      scan '\'' inside = some ([char], rest)) ∧
    ∀ depth text parts, ∃ printed,
      renderParts depth (.text text :: parts) = printed ++ renderParts depth parts ∧
      (∃ single, collapse? printed.toList = some single ∧
        ∀ rest, scan '"' (single ++ '"' :: rest) = some (text.toList, rest)) ∧
      printed.toList.filter isBrace =
        (text.toList.filter isBrace).flatMap fun brace => [brace, brace] := by
  refine ⟨fun text rest => ?_, fun char rest => ?_, fun depth text parts => ?_⟩
  · refine ⟨escape '"' text.toList ++ '"' :: rest, ?_, scan_escape (.inl rfl) _ _⟩
    simp [Literal.render, stringLiteral]
  · refine ⟨escape '\'' [char] ++ '\'' :: rest, ?_, scan_escape (.inr rfl) _ _⟩
    simp [Literal.render, charLiteral, escape]
  · refine ⟨interpolationText text, rfl, ⟨escape '"' text.toList, ?_, scan_escape (.inl rfl) _⟩, ?_⟩
    · rw [interpolationText, String.toList_ofList, collapse?_doubleBraces]
    · rw [interpolationText, String.toList_ofList, filter_doubleBraces, filter_escape]

end Unsugar.Quoted
