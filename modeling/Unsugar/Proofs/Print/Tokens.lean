import Unsugar.Print.Tree
import Unsugar.Proofs.Print.Conditionals

open List

namespace Unsugar.Conditionals

/-! # Text that is read as steps

A piece of text is read as steps if reading it leaves a reader where the steps
would take it.  Pieces are put together where a word cannot run from one into
the next, so two facts go with each: whether it may come right after a word, and
whether it leaves no word open.
-/

variable {char last : Char} {isSafe : Prop} {closing : String} {names : List String}

namespace Reader

variable (reader : Reader)

@[simp] theorem walk_mode {steps : List Step} : (reader.walk steps).mode = reader.mode := by
  induction steps generalizing reader with
  | nil => rfl
  | cons step rest ih => cases step <;> exact ih _

theorem walk_withMode {mode : Mode} {steps : List Step} :
    ({ reader with mode } : Reader).walk steps = { reader.walk steps with mode } := by
  induction steps generalizing reader with
  | nil => rfl
  | cons step rest ih =>
    have goesOn := ih (reader.take step)
    cases step <;> exact goesOn

@[simp] theorem walk_word (steps : List Step) : (reader.walk steps).word = reader.word := by
  induction steps generalizing reader with
  | nil => rfl
  | cons step rest ih => cases step <;> exact ih _

@[simp] theorem finishWord_mode : reader.finishWord.mode = reader.mode := by
  unfold finishWord
  split
  · rfl
  · split <;> rfl

@[simp] theorem finishWord_word : reader.finishWord.word = [] := by
  unfold finishWord
  split
  · rfl
  · split <;> rfl

@[simp] theorem finishWord_isHole : reader.finishWord.bracket.isHole = reader.bracket.isHole := by
  unfold finishWord
  split
  · rfl
  · split <;> rfl

variable {reader}

theorem finishWord_of_apart (isApart : reader.word = []) : reader.finishWord = reader := by
  obtain ⟨mode, word, bracket, outer, count, owners⟩ := reader
  cases isApart
  rfl

theorem scan_append (reader : Reader) (left right : List Char) :
    reader.scan (left ++ right) = (reader.scan left).scan right := foldl_append

theorem read_apart (inCode : reader.mode = .code) (isSign : isWordChar char = false) :
    reader.read char = reader.finishWord.readSign char := by
  simp [read, inCode, readCode, isSign]

end Reader

def startsApart (text : String) : Bool := text.toList.head?.any (!isWordChar ·)

theorem Reader.scan_apart {reader : Reader} {text : String} (inCode : reader.mode = .code)
    (starts : startsApart text = true) :
    reader.scan text.toList = reader.finishWord.scan text.toList := by
  unfold startsApart at starts
  cases chars : text.toList with
  | nil => simp [chars] at starts
  | cons char rest =>
    have isSign : isWordChar char = false := by simpa [chars] using starts
    have stillCode : reader.finishWord.mode = .code := by simpa using inCode
    simp only [Reader.scan, foldl_cons]
    rw [Reader.read_apart inCode isSign, Reader.read_apart stillCode isSign,
      Reader.finishWord_of_apart reader.finishWord_word]

/-! ## Pieces of text -/

def Reads (follows ends : Bool) (text : String) (steps : List Step) : Prop :=
  ∀ reader : Reader, reader.mode = .code → (follows = false → reader.word = []) →
    (reader.scan text.toList).finishWord = reader.finishWord.walk steps ∧
      (ends = true → (reader.scan text.toList).word = [])

/-- Steps that leave every bracket they enter. -/
def Balanced (steps : List Step) : Prop := ∃ count left read, Reading steps count left read

/-- Balanced steps that leave no `if` waiting. -/
def Closed (steps : List Step) : Prop := ∃ count read, Reading steps count (fun _ => []) read

variable {steps : List Step}

theorem Accounts.balanced {waiting : Nat}
    (accounts : Accounts steps waiting isSafe) : Balanced steps :=
  have ⟨count, left, read, _, reading, _⟩ := accounts
  ⟨count, left, read, reading⟩

theorem Accounts.closed (accounts : Accounts steps 0 isSafe) : Closed steps := by
  obtain ⟨count, left, read, own, reading, _, facts⟩ := accounts
  have none : left = fun _ => [] := by
    funext start
    exact eq_nil_of_length_eq_zero (facts start).1
  exact ⟨count, read, none ▸ reading⟩

theorem Closed.balanced : Closed steps → Balanced steps
  | ⟨count, read, reading⟩ => ⟨count, _, read, reading⟩

theorem Balanced.isHole (balanced : Balanced steps) (reader : Reader) :
    (reader.walk steps).bracket.isHole = reader.bracket.isHole := by
  obtain ⟨count, left, read, reading⟩ := balanced
  rw [reading]

theorem Closed.walk_grouped (closed : Closed steps) {reader : Reader} :
    reader.walk (grouped steps) = reader.walk steps := by
  obtain ⟨count, read, reading⟩ := closed
  rw [grouped, cons_append, Reader.walk_cons, Reader.walk_append, reading, reading]
  simp [Reader.take, Reader.enter, Reader.leave]

def Closes (ends : Bool) (text : String) : Prop :=
  ∀ reader : Reader, reader.mode = .code → reader.bracket.isHole = false →
    (reader.scan text.toList).finishWord = reader.finishWord.leave ∧
      (ends = true → (reader.scan text.toList).word = [])

namespace Reads

variable {follows ends follows' ends' : Bool} {text other : String} {steps more : List Step}

theorem of_eq (reads : Reads follows ends text steps) (same : steps = more) :
    Reads follows ends text more := same ▸ reads

theorem congr (reads : Reads follows ends text steps)
    (same : ∀ reader : Reader, reader.walk steps = reader.walk more) :
    Reads follows ends text more := by
  intro reader inCode isApart
  rw [← same]
  exact reads reader inCode isApart

/-- The word at the end may be left open. -/
theorem unfinished (reads : Reads follows true text steps) : Reads follows false text steps :=
  fun reader inCode isApart => ⟨(reads reader inCode isApart).1, nofun⟩

theorem apart (reads : Reads true ends text steps) : Reads false ends text steps :=
  fun reader inCode _ => reads reader inCode nofun

theorem empty : Reads true false "" [] := fun _ _ _ => ⟨rfl, nofun⟩

theorem empty_apart : Reads false true "" [] := fun _ _ isApart => ⟨rfl, fun _ => isApart rfl⟩

theorem mode (reads : Reads follows ends text steps) {reader : Reader}
    (inCode : reader.mode = .code) (isApart : follows = false → reader.word = []) :
    (reader.scan text.toList).mode = .code := by
  rw [← Reader.finishWord_mode, (reads reader inCode isApart).1, Reader.walk_mode,
    Reader.finishWord_mode, inCode]

theorem append (first : Reads follows ends text steps) (second : Reads follows' ends' other more)
    (fits : (ends || follows') = true) : Reads follows ends' (text ++ other) (steps ++ more) := by
  intro reader inCode isApart
  obtain ⟨same, isFinished⟩ := first reader inCode isApart
  have goesOn := second _ (first.mode inCode isApart) fun mustBeApart =>
    isFinished (by simpa [mustBeApart] using fits)
  rw [String.toList_append, Reader.scan_append, Reader.walk_append, ← same]
  exact goesOn

theorem following (reads : Reads false ends text steps) (starts : startsApart text = true) :
    Reads true ends text steps := by
  intro reader inCode _
  have goesOn := reads reader.finishWord (by simpa using inCode) fun _ => reader.finishWord_word
  rw [Reader.finishWord_of_apart reader.finishWord_word] at goesOn
  rw [Reader.scan_apart inCode starts]
  exact goesOn

section

variable (same : ∀ bracket outer count owners, Reader.scan ⟨.code, [], bracket, outer, count,
      owners⟩ text.toList = Reader.walk ⟨.code, [], bracket, outer, count, owners⟩ steps)

include same

theorem evaluated : Reads false true text steps := by
  rintro ⟨mode, word, bracket, outer, count, owners⟩ inCode isApart
  cases inCode
  cases isApart rfl
  rw [same]
  have noWord := Reader.walk_word ⟨.code, [], bracket, outer, count, owners⟩ steps
  rw [Reader.finishWord_of_apart noWord]
  exact ⟨rfl, fun _ => noWord⟩

theorem between (starts : startsApart text = true) : Reads true true text steps :=
  (evaluated same).following starts

end

theorem close (opened : Reads follows ends text steps) (before inside : List Step)
    (split : steps = before ++ .enter :: inside) (balanced : Balanced inside)
    (closes : Closes ends' closing) :
    Reads follows ends' (text ++ closing) (before ++ grouped inside) := by
  intro reader inCode isApart
  obtain ⟨same, _⟩ := opened reader inCode isApart
  rw [split] at same
  have isCode : (reader.scan text.toList).bracket.isHole = false := by
    rw [← Reader.finishWord_isHole, same, Reader.walk_append, Reader.walk_cons, balanced.isHole]
    rfl
  have goesOn := closes _ (opened.mode inCode isApart) isCode
  rw [String.toList_append, Reader.scan_append, grouped, ← append_assoc, Reader.walk_append,
    ← same]
  exact goesOn

/-- Brackets around steps that leave nothing waiting do not show. -/
theorem closeSilently (opened : Reads follows ends text steps) (before inside : List Step)
    (split : steps = before ++ .enter :: inside) (closed : Closed inside)
    (closes : Closes ends' closing) : Reads follows ends' (text ++ closing) (before ++ inside) := by
  refine (opened.close before inside split closed.balanced closes).congr fun reader => ?_
  rw [Reader.walk_append, Reader.walk_append, closed.walk_grouped]

end Reads

theorem Closes.evaluated {text : String} (starts : startsApart text = true)
    (same : ∀ waiting outer count owners,
      Reader.scan ⟨.code, [], ⟨waiting, false⟩, outer, count, owners⟩ text.toList =
        Reader.leave ⟨.code, [], ⟨waiting, false⟩, outer, count, owners⟩) :
    Closes true text := by
  intro reader inCode isCode
  rw [Reader.scan_apart inCode starts]
  rw [← Reader.finishWord_mode] at inCode
  rw [← Reader.finishWord_isHole] at isCode
  have noWord := reader.finishWord_word
  generalize reader.finishWord = finished at *
  obtain ⟨mode, word, ⟨waiting, isHole⟩, outer, count, owners⟩ := finished
  cases inCode
  cases noWord
  cases isCode
  rw [same]
  exact ⟨rfl, fun _ => rfl⟩

/-! ## Steps of a text -/

/-- The step of a word, given its letters, last first. -/
def wordSteps (word : List Char) : List Step :=
  if word = ['f', 'i'] then [.meetIf] else if word = ['e', 's', 'l', 'e'] then [.meetElse] else []

/-- The letters of the word at the end of a text, going on from those of a word. -/
def openWord : List Char → List Char → List Char
  | word, [] => word
  | word, char :: rest => openWord (if isWordChar char then char :: word else []) rest

/-- The steps of a text that closes and quotes nothing, going on from the letters of a
    word. -/
def stepsFrom : List Char → List Char → Option (List Step)
  | word, [] => some (wordSteps word)
  | word, char :: rest =>
    if isWordChar char then stepsFrom (char :: word) rest
    else if char = '(' ∨ char = '[' ∨ char = '\x7b' then
      (stepsFrom [] rest).map (wordSteps word ++ .enter :: ·)
    else if [')', ']', '\x7d', '"', '\'', '$'].contains char then none
    else (stepsFrom [] rest).map (wordSteps word ++ ·)

/-- Text without brackets, quotes and conditionals, as names are. -/
def isPlain (text : String) : Bool := stepsFrom [] text.toList = some []

namespace Reader

variable {reader : Reader}

theorem finishWord_eq (reader : Reader) :
    reader.finishWord = Reader.walk { reader with word := [] } (wordSteps reader.word) := by
  unfold finishWord wordSteps
  split
  · rfl
  · split <;> rfl

theorem readSign_idle (isOther : ¬ (char = '(' ∨ char = '[' ∨ char = '\x7b'))
    (isIdle : ¬ [')', ']', '\x7d', '"', '\'', '$'].contains char = true) :
    reader.readSign char = reader := by
  simp only [contains_cons, contains_nil, Bool.or_eq_true, beq_iff_eq, Bool.false_eq_true,
    or_false, not_or] at isIdle
  simp [readSign, isOther, isIdle]

theorem withoutWord (isApart : reader.word = []) : { reader with word := [] } = reader := by
  obtain ⟨mode, word, bracket, outer, count, owners⟩ := reader
  cases isApart
  rfl

theorem scan_steps {text : List Char} (inCode : reader.mode = .code)
    (are : stepsFrom reader.word text = some steps) :
    (reader.scan text).finishWord = Reader.walk { reader with word := [] } steps ∧
      (reader.scan text).word = openWord reader.word text := by
  induction text generalizing reader steps with
  | nil =>
    cases are
    exact ⟨reader.finishWord_eq, rfl⟩
  | cons char rest ih =>
    have apart {after : Reader} (inCode : after.mode = .code) (isApart : after.word = [])
        {others : List Step} (are : stepsFrom [] rest = some others) :
        (after.scan rest).finishWord = after.walk others ∧
          (after.scan rest).word = openWord [] rest := by
      have goesOn := ih inCode (isApart ▸ are)
      rwa [withoutWord isApart, isApart] at goesOn
    unfold stepsFrom at are
    simp only [scan, foldl_cons, openWord]
    split at are
    case isTrue isPart =>
      have same : reader.read char = { reader with word := char :: reader.word } := by
        simp [read, inCode, readCode, isPart]
      rw [same, if_pos isPart]
      exact ih inCode are
    case isFalse isSign =>
      have finished : reader.finishWord.mode = .code := by simpa using inCode
      rw [read_apart inCode (by simpa using isSign), if_neg isSign]
      split at are
      case isTrue opens =>
        obtain ⟨others, areOthers, rfl⟩ := Option.map_eq_some_iff.1 are
        have same : reader.finishWord.readSign char = reader.finishWord.enter false :=
          if_pos opens
        rw [same, Reader.walk_append, ← reader.finishWord_eq]
        have entered : (reader.finishWord.enter false).mode = .code := finished
        exact apart entered reader.finishWord_word areOthers
      case isFalse isOther =>
        split at are
        case isTrue => cases are
        case isFalse isIdle =>
          obtain ⟨others, areOthers, rfl⟩ := Option.map_eq_some_iff.1 are
          rw [readSign_idle isOther isIdle, Reader.walk_append, ← reader.finishWord_eq]
          exact apart finished reader.finishWord_word areOthers

end Reader

namespace Reads

variable {text : String} {steps : List Step}

theorem words (are : stepsFrom [] text.toList = some steps) : Reads false false text steps := by
  intro reader inCode isApart
  have noWord := isApart rfl
  obtain ⟨same, _⟩ := Reader.scan_steps inCode (noWord ▸ are)
  rw [same, Reader.withoutWord noWord, Reader.finishWord_of_apart noWord]
  exact ⟨rfl, nofun⟩

theorem lead (are : stepsFrom [] text.toList = some steps) (ends : openWord [] text.toList = []) :
    Reads false true text steps := by
  intro reader inCode isApart
  have noWord := isApart rfl
  obtain ⟨_, isOpen⟩ := Reader.scan_steps inCode (noWord ▸ are)
  exact ⟨(words are reader inCode isApart).1, fun _ => by rw [isOpen, noWord, ends]⟩

theorem gap (are : stepsFrom [] text.toList = some steps) (ends : openWord [] text.toList = [])
    (starts : startsApart text = true) : Reads true true text steps :=
  (lead are ends).following starts

theorem plain (isPlain : isPlain text = true) : Reads false false text [] :=
  words (of_decide_eq_true isPlain)

end Reads

/-! ## Numbers -/

def isNumeric (char : Char) : Bool := char.isDigit || char == '.' || char == '-'

theorem wordSteps_digits {word : List Char} (digits : ∀ char ∈ word, char.isDigit = true) :
    wordSteps word = [] := by
  have noIf : word ≠ ['f', 'i'] := by
    rintro rfl
    exact absurd (digits 'f' (by simp)) (by decide)
  have noElse : word ≠ ['e', 's', 'l', 'e'] := by
    rintro rfl
    exact absurd (digits 'e' (by simp)) (by decide)
  simp only [wordSteps, if_neg noIf, if_neg noElse]

theorem stepsFrom_numeric {word text : List Char} (digits : ∀ char ∈ word, char.isDigit = true)
    (numeric : ∀ char ∈ text, isNumeric char = true) : stepsFrom word text = some [] := by
  induction text generalizing word with
  | nil => simp [stepsFrom, wordSteps_digits digits]
  | cons char rest ih =>
    obtain ⟨isNumber, restNumeric⟩ := forall_mem_cons.1 numeric
    simp only [isNumeric, Bool.or_eq_true, beq_iff_eq] at isNumber
    have apart : stepsFrom [] rest = some [] := ih nofun restNumeric
    rcases isNumber with (isDigit | rfl) | rfl
    · have isPart : isWordChar char = true := by simp [isWordChar, Char.isAlphanum, isDigit]
      rw [stepsFrom, if_pos isPart]
      exact ih (forall_mem_cons.2 ⟨isDigit, digits⟩) restNumeric
    · simp [stepsFrom, wordSteps_digits digits, apart, isWordChar]
    · simp [stepsFrom, wordSteps_digits digits, apart, isWordChar]

theorem isPlain_numeric {text : String} (numeric : ∀ char ∈ text.toList, isNumeric char = true) :
    isPlain text = true := decide_eq_true (stepsFrom_numeric nofun numeric)

end Unsugar.Conditionals

namespace Unsugar

open Conditionals

/-! ## Tokens

Literals, templates, types and lists of pieces, each read as the steps it holds.
-/

/-! ## Quoted text -/

theorem Quoted.escapeChar_cases (quote char : Char) :
    (∃ letter, escapeChar quote char = ['\\', letter] ∧
      letter ∈ ['\\', 'n', 'r', 't', '0', quote]) ∨
    (escapeChar quote char = [char] ∧ char ≠ '\\' ∧ char ≠ quote) := by
  unfold escapeChar
  repeat' split
  all_goals simp_all

variable {text : String}

namespace Conditionals

variable {reader : Reader} {quote : Quote}

theorem Reader.scan_escaped (inQuotes : reader.mode = .quoted quote) (letter : Char) :
    reader.scan ['\\', letter] = reader := by
  obtain ⟨mode, word, bracket, outer, count, owners⟩ := reader
  cases inQuotes
  rfl

theorem Reader.read_quoted (inQuotes : reader.mode = .quoted quote)
    (noBackslash : char ≠ '\\') (noQuote : char ≠ quote.sign)
    (noHole : ¬ (quote = .template ∧ char = '\x7b')) : reader.read char = reader := by
  simp [read, inQuotes, noBackslash, noQuote, noHole]

theorem Reader.scan_escapeChar (inQuotes : reader.mode = .quoted quote)
    (isFlat : quote ≠ .template) (char : Char) :
    reader.scan (Quoted.escapeChar quote.sign char) = reader := by
  rcases Quoted.escapeChar_cases quote.sign char with
    ⟨letter, escaped, _⟩ | ⟨itself, noBackslash, noQuote⟩
  · rw [escaped, scan_escaped inQuotes]
  · rw [itself]
    exact read_quoted inQuotes noBackslash noQuote fun isTemplate => isFlat isTemplate.1

theorem Reader.scan_flatMap {pieces : Char → List Char}
    (each : ∀ char, reader.scan (pieces char) = reader) (text : List Char) :
    reader.scan (text.flatMap pieces) = reader := by
  induction text with
  | nil => rfl
  | cons char rest ih =>
    rw [flatMap_cons, scan_append, each, ih]

theorem Reader.scan_pair (inTemplate : reader.mode = .quoted .template) :
    reader.scan ['\x7b', '\x7b'] = reader ∧ reader.scan ['\x7d', '\x7d'] = reader := by
  obtain ⟨mode, word, bracket, outer, count, owners⟩ := reader
  cases inTemplate
  exact ⟨rfl, rfl⟩

theorem Reader.scan_interpolationText (inTemplate : reader.mode = .quoted .template)
    (text : String) : reader.scan (Quoted.interpolationText text).toList = reader := by
  have both : Quoted.doubleBraces (Quoted.escape '"' text.toList) =
      text.toList.flatMap fun char => Quoted.doubleBraces (Quoted.escapeChar '"' char) :=
    flatMap_assoc
  rw [Quoted.interpolationText, String.toList_ofList, both]
  refine scan_flatMap (fun char => ?_) _
  rcases Quoted.escapeChar_cases '"' char with
    ⟨letter, escaped, isLetter⟩ | ⟨itself, noBackslash, noQuote⟩
  · have undoubled : Quoted.doubleBraces ['\\', letter] = ['\\', letter] := by
      simp only [mem_cons, not_mem_nil, or_false] at isLetter
      rcases isLetter with rfl | rfl | rfl | rfl | rfl | rfl <;> rfl
    rw [escaped, undoubled, scan_escaped inTemplate]
  · rw [itself]
    by_cases opens : char = '\x7b'
    · subst opens
      exact (scan_pair inTemplate).1
    · by_cases closes : char = '\x7d'
      · subst closes
        exact (scan_pair inTemplate).2
      · have single : Quoted.doubleBraces [char] = [char] := by
          simp [Quoted.doubleBraces, Quoted.openBrace, Quoted.closeBrace, opens, closes]
        rw [single]
        exact read_quoted inTemplate noBackslash noQuote fun isTemplate => opens isTemplate.2

theorem Reads.quoted (quote : Quote) {chars : List Char} (isFlat : quote ≠ .template)
    (stays : ∀ reader : Reader, reader.mode = .quoted quote → reader.scan chars = reader) :
    Reads true true (String.ofList (quote.sign :: chars ++ [quote.sign])) [] := by
  intro reader inCode _
  have opens : reader.read quote.sign = { reader.finishWord with mode := .quoted quote } := by
    rw [Reader.read_apart inCode (by cases quote <;> decide)]
    cases quote with
    | template => exact absurd rfl isFlat
    | _ => rfl
  have closes : Reader.read { reader.finishWord with mode := .quoted quote } quote.sign =
      reader.finishWord := by
    have back : Reader.read { reader.finishWord with mode := .quoted quote } quote.sign =
        { reader.finishWord with mode := .code } := by
      cases quote <;> rfl
    rw [back, ← inCode, ← reader.finishWord_mode]
  have whole : reader.scan (String.ofList (quote.sign :: chars ++ [quote.sign])).toList =
      reader.finishWord := by
    rw [String.toList_ofList, cons_append, Reader.scan, foldl_cons, opens,
      ← Reader.scan, Reader.scan_append, stays _ rfl]
    exact closes
  rw [whole]
  exact ⟨Reader.finishWord_of_apart reader.finishWord_word, fun _ => reader.finishWord_word⟩

theorem Reads.stringLiteral (text : String) : Reads true true (Quoted.stringLiteral text) [] :=
  Reads.quoted .text nofun fun _ inQuotes =>
    Reader.scan_flatMap (Reader.scan_escapeChar inQuotes nofun) text.toList

theorem Reads.charLiteral (char : Char) : Reads true true (Quoted.charLiteral char) [] :=
  Reads.quoted .letter nofun fun _ inQuotes => Reader.scan_escapeChar inQuotes nofun char

/-! ## Templates -/

/-- Whether a text can follow an opening brace without making a pair with it. -/
def isUnpaired (text : String) : Bool := text.toList.head? != some '\x7b'

def Fills (text : String) (steps : List Step) : Prop :=
  ∀ reader : Reader, reader.mode = .quoted .template → reader.word = [] →
    reader.scan text.toList = reader.walk steps

namespace Fills

variable {text rest : String} {steps more : List Step}

theorem empty : Fills "" [] := fun _ _ _ => rfl

theorem interpolationText (text : String) : Fills (Quoted.interpolationText text) [] :=
  fun _ inTemplate _ => Reader.scan_interpolationText inTemplate text

theorem of_eq (fills : Fills text steps) (same : steps = more) : Fills text more := same ▸ fills

theorem append (first : Fills text steps) (second : Fills rest more) :
    Fills (text ++ rest) (steps ++ more) := by
  intro reader inTemplate noWord
  rw [String.toList_append, Reader.scan_append, first reader inTemplate noWord, Reader.walk_append]
  exact second _ (by simpa using inTemplate) (by simpa using noWord)

/-- A brace in a template opens a hole, unless another one follows. -/
theorem scan_brace {reader : Reader} {text : List Char} (inBrace : reader.mode = .brace)
    (isSome : text ≠ []) (unpaired : text.head? ≠ some '\x7b') :
    reader.scan text = ({ reader with mode := .code }.enter true).scan text := by
  cases text with
  | nil => exact absurd rfl isSome
  | cons char rest =>
    have single : char ≠ '\x7b' := by simpa using unpaired
    simp [Reader.scan, Reader.read, inBrace, single, Reader.enter]

theorem hole {ends : Bool} (reads : Reads false ends text steps) (closed : Closed steps)
    (unpaired : isUnpaired text = true) : Fills ("\x7b" ++ text ++ "\x7d") steps := by
  intro reader inTemplate noWord
  obtain ⟨count, read, reading⟩ := closed
  let inside := { reader with mode := .code }.enter true
  have opened : reader.scan "\x7b".toList = { reader with mode := .brace } := by
    obtain ⟨mode, word, bracket, outer, count, owners⟩ := reader
    cases inTemplate
    rfl
  have entered : Reader.scan { reader with mode := .brace } (text.toList ++ "\x7d".toList) =
      inside.scan (text.toList ++ "\x7d".toList) := by
    refine scan_brace rfl (by simp) ?_
    unfold isUnpaired at unpaired
    cases chars : text.toList <;> simp_all
  have insideApart : inside.word = [] := noWord
  obtain ⟨same, _⟩ := reads inside rfl fun _ => insideApart
  have isHole : (inside.scan text.toList).bracket.isHole = true := by
    rw [← Reader.finishWord_isHole, same, reading, Reader.finishWord_of_apart insideApart]
    rfl
  have closes : ((inside.scan text.toList).scan "\x7d".toList) =
      { (inside.scan text.toList).finishWord.leave with mode := .quoted .template } := by
    have inCode := reads.mode rfl fun _ => insideApart
    change (inside.scan text.toList).read '\x7d' = _
    rw [Reader.read_apart inCode (by decide)]
    simp [Reader.readSign, isHole]
  rw [String.toList_append, String.toList_append, append_assoc, Reader.scan_append, opened,
    entered, Reader.scan_append, closes, same, Reader.finishWord_of_apart insideApart, reading,
    reading]
  simp [inside, Reader.enter, Reader.leave, inTemplate]

end Fills

theorem Reads.template {steps : List Step} (fills : Fills text steps) :
    Reads true true ("$\"" ++ text ++ "\"") steps := by
  intro reader inCode _
  let inside := { reader.finishWord with mode := .quoted .template }
  have opened : reader.scan "$\"".toList = inside := by
    change (reader.read '$').read '"' = _
    rw [Reader.read_apart inCode (by decide)]
    rfl
  have filled := fills inside rfl reader.finishWord_word
  have closed : (inside.walk steps).scan "\"".toList = reader.finishWord.walk steps := by
    have back : Reader.scan { reader.finishWord.walk steps with mode := .quoted .template }
        "\"".toList = { reader.finishWord.walk steps with mode := .code } := rfl
    rw [Reader.walk_withMode, back, ← inCode, ← reader.finishWord_mode,
      ← Reader.walk_mode _]
  have whole : reader.scan ("$\"" ++ text ++ "\"").toList = reader.finishWord.walk steps := by
    rw [String.toList_append, String.toList_append, Reader.scan_append, Reader.scan_append, opened,
      filled, closed]
  rw [whole]
  have noWord : (reader.finishWord.walk steps).word = [] := by simp
  exact ⟨Reader.finishWord_of_apart noWord, fun _ => noWord⟩

/-! ## Lists of pieces -/

inductive Listed : List String → List Step → Prop where
  | nil : Listed [] []
  | cons {text : String} {rest : List String} {steps more : List Step}
      (first : Reads false false text steps) (others : Listed rest more) :
      Listed (text :: rest) (steps ++ more)

namespace Listed

variable {texts others : List String} {steps more : List Step}

theorem of_eq (listed : Listed texts steps) (same : steps = more) : Listed texts more :=
  same ▸ listed

theorem append (first : Listed texts steps) (second : Listed others more) :
    Listed (texts ++ others) (steps ++ more) := by
  induction first with
  | nil => exact second
  | cons reads _ ih =>
    rw [cons_append, append_assoc]
    exact .cons reads ih

theorem plain (plain : ∀ name ∈ names, isPlain name = true) :
    Listed names [] := by
  induction names with
  | nil => exact .nil
  | cons name rest ih =>
    obtain ⟨namePlain, restPlain⟩ := forall_mem_cons.1 plain
    exact .cons (.plain namePlain) (ih restPlain)

theorem separated {separator : String} (separates : Reads true true separator [])
    (listed : Listed texts steps) : Reads false false (separator.intercalate texts) steps := by
  induction listed with
  | nil => exact Reads.empty.apart
  | cons reads others ih =>
    cases others with
    | nil =>
      rw [String.intercalate_singleton]
      exact reads.of_eq (append_nil _).symm
    | cons _ _ =>
      rw [String.intercalate_cons_cons]
      exact ((reads.append separates rfl).append ih rfl).of_eq (by simp)

theorem commaList (listed : Listed texts steps) :
    Reads false false (Unsugar.commaList texts) steps :=
  listed.separated (.gap rfl rfl rfl)

end Listed

theorem Reads.angleList (plain : ∀ name ∈ names, isPlain name = true) :
    Reads true false (Unsugar.angleList names) [] := by
  have opening : Reads true true "<" [] := .gap rfl rfl rfl
  have closing : Reads true true ">" [] := .gap rfl rfl rfl
  cases names with
  | nil => exact .empty
  | cons name rest =>
    exact ((opening.append (Listed.plain plain).commaList rfl).append closing rfl).unfinished

theorem Reader.scan_blanks (inCode : reader.mode = .code) (isApart : reader.word = [])
    {count : Nat} : reader.scan (List.replicate count ' ') = reader := by
  have stays : reader.read ' ' = reader := by
    rw [read_apart inCode (by decide), finishWord_of_apart isApart]
    rfl
  induction count with
  | zero => rfl
  | succ count ih =>
    rw [replicate_succ, scan, foldl_cons, stays]
    exact ih

theorem Reads.indentText (depth : Nat) : Reads false true (Unsugar.indentText depth) [] := by
  intro reader inCode isApart
  rw [Unsugar.indentText, String.toList_ofList, Reader.scan_blanks inCode (isApart rfl)]
  exact ⟨rfl, fun _ => isApart rfl⟩

end Conditionals

/-! ## Literals -/

theorem Decimal.digitsOf_numeric (value : Nat) : ∀ char ∈ digitsOf value, isNumeric char = true := by
  intro char isDigit
  simp [isNumeric, Nat.isDigit_of_mem_toDigits (by decide) (by decide) isDigit]

theorem Decimal.positional_numeric {decimal : Scaled} :
    ∀ char ∈ decimal.positional.toList, isNumeric char = true := by
  have digits := digitsOf_numeric decimal.digits
  have zeros (count : Nat) : ∀ char ∈ List.replicate count '0', isNumeric char = true :=
    fun char isZero => eq_of_mem_replicate isZero ▸ by decide
  unfold Scaled.positional
  simp only
  split
  · rw [String.toList_ofList, forall_mem_append]
    exact ⟨digits, zeros _⟩
  · split
    · simp only [String.toList_append, String.toList_ofList, forall_mem_append]
      refine ⟨⟨fun char isTaken => digits char (mem_of_mem_take isTaken),
        all_eq_true.1 (by decide)⟩,
        fun char isRest => digits char (mem_of_mem_drop isRest)⟩
    · simp only [String.toList_append, String.toList_ofList, forall_mem_append]
      exact ⟨all_eq_true.1 (by decide), zeros _, digits⟩

theorem Decimal.renderShortest_plain (bits : UInt64) : isPlain (renderShortest bits) = true := by
  unfold renderShortest
  split
  case h_1 => decide
  case h_2 negative _ => cases negative <;> decide
  case h_3 negative _ _ => cases negative <;> decide
  case h_4 negative significand exponent _ _ =>
    refine isPlain_numeric ?_
    rw [String.toList_append, forall_mem_append]
    exact ⟨all_eq_true.1 (by cases negative <;> decide), positional_numeric⟩

theorem Decimal.toString_plain (value : Int) : isPlain (toString value) = true := by
  refine isPlain_numeric ?_
  cases value with
  | ofNat value =>
    change ∀ char ∈ value.repr.toList, _
    rw [Nat.toList_repr]
    exact digitsOf_numeric value
  | negSucc value =>
    change ∀ char ∈ ("-" ++ (value + 1).repr).toList, _
    rw [String.toList_append, Nat.toList_repr, forall_mem_append]
    exact ⟨all_eq_true.1 (by decide), digitsOf_numeric _⟩

theorem Literal.reads (value : Literal) : Reads false false value.render [] := by
  cases value with
  | int value => exact .plain (Decimal.toString_plain value)
  | float bits =>
    have shortest := Reads.plain (Decimal.renderShortest_plain bits)
    have point : Reads true false ".0" [] := (Reads.plain (by decide)).following rfl
    unfold Literal.render
    simp only
    split
    · exact shortest.append point rfl
    · exact shortest
  | bool value => cases value <;> exact .plain (by decide)
  | char value => exact (Reads.charLiteral value).apart.unfinished
  | str value => exact (Reads.stringLiteral value).apart.unfinished
  | null => exact .plain (by decide)

/-! ## Types -/

mutual

def TypeSyntax.words : TypeSyntax → List String
  | .absent | .var | .dynamic | .void => []
  | .named name args => name :: wordsAll args
  | .array inner | .nullable inner => inner.words
  | .tuple elements => wordsAll elements

def TypeSyntax.wordsAll : List TypeSyntax → List String
  | [] => []
  | type :: rest => type.words ++ wordsAll rest

end

theorem closed_nil : Closed [] := Accounts.nil.closed

mutual

theorem TypeSyntax.reads (type : TypeSyntax) (plain : ∀ word ∈ type.words, isPlain word = true) :
    Reads false false type.render [] := by
  match type with
  | .absent | .var | .dynamic | .void => exact .plain (by decide)
  | .named name [] => exact .plain (plain name mem_cons_self)
  | .named name (first :: rest) =>
    obtain ⟨namePlain, argsPlain⟩ := forall_mem_cons.1 plain
    obtain ⟨firstPlain, restPlain⟩ := forall_mem_append.1 argsPlain
    have opening : Reads true true "<" [] := .gap rfl rfl rfl
    have closing : Reads true true ">" [] := .gap rfl rfl rfl
    exact (((((Reads.plain namePlain).append opening rfl).append (first.reads firstPlain)
      rfl).append (TypeSyntax.reads_rest restPlain) rfl).append closing rfl).unfinished
  | .array element =>
    have brackets : Reads true true "[]" [] := .between (fun _ _ _ _ => rfl) rfl
    exact ((element.reads plain).append brackets rfl).unfinished
  | .nullable inner =>
    have mark : Reads true true "?" [] := .gap rfl rfl rfl
    exact ((inner.reads plain).append mark rfl).unfinished
  | .tuple [] => exact (Reads.between (fun _ _ _ _ => rfl) rfl).apart.unfinished
  | .tuple (first :: rest) =>
    obtain ⟨firstPlain, restPlain⟩ := forall_mem_append.1 plain
    have opening : Reads true true "(" [.enter] := .gap rfl rfl rfl
    have closing : Closes true ")" := .evaluated rfl fun _ _ _ _ => rfl
    exact (((opening.append (first.reads firstPlain) rfl).append
      (TypeSyntax.reads_rest restPlain) rfl).closeSilently [] [] rfl closed_nil
      closing).apart.unfinished

theorem TypeSyntax.reads_rest {types : List TypeSyntax}
    (plain : ∀ word ∈ wordsAll types, isPlain word = true) :
    Reads true false (renderRest types) [] := by
  match types with
  | [] => exact .empty
  | type :: rest =>
    obtain ⟨typePlain, restPlain⟩ := forall_mem_append.1 plain
    have comma : Reads true true ", " [] := .gap rfl rfl rfl
    exact (comma.append (type.reads typePlain) rfl).append (TypeSyntax.reads_rest restPlain) rfl

end

open Conditionals

/-! ## How texts start and end

No expression starts with a brace, so that a hole of a template opens before it.
Every statement ends with a line break after a semicolon or a brace, so that the
break can be left out.
-/

/-! ## Words -/

def paramWords (params : List Param) : List String :=
  params.flatMap fun param => param.name :: param.type.words

def Part.words : Part → List String
  | .text _ => []
  | .hole _ _ format => [format]

/-- The names that are written in an expression outside its children. -/
def ExprKind.words : ExprKind → List String
  | .ident name | .member _ name | .memberBinding name => [name]
  | .declaration type name => name :: type.words
  | .typeRef type | .typeTest _ type | .cast type _ | .defaultOf type => type.words
  | .lambda _ params _ _ => paramWords params
  | .create type _ inits => type.words ++ inits.map (·.name)
  | .copyWith _ inits => inits.map (·.name)
  | .interpolated parts => parts.flatMap Part.words
  | _ => []

def StmtKind.words : StmtKind → List String
  | .declare type name _ | .forEach type name _ _ => name :: type.words
  | .localFunction name typeParams params result _ =>
    name :: typeParams ++ paramWords params ++ result.words
  | _ => []

def PatternKind.words : PatternKind → List String
  | .declaration tested name => name :: tested.words
  | .var name => [name]
  | .recursive tested _ properties designation =>
    designation :: tested.words ++ properties.flatMap (·.path)
  | .list _ designation => [designation]
  | .type tested => tested.words
  | _ => []

def Node.words : Node → List String
  | .expr node => node.kind.words
  | .stmt node => node.kind.words
  | .pattern node => node.kind.words

namespace Conditionals

/-! ## Starts -/

theorem isUnpaired_append (first second : String) :
    isUnpaired (first ++ second) = if first = "" then isUnpaired second else isUnpaired first := by
  unfold isUnpaired
  rw [String.toList_append, head?_append]
  split
  case isTrue isEmpty => simp [isEmpty]
  case isFalse isSome =>
    cases chars : first.toList with
    | nil => exact absurd (String.toList_eq_nil_iff.1 chars) isSome
    | cons char rest => rfl

theorem isUnpaired_of_plain (plain : isPlain text = true) : isUnpaired text = true := by
  unfold isUnpaired
  unfold isPlain at plain
  cases chars : text.toList with
  | nil => rfl
  | cons char rest =>
    by_cases isBrace : char = '\x7b'
    · rw [chars, isBrace] at plain
      exact absurd plain (by simp [stepsFrom, isWordChar])
    · simpa using isBrace

end Conditionals

theorem Literal.unpaired (value : Literal) : isUnpaired value.render = true := by
  cases value with
  | int value => exact isUnpaired_of_plain (Decimal.toString_plain value)
  | float bits =>
    have shortest := isUnpaired_of_plain (Decimal.renderShortest_plain bits)
    unfold Literal.render
    simp only
    split
    · simp +decide [isUnpaired_append, shortest]
    · exact shortest
  | bool value => cases value <;> decide
  | char value => simp [Literal.render, Quoted.charLiteral, isUnpaired]
  | str value => simp [Literal.render, Quoted.stringLiteral, isUnpaired]
  | null => decide

theorem TypeSyntax.unpaired (type : TypeSyntax)
    (plain : ∀ word ∈ type.words, isPlain word = true) : isUnpaired type.render = true := by
  cases type with
  | absent | var | dynamic | void => decide
  | named name args =>
    have ofName := isUnpaired_of_plain (plain name mem_cons_self)
    cases args with
    | nil => exact ofName
    | cons first rest => simp +decide [TypeSyntax.render, isUnpaired_append, ofName]
  | array element =>
    have ofElement := element.unpaired plain
    simp +decide [TypeSyntax.render, isUnpaired_append, ofElement]
  | nullable inner =>
    have ofInner := inner.unpaired plain
    simp +decide [TypeSyntax.render, isUnpaired_append, ofInner]
  | tuple components =>
    cases components with
    | nil => decide
    | cons first rest => simp +decide [TypeSyntax.render, isUnpaired_append]

theorem Expr.unpaired {mark : Mark} {kind : ExprKind} {depth : Nat}
    (ofKind : isUnpaired (kind.render depth) = true) (min : Nat) :
    isUnpaired (Expr.render depth min ⟨mark, kind⟩) = true := by
  unfold Expr.render
  split
  · simp +decide [isUnpaired_append]
  · exact ofKind

theorem ExprKind.unpaired (kind : ExprKind) (depth : Nat)
    (plain : ∀ word ∈ kind.words, isPlain word = true)
    (each : ∀ node, Node.expr node ∈ kind.children → ∀ min, isUnpaired (node.render depth min) = true) :
    isUnpaired (kind.render depth) = true := by
  cases kind with
  | literal value => exact value.unpaired
  | ident name => exact isUnpaired_of_plain (plain name mem_cons_self)
  | typeRef type => exact type.unpaired plain
  | declaration type name =>
    have ofType := type.unpaired (forall_mem_cons.1 plain).2
    simp +decide [ExprKind.render, isUnpaired_append, ofType]
  | range start stop =>
    have ofStart : isUnpaired (renderExpr? depth Level.unary start) = true := by
      cases start with
      | none => rfl
      | some node => exact each node mem_cons_self _
    simp +decide [ExprKind.render, isUnpaired_append, ofStart]
  | unary op operand =>
    cases op <;> simp +decide [ExprKind.render, UnaryOp.symbol, isUnpaired_append]
  | defaultOf type =>
    unfold ExprKind.render
    split <;> simp +decide [isUnpaired_append]
  | create type args inits =>
    cases inits <;> simp +decide [ExprKind.render, isUnpaired_append]
  | _ => simp_all +decide [ExprKind.render, isUnpaired_append, ExprKind.children]

/-! ## Ends -/

namespace Conditionals

def EndsLine (text : String) : Prop :=
  ∃ before last, text = before ++ last ++ "\n" ∧ (last = ";" ∨ last = "\x7d")

namespace EndsLine

theorem append (first : String) {second : String} (ends : EndsLine second) :
    EndsLine (first ++ second) := by
  obtain ⟨before, last, rfl, isLast⟩ := ends
  exact ⟨first ++ before, last, by simp [String.append_assoc], isLast⟩

theorem semicolon : EndsLine ";\n" := ⟨"", ";", by decide, .inl rfl⟩

theorem brace : EndsLine "\x7d\n" := ⟨"", "\x7d", by decide, .inr rfl⟩

theorem trim (ends : EndsLine text) :
    ∃ before last, (last = ';' ∨ last = '\x7d') ∧ text.toList = before ++ [last] ++ ['\n'] ∧
      trimBlankEnd text.toList = before ++ [last] := by
  obtain ⟨before, last, rfl, isLast⟩ := ends
  rcases isLast with rfl | rfl
  · exact ⟨before.toList, ';', .inl rfl, by simp, by simp +decide [trimBlankEnd]⟩
  · exact ⟨before.toList, '\x7d', .inr rfl, by simp, by simp +decide [trimBlankEnd]⟩

end EndsLine

theorem Reader.readCode_last {reader : Reader} (inCode : reader.mode = .code)
    (isLast : last = ';' ∨ last = '\x7d') :
    (reader.readCode last).word = [] ∧
      ((reader.readCode last).mode = .code ∨ (reader.readCode last).mode = .quoted .template) := by
  rcases isLast with rfl | rfl
  · simp [readCode, readSign, isWordChar, inCode]
  · cases hole : reader.bracket.isHole <;>
      simp [readCode, readSign, isWordChar, leave, inCode, hole]

theorem Reader.read_last (reader : Reader) (isLast : last = ';' ∨ last = '\x7d') :
    ((reader.read last).word = [] ∧ (reader.read last).mode = .code) ∨
      ∃ quote, (reader.read last).mode = .quoted quote := by
  have fromCode {earlier : Reader} (inCode : earlier.mode = .code) :
      ((earlier.readCode last).word = [] ∧ (earlier.readCode last).mode = .code) ∨
        ∃ quote, (earlier.readCode last).mode = .quoted quote := by
    obtain ⟨noWord, isCode | isQuoted⟩ := readCode_last inCode isLast
    · exact .inl ⟨noWord, isCode⟩
    · exact .inr ⟨_, isQuoted⟩
  have noSign : last ≠ '\\' ∧ last ≠ '"' ∧ last ≠ '\'' ∧ last ≠ '\x7b' := by
    rcases isLast with rfl | rfl <;> decide
  cases mode : reader.mode with
  | code =>
    simp only [read, mode]
    exact fromCode mode
  | dollar =>
    simp only [read, mode, if_neg noSign.2.1]
    exact fromCode rfl
  | quoted quote =>
    have stays : reader.read last = reader :=
      read_quoted mode noSign.1 (by cases quote <;> simp [Quote.sign, noSign])
        fun isHole => noSign.2.2.2 isHole.2
    rw [stays]
    exact .inr ⟨quote, mode⟩
  | escaped quote => exact .inr ⟨quote, by simp [read, mode]⟩
  | brace =>
    simp only [read, mode, if_neg noSign.2.2.2]
    exact fromCode rfl

theorem Reads.trimmed {steps : List Step} (reads : Reads false true text steps)
    (ends : EndsLine text) : Reads false true (String.ofList (trimBlankEnd text.toList)) steps := by
  intro reader inCode isApart
  obtain ⟨before, last, isLast, isText, kept⟩ := ends.trim
  have whole := reads reader inCode isApart
  rw [isText, Reader.scan_append] at whole
  have same : (reader.scan (before ++ [last])).scan ['\n'] = reader.scan (before ++ [last]) := by
    rw [Reader.scan_append]
    change ((reader.scan before).read last).read '\n' = (reader.scan before).read last
    rcases (reader.scan before).read_last isLast with ⟨noWord, isCode⟩ | ⟨quote, inQuotes⟩
    · rw [Reader.read_apart isCode (by decide), Reader.finishWord_of_apart noWord]
      rfl
    · exact Reader.read_quoted inQuotes (by decide) (by cases quote <;> decide) (by simp)
  rw [same] at whole
  rw [kept, String.toList_ofList]
  exact whole

end Conditionals

end Unsugar
