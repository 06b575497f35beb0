import Unsugar.Syntax.Children

open List

namespace Unsugar.Conditionals

/-! # Which `if` an `else` belongs to

In a text, an `else` belongs to the nearest `if` before it that has none yet and
stands between the same brackets.  In a tree it belongs to the statement that
holds it.  Both are followed along the same steps, so that they can be compared
without regard to the text.
-/

/-! ## Reading -/

variable {left rest : List Nat} {number : Nat}

inductive Quote where
  | text
  | letter
  /-- Text with holes for expressions. -/
  | template
  deriving DecidableEq

def Quote.sign : Quote → Char
  | .text | .template => '"'
  | .letter => '\''

inductive Mode where
  | code
  /-- After a dollar sign, which makes a quoted text a template. -/
  | dollar
  | quoted (quote : Quote)
  | escaped (quote : Quote)
  /-- After an opening brace in a template, which may be one of a pair. -/
  | brace
  deriving DecidableEq

/-- What stands between two brackets. -/
structure Bracket where
  /-- Every `if` that has no `else` yet, nearest first. -/
  waiting : List Nat
  /-- Whether a template goes on after the closing bracket. -/
  isHole : Bool

/-- A reader of program text.  Every `if` is known by its number in the text. -/
structure Reader where
  mode : Mode
  /-- The letters of the word that is being read, last first. -/
  word : List Char
  bracket : Bracket
  /-- The brackets around this one, nearest first. -/
  outer : List Bracket
  count : Nat
  owners : List (Option Nat)

def isWordChar (char : Char) : Bool := char.isAlphanum || char == '_' || 127 < char.toNat

namespace Reader

def start : Reader := ⟨.code, [], ⟨[], false⟩, [], 0, []⟩

def enter (isHole : Bool) (reader : Reader) : Reader :=
  { reader with bracket := ⟨[], isHole⟩, outer := reader.bracket :: reader.outer }

def leave (reader : Reader) : Reader :=
  { reader with bracket := reader.outer.headD ⟨[], false⟩, outer := reader.outer.tail }

def meetIf (reader : Reader) : Reader :=
  { reader with
    bracket := { reader.bracket with waiting := reader.count :: reader.bracket.waiting }
    count := reader.count + 1 }

def meetElse (reader : Reader) : Reader :=
  { reader with
    bracket := { reader.bracket with waiting := reader.bracket.waiting.tail }
    owners := reader.owners ++ [reader.bracket.waiting.head?] }

def finishWord (reader : Reader) : Reader :=
  let finished := { reader with word := [] }
  if reader.word = ['f', 'i'] then finished.meetIf
  else if reader.word = ['e', 's', 'l', 'e'] then finished.meetElse
  else finished

def readSign (reader : Reader) (char : Char) : Reader :=
  if char = '(' ∨ char = '[' ∨ char = '\x7b' then reader.enter false
  else if char = ')' ∨ char = ']' ∨ char = '\x7d' then
    { reader.leave with
      mode := if reader.bracket.isHole then .quoted .template else reader.mode }
  else if char = '"' then { reader with mode := .quoted .text }
  else if char = '\'' then { reader with mode := .quoted .letter }
  else if char = '$' then { reader with mode := .dollar }
  else reader

def readCode (reader : Reader) (char : Char) : Reader :=
  if isWordChar char then { reader with word := char :: reader.word }
  else reader.finishWord.readSign char

def read (reader : Reader) (char : Char) : Reader :=
  match reader.mode with
  | .code => reader.readCode char
  | .dollar =>
    if char = '"' then { reader with mode := .quoted .template }
    else { reader with mode := .code }.readCode char
  | .quoted quote =>
    if char = '\\' then { reader with mode := .escaped quote }
    else if char = quote.sign then { reader with mode := .code }
    else if quote = .template ∧ char = '\x7b' then { reader with mode := .brace }
    else reader
  | .escaped quote => { reader with mode := .quoted quote }
  | .brace =>
    if char = '\x7b' then { reader with mode := .quoted .template }
    else ({ reader with mode := .code }.enter true).readCode char

def scan (reader : Reader) (text : List Char) : Reader := text.foldl read reader

end Reader

def readOwners (text : String) : List (Option Nat) :=
  (Reader.start.scan text.toList).finishWord.owners

/-! ## Steps through a tree -/

/-- What is met on the way through a tree, in the order of its text.  Where an `if`
    statement ends does not show in a text. -/
inductive Step where
  | enter
  | leave
  | meetIf
  | meetElse
  | endIf
  deriving DecidableEq

def Reader.take (reader : Reader) : Step → Reader
  | .enter => reader.enter false
  | .leave => reader.leave
  | .meetIf => reader.meetIf
  | .meetElse => reader.meetElse
  | .endIf => reader

def Reader.walk (reader : Reader) (steps : List Step) : Reader := steps.foldl take reader

/-- A way through a tree, with the `if` statements it is in. -/
structure Path where
  within : List Nat
  count : Nat
  owners : List (Option Nat)

/-- The `else` of a statement belongs to the statement. -/
def Path.take (path : Path) : Step → Path
  | .enter | .leave => path
  | .meetIf => { path with within := path.count :: path.within, count := path.count + 1 }
  | .meetElse => { path with owners := path.owners ++ [path.within.head?] }
  | .endIf => { path with within := path.within.tail }

def Path.walk (path : Path) (steps : List Step) : Path := steps.foldl take path

/-- The `if` statement of every `else` that is met. -/
def ownersOf (steps : List Step) : List (Option Nat) := (Path.walk ⟨[], 0, []⟩ steps).owners

@[simp] theorem Reader.walk_nil (reader : Reader) : reader.walk [] = reader := rfl

@[simp] theorem Reader.walk_cons (reader : Reader) (step : Step) (rest : List Step) :
    reader.walk (step :: rest) = (reader.take step).walk rest := rfl

@[simp] theorem Reader.walk_append (reader : Reader) (left right : List Step) :
    reader.walk (left ++ right) = (reader.walk left).walk right := foldl_append

@[simp] theorem Path.walk_nil (path : Path) : path.walk [] = path := rfl

@[simp] theorem Path.walk_cons (path : Path) (step : Step) (rest : List Step) :
    path.walk (step :: rest) = (path.take step).walk rest := rfl

@[simp] theorem Path.walk_append (path : Path) (left right : List Step) :
    path.walk (left ++ right) = (path.walk left).walk right := foldl_append

/-! ## What steps amount to -/

/-- Steps meet this many `if`, leave these waiting, and read these owners; what was
    waiting before is not touched.  All depends only on how many `if` came before. -/
def Reading (steps : List Step) (count : Nat) (left : Nat → List Nat)
    (read : Nat → List (Option Nat)) : Prop :=
  ∀ reader : Reader, reader.walk steps = { reader with
      bracket :=
        { reader.bracket with waiting := left reader.count ++ reader.bracket.waiting }
      count := reader.count + count
      owners := reader.owners ++ read reader.count }

def Owning (steps : List Step) (count : Nat) (own : Nat → List (Option Nat)) : Prop :=
  ∀ path : Path, path.walk steps =
    { path with count := path.count + count, owners := path.owners ++ own path.count }

/-- Steps leave this many `if` waiting, and what is read is right exactly if they are
    safe. -/
def Accounts (steps : List Step) (waiting : Nat) (isSafe : Prop) : Prop :=
  ∃ count left read own, Reading steps count left read ∧ Owning steps count own ∧
    ∀ start, (left start).length = waiting ∧ (∀ number ∈ left start, start ≤ number) ∧
      (read start).length = (own start).length ∧ (read start = own start ↔ isSafe)

/-- Steps between brackets of their own. -/
def grouped (steps : List Step) : List Step := .enter :: steps ++ [.leave]

namespace Accounts

variable {steps others : List Step} {waiting more : Nat} {isSafe isSafe' : Prop}

theorem congr {waiting' : Nat} (accounts : Accounts steps waiting isSafe)
    (sameCount : waiting = waiting') (sameSafety : isSafe ↔ isSafe') :
    Accounts steps waiting' isSafe' := by
  obtain ⟨count, left, read, own, reading, owning, facts⟩ := accounts
  refine ⟨count, left, read, own, reading, owning, fun start => ?_⟩
  obtain ⟨leaves, later, sameLength, right⟩ := facts start
  exact ⟨leaves.trans sameCount, later, sameLength, right.trans sameSafety⟩

theorem nil : Accounts [] 0 True := by
  refine ⟨0, fun _ => [], fun _ => [], fun _ => [], fun reader => ?_, fun path => ?_,
    fun start => by simp⟩
  · simp
  · simp

theorem append (first : Accounts steps waiting isSafe) (second : Accounts others more isSafe') :
    Accounts (steps ++ others) (waiting + more) (isSafe ∧ isSafe') := by
  obtain ⟨count, left, read, own, reading, owning, facts⟩ := first
  obtain ⟨count', left', read', own', reading', owning', facts'⟩ := second
  refine ⟨count + count', fun start => left' (start + count) ++ left start,
    fun start => read start ++ read' (start + count),
    fun start => own start ++ own' (start + count), fun reader => ?_, fun path => ?_,
    fun start => ?_⟩
  · rw [Reader.walk_append, reading, reading']
    simp [Nat.add_assoc]
  · rw [Path.walk_append, owning, owning']
    simp [Nat.add_assoc]
  · obtain ⟨leaves, later, sameLength, right⟩ := facts start
    obtain ⟨leaves', later', sameLength', right'⟩ := facts' (start + count)
    refine ⟨by simp [leaves, leaves', Nat.add_comm more], fun number isLeft => ?_,
      by simp [sameLength, sameLength'], ?_⟩
    · rcases mem_append.1 isLeft with isLeft | isLeft
      · exact Nat.le_trans (Nat.le_add_right _ _) (later' number isLeft)
      · exact later number isLeft
    · rw [← right, ← right']
      constructor
      · exact fun same => append_inj same sameLength
      · rintro ⟨same, same'⟩
        simp only [same, same']

theorem group (accounts : Accounts steps waiting isSafe) : Accounts (grouped steps) 0 isSafe := by
  obtain ⟨count, left, read, own, reading, owning, facts⟩ := accounts
  refine ⟨count, fun _ => [], read, own, fun reader => ?_, fun path => ?_, fun start => ?_⟩
  · rw [grouped, cons_append, Reader.walk_cons, Reader.walk_append, reading]
    simp [Reader.take, Reader.enter, Reader.leave]
  · rw [grouped, cons_append, Path.walk_cons, Path.walk_append, owning]
    simp [Path.take]
  · obtain ⟨_, _, sameLength, right⟩ := facts start
    exact ⟨rfl, nofun, sameLength, right⟩

theorem ifOnly (accounts : Accounts steps waiting isSafe) :
    Accounts (.meetIf :: steps ++ [.endIf]) (waiting + 1) isSafe := by
  obtain ⟨count, left, read, own, reading, owning, facts⟩ := accounts
  refine ⟨1 + count, fun start => left (start + 1) ++ [start], fun start => read (start + 1),
    fun start => own (start + 1), fun reader => ?_, fun path => ?_, fun start => ?_⟩
  · rw [cons_append, Reader.walk_cons, Reader.walk_append, reading]
    simp [Reader.take, Reader.meetIf, Nat.add_assoc]
  · rw [cons_append, Path.walk_cons, Path.walk_append, owning]
    simp [Path.take, Nat.add_assoc]
  · obtain ⟨leaves, later, sameLength, right⟩ := facts (start + 1)
    refine ⟨by simp [leaves], fun number isLeft => ?_, sameLength, right⟩
    rcases mem_append.1 isLeft with isLeft | isStart
    · exact Nat.le_of_succ_le (later number isLeft)
    · exact Nat.le_of_eq (mem_singleton.1 isStart).symm

theorem head_eq_iff {start : Nat} (later : ∀ number ∈ left, start + 1 ≤ number) :
    (left ++ [start]).head? = some start ↔ left.length = 0 := by
  cases left with
  | nil => simp
  | cons number rest =>
    have isLater := later number mem_cons_self
    simp only [cons_append, head?_cons, Option.some.injEq, length_cons]
    omega

theorem head_append_cons :
    (left ++ number :: rest).head? = (left ++ [number]).head? := by
  cases left <;> rfl

theorem tail_append_cons :
    (left ++ number :: rest).tail = (left ++ [number]).tail ++ rest := by
  cases left <;> simp

theorem ifElse (first : Accounts steps waiting isSafe) (second : Accounts others more isSafe') :
    Accounts (.meetIf :: steps ++ .meetElse :: others ++ [.endIf]) (waiting + more)
      (waiting = 0 ∧ isSafe ∧ isSafe') := by
  obtain ⟨count, left, read, own, reading, owning, facts⟩ := first
  obtain ⟨count', left', read', own', reading', owning', facts'⟩ := second
  refine ⟨1 + count + count',
    fun start => left' (start + 1 + count) ++ (left (start + 1) ++ [start]).tail,
    fun start => read (start + 1) ++ (left (start + 1) ++ [start]).head? ::
      read' (start + 1 + count),
    fun start => own (start + 1) ++ some start :: own' (start + 1 + count),
    fun reader => ?_, fun path => ?_, fun start => ?_⟩
  · simp only [Reader.walk_append, Reader.walk_cons]
    rw [reading, reading']
    simp only [Reader.take, Reader.meetIf, Reader.meetElse, Reader.walk_nil]
    rw [head_append_cons, tail_append_cons]
    simp [Nat.add_assoc]
  · simp only [Path.walk_append, Path.walk_cons]
    rw [owning, owning']
    simp [Path.take, Nat.add_assoc]
  · obtain ⟨leaves, later, sameLength, right⟩ := facts (start + 1)
    obtain ⟨leaves', later', sameLength', right'⟩ := facts' (start + 1 + count)
    refine ⟨by simp [leaves, leaves', Nat.add_comm more], fun number isLeft => ?_,
      by simp [sameLength, sameLength'], ?_⟩
    · rcases mem_append.1 isLeft with isLeft | isLeft
      · have := later' number isLeft
        omega
      · rcases mem_append.1 (mem_of_mem_tail isLeft) with isLeft | isStart
        · exact Nat.le_of_succ_le (later number isLeft)
        · exact Nat.le_of_eq (mem_singleton.1 isStart).symm
    · rw [← right, ← right', ← leaves, ← head_eq_iff later]
      constructor
      · intro same
        obtain ⟨sameFirst, sameRest⟩ := append_inj same sameLength
        obtain ⟨sameHead, sameSecond⟩ := List.cons.inj sameRest
        exact ⟨sameHead, sameFirst, sameSecond⟩
      · rintro ⟨sameHead, sameFirst, sameSecond⟩
        simp only [sameHead, sameFirst, sameSecond]

end Accounts

end Unsugar.Conditionals
