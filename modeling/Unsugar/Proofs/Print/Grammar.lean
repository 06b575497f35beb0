import Unsugar.Eval.Format
import Unsugar.Print.Tree
import Unsugar.Proofs.Print.Conditionals

open List

namespace Unsugar.Grammar

open Conditionals (isWordChar)

/-! # How expressions are read

The grammar that printed expressions are meant for.  A text is cut into words and
signs, each as long as it can be.  Operators bind by their levels; all but `??`
group to the left, assignments and conditional expressions are the loosest forms
and group to the right, and what is assigned to stands at the level of unary
operators.

The grammar is stated twice: as rules for phrases, and as a reader that goes
through the tokens once.  The reader finds every phrase there is, so no tokens can
be read in two ways.
-/

/-! ## Tokens -/

inductive Token where
  /-- A name, a number or a literal that is a word. -/
  | word (chars : List Char)
  /-- An operator, a bracket or a separator. -/
  | sign (chars : List Char)
  deriving DecidableEq, Repr

def isNameChar (char : Char) : Bool := isWordChar char || char == '@'

def longSigns : List (List Char) :=
  [['=', '='], ['!', '='], ['<', '='], ['>', '='], ['&', '&'], ['|', '|'], ['?', '?'],
    ['+', '='], ['-', '='], ['*', '='], ['/', '='], ['%', '='], ['&', '='], ['|', '='],
    ['^', '='], ['?', '?', '='], ['+', '+'], ['-', '-'], ['=', '>'], ['-', '>'], ['<', '<'],
    ['>', '>'], ['?', '.'], ['.', '.'], [':', ':'], ['/', '/'], ['/', '*']]

namespace Token

def start? (char : Char) : Option Token :=
  if char.isWhitespace then none
  else if isNameChar char then some (word [char])
  else some (sign [char])

def extend? : Token → Char → Option Token
  | word chars, char => if isNameChar char then some (word (chars ++ [char])) else none
  | sign chars, char =>
    if chars ++ [char] ∈ longSigns then some (sign (chars ++ [char])) else none

end Token

/-- The tokens that are complete, and the one that may go on. -/
structure Scan where
  tokens : List Token := []
  pending : Option Token := none

namespace Scan

def read (scan : Scan) (char : Char) : Scan :=
  match scan.pending.bind (·.extend? char) with
  | some longer => { scan with pending := some longer }
  | none => ⟨scan.tokens ++ scan.pending.toList, Token.start? char⟩

def all (scan : Scan) : List Token := scan.tokens ++ scan.pending.toList

end Scan

def scan (text : List Char) : Scan := text.foldl Scan.read {}

def tokens (text : List Char) : List Token := (scan text).all

/-! ## Phrases -/

/-- A node of a tree that is read; where it was read is not kept. -/
def node (kind : ExprKind) : Expr := ⟨default, kind⟩

def Token.atom? : Token → Option ExprKind
  | .word ['t', 'r', 'u', 'e'] => some (.literal (.bool true))
  | .word ['f', 'a', 'l', 's', 'e'] => some (.literal (.bool false))
  | .word ['n', 'u', 'l', 'l'] => some (.literal .null)
  | .word chars =>
    if chars.head?.any Char.isDigit then
      (digitsValue? chars).map fun value => .literal (.int value)
    else some (.ident (String.ofList chars))
  | .sign _ => none

/-- Calls and subscripts: what stands in brackets after a receiver. -/
inductive Access where
  | call
  | index
  deriving DecidableEq

namespace Access

def left : Access → List Char
  | call => ['(']
  | index => ['[']

def right : Access → List Char
  | call => [')']
  | index => [']']

def opening (access : Access) : Token := .sign access.left

def closing (access : Access) : Token := .sign access.right

def kind (receiver : Expr) (args : List Expr) : Access → ExprKind
  | call => .call receiver args
  | index => .index receiver args

end Access

def comma : Token := .sign [',']

/-- How tightly the left operand of an operator has to bind. -/
def leftLevel (op : BinaryOp) : Nat := if op.groupsRight then op.level + 1 else op.level

/-- How tightly the right operand of an operator has to bind. -/
def rightLevel (op : BinaryOp) : Nat := if op.groupsRight then op.level else op.level + 1

def assigned : List BinaryOp :=
  [.add, .sub, .mul, .div, .mod, .bitAnd, .bitOr, .bitXor, .coalesce]

def assignSign (op : Option BinaryOp) : Token :=
  .sign ((op.map BinaryOp.symbol).getD "" ++ "=").toList

/-- `Phrase level tokens tree`: the tokens form a phrase that binds at least as
    tightly as the level, and mean the tree. -/
inductive Phrase : Nat → List Token → Expr → Prop where
  | atom {token : Token} {kind : ExprKind} (isAtom : token.atom? = some kind) :
      Phrase Level.primary [token] (node kind)
  | group {inner : List Token} {tree : Expr} (phrase : Phrase Level.lowest inner tree) :
      Phrase Level.primary (.sign ['('] :: (inner ++ [.sign [')']])) (node (.paren tree))
  | member {left : List Token} {receiver : Expr} {word : Token} {name : String}
      (phrase : Phrase Level.primary left receiver) (isName : word.atom? = some (.ident name)) :
      Phrase Level.primary (left ++ [.sign ['.'], word]) (node (.member receiver name))
  | access {left : List Token} {receiver : Expr} {args : List (List Token × Expr)}
      (access : Access) (phrase : Phrase Level.primary left receiver)
      (phrases : ∀ arg ∈ args, Phrase Level.lowest arg.1 arg.2) :
      Phrase Level.primary
        (left ++ access.opening :: ([comma].intercalate (args.map Prod.fst) ++ [access.closing]))
        (node (access.kind receiver (args.map Prod.snd)))
  | unary {right : List Token} {operand : Expr} (op : UnaryOp)
      (phrase : Phrase Level.unary right operand) :
      Phrase Level.unary (.sign op.symbol.toList :: right) (node (.unary op operand))
  | binary {first second : List Token} {left right : Expr} (op : BinaryOp)
      (leftPhrase : Phrase (leftLevel op) first left)
      (rightPhrase : Phrase (rightLevel op) second right) :
      Phrase op.level (first ++ .sign op.symbol.toList :: second) (node (.binary op left right))
  | conditional {first second third : List Token} {cond yes no : Expr}
      (condPhrase : Phrase Level.coalesce first cond) (yesPhrase : Phrase Level.lowest second yes)
      (noPhrase : Phrase Level.lowest third no) :
      Phrase Level.conditional (first ++ .sign ['?'] :: (second ++ .sign [':'] :: third))
        (node (.conditional cond yes no))
  | assign {first second : List Token} {target value : Expr} {op : Option BinaryOp}
      (isAssigned : ∀ applied ∈ op, applied ∈ assigned)
      (targetPhrase : Phrase Level.unary first target)
      (valuePhrase : Phrase Level.lowest second value) :
      Phrase Level.lowest (first ++ assignSign op :: second) (node (.assign op target value))
  /-- What binds tighter can stand wherever something looser can. -/
  | looser {level min : Nat} {tokens : List Token} {tree : Expr}
      (phrase : Phrase level tokens tree) (isLooser : min ≤ level) : Phrase min tokens tree

/-! ## Reading -/

/-- A part of an expression that waits for its last operand. -/
inductive Frame where
  | unary (op : UnaryOp)
  | binary (op : BinaryOp) (left : Expr)
  | assign (op : Option BinaryOp) (target : Expr)
  | chosen (cond : Expr)
  | otherwise (cond yes : Expr)
  | group
  | args (access : Access) (receiver : Expr) (before : List Expr)

namespace Frame

/-- How tightly the last operand has to bind. -/
def level : Frame → Nat
  | unary _ => Level.unary
  | binary op _ => rightLevel op
  | _ => Level.lowest

/-- The node that a frame becomes with its last operand.  What stands in brackets
    waits for the closing one. -/
def close? (last : Expr) : Frame → Option Expr
  | unary op => some (node (.unary op last))
  | binary op left => some (node (.binary op left last))
  | assign op target => some (node (.assign op target last))
  | otherwise cond yes => some (node (.conditional cond yes last))
  | chosen _ | group | args .. => none

end Frame

/-- How tightly an operand has to bind that comes next. -/
def levelOf : List Frame → Nat
  | [] => Level.lowest
  | frame :: _ => frame.level

def reduce (limit : Nat) : List Frame → Expr → List Frame × Expr
  | [], last => ([], last)
  | frame :: stack, last =>
    match frame.close? last with
    | some whole =>
      if limit < frame.level then reduce limit stack whole else (frame :: stack, last)
    | none => (frame :: stack, last)

/-- A reader, nearest frame first. -/
inductive State where
  | operand (stack : List Frame)
  | argument (access : Access) (receiver : Expr) (stack : List Frame)
  /-- An operand has been read. -/
  | value (stack : List Frame) (last : Expr)
  /-- The name of a member comes next. -/
  | member (stack : List Frame) (receiver : Expr)

/-- What a sign means after an operand. -/
inductive Follower where
  | binary (op : BinaryOp)
  | assign (op : Option BinaryOp)
  | question
  | colon
  | comma
  | dot
  | opens (access : Access)
  | closes (access : Access)
  deriving DecidableEq

def followers : List (Token × Follower) :=
  BinaryOp.all.map (fun op => (.sign op.symbol.toList, .binary op)) ++
    (none :: assigned.map some).map (fun op => (assignSign op, .assign op)) ++
    [(.sign ['?'], .question), (.sign [':'], .colon), (comma, .comma), (.sign ['.'], .dot)] ++
    [Access.call, .index].map (fun access => (access.opening, .opens access)) ++
    [Access.call, .index].map fun access => (access.closing, .closes access)

def Token.unary? (token : Token) : Option UnaryOp :=
  [UnaryOp.not, .neg, .bitNot].find? fun op => token == .sign op.symbol.toList

namespace State

def begin? (stack : List Frame) (token : Token) : Option State :=
  if token = .sign ['('] then some (.operand (.group :: stack))
  else
    match token.unary? with
    | some op => some (.operand (.unary op :: stack))
    | none => token.atom?.map fun kind => .value stack (node kind)

def follow? (stack : List Frame) (last : Expr) : Follower → Option State
  | .dot => some (.member stack last)
  | .opens access => some (.argument access last stack)
  | .binary op =>
    let (stack, left) := reduce op.level stack last
    some (.operand (.binary op left :: stack))
  | .assign op =>
    let (stack, target) := reduce (Level.unary - 1) stack last
    if levelOf stack ≤ Level.lowest then some (.operand (.assign op target :: stack)) else none
  | .question =>
    let (stack, cond) := reduce Level.conditional stack last
    some (.operand (.chosen cond :: stack))
  | .colon =>
    match reduce 0 stack last with
    | (.chosen cond :: stack, yes) => some (.operand (.otherwise cond yes :: stack))
    | _ => none
  | .comma =>
    match reduce 0 stack last with
    | (.args access receiver before :: stack, arg) =>
      some (.operand (.args access receiver (before ++ [arg]) :: stack))
    | _ => none
  | .closes access =>
    match reduce 0 stack last with
    | (.group :: stack, inner) =>
      if access = .call then some (.value stack (node (.paren inner))) else none
    | (.args opened receiver before :: stack, arg) =>
      if access = opened then
        some (.value stack (node (access.kind receiver (before ++ [arg]))))
      else none
    | _ => none

def step : State → Token → Option State
  | .operand stack, token => begin? stack token
  | .argument access receiver stack, token =>
    match begin? (.args access receiver [] :: stack) token with
    | some state => some state
    | none =>
      if token = access.closing then some (.value stack (node (access.kind receiver [])))
      else none
  | .value stack last, token => (followers.lookup token).bind (follow? stack last)
  | .member stack receiver, token =>
    match token.atom? with
    | some (.ident name) => some (.value stack (node (.member receiver name)))
    | _ => none

def run : State → List Token → Option State
  | state, [] => some state
  | state, token :: rest => (state.step token).bind (run · rest)

end State

def readTokens? (tokens : List Token) : Option Expr :=
  match State.run (.operand []) tokens with
  | some (.value stack last) =>
    match reduce 0 stack last with
    | ([], tree) => some tree
    | _ => none
  | _ => none

def read? (text : String) : Option Expr := readTokens? (tokens text.toList)

/-! ## The reader finds every phrase -/

theorem State.run_append (state : State) (first second : List Token) :
    state.run (first ++ second) = (state.run first).bind (·.run second) := by
  induction first generalizing state with
  | nil => rfl
  | cons token rest ih =>
    simp only [cons_append, run, Option.bind_assoc, ih]

theorem State.run_follower {token : Token} {follower : Follower} (stack : List Frame) (last : Expr)
    (rest : List Token) (means : followers.lookup token = some follower) :
    run (.value stack last) (token :: rest) = (follow? stack last follower).bind (·.run rest) := by
  simp [run, step, means]

variable {limit : Nat} {last receiver : Expr} {access : Access} {stack : List Frame}
  {tokens : List Token} {frame : Frame}

theorem reduce_of_le (fits : levelOf stack ≤ limit) {last : Expr} :
    reduce limit stack last = (stack, last) := by
  cases stack with
  | nil => rfl
  | cons frame stack =>
    have stays : ¬ limit < frame.level := Nat.not_lt.2 fits
    unfold reduce
    split
    · rw [if_neg stays]
    · rfl

theorem reduce_closed {whole : Expr} (closes : frame.close? last = some whole)
    (tighter : limit < frame.level) :
    reduce limit (frame :: stack) last = reduce limit stack whole := by
  rw [reduce, closes]
  exact if_pos tighter

theorem reduce_open (waits : frame.close? last = none) :
    reduce limit (frame :: stack) last = (frame :: stack, last) := by
  rw [reduce, waits]

/-- A phrase at a level can be closed by everything that binds looser than this.
    Conditional expressions and assignments go on with any operator, and so does
    `??` with another. -/
def strength (level : Nat) : Nat :=
  if level ≤ Level.conditional then 1
  else if level = Level.coalesce then level
  else if level < Level.unary then level + 1
  else level

theorem strength_mono {level min : Nat} (isLooser : min ≤ level) :
    strength min ≤ strength level := by
  unfold strength Level.conditional Level.coalesce Level.unary
  repeat' split
  all_goals omega

/-- The phrase was read, up to frames that are closed as soon as something comes
    that binds looser. -/
def Read (level : Nat) (tokens : List Token) (tree : Expr) (stack : List Frame) : Prop :=
  ∃ frames last, State.run (.operand stack) tokens = some (.value (frames ++ stack) last) ∧
    ∀ limit < strength level, reduce limit (frames ++ stack) last = reduce limit stack tree

namespace Read

variable {level : Nat} {tokens : List Token} {tree : Expr} {stack : List Frame}

theorem ofExact (exact : State.run (.operand stack) tokens = some (.value stack tree)) :
    Read level tokens tree stack :=
  ⟨[], tree, exact, fun _ _ => rfl⟩

theorem looser {min : Nat} (read : Read level tokens tree stack) (isLooser : min ≤ level) :
    Read min tokens tree stack := by
  obtain ⟨frames, last, ran, closes⟩ := read
  exact ⟨frames, last, ran, fun limit below =>
    closes limit (Nat.lt_of_lt_of_le below (strength_mono isLooser))⟩

/-- A sign that closes everything down to a level comes after a phrase. -/
theorem upTo {limit : Nat} (read : Read level tokens tree stack) (below : limit < strength level)
    (fits : levelOf stack ≤ limit) :
    ∃ reached last, State.run (.operand stack) tokens = some (.value reached last) ∧
      reduce limit reached last = (stack, tree) := by
  obtain ⟨frames, last, ran, closes⟩ := read
  exact ⟨frames ++ stack, last, ran, (closes limit below).trans (reduce_of_le fits)⟩

/-- A sign that closes everything down to a bracket comes after a phrase. -/
theorem upToBracket (read : Read Level.lowest tokens tree (frame :: stack))
    (waits : frame.close? tree = none) :
    ∃ reached last, State.run (.operand (frame :: stack)) tokens = some (.value reached last) ∧
      reduce 0 reached last = (frame :: stack, tree) := by
  obtain ⟨frames, last, ran, closes⟩ := read
  exact ⟨frames ++ frame :: stack, last, ran, (closes 0 (by decide)).trans (reduce_open waits)⟩

theorem closeFrame {outer : Nat} {whole : Expr} {before : List Token}
    (read : Read level tokens tree (frame :: stack))
    (reaches : State.run (.operand stack) before = some (.operand (frame :: stack)))
    (closes : frame.close? tree = some whole)
    (below : ∀ limit < strength outer, limit < strength level ∧ limit < frame.level) :
    Read outer (before ++ tokens) whole stack := by
  obtain ⟨frames, last, ran, closed⟩ := read
  refine ⟨frames ++ [frame], last, ?_, fun limit isBelow => ?_⟩
  · rw [State.run_append, reaches, append_assoc]
    exact ran
  · obtain ⟨belowInner, belowFrame⟩ := below limit isBelow
    rw [append_assoc]
    exact (closed limit belowInner).trans (reduce_closed closes belowFrame)

end Read

/-! ### Signs -/

theorem lookup_binary {op : BinaryOp} :
    followers.lookup (.sign op.symbol.toList) = some (.binary op) := by
  cases op <;> rfl

theorem lookup_assign {op : Option BinaryOp} (isAssigned : ∀ applied ∈ op, applied ∈ assigned) :
    followers.lookup (assignSign op) = some (.assign op) := by
  have all : ∀ applied ∈ assigned,
      followers.lookup (assignSign (some applied)) = some (.assign (some applied)) := by decide
  cases op with
  | none => rfl
  | some applied => exact all applied (isAssigned applied rfl)

theorem lookup_closing (access : Access) :
    followers.lookup access.closing = some (.closes access) := by
  cases access <;> rfl

theorem lookup_opening {access : Access} :
    followers.lookup access.opening = some (.opens access) := by
  cases access <;> rfl

theorem begin?_atom {token : Token} {kind : ExprKind} (isAtom : token.atom? = some kind)
    {stack : List Frame} : State.begin? stack token = some (.value stack (node kind)) := by
  cases token with
  | word chars => simp [State.begin?, Token.unary?, isAtom]
  | sign chars => cases isAtom

theorem begin?_unary {op : UnaryOp} {stack : List Frame} :
    State.begin? stack (.sign op.symbol.toList) = some (.operand (.unary op :: stack)) := by
  cases op <;> rfl

theorem begin?_closing {access : Access} {stack : List Frame} :
    State.begin? stack access.closing = none := by
  cases access <;> rfl

/-! ### Arguments -/

theorem run_argument {stack reached : List Frame}
    (ran : State.run (.operand (.args access receiver [] :: stack)) tokens =
      some (.value reached last)) :
    State.run (.argument access receiver stack) tokens = some (.value reached last) := by
  cases tokens with
  | nil => cases ran
  | cons token rest =>
    change (State.begin? _ token).bind _ = _ at ran
    change ((State.argument access receiver stack).step token).bind _ = _
    unfold State.step
    cases begun : State.begin? (.args access receiver [] :: stack) token with
    | none => simp [begun] at ran
    | some state => simpa [begun] using ran

theorem run_args (first : List Token × Expr) (others : List (List Token × Expr))
    (before : List Expr)
    (reads : ∀ arg ∈ first :: others, ∀ stack, levelOf stack ≤ Level.lowest →
      Read Level.lowest arg.1 arg.2 stack) :
    State.run (.operand (.args access receiver before :: stack))
        ([comma].intercalate ((first :: others).map Prod.fst) ++ [access.closing]) =
      some (.value stack
        (node (access.kind receiver (before ++ (first :: others).map Prod.snd)))) := by
  induction others generalizing first before with
  | nil =>
    obtain ⟨reached, last, ran, closes⟩ :=
      (reads first mem_cons_self (.args access receiver before :: stack)
        (Nat.le_refl _)).upToBracket rfl
    have single : [comma].intercalate ([first].map Prod.fst) = first.1 := by
      simp [List.intercalate]
    rw [single, State.run_append, ran, Option.bind_some,
      State.run_follower _ _ _ (lookup_closing access), State.follow?, closes]
    simp [State.run]
  | cons second rest ih =>
    obtain ⟨reached, last, ran, closes⟩ :=
      (reads first mem_cons_self (.args access receiver before :: stack)
        (Nat.le_refl _)).upToBracket rfl
    have several : [comma].intercalate ((first :: second :: rest).map Prod.fst) =
        first.1 ++ comma :: [comma].intercalate ((second :: rest).map Prod.fst) := by
      simp [List.intercalate]
    have means : followers.lookup comma = some .comma := rfl
    rw [several, append_assoc, State.run_append, ran, Option.bind_some, cons_append,
      State.run_follower _ _ _ means, State.follow?, closes]
    have later := ih second (before ++ [first.2])
      fun arg isLater => reads arg (mem_cons_of_mem _ isLater)
    simpa using later

theorem run_access {args : List (List Token × Expr)}
    (reads : ∀ arg ∈ args, ∀ stack, levelOf stack ≤ Level.lowest →
      Read Level.lowest arg.1 arg.2 stack) :
    State.run (.argument access receiver stack)
        ([comma].intercalate (args.map Prod.fst) ++ [access.closing]) =
      some (.value stack (node (access.kind receiver (args.map Prod.snd)))) := by
  cases args with
  | nil => simp [List.intercalate, State.run, State.step, begin?_closing]
  | cons first others => exact run_argument (run_args first others [] reads)

/-! ### Phrases -/

theorem binary_strength {op : BinaryOp} : op.level < strength (leftLevel op) ∧
      (∀ limit < strength op.level, limit < strength (rightLevel op) ∧ limit < rightLevel op) ∧
        op.level ≤ leftLevel op ∧ op.level < Level.primary := by
  cases op <;> decide

/-- The reader finds a phrase wherever there is place for it; one that needs no
    operator is found as a whole. -/
theorem Phrase.read {level : Nat} {tree : Expr} (phrase : Phrase level tokens tree) :
    (∀ stack, levelOf stack ≤ level → Read level tokens tree stack) ∧
      (Level.primary ≤ level → ∀ stack,
        State.run (.operand stack) tokens = some (.value stack tree)) := by
  have ofExact {tokens : List Token} {tree : Expr}
      (exact : ∀ stack, State.run (.operand stack) tokens = some (.value stack tree)) :
      (∀ stack, levelOf stack ≤ Level.primary → Read Level.primary tokens tree stack) ∧
        (Level.primary ≤ Level.primary → ∀ stack,
          State.run (.operand stack) tokens = some (.value stack tree)) :=
    ⟨fun stack _ => .ofExact (exact stack), fun _ => exact⟩
  induction phrase with
  | atom isAtom =>
    exact ofExact fun stack => congrArg (·.bind (State.run · [])) (begin?_atom isAtom)
  | @group inner tree phrase ih =>
    refine ofExact fun stack => ?_
    obtain ⟨reached, last, ran, closes⟩ :=
      (ih.1 (.group :: stack) (Nat.le_refl _)).upToBracket rfl
    change State.run (.operand (.group :: stack)) (inner ++ [Access.call.closing]) = _
    rw [State.run_append, ran, Option.bind_some, State.run_follower _ _ _ (lookup_closing .call),
      State.follow?, closes]
    rfl
  | @member left receiver word name phrase isName ih =>
    refine ofExact fun stack => ?_
    have means : followers.lookup (.sign ['.']) = some .dot := rfl
    rw [State.run_append, ih.2 (Nat.le_refl _), Option.bind_some, State.run_follower _ _ _ means]
    simp [State.follow?, State.run, State.step, isName]
  | @access left receiver args access phrase phrases ih argsHypothesis =>
    refine ofExact fun stack => ?_
    rw [State.run_append, ih.2 (Nat.le_refl _), Option.bind_some,
      State.run_follower _ _ _ lookup_opening, State.follow?, Option.bind_some]
    exact run_access fun arg isArg => (argsHypothesis arg isArg).1
  | @unary right operand op phrase ih =>
    refine ⟨fun stack _ => ?_, fun isPrimary => absurd isPrimary (by decide)⟩
    have reaches : State.run (.operand stack) [.sign op.symbol.toList] =
        some (.operand (.unary op :: stack)) :=
      congrArg (·.bind (State.run · [])) begin?_unary
    exact (ih.1 (.unary op :: stack) (Nat.le_refl _)).closeFrame reaches rfl
      fun limit below => ⟨below, below⟩
  | @binary first second left right op leftPhrase rightPhrase leftHypothesis rightHypothesis =>
    obtain ⟨belowLeft, belowRight, looser, notPrimary⟩ := binary_strength
    refine ⟨fun stack fits => ?_, fun isPrimary => absurd notPrimary (Nat.not_lt.2 isPrimary)⟩
    obtain ⟨reached, last, ran, closes⟩ :=
      (leftHypothesis.1 stack (Nat.le_trans fits looser)).upTo belowLeft fits
    have reaches : State.run (.operand stack) (first ++ [.sign op.symbol.toList]) =
        some (.operand (.binary op left :: stack)) := by
      rw [State.run_append, ran, Option.bind_some, State.run_follower _ _ _ lookup_binary,
        State.follow?, closes]
      rfl
    have read := (rightHypothesis.1 (.binary op left :: stack) (Nat.le_refl _)).closeFrame
      reaches rfl belowRight
    rwa [append_assoc] at read
  | @conditional first second third cond yes no condPhrase yesPhrase noPhrase condHypothesis
      yesHypothesis noHypothesis =>
      refine ⟨fun stack fits => ?_, fun isPrimary => absurd isPrimary (by decide)⟩
      obtain ⟨reached, last, ran, closes⟩ :=
        (condHypothesis.1 stack (Nat.le_trans fits (by decide))).upTo (by decide) fits
      obtain ⟨reachedYes, lastYes, ranYes, closesYes⟩ :=
        (yesHypothesis.1 (.chosen cond :: stack) (Nat.le_refl _)).upToBracket rfl
      have question : followers.lookup (.sign ['?']) = some .question := rfl
      have colon : followers.lookup (.sign [':']) = some .colon := rfl
      have reaches : State.run (.operand stack)
          (first ++ .sign ['?'] :: (second ++ [.sign [':']])) =
            some (.operand (.otherwise cond yes :: stack)) := by
        rw [State.run_append, ran, Option.bind_some, State.run_follower _ _ _ question,
          State.follow?, closes]
        change State.run (.operand (.chosen cond :: stack)) _ = _
        rw [State.run_append, ranYes, Option.bind_some, State.run_follower _ _ _ colon,
          State.follow?, closesYes]
        rfl
      have read := (noHypothesis.1 (.otherwise cond yes :: stack) (Nat.le_refl _)).closeFrame
        reaches rfl (fun limit (below : limit < strength Level.conditional) => ⟨below, below⟩)
      simpa using read
  | @assign first second target value op isAssigned targetPhrase valuePhrase targetHypothesis
      valueHypothesis =>
      refine ⟨fun stack fits => ?_, fun isPrimary => absurd isPrimary (by decide)⟩
      obtain ⟨reached, last, ran, closes⟩ :=
        (targetHypothesis.1 stack (Nat.le_trans fits (by decide))).upTo
          (by decide : Level.unary - 1 < strength Level.unary) (Nat.le_trans fits (by decide))
      have reaches : State.run (.operand stack) (first ++ [assignSign op]) =
          some (.operand (.assign op target :: stack)) := by
        rw [State.run_append, ran, Option.bind_some,
          State.run_follower _ _ _ (lookup_assign isAssigned), State.follow?, closes]
        simp [fits, State.run]
      have read := (valueHypothesis.1 (.assign op target :: stack) (Nat.le_refl _)).closeFrame
        reaches rfl (fun limit (below : limit < strength Level.lowest) => ⟨below, below⟩)
      rwa [append_assoc] at read
  | looser phrase isLooser ih =>
    obtain ⟨reads, exact⟩ := ih
    exact ⟨fun stack fits => (reads stack (Nat.le_trans fits isLooser)).looser isLooser,
      fun isPrimary => exact (Nat.le_trans isPrimary isLooser)⟩

theorem Phrase.readTokens? {tree : Expr} (phrase : Phrase Level.lowest tokens tree) :
    readTokens? tokens = some tree := by
  obtain ⟨reached, last, ran, closes⟩ :=
    (phrase.read.1 [] (Nat.le_refl _))
  unfold Grammar.readTokens?
  rw [ran]
  dsimp only
  rw [closes 0 (by decide)]
  rfl

end Unsugar.Grammar
