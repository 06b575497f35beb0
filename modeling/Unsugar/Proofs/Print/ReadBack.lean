import Unsugar.Proofs.Print.Grammar
import Unsugar.Proofs.Patterns.Reading

open List

namespace Unsugar

open Grammar (Access Phrase Scan Token isNameChar leftLevel node rightLevel scan)

/-! # Printed expressions are read back

The text of a formula (names, numbers, operators, conditional expressions, members,
calls, subscripts and parentheses) is a phrase of the grammar in one way only, and
what is read is the formula that was printed.
-/

/-! ## Tokens of texts put together -/

variable {kind : ExprKind} {name : String} {min depth : Nat}

namespace Grammar

/-- No token of the first text goes on in the second. -/
def Apart (left right : List Char) : Prop :=
  ∀ token ∈ (scan left).pending, ∀ char ∈ right.head?, token.extend? char = none

theorem foldl_read (done : List Token) (pending : Option Token) (text : List Char) :
    text.foldl Scan.read ⟨done, pending⟩ = ⟨done ++ (text.foldl Scan.read ⟨[], pending⟩).tokens,
        (text.foldl Scan.read ⟨[], pending⟩).pending⟩ := by
  induction text generalizing done pending with
  | nil => simp
  | cons char rest ih =>
    simp only [foldl_cons, Scan.read]
    cases pending.bind (·.extend? char) with
    | some longer => exact ih done (some longer)
    | none =>
      simp only [nil_append]
      rw [ih (done ++ pending.toList), ih pending.toList]
      simp

theorem Apart.scan_append {left right : List Char} (apart : Apart left right) (more : right ≠ []) :
    scan (left ++ right) = ⟨tokens left ++ (scan right).tokens, (scan right).pending⟩ := by
  obtain ⟨char, rest, rfl⟩ := exists_cons_of_ne_nil more
  have ends : (scan left).pending.bind (·.extend? char) = none :=
    Option.bind_eq_none_iff.2 fun token isPending => apart token isPending char rfl
  have first : (scan left).read char = ⟨tokens left, Token.start? char⟩ := by
    rw [Scan.read, ends]
    rfl
  rw [scan, foldl_append, foldl_cons]
  change rest.foldl Scan.read ((scan left).read char) = _
  rw [first, foldl_read]
  rfl

/-- The tokens of a text that ends with a word or a closing bracket. -/
structure Spelled (text : List Char) (result : List Token) : Prop where
  tokens : tokens text = result
  closes : ∃ token ∈ (scan text).pending, ∀ char, isNameChar char = false →
    token.extend? char = none

namespace Spelled

variable {text left right : List Char} {result first second : List Token}

theorem nonempty (spelled : Spelled text result) : text ≠ [] := by
  obtain ⟨_, token, isPending, _⟩ := spelled
  rintro rfl
  cases isPending

theorem after (spelled : Spelled right second) (apart : Apart left right) :
    Spelled (left ++ right) (Grammar.tokens left ++ second) := by
  have scanned := apart.scan_append spelled.nonempty
  refine ⟨?_, ?_⟩
  · rw [Grammar.tokens, scanned, ← spelled.tokens]
    exact append_assoc ..
  · rw [scanned]
    exact spelled.closes

theorem append (leftSpelled : Spelled left first) (rightSpelled : Spelled right second)
    (delimits : ∀ char ∈ right.head?, isNameChar char = false) :
    Spelled (left ++ right) (first ++ second) := by
  rw [← leftSpelled.tokens]
  refine rightSpelled.after fun token isPending char isHead => ?_
  obtain ⟨last, isLast, ends⟩ := leftSpelled.closes
  cases isPending.symm.trans isLast
  exact ends char (delimits char isHead)

end Spelled

/-! ## Words -/

theorem start?_nameChar {char : Char} (isPart : isNameChar char = true) :
    Token.start? char = some (.word [char]) := by
  have notBlank : char.isWhitespace = false := by
    rw [Bool.eq_false_iff]
    intro isBlank
    simp only [Char.isWhitespace, Bool.or_eq_true, decide_eq_true_eq] at isBlank
    rcases isBlank with ((rfl | rfl) | rfl) | rfl <;> exact absurd isPart (by decide)
  simp [Token.start?, notBlank, isPart]

theorem scan_word {first : Char} {rest : List Char}
    (isWord : ∀ char ∈ first :: rest, isNameChar char = true) :
    scan (first :: rest) = ⟨[], some (.word (first :: rest))⟩ := by
  have goesOn (before more : List Char) (parts : ∀ char ∈ more, isNameChar char = true) :
      more.foldl Scan.read ⟨[], some (.word before)⟩ = ⟨[], some (.word (before ++ more))⟩ := by
    induction more generalizing before with
    | nil => simp
    | cons char more ih =>
      obtain ⟨isPart, others⟩ := forall_mem_cons.1 parts
      have read : Scan.read ⟨[], some (.word before)⟩ char =
          ⟨[], some (.word (before ++ [char]))⟩ := by
        simp [Scan.read, Token.extend?, isPart]
      rw [foldl_cons, read, ih _ others, append_assoc]
      rfl
  obtain ⟨isPart, others⟩ := forall_mem_cons.1 isWord
  have begun : Scan.read {} first = ⟨[], some (.word [first])⟩ := by
    simp [Scan.read, start?_nameChar isPart]
  rw [scan, foldl_cons, begun]
  exact goesOn [first] rest others

theorem Spelled.word {chars : List Char} (nonempty : chars ≠ [])
    (isWord : ∀ char ∈ chars, isNameChar char = true) : Spelled chars [.word chars] := by
  obtain ⟨first, rest, rfl⟩ := exists_cons_of_ne_nil nonempty
  have scanned := scan_word isWord
  refine ⟨by rw [Grammar.tokens, scanned]; rfl, ?_⟩
  rw [scanned]
  exact ⟨_, rfl, fun char isSign => by simp [Token.extend?, isSign]⟩

/-! ## Signs -/

def isOpener (char : Char) : Bool :=
  isNameChar char || char == '(' || char == '!' || char == '~' || char == '-'

theorem spelled_right (access : Access) : Spelled access.right [access.closing] := by
  cases access
  all_goals exact ⟨rfl, _, rfl, fun char _ => by simp [Token.extend?, longSigns]⟩

theorem right_delimits (access : Access) :
    ∀ char ∈ access.right.head?, isNameChar char = false := by
  cases access
  all_goals
    rintro char ⟨⟩
    decide

theorem Apart.ofBlank {left : List Char} (ends : (scan left).pending = none) (right : List Char) :
    Apart left right := by
  intro token isPending
  rw [ends] at isPending
  cases isPending

theorem extend?_sign {sign char : Char} (isSign : sign ∈ ['!', '~', '-', '.'])
    (opens : isOpener char = true) (noPair : sign = '-' → char ≠ '-') :
    (Token.sign [sign]).extend? char = none := by
  have unlike (other : Char) (noOpener : isOpener other = false) : char ≠ other := by
    rintro rfl
    exact absurd (noOpener.symm.trans opens) Bool.false_ne_true
  have equals := unlike '=' (by decide)
  have angle := unlike '>' (by decide)
  have dot := unlike '.' (by decide)
  simp only [mem_cons, not_mem_nil, or_false] at isSign
  rcases isSign with rfl | rfl | rfl | rfl
  all_goals simp_all [Token.extend?, longSigns]

theorem Spelled.between {left glue right : List Char} {first second : List Token}
    (leftSpelled : Spelled left first) (rightSpelled : Spelled right second)
    (delimits : ∃ char ∈ glue.head?, isNameChar char = false) (ends : (scan glue).pending = none) :
    Spelled (left ++ (glue ++ right)) (first ++ (Grammar.tokens glue ++ second)) := by
  obtain ⟨sign, isSign, noPart⟩ := delimits
  refine leftSpelled.append (rightSpelled.after (.ofBlank ends right)) fun char isHead => ?_
  rw [head?_append, isSign] at isHead
  cases isHead
  exact noPart

theorem apart_left (access : Access) (right : List Char) : Apart access.left right := by
  cases access
  all_goals
    rintro token ⟨⟩ char _
    simp [Token.extend?, longSigns]

end Grammar

/-! ## Formulas -/

mutual

/-- A tree without parentheses and places, where a negative number is the negation
    of a positive one. -/
@[simp] def Expr.bare : Expr → Expr
  | ⟨_, kind⟩ => kind.bare

@[simp] def ExprKind.bare : ExprKind → Expr
  | .paren inner => inner.bare
  | .literal (.int value) =>
    if value < 0 then node (.unary .neg (node (.literal (.int (-value)))))
    else node (.literal (.int value))
  | .member receiver name => node (.member receiver.bare name)
  | .call callee args => node (.call callee.bare (bareAll args))
  | .index receiver args => node (.index receiver.bare (bareAll args))
  | .unary op operand => node (.unary op operand.bare)
  | .binary op left right => node (.binary op left.bare right.bare)
  | .assign op target value => node (.assign op target.bare value.bare)
  | .conditional cond yes no => node (.conditional cond.bare yes.bare no.bare)
  | kind => node kind

@[simp] def bareAll : List Expr → List Expr
  | [] => []
  | node :: rest => node.bare :: bareAll rest

end

structure IsName (name : String) : Prop where
  nonempty : name.toList ≠ []
  isWord : ∀ char ∈ name.toList, isNameChar char = true
  noNumber : name.toList.head?.any Char.isDigit = false
  noLiteral : name ∉ ["true", "false", "null"]

instance (name : String) : Decidable (IsName name) :=
  decidable_of_iff (name.toList.isEmpty = false ∧ name.toList.all isNameChar = true ∧
      name.toList.head?.any Char.isDigit = false ∧ ["true", "false", "null"].contains name = false)
    (by
      have among : ["true", "false", "null"].contains name = false ↔
          name ∉ ["true", "false", "null"] := by
        rw [Bool.eq_false_iff, ne_eq, contains_iff_mem]
      rw [isEmpty_eq_false_iff, all_eq_true, among]
      exact ⟨fun ⟨nonempty, isWord, noNumber, noLiteral⟩ =>
        ⟨nonempty, isWord, noNumber, noLiteral⟩,
          fun isName => ⟨isName.1, isName.2, isName.3, isName.4⟩⟩)

inductive Formula : Expr → Prop where
  | ident {mark : Mark} {name : String} (isName : IsName name) : Formula ⟨mark, .ident name⟩
  | int {mark : Mark} (value : Int) : Formula ⟨mark, .literal (.int value)⟩
  | bool {mark : Mark} (value : Bool) : Formula ⟨mark, .literal (.bool value)⟩
  | null {mark : Mark} : Formula ⟨mark, .literal .null⟩
  | unary {mark : Mark} {operand : Expr} (op : UnaryOp) (isFormula : Formula operand) :
      Formula ⟨mark, .unary op operand⟩
  | binary {mark : Mark} {left right : Expr} (op : BinaryOp) (leftFormula : Formula left)
      (rightFormula : Formula right) : Formula ⟨mark, .binary op left right⟩
  | assign {mark : Mark} {target value : Expr} {op : Option BinaryOp}
      (isAssigned : ∀ applied ∈ op, applied ∈ Grammar.assigned) (targetFormula : Formula target)
      (valueFormula : Formula value) : Formula ⟨mark, .assign op target value⟩
  | conditional {mark : Mark} {cond yes no : Expr} (condFormula : Formula cond)
      (yesFormula : Formula yes) (noFormula : Formula no) :
      Formula ⟨mark, .conditional cond yes no⟩
  | member {mark : Mark} {receiver : Expr} {name : String} (isFormula : Formula receiver)
      (isName : IsName name) : Formula ⟨mark, .member receiver name⟩
  | access {mark : Mark} {receiver : Expr} {args : List Expr} (access : Access)
      (isFormula : Formula receiver) (areFormulas : ∀ arg ∈ args, Formula arg) :
      Formula ⟨mark, access.kind receiver args⟩
  | paren {mark : Mark} {inner : Expr} (isFormula : Formula inner) : Formula ⟨mark, .paren inner⟩

/-! ## Texts of formulas -/

/-- Whether the text of an expression may start with a minus sign, where
    parentheses are not needed. -/
def ExprKind.MayStartWithMinus (kind : ExprKind) : Prop :=
  kind.startsWithMinus = true ∨ kind.level < Level.unary

theorem ExprKind.not_mayStartWithMinus (isPrimary : Level.primary ≤ kind.level) :
    ¬ kind.MayStartWithMinus := by
  rintro (starts | isLoose)
  · have isUnary : kind.level = Level.unary := by
      unfold startsWithMinus at starts
      split at starts
      · rfl
      · next value =>
          have isNegative : value < 0 := of_decide_eq_true starts
          simp only [level, if_pos isNegative]
      · cases starts
    rw [isUnary] at isPrimary
    exact absurd isPrimary (by decide)
  · exact absurd (Nat.lt_of_le_of_lt isPrimary isLoose) (by decide)

theorem ExprKind.lowest_le_level (kind : ExprKind) : Level.lowest ≤ kind.level := by
  unfold level
  split
  all_goals try decide
  · next op _ _ => cases op <;> decide
  · split <;> decide

namespace Grammar

/-- A text starts like an operand, and with a minus sign only under a condition. -/
def Opens (text : List Char) (minus : Prop) : Prop :=
  ∃ char ∈ text.head?, isOpener char = true ∧ (char = '-' → minus)

theorem Opens.append {text : List Char} {minus : Prop} (opens : Opens text minus)
    (more : List Char) : Opens (text ++ more) minus := by
  obtain ⟨char, isHead, isOpener⟩ := opens
  refine ⟨char, ?_, isOpener⟩
  rw [head?_append, isHead]
  rfl

theorem Opens.mono {text : List Char} {less minus : Prop} (opens : Opens text less)
    (weaker : less → minus) : Opens text minus := by
  obtain ⟨char, isHead, isOpener, onlyIf⟩ := opens
  exact ⟨char, isHead, isOpener, fun isMinus => weaker (onlyIf isMinus)⟩

structure Written (level : Nat) (text : String) (meant : Expr) (minus : Prop) : Prop where
  phrase : ∃ result tree, Phrase level result tree ∧ Spelled text.toList result ∧ tree.bare = meant
  opens : Opens text.toList minus

theorem atom?_name (isName : IsName name) :
    (Token.word name.toList).atom? = some (.ident name) := by
  have unlike (literal : String) (isLiteral : literal ∈ ["true", "false", "null"]) :
      name.toList ≠ literal.toList :=
    fun same => isName.noLiteral (String.toList_inj.1 same ▸ isLiteral)
  have first := isName.noNumber
  unfold Token.atom?
  split
  · next same => exact absurd (Token.word.inj same) (unlike "true" (by decide))
  · next same => exact absurd (Token.word.inj same) (unlike "false" (by decide))
  · next same => exact absurd (Token.word.inj same) (unlike "null" (by decide))
  · next same =>
      cases Token.word.inj same
      simp [first]
  · next same => cases same

namespace Written

variable {level : Nat} {text : String} {meant : Expr} {minus : Prop}

theorem looser (written : Written level text meant minus) (isLooser : min ≤ level) :
    Written min text meant minus := by
  obtain ⟨⟨result, tree, phrase, spelled, means⟩, opens⟩ := written
  exact ⟨⟨result, tree, phrase.looser isLooser, spelled, means⟩, opens⟩

theorem mono {less : Prop} (written : Written level text meant less) (weaker : less → minus) :
    Written level text meant minus :=
  ⟨written.phrase, written.opens.mono weaker⟩

theorem group (written : Written Level.lowest text meant minus) :
    Written Level.primary ("(" ++ text ++ ")") meant False := by
  obtain ⟨⟨result, tree, phrase, spelled, means⟩, -⟩ := written
  have closed := (spelled.append (spelled_right .call) (right_delimits .call)).after
    (apart_left .call _)
  have chars : ("(" ++ text ++ ")").toList =
      Access.call.left ++ (text.toList ++ Access.call.right) := by
    simp [Access.left, Access.right]
  exact ⟨⟨_, _, phrase.group, chars ▸ closed, means⟩, '(', by simp, by decide, by decide⟩

theorem render {mark : Mark} (fits : min ≤ Level.primary) (starts : minus → kind.MayStartWithMinus)
    (written : Written kind.level (kind.render depth) kind.bare minus) :
    Written min ((Expr.mk mark kind).render depth min) (Expr.mk mark kind).bare
      (kind.MayStartWithMinus ∧ min ≤ kind.level) := by
  unfold Expr.render Expr.bare
  split
  · exact ((written.looser kind.lowest_le_level).group.looser fits).mono False.elim
  · next isTight =>
      have isLooser : min ≤ kind.level := Nat.not_lt.1 isTight
      exact (written.looser isLooser).mono fun isMinus => ⟨starts isMinus, isLooser⟩

theorem ofWord {kind : ExprKind} (nonempty : text.toList ≠ [])
    (isWord : ∀ char ∈ text.toList, isNameChar char = true)
    (isAtom : (Token.word text.toList).atom? = some kind) (isBare : (node kind).bare = node kind) :
    Written Level.primary text (node kind) False := by
  refine ⟨⟨_, _, .atom isAtom, .word nonempty isWord, isBare⟩, ?_⟩
  obtain ⟨first, rest, chars⟩ := exists_cons_of_ne_nil nonempty
  have isPart := isWord first (chars ▸ mem_cons_self)
  refine ⟨first, by rw [chars]; rfl, by simp [isOpener, isPart], ?_⟩
  rintro rfl
  exact absurd isPart (by decide)

theorem ident (isName : IsName name) : Written Level.primary name (node (.ident name)) False :=
  ofWord isName.nonempty isName.isWord (atom?_name isName) (by simp [node])

theorem number (value : Nat) :
    Written Level.primary value.repr (node (.literal (.int value))) False := by
  have chars : value.repr.toList = Nat.toDigits 10 value := Nat.toList_repr
  have digits : ∀ char ∈ value.repr.toList, char.isDigit = true := fun char isDigit =>
    Nat.isDigit_of_mem_toDigits (by decide) (by decide) (chars ▸ isDigit)
  have nonempty : value.repr.toList ≠ [] := chars ▸ Nat.toDigits_ne_nil
  refine ofWord nonempty (fun char isDigit => ?_) ?_ (by simp [node])
  · simp [isNameChar, Conditionals.isWordChar, Char.isAlphanum, digits char isDigit]
  · have means := chars ▸ digitsValue?_toDigits
    obtain ⟨first, rest, start⟩ := exists_cons_of_ne_nil nonempty
    have isDigit := digits first (start ▸ mem_cons_self)
    rw [start] at means ⊢
    unfold Token.atom?
    split
    · next same =>
        cases same
        cases isDigit
    · next same =>
        cases same
        cases isDigit
    · next same =>
        cases same
        cases isDigit
    · next same =>
        cases same
        simp [isDigit, means]
    · next same => cases same

theorem bool (value : Bool) :
    Written Level.primary (Literal.render (.bool value)) (node (.literal (.bool value))) False := by
  cases value
  · exact @ofWord "false" _ (by decide) (all_eq_true.1 (by decide)) rfl (by simp [node])
  · exact @ofWord "true" _ (by decide) (all_eq_true.1 (by decide)) rfl (by simp [node])

theorem null : Written Level.primary (Literal.render .null) (node (.literal .null)) False :=
  @ofWord "null" _ (by decide) (all_eq_true.1 (by decide)) rfl (by simp [node])

theorem unary (op : UnaryOp) (written : Written Level.unary text meant minus)
    (noPair : op = .neg → ¬ minus) :
    Written Level.unary (op.symbol ++ text) (node (.unary op meant)) (op = .neg) := by
  obtain ⟨⟨result, tree, phrase, spelled, rfl⟩, char, isHead, opens, onlyIf⟩ := written
  have apart : Apart op.symbol.toList text.toList := by
    have single : ∃ sign ∈ ['!', '~', '-', '.'],
        (scan op.symbol.toList).pending = some (.sign [sign]) ∧ (sign = '-' → op = .neg) := by
      cases op
      all_goals exact ⟨_, by decide, rfl, by decide⟩
    obtain ⟨sign, isSign, pending, isNeg⟩ := single
    intro token isPending next isNext
    cases isHead.symm.trans isNext
    cases pending.symm.trans isPending
    exact extend?_sign isSign opens fun isMinus same => noPair (isNeg isMinus) (onlyIf same)
  have whole := spelled.after apart
  have single : tokens op.symbol.toList = [.sign op.symbol.toList] := by cases op <;> rfl
  rw [single, ← String.toList_append] at whole
  refine ⟨⟨_, _, phrase.unary op, whole, by simp [node]⟩, ?_⟩
  cases op
  all_goals exact ⟨_, by rw [String.toList_append]; rfl, by decide, by decide⟩

theorem int (value : Int) : Written (ExprKind.literal (.int value)).level (toString value)
      (ExprKind.literal (.int value)).bare (value < 0) := by
  cases value with
  | ofNat value =>
    have notNegative : ¬ (Int.ofNat value < 0) := Int.not_lt.2 (Int.natCast_nonneg value)
    simp only [ExprKind.level, ExprKind.bare, if_neg notNegative]
    exact (number value).mono False.elim
  | negSucc value =>
    have isNegative := Int.negSucc_lt_zero value
    simp only [ExprKind.level, ExprKind.bare, if_pos isNegative]
    have written := ((number (value + 1)).looser (show Level.unary ≤ _ by decide)).unary .neg
      fun _ => not_false
    exact written.mono fun _ => isNegative

variable {first second third : String} {left middle right : Expr}
  {leftMinus middleMinus rightMinus : Prop}

theorem operator {outer leftMin rightMin : Nat} {glue : String} {sign : Token}
    {kind : Expr → Expr → ExprKind}
    (leftWritten : Written leftMin first left leftMinus)
    (rightWritten : Written rightMin second right rightMinus)
    (isBlank : glue.toList.head? = some ' ') (isSign : tokens glue.toList = [sign])
    (ends : (scan glue.toList).pending = none)
    (build : ∀ {first second left right}, Phrase leftMin first left → Phrase rightMin second right →
        Phrase outer (first ++ sign :: second) (node (kind left right)))
    (bare : ∀ left right, (node (kind left right)).bare = node (kind left.bare right.bare)) :
    Written outer (first ++ (glue ++ second)) (node (kind left right)) True := by
  obtain ⟨⟨leftTokens, leftTree, leftPhrase, leftSpelled, rfl⟩, opens⟩ := leftWritten
  obtain ⟨⟨rightTokens, rightTree, rightPhrase, rightSpelled, rfl⟩, -⟩ := rightWritten
  have spelled := leftSpelled.between rightSpelled ⟨' ', isBlank, rfl⟩ ends
  rw [isSign, ← String.toList_append, ← String.toList_append] at spelled
  refine ⟨⟨_, _, build leftPhrase rightPhrase, spelled, bare leftTree rightTree⟩, ?_⟩
  rw [String.toList_append]
  exact (opens.append _).mono fun _ => trivial

theorem binary (op : BinaryOp) (leftWritten : Written (leftLevel op) first left leftMinus)
    (rightWritten : Written (rightLevel op) second right rightMinus) :
    Written op.level (first ++ " " ++ op.symbol ++ " " ++ second) (node (.binary op left right))
      True := by
  have glue : tokens (" " ++ op.symbol ++ " ").toList = [.sign op.symbol.toList] ∧
      (scan (" " ++ op.symbol ++ " ").toList).pending = none := by
    cases op <;> exact ⟨rfl, rfl⟩
  have written := leftWritten.operator rightWritten (by simp) glue.1 glue.2 (.binary op)
    fun _ _ => by simp [node]
  simpa only [String.append_assoc] using written

theorem assign {op : Option BinaryOp} (isAssigned : ∀ applied ∈ op, applied ∈ assigned)
    (leftWritten : Written Level.unary first left leftMinus)
    (rightWritten : Written Level.lowest second right rightMinus) :
    Written Level.lowest (first ++ " " ++ (op.map BinaryOp.symbol).getD "" ++ "= " ++ second)
      (node (.assign op left right)) True := by
  have glue : tokens (" " ++ (op.map BinaryOp.symbol).getD "" ++ "= ").toList = [assignSign op] ∧
      (scan (" " ++ (op.map BinaryOp.symbol).getD "" ++ "= ").toList).pending = none := by
    cases op with
    | none => exact ⟨rfl, rfl⟩
    | some applied =>
      have known := isAssigned applied rfl
      cases applied <;> first | exact ⟨rfl, rfl⟩ | exact absurd known (by decide)
  have written := leftWritten.operator rightWritten (by simp) glue.1 glue.2 (.assign isAssigned)
    fun _ _ => by simp [node]
  simpa only [String.append_assoc] using written

theorem conditional (leftWritten : Written Level.coalesce first left leftMinus)
    (middleWritten : Written Level.lowest second middle middleMinus)
    (rightWritten : Written Level.lowest third right rightMinus) :
    Written Level.conditional (first ++ " ? " ++ second ++ " : " ++ third)
      (node (.conditional left middle right)) True := by
  obtain ⟨⟨leftTokens, leftTree, leftPhrase, leftSpelled, rfl⟩, opens⟩ := leftWritten
  obtain ⟨⟨middleTokens, middleTree, middlePhrase, middleSpelled, rfl⟩, -⟩ := middleWritten
  obtain ⟨⟨rightTokens, rightTree, rightPhrase, rightSpelled, rfl⟩, -⟩ := rightWritten
  have chars : (first ++ " ? " ++ second ++ " : " ++ third).toList =
      first.toList ++ (" ? ".toList ++ (second.toList ++ (" : ".toList ++ third.toList))) := by simp
  have spelled := leftSpelled.between
    (@Spelled.between _ " : ".toList _ _ _ middleSpelled rightSpelled ⟨' ', by simp, rfl⟩ rfl)
    (⟨' ', by simp, rfl⟩ : ∃ char ∈ " ? ".toList.head?, isNameChar char = false) rfl
  refine ⟨⟨_, _, leftPhrase.conditional middlePhrase rightPhrase, chars ▸ spelled, ?_⟩, ?_⟩
  · simp [node]
  · rw [chars]
    exact (opens.append _).mono fun _ => trivial

theorem member {name : String} (written : Written Level.primary text meant minus)
    (isName : IsName name) :
    Written Level.primary (text ++ "." ++ name) (node (.member meant name)) minus := by
  obtain ⟨⟨result, tree, phrase, spelled, rfl⟩, opens⟩ := written
  have isWord := Spelled.word isName.nonempty isName.isWord
  have apart : Apart ".".toList name.toList := by
    intro token isPending char isHead
    obtain rfl : token = .sign ['.'] := (Option.some.inj isPending).symm
    have isPart := isName.isWord char (mem_of_mem_head? isHead)
    exact extend?_sign (by decide) (by simp [isOpener, isPart]) fun isMinus =>
      absurd isMinus (by decide)
  have chars : (text ++ "." ++ name).toList = text.toList ++ (".".toList ++ name.toList) := by simp
  have whole := spelled.append (isWord.after apart) (by simp; decide)
  refine ⟨⟨_, _, phrase.member (atom?_name isName), chars ▸ whole, ?_⟩, ?_⟩
  · simp [node]
  · rw [chars]
    exact opens.append _

theorem args (access : Access) {items : List Expr} (written : ∀ item ∈ items,
      Written Level.lowest (item.render depth Level.lowest) item.bare True) :
    ∃ phrases : List (List Token × Expr), (∀ arg ∈ phrases, Phrase Level.lowest arg.1 arg.2) ∧
      Spelled ((commaList (renderExprs depth items)).toList ++ access.right)
        ([comma].intercalate (phrases.map Prod.fst) ++ [access.closing]) ∧
      bareAll (phrases.map Prod.snd) = bareAll items := by
  have closes : Spelled access.right [access.closing] := spelled_right access
  have delimits := right_delimits access
  have isNext {phrases : List (List Token × Expr)} {next : Expr} {more : List Expr}
      (means : bareAll (phrases.map Prod.snd) = bareAll (next :: more)) : phrases ≠ [] := by
    rintro rfl
    cases means
  induction items with
  | nil => exact ⟨[], nofun, closes, rfl⟩
  | cons item rest ih =>
    obtain ⟨itemWritten, restWritten⟩ := forall_mem_cons.1 written
    obtain ⟨⟨result, tree, phrase, spelled, means⟩, -⟩ := itemWritten
    cases rest with
    | nil =>
      refine ⟨[(result, tree)], ?_, ?_, ?_⟩
      · simpa using phrase
      · simpa [commaList, renderExprs, String.intercalate_singleton, List.intercalate] using
          spelled.append closes delimits
      · simp [bareAll, means]
    | cons second others =>
      obtain ⟨phrases, arePhrases, restSpelled, restMeans⟩ := ih restWritten
      refine ⟨(result, tree) :: phrases, ?_, ?_, ?_⟩
      · exact forall_mem_cons.2 ⟨phrase, arePhrases⟩
      · have whole := @Spelled.between _ ", ".toList _ _ _ spelled restSpelled
          ⟨',', by simp, rfl⟩ rfl
        obtain ⟨next, more, rfl⟩ := exists_cons_of_ne_nil (isNext restMeans)
        have texts : commaList (renderExprs depth (item :: second :: others)) =
            item.render depth Level.lowest ++ ", " ++
              commaList (renderExprs depth (second :: others)) :=
          String.intercalate_cons_cons
        have several : [comma].intercalate (((result, tree) :: next :: more).map Prod.fst) =
            result ++ comma :: [comma].intercalate ((next :: more).map Prod.fst) := by
          simp [List.intercalate]
        have single : tokens ", ".toList = [comma] := rfl
        rw [texts, several]
        rw [single] at whole
        simpa using whole
      · simp [bareAll, means, restMeans]

theorem access {depth : Nat} {items : List Expr} (access : Access)
    (written : Written Level.primary text meant minus)
    (argsWritten : ∀ item ∈ items,
      Written Level.lowest (item.render depth Level.lowest) item.bare True) :
    Written Level.primary
      (text ++ String.ofList access.left ++ commaList (renderExprs depth items) ++
        String.ofList access.right)
      (node (access.kind meant (bareAll items))) minus := by
  obtain ⟨⟨result, tree, phrase, spelled, rfl⟩, opens⟩ := written
  obtain ⟨phrases, arePhrases, argsSpelled, means⟩ := args access argsWritten
  have chars : (text ++ String.ofList access.left ++ commaList (renderExprs depth items) ++
      String.ofList access.right).toList = text.toList ++ (access.left ++
          ((commaList (renderExprs depth items)).toList ++ access.right)) := by simp
  have whole := spelled.append (argsSpelled.after (apart_left access _))
    (by cases access <;> (rintro _ ⟨⟩; decide))
  have single : tokens access.left = [access.opening] := by cases access <;> rfl
  rw [single] at whole
  refine ⟨⟨_, _, phrase.access access arePhrases, chars ▸ whole, ?_⟩, ?_⟩
  · rw [← means]
    cases access <;> simp [Access.kind, node]
  · rw [chars]
    exact opens.append _

end Written
end Grammar

/-! ## Reading back -/

open Grammar (Written)

theorem Formula.written {whole : Expr} (isFormula : Formula whole) (depth : Nat)
    (fits : min ≤ Level.primary) :
    Written min (whole.render depth min) whole.bare
      (whole.kind.MayStartWithMinus ∧ min ≤ whole.kind.level) := by
  have atPrimary {text : String} {kind : ExprKind} {tree : Expr}
      (written : Written Level.primary text tree
        (kind.MayStartWithMinus ∧ Level.primary ≤ kind.level)) :
      Written Level.primary text tree False :=
    written.mono fun both => kind.not_mayStartWithMinus both.2 both.1
  induction isFormula generalizing min with
  | ident isName =>
    refine .render fits False.elim ?_
    simpa [ExprKind.render, ExprKind.level] using Written.ident isName
  | int value =>
    have starts : value < 0 → (ExprKind.literal (.int value)).MayStartWithMinus :=
      fun isNegative => .inl (decide_eq_true isNegative)
    refine .render fits starts ?_
    simpa only [ExprKind.render, Literal.render] using Written.int value
  | bool value =>
    refine .render fits False.elim ?_
    simpa [ExprKind.render, ExprKind.level] using Written.bool value
  | null =>
    refine .render fits False.elim ?_
    simpa [ExprKind.render, ExprKind.level] using Written.null
  | @unary mark operand op isFormula ih =>
    have starts : op = .neg → (ExprKind.unary op operand).MayStartWithMinus := by
      rintro rfl
      exact .inl rfl
    refine .render fits starts ?_
    unfold ExprKind.render ExprKind.bare ExprKind.level
    dsimp only
    split
    · next isNested =>
        have written := (atPrimary (ih (Nat.le_refl _))).looser (show Level.unary ≤ _ by decide)
        exact written.unary op fun _ => not_false
    · next isPlain =>
        refine (ih (by decide)).unary op fun isNeg both => ?_
        obtain ⟨starts | isLoose, isUnary⟩ := both
        · exact isPlain ⟨isNeg, starts⟩
        · exact absurd isUnary (Nat.not_le.2 isLoose)
  | @binary mark left right op leftFormula rightFormula leftHypothesis rightHypothesis =>
    have levels : leftLevel op ≤ Level.primary ∧ rightLevel op ≤ Level.primary ∧
        op.level < Level.unary := by
      cases op <;> decide
    have starts : True → (ExprKind.binary op left right).MayStartWithMinus :=
      fun _ => .inr levels.2.2
    refine .render fits starts ?_
    have written := (leftHypothesis levels.1).binary op (rightHypothesis levels.2.1)
    have mins : (if op.groupsRight then (op.level + 1, op.level) else (op.level, op.level + 1)) =
        (leftLevel op, rightLevel op) := by
      unfold leftLevel rightLevel
      split <;> rfl
    simpa only [ExprKind.render, ExprKind.bare, ExprKind.level, mins] using written
  | assign isAssigned targetFormula valueFormula targetHypothesis valueHypothesis =>
    have isLoose : Level.lowest < Level.unary := by decide
    refine .render fits (fun (_ : True) => .inr isLoose) ?_
    simpa only [ExprKind.render, ExprKind.bare, ExprKind.level] using
      (targetHypothesis (by decide)).assign isAssigned (valueHypothesis (by decide))
  | conditional condFormula yesFormula noFormula condHypothesis yesHypothesis noHypothesis =>
    have isLoose : Level.conditional < Level.unary := by decide
    refine .render fits (fun (_ : True) => .inr isLoose) ?_
    simpa only [ExprKind.render, ExprKind.bare, ExprKind.level] using
      (condHypothesis (by decide)).conditional (yesHypothesis (by decide))
        (noHypothesis (by decide))
  | member isFormula isName ih =>
    refine .render fits False.elim ?_
    simpa only [ExprKind.render, ExprKind.bare, ExprKind.level] using
      (atPrimary (ih (Nat.le_refl _))).member isName
  | @access mark receiver args access isFormula areFormulas ih argsHypothesis =>
    refine .render fits False.elim ?_
    have argsWritten (item : Expr) (isArg : item ∈ args) :
        Written Level.lowest (item.render depth Level.lowest) item.bare True :=
      (argsHypothesis item isArg (by decide)).mono fun _ => trivial
    have written := (atPrimary (ih (Nat.le_refl _))).access access argsWritten
    cases access
    all_goals
      simp only [Access.kind, ExprKind.render, ExprKind.bare, ExprKind.level]
      exact written
  | paren isFormula ih =>
    refine .render fits False.elim ?_
    simpa only [ExprKind.render, ExprKind.bare, ExprKind.level] using (ih (by decide)).group

/-- Reading the text of a formula succeeds, in no other way, and gives the formula
    up to parentheses and negative numbers. -/
theorem text_reads_back {whole : Expr} (isFormula : Formula whole) :
    ∃ tree, Grammar.read? whole.text = some tree ∧ tree.bare = whole.bare ∧
      ∀ other, Phrase Level.lowest (Grammar.tokens whole.text.toList) other ↔ other = tree := by
  obtain ⟨⟨result, tree, phrase, spelled, means⟩, -⟩ :=
    isFormula.written 0 (show Level.lowest ≤ _ by decide)
  have isPhrase : Phrase Level.lowest (Grammar.tokens whole.text.toList) tree :=
    spelled.tokens ▸ phrase
  refine ⟨tree, isPhrase.readTokens?, means, fun other => ⟨fun isOther => ?_, ?_⟩⟩
  · exact Option.some.inj (isOther.readTokens?.symm.trans isPhrase.readTokens?)
  · rintro rfl
    exact isPhrase

/-- A formula with an operator of every kind, and with both kinds of negation. -/
def nestedFormula : Expr :=
  let name (text : String) : Expr := node (.ident text)
  let number (value : Int) : Expr := node (.literal (.int value))
  let call := node (.call (node (.member (name "g") "h")) [node (.literal .null), number (-7)])
  node (.assign (some .coalesce) (node (.index (name "a") [node (.unary .neg (number (-5)))]))
    (node (.conditional (node (.assign none (name "b") (name "c")))
      (node (.binary .sub (name "d") (node (.binary .sub (name "e") (name "f")))))
      (node (.unary .not call)))))

theorem nestedFormula_formula : Formula nestedFormula :=
  .assign (by decide) (.access .index (.ident (by decide)) (by simpa using .unary .neg (.int (-5))))
    (.conditional (.assign (by decide) (.ident (by decide)) (.ident (by decide)))
      (.binary .sub (.ident (by decide)) (.binary .sub (.ident (by decide)) (.ident (by decide))))
      (.unary .not (.access .call (.member (.ident (by decide)) (by decide))
        (by simpa using ⟨.null, .int (-7)⟩))))

theorem text_reads_back_nestedFormula :
    Formula nestedFormula ∧
      nestedFormula.text = "a[-(-5)] ??= (b = c) ? d - (e - f) : !g.h(null, -7)" ∧
      ∃ tree, Grammar.read? nestedFormula.text = some tree ∧ tree.bare = nestedFormula.bare ∧
        ∀ other, Phrase Level.lowest (Grammar.tokens nestedFormula.text.toList) other ↔
          other = tree :=
  ⟨nestedFormula_formula, by decide +kernel, text_reads_back nestedFormula_formula⟩

end Unsugar
