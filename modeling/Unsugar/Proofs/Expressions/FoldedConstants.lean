import Unsugar.Proofs.Eval.Expectations
import Unsugar.Proofs.Expressions.Offsets

open List

namespace Unsugar

/-! # Folded constants at run time

Folding knows integers of 64 bits, and a program integers of 32.  What an operator yields at
run time is therefore its folded value wrapped, and the two agree throughout an expression
exactly if no operator in it leaves the 32-bit range.
-/

def Constant.value : Constant → Value
  | int value => .int value
  | float bits => .double bits
  | bool value => .bool value
  | char value => .char value
  | str value => .str value
  | null => .null

def Constant.wrapped : Constant → Constant
  | int value => int (wrap32 value)
  | other => other

/-! ## What folding looks at -/

/-- Operators that wrap the integers they yield. -/
def ExprKind.wraps : ExprKind → Bool
  | .unary .neg _ | .unary .bitNot _ => true
  | .binary .add _ _ | .binary .sub _ _ | .binary .mul _ _ | .binary .div _ _
  | .binary .mod _ _ => true
  | _ => false

/-- Expressions whose constants others supply. -/
def ExprKind.isName : ExprKind → Bool
  | .ident _ | .member .. => true
  | _ => false

mutual

def Expr.folded : Expr → List Expr
  | ⟨mark, kind⟩ => ⟨mark, kind⟩ :: kind.folded

def ExprKind.folded : ExprKind → List Expr
  | .paren inner | .unary _ inner => inner.folded
  | .binary _ left right => left.folded ++ right.folded
  | _ => []

end

theorem Expr.mem_folded (node : Expr) : node ∈ node.folded := by
  obtain ⟨mark, kind⟩ := node
  exact mem_cons_self

mutual

theorem Expr.folded_subset :
    (node : Expr) → {part : Expr} → part ∈ node.folded → part.folded ⊆ node.folded
  | ⟨mark, kind⟩, _, isPart => by
    rcases mem_cons.1 isPart with rfl | isInside
    · exact List.Subset.refl _
    · exact subset_cons_of_subset _ (kind.folded_subset isInside)

theorem ExprKind.folded_subset :
    (kind : ExprKind) → {part : Expr} → part ∈ kind.folded → part.folded ⊆ kind.folded
  | .paren inner, _, isPart | .unary _ inner, _, isPart => inner.folded_subset isPart
  | .binary _ left right, _, isPart => by
    rcases mem_append.1 isPart with isLeft | isRight
    · exact subset_append_of_subset_left _ (left.folded_subset isLeft)
    · exact subset_append_of_subset_right _ (right.folded_subset isRight)

end

/-! ## One step

What an expression evaluates to, once its operands evaluate to what they fold to.
-/

namespace Constant

variable {program : Program} {machine : Machine} {constant left right folded : Constant}

theorem eq_of_ofInt? {value : Int} (fits : ofInt? value = some folded) : folded = int value := by
  rw [ofInt?] at fits
  split at fits <;> cases fits
  rfl

def yielded (kind : ExprKind) (folded : Constant) : Constant :=
  if kind.wraps then folded.wrapped else folded

theorem unary_yields {op : UnaryOp} {operand : Expr} (folds : unary? op constant = some folded) :
    Eval.unary op constant.value machine =
      (.ok (folded.yielded (.unary op operand)).value, machine) := by
  cases op with
  | not =>
    cases constant <;> cases folds
    rfl
  | neg =>
    cases constant with
    | int value =>
      rw [eq_of_ofInt? folds]
      rfl
    | float bits =>
      cases folds
      rfl
    | _ => cases folds
  | bitNot =>
    cases constant <;> cases folds
    rfl

theorem divide?_eq_some {pick : Int → Int → Int} {value divisor : Int}
    (folds : divide? pick value divisor = some folded) :
    divisor ≠ 0 ∧ folded = int (pick value divisor) := by
  rw [divide?] at folds
  split at folds
  · cases folds
  · next nonzero =>
      split at folds <;> cases folds
      exact ⟨nonzero, rfl⟩

theorem builtinEq_int {value other : Int} :
    (Value.int value).builtinEq (.int other) = decide (value = other) := rfl

theorem integers_yield {op : BinaryOp} {value other : Int} {first second : Expr} {recur : Answer}
    (folds : integers? op value other = some folded) :
    Eval.binary program recur op (.int value) (.int other) machine =
      (.ok (folded.yielded (.binary op first second)).value, machine) := by
  cases op with
  | add | sub | mul =>
    rw [eq_of_ofInt? folds]
    rfl
  | div =>
    obtain ⟨nonzero, rfl⟩ := divide?_eq_some folds
    change Eval.intBinary .div value other machine = _
    rw [Eval.intBinary, if_neg nonzero]
    rfl
  | mod =>
    obtain ⟨nonzero, rfl⟩ := divide?_eq_some folds
    change Eval.intBinary .mod value other machine = _
    rw [Eval.intBinary, if_neg nonzero]
    rfl
  | eq =>
    cases folds
    change (Except.ok (Value.bool ((Value.int value).builtinEq (.int other) != false)), machine) = _
    rw [builtinEq_int, Bool.bne_false]
    rfl
  | notEq =>
    cases folds
    change (Except.ok (Value.bool ((Value.int value).builtinEq (.int other) != true)), machine) = _
    rw [builtinEq_int, Bool.bne_true, ← decide_not]
    rfl
  | and | or | coalesce => cases folds
  | _ => cases folds; rfl

theorem display_str {text : String} :
    Runs program (fun recur => recur (.display (.str text))) machine (.ok text) machine :=
  .request (.of_eq fun _ => rfl)

theorem binary_yields {op : BinaryOp} {first second : Expr} (eager : op ≠ .and ∧ op ≠ .or)
    (folds : binary? op left right = some folded) :
    Runs program (fun recur => Eval.binary program recur op left.value right.value) machine
      (.ok (folded.yielded (.binary op first second)).value) machine := by
  cases left with
  | int value =>
    cases right with
    | int other => exact .of_eq fun _ => integers_yield (by cases op <;> exact folds)
    | _ => cases op <;> cases folds
  | str value =>
    cases right with
    | str other =>
      cases op with
      | add =>
        cases folds
        exact display_str.bind (display_str.bind (.pure _ machine))
      | _ => cases folds
    | _ => cases op <;> cases folds
  | bool value =>
    cases op with
    | and => exact absurd rfl eager.1
    | or => exact absurd rfl eager.2
    | _ => cases right <;> cases folds
  | _ => cases op <;> cases right <;> cases folds

end Constant

section Evaluation

open Constant

variable {resolve : Expr → Option Constant} {program : Program} {scope : Nat} {frame : Frame}
  {machine : Machine}
  (resolve program scope frame machine) in
def Expr.Agrees (node : Expr) : Prop :=
  ∀ constant, node.fold? resolve = some constant →
    Evaluates program scope frame node machine constant.value machine

variable (resolve) in
/-- The integer an operator folds to, if it is one, has 32 bits. -/
def Expr.Fits (node : Expr) : Prop :=
  node.kind.wraps = true → ∀ value, node.fold? resolve = some (.int value) →
    -2 ^ 31 ≤ value ∧ value < 2 ^ 31

theorem wrap32_eq_self_iff {value : Int} :
    wrap32 value = value ↔ -2 ^ 31 ≤ value ∧ value < 2 ^ 31 := by
  obtain ⟨low, high, turns, same⟩ := wrap32_spec value
  omega

theorem Evaluates.shortCircuit (mark : Mark) {op : BinaryOp} {left right : Expr}
    {first second folded : Constant} (isShort : op = .and ∨ op = .or)
    (folds : binary? op first second = some folded)
    (leftEval : Evaluates program scope frame left machine first.value machine)
    (rightEval : Evaluates program scope frame right machine second.value machine) :
    Evaluates program scope frame ⟨mark, .binary op left right⟩ machine folded.value machine := by
  have bools : ∃ yes no, first = .bool yes ∧ second = .bool no := by
    rcases isShort with rfl | rfl <;> cases first <;> cases second <;> first
      | exact ⟨_, _, rfl, rfl⟩
      | cases folds
  obtain ⟨yes, no, rfl, rfl⟩ := bools
  suffices evaluates : Evaluates program scope frame (mark.span.binary op left right) machine
      folded.value machine from evaluates.of_kind rfl
  rcases isShort with rfl | rfl <;> cases folds <;> cases yes
  · exact .and_false leftEval
  · exact .and_true leftEval rightEval
  · exact .or_false leftEval rightEval
  · exact .or_true leftEval

theorem Expr.evaluates_yielded {folded : Constant} : (node : Expr) →
    (folds : node.fold? resolve = some folded) → (noName : node.kind.isName = false) →
    (inside : ∀ part ∈ node.kind.folded, part.Agrees resolve program scope frame machine) →
    Evaluates program scope frame node machine (folded.yielded node.kind).value machine
  | ⟨mark, .literal value⟩, folds, _, _ => by
    cases folds
    refine Runs.request (.of_eq fun _ => ?_)
    cases value <;> rfl
  | ⟨mark, .paren inner⟩, folds, _, inside =>
    Runs.request (inside inner inner.mem_folded folded folds)
  | ⟨mark, .unary op operand⟩, folds, _, inside => by
    obtain ⟨constant, isOperand, folds⟩ := Option.bind_eq_some_iff.1 folds
    have operandRuns : Runs program (fun recur => recur (.eval operand scope frame)) machine
      (.ok constant.value) machine := inside operand operand.mem_folded constant isOperand
    exact Runs.request (operandRuns.bind (.of_eq fun _ => unary_yields folds))
  | ⟨mark, .binary op left right⟩, folds, _, inside => by
    obtain ⟨first, isLeft, folds⟩ := Option.bind_eq_some_iff.1 folds
    obtain ⟨second, isRight, folds⟩ := Option.bind_eq_some_iff.1 folds
    have leftEval := inside left (mem_append_left _ left.mem_folded) first isLeft
    have rightEval := inside right (mem_append_right _ right.mem_folded) second isRight
    by_cases isShort : op = .and ∨ op = .or
    · have short := Evaluates.shortCircuit mark isShort folds leftEval rightEval
      rcases isShort with rfl | rfl <;> exact short
    · have eager : op ≠ .and ∧ op ≠ .or ∧ op ≠ .coalesce := by
        rw [not_or] at isShort
        refine ⟨isShort.1, isShort.2, ?_⟩
        rintro rfl
        cases first <;> cases second <;> cases folds
      have leftRuns : Runs program (fun recur => recur (.eval left scope frame)) machine
        (.ok first.value) machine := leftEval
      have rightRuns : Runs program (fun recur => recur (.eval right scope frame)) machine
        (.ok second.value) machine := rightEval
      have rest : Runs program (fun recur => recur (.eval right scope frame) >>= fun value =>
          Eval.binary program recur op first.value value) machine
          (.ok (folded.yielded (.binary op left right)).value) machine :=
        rightRuns.bind (binary_yields (not_or.1 isShort) folds)
      have whole : Runs program (fun recur => recur (.eval left scope frame) >>= fun leftValue =>
          recur (.eval right scope frame) >>= fun rightValue =>
            Eval.binary program recur op leftValue rightValue) machine
          (.ok (folded.yielded (.binary op left right)).value) machine := leftRuns.bind rest
      obtain ⟨enough, runs⟩ := whole
      refine Runs.request ⟨enough, fun fuel bound => ?_⟩
      rw [← runs fuel bound]
      change Eval.evalBinary program (Eval.run program fuel) op left right scope frame machine = _
      rw [Eval.evalBinary_eager eager]
  | ⟨mark, .ident _⟩, _, noName, _ => by cases noName
  | ⟨mark, .member ..⟩, _, noName, _ => by cases noName

theorem Expr.Fits.yielded_eq {node : Expr} {folded : Constant} (fits : node.Fits resolve)
    (folds : node.fold? resolve = some folded) : folded.yielded node.kind = folded := by
  rw [yielded]
  split
  · next wraps =>
      cases folded with
      | int value => exact congrArg int (wrap32_eq_self_iff.2 (fits wraps value folds))
      | _ => rfl
  · rfl

mutual

theorem Expr.agrees_of_fits : (node : Expr) →
    (∀ part ∈ node.folded, part.kind.isName = false) → (∀ part ∈ node.folded, part.Fits resolve) →
    ∀ part ∈ node.folded, part.Agrees resolve program scope frame machine
  | ⟨mark, kind⟩, noNames, fits, part, isPart => by
    have inside : ∀ part ∈ kind.folded, part.Agrees resolve program scope frame machine :=
      kind.agrees_of_fits (fun part isInside => noNames part (mem_cons_of_mem _ isInside))
        fun part isInside => fits part (mem_cons_of_mem _ isInside)
    rcases mem_cons.1 isPart with rfl | isInside
    · intro constant folds
      have evaluates := Expr.evaluates_yielded _ folds (noNames _ isPart) inside
      rwa [(fits _ isPart).yielded_eq folds] at evaluates
    · exact inside part isInside

theorem ExprKind.agrees_of_fits : (kind : ExprKind) →
    (∀ part ∈ kind.folded, part.kind.isName = false) → (∀ part ∈ kind.folded, part.Fits resolve) →
    ∀ part ∈ kind.folded, part.Agrees resolve program scope frame machine
  | .paren inner, noNames, fits, part, isPart | .unary _ inner, noNames, fits, part, isPart =>
    inner.agrees_of_fits noNames fits part isPart
  | .binary _ left right, noNames, fits, part, isPart => by
    obtain ⟨leftNames, rightNames⟩ := forall_mem_append.1 noNames
    obtain ⟨leftFits, rightFits⟩ := forall_mem_append.1 fits
    rcases mem_append.1 isPart with isLeft | isRight
    · exact left.agrees_of_fits leftNames leftFits part isLeft
    · exact right.agrees_of_fits rightNames rightFits part isRight

end

/-- Without names, an expression and its parts have the values they fold to exactly if no
    operator in it folds to an integer of more than 32 bits. -/
theorem fold?_agrees_iff (resolve : Expr → Option Constant) (node : Expr)
    (noNames : ∀ part ∈ node.folded, part.kind.isName = false) (program : Program) (scope : Nat)
    (frame : Frame) (machine : Machine) :
    (∀ part ∈ node.folded, ∀ constant, part.fold? resolve = some constant →
      Evaluates program scope frame part machine constant.value machine) ↔
    ∀ part ∈ node.folded, part.kind.wraps = true → ∀ value,
      part.fold? resolve = some (.int value) → -2 ^ 31 ≤ value ∧ value < 2 ^ 31 := by
  refine ⟨fun agrees part isPart wraps value folds => ?_, node.agrees_of_fits noNames⟩
  obtain ⟨mark, kind⟩ := part
  have evaluates := Expr.evaluates_yielded _ folds (noNames _ isPart) fun other isInside =>
    agrees other (node.folded_subset isPart (List.mem_cons_of_mem _ isInside))
  have wrapped : Runs program (fun recur => recur (.eval ⟨mark, kind⟩ scope frame)) machine
      (.ok (.int (wrap32 value))) machine := by
    rw [yielded, if_pos wraps] at evaluates
    exact evaluates
  have same := (wrapped.unique (agrees _ isPart _ folds)).1
  exact wrap32_eq_self_iff.1 (Value.int.inj (Except.ok.inj same))

def sumOf (left right : Int) : Expr :=
  ⟨.numbered 0, .binary .add ⟨.numbered 1, .literal (.int left)⟩ ⟨.numbered 2, .literal (.int right)⟩⟩

/-- The first sum evaluates to 8; the second folds to 2147483648, which it does not have as a
    value. -/
theorem fold?_agrees_iff_sums :
    Evaluates ⟨[]⟩ 0 ⟨.null, none⟩ (sumOf 5 3) {} (.int 8) {} ∧
      (sumOf 2147483647 1).fold? (fun _ => none) = some (.int 2147483648) ∧
      ¬ Evaluates ⟨[]⟩ 0 ⟨.null, none⟩ (sumOf 2147483647 1) {} (.int 2147483648) {} := by
  have noNames (left right : Int) : ∀ part ∈ (sumOf left right).folded, part.kind.isName = false := by
    intro part isPart
    rcases List.mem_cons.1 isPart with rfl | isPart
    · rfl
    rcases List.mem_cons.1 isPart with rfl | isPart
    · rfl
    cases List.mem_singleton.1 isPart
    rfl
  refine ⟨?_, rfl, fun evaluates => ?_⟩
  · refine (fold?_agrees_iff (fun _ => none) (sumOf 5 3) (noNames 5 3) _ _ _ _).2 ?_ _
      (Expr.mem_folded _) (.int 8) rfl
    intro part isPart wraps value folds
    rcases List.mem_cons.1 isPart with rfl | isPart
    · cases folds
      decide
    rcases List.mem_cons.1 isPart with rfl | isPart
    · cases wraps
    cases List.mem_singleton.1 isPart
    cases wraps
  · have fits := (fold?_agrees_iff (fun _ => none) (sumOf 2147483647 1) (noNames _ _) ⟨[]⟩ 0
      ⟨.null, none⟩ {}).1 ?_ _ (Expr.mem_folded _) rfl 2147483648 rfl
    · exact absurd fits.2 (by decide)
    intro part isPart constant folds
    rcases List.mem_cons.1 isPart with rfl | isPart
    · cases folds
      exact evaluates
    rcases List.mem_cons.1 isPart with rfl | isPart
    · cases folds
      exact Runs.request (.of_eq fun _ => rfl)
    cases List.mem_singleton.1 isPart
    cases folds
    exact Runs.request (.of_eq fun _ => rfl)

end Evaluation

end Unsugar
