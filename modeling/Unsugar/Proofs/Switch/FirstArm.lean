import Unsugar.Proofs.Patterns.Conditions

open List

namespace Unsugar

/-! # Which arm a switch expression takes

A switch expression becomes a chain of conditionals.  Its arms are looked at in
order, each by its test and then its guard, and `switchExpression_runs` says that
nothing is left to do after the first that holds but what its result takes.
-/

open Pass

/-! ## Arms -/

variable {input result otherwise node : Expr} {target : Ty} {found : Option Nat} {view : View}
  {rest : Answer → Eval Value} {holder : Option String}

/-- Whether the pattern of an arm matches, and whether its guard holds. -/
structure ArmTruth where
  test : Bool
  guard : Bool
  deriving DecidableEq, Repr

variable {inputs arms : List Arm} {truths : List ArmTruth}

namespace Arm

/-- Whether an arm holds; without a guard its pattern decides. -/
def holds (arm : Arm) (truth : ArmTruth) : Bool :=
  truth.test && (arm.guard.isNone || truth.guard)

def first? (arms : List Arm) (truths : List ArmTruth) : Option Nat :=
  (arms.zip truths).findIdx? fun (arm, truth) => arm.holds truth

/-- Whether an arm takes everything, which needs no test. -/
def isTotal (arm : Arm) : Bool := arm.guard.isNone && isCatchAll arm.pattern

theorem lt_of_first? {arms : List Arm} {index : Nat} (isFirst : first? arms truths = some index) :
    index < arms.length := by
  have bound := (findIdx?_eq_some_iff_findIdx_eq.1 isFirst).1
  rw [length_zip] at bound
  omega

def test (subject : Expr) (arm : Arm) : Expr :=
  arm.span.expr (.isPattern subject.forget arm.pattern)

/-- The guard is only looked at once the pattern matches. -/
def condition (subject : Expr) (arm : Arm) : Expr :=
  match arm.guard with
  | none => arm.test subject
  | some guard => arm.span.binary .and (arm.test subject) guard

end Arm

namespace Pass

/-- Whether the result of an arm stays as it is, given what it was before the pass. -/
def keepsResult (view : View) (target : Ty) (input : Expr) : Bool :=
  let isThrow := match input.kind with
    | .throw _ => true
    | _ => false
  target.isUnknown || isThrow || view.classifyConversion input target == .identity

def convertedResult (view : View) (target : Ty) (input result : Expr) : Expr :=
  if keepsResult view target input then result
  else input.span.cast (view.types.names.syntaxOf target) result

/-- What a chain ends in when no arm takes everything. -/
def throwUnmatched (span : Span) (subject : Expr) : Expr :=
  span.expr (.throw (span.create (.simple "SwitchExpressionException") [subject.forget]))

/-- The chain for arms, each given as it was before the pass and as it is now. -/
def armChain (view : View) (target : Ty) (subject otherwise : Expr) : List (Arm × Arm) → Expr
  | [] => otherwise
  | (input, arm) :: rest =>
    let result := convertedResult view target input.result arm.result
    if arm.isTotal then result
    else arm.span.conditional (arm.condition subject) result
      (armChain view target subject otherwise rest)

theorem convertResult_eq {converted : Expr} {env : PassEnv} {before after : PassState}
    (ran : convertResult input result target env before = .ok (converted, after)) :
    converted = convertedResult env.view target input result := by
  obtain ⟨view, middle, isView, ran⟩ := bind_eq_ok ran
  cases isView
  change (if keepsResult env.view target input = true then pure result
    else syntaxOf target >>= fun type => pure (input.span.cast type result) : Pass Expr)
    env before = _ at ran
  unfold convertedResult
  cases keeps : keepsResult env.view target input with
  | true =>
    rw [keeps] at ran
    cases ran
    rfl
  | false =>
    rw [keeps] at ran
    obtain ⟨type, last, isType, ran⟩ := bind_eq_ok ran
    cases isType
    cases ran
    rfl

theorem switchChain_eq {subject chain : Expr} {env : PassEnv} {before after : PassState}
    (ran : switchChain subject target otherwise inputs arms env before = .ok (chain, after)) :
    chain = armChain env.view target subject otherwise (inputs.zip arms) := by
  induction inputs generalizing arms chain after with
  | nil =>
    cases ran
    rfl
  | cons input inputs ih =>
    cases arms with
    | nil =>
      cases ran
      rfl
    | cons arm arms =>
      rw [switchChain] at ran
      obtain ⟨rest, middle, ranRest, ran⟩ := bind_eq_ok ran
      obtain ⟨result, last, ranResult, ran⟩ := bind_eq_ok ran
      have isRest := ih ranRest
      have isResult := convertResult_eq ranResult
      subst isRest isResult
      obtain ⟨span, pattern, guard, result⟩ := arm
      rw [zip_cons_cons, armChain, Arm.isTotal, Arm.condition, Arm.test]
      cases guard with
      | none =>
        dsimp only at ran ⊢
        split at ran
        · next isCatchAll =>
            cases ran
            simp [isCatchAll]
        · next notCatchAll =>
            cases ran
            simp [notCatchAll]
      | some guard =>
        cases ran
        rfl

end Pass

/-! ## Arms in order -/

section Tries

variable (verdict : Verdict) (program : Program) (scope : Nat) (frame : Frame) (subject : Expr)

/-- An arm is looked at.  One that takes everything is not tested. -/
inductive Arm.Yields (arm : Arm) : Machine → ArmTruth → Machine → Prop where
  | total (isTotal : arm.isTotal = true) (guard : Bool) (machine : Machine) :
      Arm.Yields arm machine ⟨true, guard⟩ machine
  | unguarded {before after : Machine} {test : Bool} (notTotal : arm.isTotal = false)
      (noGuard : arm.guard = none) (guard : Bool)
      (decides : verdict.Decides program scope frame subject arm.pattern before test after) :
      Arm.Yields arm before ⟨test, guard⟩ after
  | unmatched {before after : Machine} {node : Expr} (isGuarded : arm.guard = some node)
      (guard : Bool)
      (decides : verdict.Decides program scope frame subject arm.pattern before false after) :
      Arm.Yields arm before ⟨false, guard⟩ after
  | guarded {before middle after : Machine} {node : Expr} {guard : Bool}
      (isGuarded : arm.guard = some node)
      (decides : verdict.Decides program scope frame subject arm.pattern before true middle)
      (evaluates : verdict.Evaluates program scope frame node middle (.bool guard) after) :
      Arm.Yields arm before ⟨true, guard⟩ after

/-- Arms are looked at in order, up to the first that holds. -/
inductive Tries : List Arm → List ArmTruth → Machine → Option Nat → Machine → Prop where
  | nothing (machine : Machine) : Tries [] [] machine none machine
  | taken {arm : Arm} {arms : List Arm} {truth : ArmTruth} {truths : List ArmTruth}
      {before after : Machine}
      (yields : arm.Yields verdict program scope frame subject before truth after)
      (holds : arm.holds truth = true) : Tries (arm :: arms) (truth :: truths) before (some 0) after
  | passed {arm : Arm} {arms : List Arm} {truth : ArmTruth} {truths : List ArmTruth}
      {found : Option Nat} {before middle after : Machine}
      (yields : arm.Yields verdict program scope frame subject before truth middle)
      (fails : arm.holds truth = false) (rest : Tries arms truths middle found after) :
      Tries (arm :: arms) (truth :: truths) before (found.map (· + 1)) after

end Tries

section Runs

variable {verdict : Verdict} {program : Program} {scope : Nat} {frame : Frame} {subject : Expr}
  {before after : Machine}

theorem Tries.found_eq {arms : List Arm}
    (tries : Tries verdict program scope frame subject arms truths before found after) :
    found = Arm.first? arms truths := by
  unfold Arm.first?
  induction tries with
  | nothing machine => rfl
  | taken yields holds => rw [zip_cons_cons, findIdx?_cons, if_pos holds]
  | passed yields fails rest ih =>
    rw [zip_cons_cons, findIdx?_cons, if_neg (by simpa using fails), ih]

/-- Reading a copy of a simple subject reads the subject. -/
theorem Eval.runTesting_rebuilt_forget : (node : Expr) → node.isSimple = true → (site : Site) →
    (fuel : Nat) → Eval.runTesting verdict program fuel
      (.eval (node.rebuild Rules.forget site : Id Expr) scope frame) =
        Eval.runTesting verdict program fuel (.eval node scope frame)
  | _, _, _, 0 => rfl
  | ⟨_, .literal _⟩, _, _, _ + 1 | ⟨_, .ident _⟩, _, _, _ + 1 | ⟨_, .self⟩, _, _, _ + 1
  | ⟨_, .base⟩, _, _, _ + 1 | ⟨_, .typeRef _⟩, _, _, _ + 1 | ⟨_, .defaultOf _⟩, _, _, _ + 1 => rfl
  | ⟨mark, .paren ⟨other, inner⟩⟩, isSimple, site, fuel + 1 =>
    Eval.runTesting_rebuilt_forget ⟨other, inner⟩ isSimple
      (site.below (.expr ⟨mark, .paren ⟨other, inner⟩⟩)) fuel

theorem Eval.runTesting_forget (isSimple : node.isSimple = true) {fuel : Nat} :
    Eval.runTesting verdict program fuel (.eval node.forget scope frame) =
      Eval.runTesting verdict program fuel (.eval node scope frame) :=
  Eval.runTesting_rebuilt_forget node isSimple .detached fuel

theorem Verdict.Decides.tests {arm : Arm} {holds : Bool} (isSimple : subject.isSimple = true)
    (decides : verdict.Decides program scope frame subject arm.pattern before holds after) :
    verdict.Evaluates program scope frame (arm.test subject) before (.bool holds) after := by
  obtain ⟨value, middle, ⟨enough, reads⟩, decided⟩ := decides
  refine Decides.evaluates ⟨value, middle, ⟨enough, fun fuel bound => ?_⟩, decided⟩
  rw [Eval.runTesting_forget isSimple]
  exact reads fuel bound

theorem Arm.Yields.evaluates {arm : Arm} {truth : ArmTruth} (isSimple : subject.isSimple = true)
    (notTotal : arm.isTotal = false)
    (yields : arm.Yields verdict program scope frame subject before truth after) :
    verdict.Evaluates program scope frame (arm.condition subject) before (.bool (arm.holds truth))
      after := by
  unfold Arm.condition Arm.holds
  cases yields with
  | total isTotal => exact absurd isTotal (by simp [notTotal])
  | unguarded _ noGuard guard decides =>
    rw [noGuard]
    simpa using decides.tests isSimple
  | unmatched isGuarded guard decides =>
    rw [isGuarded]
    exact (decides.tests isSimple).and_false
  | guarded isGuarded decides evaluates =>
    rw [isGuarded]
    exact (decides.tests isSimple).and_true evaluates

/-! ## What is left to do -/

namespace Eval

/-- Evaluate the result of an arm, and convert it to the type of the switch unless it
    stays as it is. -/
def armResult (program : Program) (view : View) (target : Ty) (input result : Expr) (scope : Nat)
    (frame : Frame) (recur : Answer) : Eval Value := do
  let value ← recur (.eval result scope frame)
  if keepsResult view target input then return value
  else program.cast value (view.types.names.syntaxOf target)

def unmatched (program : Program) (subject : Expr) (scope : Nat) (frame : Frame) (recur : Answer) :
    Eval Value := do
  let value ← recur (.eval subject scope frame)
  let object ← create program recur (.simple "SwitchExpressionException") [value]
  exit (.throw object)

theorem create_exception {program : Program}
    (undeclared : program.find? "SwitchExpressionException" = none) (recur : Answer)
    (value : Value) : create program recur (.simple "SwitchExpressionException") [value] =
      Machine.allocObject "SwitchExpressionException" false [("Message", value)] := by
  simp only [create, TypeSyntax.simple, undeclared]
  rfl

end Eval

theorem endsAs_converted {machine : Machine} :
    verdict.EndsAs program scope frame (convertedResult view target input result) machine
      (Eval.armResult program view target input result scope frame) machine := by
  unfold convertedResult Eval.armResult
  cases keepsResult view target input with
  | true => simpa using Verdict.EndsAs.eval result machine
  | false => exact .cast _ result machine

theorem Tries.chain (isSimple : subject.isSimple = true)
    (ends : ∀ machine, verdict.EndsAs program scope frame otherwise machine rest machine)
    (same : inputs.length = arms.length)
    (tries : Tries verdict program scope frame subject arms truths before found after) :
    verdict.EndsAs program scope frame
      (armChain view target subject otherwise (inputs.zip arms)) before
      (match found.bind fun index => (inputs.zip arms)[index]? with
        | some (input, arm) => Eval.armResult program view target input.result arm.result scope frame
        | none => rest) after := by
  induction tries generalizing inputs with
  | nothing machine =>
    rw [zip_nil_right]
    exact ends machine
  | @taken arm arms truth truths before after yields holds =>
    obtain ⟨input, inputs, rfl⟩ := exists_cons_of_length_eq_add_one same
    rw [zip_cons_cons, armChain]
    split
    · next isTotal =>
        cases yields with
        | total => exact endsAs_converted ..
        | unguarded notTotal => exact absurd isTotal (by simp [notTotal])
        | unmatched isGuarded => simp [Arm.isTotal, isGuarded] at isTotal
        | guarded isGuarded => simp [Arm.isTotal, isGuarded] at isTotal
    · next partly =>
        have chooses := yields.evaluates isSimple (Bool.eq_false_iff.2 partly)
        rw [holds] at chooses
        exact .conditional chooses (endsAs_converted ..)
  | @passed arm arms truth truths found before middle after yields fails rest ih =>
    obtain ⟨input, inputs, rfl⟩ := exists_cons_of_length_eq_add_one same
    rw [zip_cons_cons, armChain]
    have notTotal : arm.isTotal = false := by
      rw [Bool.eq_false_iff]
      intro isTotal
      cases yields with
      | total => simp_all [Arm.isTotal, Arm.holds]
      | unguarded notTotal => exact absurd isTotal (by simp [notTotal])
      | unmatched isGuarded => simp [Arm.isTotal, isGuarded] at isTotal
      | guarded isGuarded => simp [Arm.isTotal, isGuarded] at isTotal
    have chooses := yields.evaluates isSimple notTotal
    rw [fails] at chooses
    rw [notTotal, if_neg Bool.false_ne_true]
    refine .conditional chooses ?_
    have others : inputs.length = arms.length := by simpa using same
    have onward := ih others
    cases found <;> exact onward

end Runs

/-! ## The whole switch expression -/

/-- What stands for a value that a variable holds. -/
def Expr.heldIn (node : Expr) (holder : Option String) : Expr :=
  match holder with
  | none => node
  | some name => node.span.ident name

/-- What keeps a value in the variable for it. -/
def Expr.keptIn? (node : Expr) (holder : Option String) : Option Expr :=
  holder.map fun name => node.span.assign (node.span.ident name) node

/-- What is done before any test: a value that is not simple is evaluated, once, and kept
    in the variable for it. -/
inductive Verdict.Opens (verdict : Verdict) (program : Program) (scope : Nat) (frame : Frame)
    (subject : Expr) (holder : Option String) : Machine → Machine → Prop where
  | nothing (isSimple : holder = none) (machine : Machine) :
      Verdict.Opens verdict program scope frame subject holder machine machine
  | held {name : String} {value stored : Value} {before evaluated copied after : Machine}
      (isHeld : holder = some name)
      (evaluates : verdict.Evaluates program scope frame subject before value evaluated)
      (copies : Machine.copyStruct value evaluated = (.ok stored, copied))
      (assigns : Machine.assignVar scope name stored copied = (.ok true, after)) :
      Verdict.Opens verdict program scope frame subject holder before after

namespace Pass

variable {env : PassEnv} {before after : PassState}
  {site : Site}

theorem stabilize_eq {anchor value tested : Expr} {type : Ty} {hint : String}
    {capture : Option Expr}
    (ran : stabilize site anchor value type hint env before = .ok ((tested, capture), after)) :
    ∃ holder : Option String, holder.isNone = value.isSimple ∧ tested = value.heldIn holder ∧
      capture = value.keptIn? holder := by
  unfold stabilize at ran
  split at ran
  · next isSimple =>
      cases ran
      exact ⟨none, isSimple.symm, rfl, rfl⟩
  · next notSimple =>
      obtain ⟨point, middle, _, ran⟩ := bind_eq_ok ran
      obtain ⟨name, last, _, ran⟩ := bind_eq_ok ran
      cases ran
      exact ⟨some name, (Bool.eq_false_iff.2 notSimple).symm, rfl, rfl⟩

theorem length_of_rebuildArms {rules : Rules Pass}
    (ran : rebuildArms rules site inputs env before = .ok (arms, after)) :
    inputs.length = arms.length := by
  induction inputs generalizing arms before with
  | nil =>
    cases ran
    rfl
  | cons input inputs ih =>
    obtain ⟨span, pattern, guard, result⟩ := input
    rw [rebuildArms] at ran
    obtain ⟨_, _, _, ran⟩ := bind_eq_ok ran
    obtain ⟨_, _, _, ran⟩ := bind_eq_ok ran
    obtain ⟨_, _, _, ran⟩ := bind_eq_ok ran
    obtain ⟨rest, last, ranRest, ran⟩ := bind_eq_ok ran
    cases ran
    exact congrArg (· + 1) (ih ranRest)

theorem lowerSwitchExpression_eq {mark : Mark} {subject lowered : Expr}
    (ran : lowerSwitchExpression site ⟨mark, .switch input inputs⟩ subject arms env before =
      .ok (lowered, after)) :
    ∃ holder : Option String, holder.isNone = subject.isSimple ∧
      lowered.kind = (mark.span.after (subject.keptIn? holder)
        (armChain env.view (env.view.contextType ⟨mark, .switch input inputs⟩)
          (subject.heldIn holder) (throwUnmatched mark.span (subject.heldIn holder))
          (inputs.zip arms))).kind := by
  unfold lowerSwitchExpression at ran
  obtain ⟨target, first, isTarget, ran⟩ := bind_eq_ok ran
  cases isTarget
  obtain ⟨type, second, isType, ran⟩ := bind_eq_ok ran
  obtain ⟨⟨tested, capture⟩, third, stabilized, ran⟩ := bind_eq_ok ran
  obtain ⟨holder, isHolder, rfl, rfl⟩ := stabilize_eq stabilized
  obtain ⟨chain, fourth, ranChain, ran⟩ := bind_eq_ok ran
  have isChain := switchChain_eq ranChain
  subst isChain
  cases ran
  exact ⟨holder, isHolder, rfl⟩

end Pass

theorem Expr.isSimple_heldIn
    (isHolder : holder.isNone = node.isSimple) : (node.heldIn holder).isSimple = true := by
  cases holder with
  | none => exact isHolder.symm
  | some name => rfl

section Whole

variable {verdict : Verdict} {program : Program} {scope : Nat} {frame : Frame} {subject : Expr}
  {before after : Machine}

theorem Verdict.Opens.ends {span : Span} {opened : Machine}
    (opens : verdict.Opens program scope frame subject holder before opened)
    (ends : verdict.EndsAs program scope frame node opened rest after) :
    verdict.EndsAs program scope frame (span.after (subject.keptIn? holder) node) before rest
      after := by
  cases opens with
  | nothing isSimple =>
    rw [isSimple]
    exact ends
  | held isHeld evaluates copies assigns =>
    rw [isHeld]
    exact .seq (evaluates.assign copies assigns) ends

theorem endsAs_unmatched (span : Span) (isSimple : subject.isSimple = true) (machine : Machine) :
    verdict.EndsAs program scope frame (throwUnmatched span subject) machine
      (Eval.unmatched program subject scope frame) machine := by
  have ends : verdict.EndsAs program scope frame (throwUnmatched span subject) machine _ machine :=
    .throw_create
  obtain ⟨depth, enough, runs⟩ := ends
  refine ⟨depth, enough, fun fuel bound => (runs fuel bound).trans ?_⟩
  dsimp only
  rw [Eval.runTesting_forget isSimple]
  rfl

end Whole

/-- Switch expressions run the first match.  Whatever the arms of a switch expression,
    and however tests and guards turn out as they are looked at in order up to the first
    arm that holds, what it becomes evaluates a subject that is not simple, once, before
    them, and then has nothing left to do but to evaluate the result of that arm and
    convert it, or, if no arm holds, to throw a `SwitchExpressionException`. -/
theorem switchExpression_runs {site : Site} {mark : Mark} {input lowered : Expr}
    {inputs : List Arm} {env : PassEnv} {start finish : PassState}
    (ran : Expr.rebuild desugarRules site ⟨mark, .switch input inputs⟩ env start =
      .ok (lowered, finish)) :
    ∃ subject middle arms last, ∃ holder : Option String,
      let below := site.below (.expr ⟨mark, .switch input inputs⟩)
      let target := env.view.contextType ⟨mark, .switch input inputs⟩
      let tested := subject.heldIn holder
      input.rebuild desugarRules below env start = .ok (subject, middle) ∧
      rebuildArms desugarRules below inputs env middle = .ok (arms, last) ∧
      inputs.length = arms.length ∧ holder.isNone = subject.isSimple ∧
      lowered.kind = (mark.span.after (subject.keptIn? holder) (armChain env.view target tested
        (throwUnmatched mark.span tested) (inputs.zip arms))).kind ∧
      ∀ verdict program scope frame truths before opened found after,
        Verdict.Opens verdict program scope frame subject holder before opened →
        Tries verdict program scope frame tested arms truths opened found after →
        found = Arm.first? arms truths ∧
        (∀ index, found = some index → ∃ asWritten arm, inputs[index]? = some asWritten ∧
          arms[index]? = some arm ∧ verdict.EndsAs program scope frame lowered before
            (Eval.armResult program env.view target asWritten.result arm.result scope frame)
            after) ∧
        (found = none →
          verdict.EndsAs program scope frame lowered before
            (Eval.unmatched program tested scope frame) after ∧
          (program.find? "SwitchExpressionException" = none →
            verdict.EndsAs program scope frame lowered before (fun recur => do
              let value ← recur (.eval tested scope frame)
              let object ← Machine.allocObject "SwitchExpressionException" false
                [("Message", value)]
              Eval.exit (.throw object)) after)) := by
  rw [Expr.rebuild] at ran
  obtain ⟨kind, _, ranParts, ran⟩ := bind_eq_ok ran
  rw [ExprKind.rebuild] at ranParts
  obtain ⟨subject, middle, ranSubject, ranParts⟩ := bind_eq_ok ranParts
  obtain ⟨arms, last, ranArms, ranParts⟩ := bind_eq_ok ranParts
  cases ranParts
  obtain ⟨result, _, ranSwitch, ran⟩ := bind_eq_ok ran
  obtain ⟨_, _, ranTests, ran⟩ := bind_eq_ok ran
  cases ran
  obtain ⟨holder, isHolder, isLowered⟩ := lowerSwitchExpression_eq ranSwitch
  have same := length_of_rebuildArms ranArms
  have isSimple := Expr.isSimple_heldIn isHolder
  refine ⟨subject, middle, arms, _, holder, ranSubject, ranArms, same, isHolder, isLowered, ?_⟩
  intro verdict program scope frame truths before opened found after opens tries
  have ends := Verdict.EndsAs.of_kind isLowered (opens.ends (tries.chain isSimple
    (endsAs_unmatched mark.span isSimple) same))
  refine ⟨tries.found_eq, fun index isFound => ?_, fun isNone => ?_⟩
  · subst isFound
    have isArm := Arm.lt_of_first? tries.found_eq.symm
    have asWritten : index < inputs.length := same ▸ isArm
    refine ⟨inputs[index], arms[index], List.getElem?_eq_getElem asWritten,
      List.getElem?_eq_getElem isArm, ?_⟩
    have isPair : (inputs.zip arms)[index]? = some (inputs[index], arms[index]) := by
      simp [asWritten, isArm]
    rw [Option.bind_some, isPair] at ends
    exact ends
  · subst isNone
    refine ⟨ends, fun undeclared => ?_⟩
    obtain ⟨depth, enough, runs⟩ := ends
    refine ⟨depth, enough, fun fuel bound => (runs fuel bound).trans ?_⟩
    dsimp only [Option.bind_none, Eval.unmatched]
    simp only [Eval.create_exception undeclared]

/-! ## Arms that take everything -/

def boxedSubject : Expr := ⟨.numbered 1, .cast (.simple "object") ⟨.numbered 0, .ident "x"⟩⟩

def boxedArms : List Arm :=
  let span : Span := ⟨0, 0⟩
  [⟨span, ⟨.numbered 2, .type (.simple "int")⟩, none, ⟨.numbered 3, .literal (.int 1)⟩⟩,
    ⟨span, ⟨.numbered 4, .discard⟩, some ⟨.numbered 5, .ident "flag"⟩,
      ⟨.numbered 6, .literal (.int 2)⟩⟩,
    ⟨span, ⟨.numbered 7, .discard⟩, none, ⟨.numbered 8, .literal (.int 3)⟩⟩,
    ⟨span, ⟨.numbered 9, .type (.simple "string")⟩, none, ⟨.numbered 10, .literal (.int 4)⟩⟩]

/-- `(object)x switch { int => 1, _ when flag => 2, _ => 3, string => 4 }` -/
def boxedSwitch : Expr := ⟨.numbered 11, .switch boxedSubject boxedArms⟩

def boxedReturn : Stmt := ⟨.numbered 12, .ret (some boxedSwitch)⟩

def boxedUnit : CompilationUnit :=
  ⟨[], none, [⟨"C", .classType, [], [], none, [], none,
    [⟨.method "M" [] [.plain (.simple "object") "x", .plain (.simple "bool") "flag"]
      (.simple "object") (.block ⟨.numbered 13, .block [boxedReturn]⟩), [], ⟨0, 0⟩⟩], ⟨0, 0⟩⟩]⟩

def boxedEnv : PassEnv :=
  { pass := "desugar", unit := boxedUnit, view := boxedUnit.analyze 14 boxedUnit.vocabulary }

def boxedState : PassState := { nextName := 0, nextId := 14 }

def boxedLowered : Expr :=
  let span : Span := ⟨0, 0⟩
  let test (pattern : Pattern) := span.expr (.isPattern (span.ident "__s0") pattern)
  let boxed (id : Nat) (value : Int) :=
    span.cast (.simple "object") ⟨.numbered id, .literal (.int value)⟩
  let guarded := span.binary .and (test ⟨.numbered 4, .discard⟩) ⟨.numbered 5, .ident "flag"⟩
  let chain := span.conditional (test ⟨.numbered 2, .type (.simple "int")⟩) (boxed 3 1)
    (span.conditional guarded (boxed 6 2) (boxed 8 3))
  ⟨.numbered 11, .seq [span.assign (span.ident "__s0") boxedSubject] chain⟩

set_option maxRecDepth 8000 in
theorem boxedSwitch_lowered : ∃ finish,
    boxedSwitch.rebuild desugarRules ⟨.member 0 0, [.stmt boxedReturn]⟩ boxedEnv boxedState =
      .ok (boxedLowered, finish) := ⟨_, rfl⟩

def typeVerdict (program : Program) : Verdict := fun pattern value _ _ =>
  match pattern.kind with
  | .type type => return program.isInstance (← get) value type
  | _ => return true

/-- A string is no `int`, and the guard of the second arm fails; so the third arm is
    taken, and the last is not looked at. -/
theorem switchExpression_runs_boxedSwitch :
    (∃ finish, boxedSwitch.rebuild desugarRules ⟨.member 0 0, [.stmt boxedReturn]⟩ boxedEnv
      boxedState = .ok (boxedLowered, finish)) ∧
    Arm.first? boxedArms [⟨false, true⟩, ⟨true, false⟩, ⟨true, true⟩, ⟨true, true⟩] = some 2 ∧
    ∃ after, (typeVerdict ⟨[]⟩).Evaluates ⟨[]⟩ 0 ⟨.null, none⟩ boxedLowered
      { scopes := #[⟨[("x", .str "s"), ("flag", .bool false), ("__s0", .null)], none⟩] }
      (.int 3) after := by
  refine ⟨boxedSwitch_lowered, by decide, ?_⟩
  obtain ⟨finish, ran⟩ := boxedSwitch_lowered
  obtain ⟨subject, middle, arms, last, holder, ranSubject, ranArms, same, isHolder, isLowered,
    runs⟩ := switchExpression_runs ran
  cases ranSubject
  cases ranArms
  obtain ⟨name, rfl⟩ := Option.isSome_iff_exists.1 (Option.isNone_eq_false_iff.1 isHolder)
  injection isLowered with isKept isChain
  cases isKept
  let opened : Machine :=
    { scopes := #[⟨[("x", .str "s"), ("flag", .bool false), ("__s0", .str "s")], none⟩] }
  have opens : Verdict.Opens (typeVerdict ⟨[]⟩) ⟨[]⟩ 0 ⟨.null, none⟩ boxedSubject (some "__s0")
      { scopes := #[⟨[("x", .str "s"), ("flag", .bool false), ("__s0", .null)], none⟩] } opened :=
    .held rfl (.of_run 2 fun _ => rfl) rfl rfl
  have tested (pattern : Pattern) (holds : Bool)
      (decided : typeVerdict ⟨[]⟩ pattern (.str "s") 0 ⟨.null, none⟩ opened = (.ok holds, opened)) :
      (typeVerdict ⟨[]⟩).Decides ⟨[]⟩ 0 ⟨.null, none⟩ (boxedSubject.heldIn (some "__s0")) pattern
        opened holds opened := ⟨_, _, .of_run 1 fun _ => rfl, decided⟩
  have tries : Tries (typeVerdict ⟨[]⟩) ⟨[]⟩ 0 ⟨.null, none⟩ (boxedSubject.heldIn (some "__s0"))
      boxedArms [⟨false, true⟩, ⟨true, false⟩, ⟨true, true⟩, ⟨true, true⟩] opened (some 2) opened :=
    .passed (.unguarded rfl rfl true (tested _ _ rfl)) rfl
      (.passed (.guarded rfl (tested _ _ rfl) (.of_run 1 fun _ => rfl)) rfl
        (.taken (.total rfl true opened) rfl))
  obtain ⟨-, yields, -⟩ := runs _ _ _ _ _ _ _ _ _ opens tries
  obtain ⟨input, arm, isInput, isArm, depth, enough, ends⟩ := yields 2 rfl
  cases isInput
  cases isArm
  refine ⟨opened, max enough 1 + depth, fun fuel bound => ?_⟩
  obtain ⟨rest, rfl⟩ : ∃ rest, fuel = rest + 1 + depth := ⟨fuel - 1 - depth, by omega⟩
  rw [ends (rest + 1) (by omega)]
  rfl

end Unsugar
