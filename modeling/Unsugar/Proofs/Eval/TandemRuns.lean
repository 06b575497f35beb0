import Unsugar.Proofs.Eval.TandemMembers

open List

namespace Unsugar

/-! # Whole runs in tandem

Each step agrees with itself if what answers its requests does; so does, by induction on how deeply
requests nest, every run.
-/

variable {method : String} {type : TypeSyntax} {body : Stmt} {sections : List Section}

namespace Eval

def invokeOn (program : Program) (recur : Answer) (target : Value) (method : String)
    (args : List Value) (className : Option String) : Eval CallResult := do
  let machine ← get
  match className.bind fun name => program.findMethod? machine name method args with
  | some (code, true) =>
    ensureStatics program recur code.owner
    runMember program recur code .null args
  | some (code, false) => runMember program recur code target args
  | none => return { value := ← builtinMethod program recur target method args }

def finishCall (recur : Answer) (scope : Nat) (frame : Frame) (args : List Expr)
    (result : CallResult) : Eval Value := do
  match result.params with
  | some (params, inner) => writeBack recur inner scope frame args params
  | none => pure ()
  return result.value

end Eval

variable {fuel other : Nat} {tandem : Tandem}

namespace Tandem

namespace Answers

open Agree Lawful

variable {tandem : Tandem} [tandem.Lawful] {now later : tandem.Time} {hidden : List String}
  {program : Program}
  {recur other : Answer} (answers : tandem.Answers recur other) {scope outside : Nat}
  {frame : Frame}

include answers

/-! ## Built-in operations -/

variable {left right value target : Value} {args : List Value} {name : String}

omit [tandem.Lawful] in
theorem objectEquals (holdsLeft : tandem.Holds now left) (holdsRight : tandem.Holds now right) :
    tandem.Agree now (Same Anything) (Eval.objectEquals recur left right)
      (Eval.objectEquals other left right) := by
  unfold Eval.objectEquals
  dsimp only
  split
  · exact done _
  · split
    · exact done _
    · refine (answers.invoke holdsLeft fun arg isArg => ?_).bind fun later result same _ sameCall => ?_
      · exact mem_singleton.mp isArg ▸ holdsRight
      · rw [sameCall.value]
        split
        · exact done _
        · exact unsupported _

omit [tandem.Lawful] in
theorem tupleEquals {left right : List Value} (holdsLeft : tandem.HoldsAll now left)
    (holdsRight : tandem.HoldsAll now right) :
    tandem.Agree now (Same Anything) (Eval.tupleEquals recur left right)
      (Eval.tupleEquals other left right) := by
  induction left generalizing now right with
  | nil => exact done _
  | cons first lefts ih =>
    cases right with
    | nil => exact done _
    | cons second rights =>
      obtain ⟨holdsFirst, holdsLefts⟩ := forall_mem_cons.mp holdsLeft
      obtain ⟨holdsSecond, holdsRights⟩ := forall_mem_cons.mp holdsRight
      refine (answers.objectEquals holdsFirst holdsSecond).bind_same fun later _ le _ => ?_
      exact (ih (HoldsAll.mono le holdsLefts) (HoldsAll.mono le holdsRights)).bind_same
        fun _ _ _ _ => done _

theorem runOperator {code : Code} (holdsLeft : tandem.Holds now left)
    (holdsRight : tandem.Holds now right) :
    tandem.Agree now tandem.SameCall (Eval.runMember program recur code .null [left, right])
      (Eval.runMember program other code .null [left, right]) :=
  answers.runMember (Lawful.plain rfl) (holdsAll_pair.mpr ⟨holdsLeft, holdsRight⟩)

theorem operatorEq (negated : Bool) (holdsLeft : tandem.Holds now left)
    (holdsRight : tandem.Holds now right) :
    tandem.Agree now (Same tandem.Holds) (Eval.operatorEq program recur negated left right)
      (Eval.operatorEq program other negated left right) := by
  unfold Eval.operatorEq
  refine (operandClass? holdsLeft holdsRight).bind_same fun later className le _ => ?_
  have holdsLeft := tandem.mono le holdsLeft
  have holdsRight := tandem.mono le holdsRight
  dsimp only
  split
  · exact plain rfl
  · split
    · exact callValue (answers.runOperator holdsLeft holdsRight)
    · split
      · exact plain rfl
      · split
        · exact plain rfl
        · refine (answers.runOperator holdsLeft holdsRight).bind fun _ result same _ sameCall => ?_
          rw [sameCall.value]
          split
          · exact plain rfl
          · exact unsupported _

theorem binary {left right : Value} (op : BinaryOp) (holdsLeft : tandem.Holds now left)
    (holdsRight : tandem.Holds now right) :
    tandem.Agree now (Same tandem.Holds) (Eval.binary program recur op left right)
      (Eval.binary program other op left right) := by
  have texts {make : String → String → Value} (plainly : ∀ first second,
      (make first second).leadsNowhere = true) : tandem.Agree now (Same tandem.Holds)
      (do return make (← recur (.display left)) (← recur (.display right)))
      (do return make (← other (.display left)) (← other (.display right))) :=
    (answers.display holdsLeft).bind_same fun _ _ le _ =>
      (answers.display (tandem.mono le holdsRight)).bind_same fun _ _ _ _ => plain (plainly _ _)
  unfold Eval.binary
  split
  · exact answers.operatorEq _ holdsLeft holdsRight
  · exact answers.operatorEq _ holdsLeft holdsRight
  · exact Agree.value holdsRight
  · exact Agree.value holdsRight
  · exact Agree.value holdsRight
  · exact texts fun _ _ => rfl
  · exact texts fun _ _ => rfl
  · exact plain rfl
  · exact plain rfl
  · exact plain rfl
  · exact numberBinary op _ _

/-! ## Text -/

theorem displayed (holds : tandem.Holds now value) :
    tandem.Agree now (Same Anything) (Eval.display program recur value)
      (Eval.display program other value) := by
  unfold Eval.display
  split
  case h_7 address =>
    refine (Lawful.object holds).bind_same fun later object le _ => ?_
    refine get_bind fun machine same couples enough => ?_
    rw [Program.findMethod?_congr (Lawful.objects couples) (Lawful.sequences couples)]
    split
    · refine (answers.runMember (tandem.mono (le.trans enough) holds)
        (forall_mem_nil _)).bind fun _ result same _ sameCall => ?_
      rw [sameCall.value]
      exact answers.display sameCall.holds
    · exact done _
  case h_8 => exact (sequence holds).bind_same fun _ _ _ _ => done _
  case h_9 items =>
    have parts : tandem.Agree now (Same fun _ (texts : List String) => ∀ text ∈ texts, True)
        (items.mapM fun item => recur (.display item))
        (items.mapM fun item => other (.display item)) :=
      mapM (fun _ _ _ _ => id) fun item isItem =>
        answers.display (Lawful.tuple.mp holds item isItem)
    exact parts.bind_same fun _ _ _ _ => done _
  all_goals exact done _

section Formats

omit [tandem.Lawful]

theorem formatValue {value : Value} (spec : List Char) (holds : tandem.Holds now value) :
    tandem.Agree now (Same Anything) (Eval.formatValue recur spec value)
      (Eval.formatValue other spec value) := by
  unfold Eval.formatValue
  split
  · exact done _
  · exact answers.display holds

variable {args : List Value}

theorem formatItem (holdsArgs : tandem.HoldsAll now args) (item : FormatItem) :
    tandem.Agree now (Same Anything) (Eval.formatItem recur args item)
      (Eval.formatItem other args item) := by
  cases item with
  | char => exact done _
  | hole text =>
    unfold Eval.formatItem
    dsimp only
    split
    · exact fault _
    · next found =>
        obtain ⟨index, -, isThere⟩ := Option.bind_eq_some_iff.mp found
        exact (answers.formatValue _ (holdsArgs _ (mem_of_getElem? isThere))).bind_same
          fun _ _ _ _ => done _

theorem format (holdsArgs : tandem.HoldsAll now args) (text : String) :
    tandem.Agree now (Same Anything) (Eval.format recur text args)
      (Eval.format other text args) := by
  have pieces : tandem.Agree now (Same fun _ (texts : List String) => ∀ text ∈ texts, True)
      ((formatItems text).mapM (Eval.formatItem recur args))
      ((formatItems text).mapM (Eval.formatItem other args)) :=
    mapM (fun _ _ _ _ => id) fun item _ => answers.formatItem holdsArgs item
  exact pieces.bind_same fun _ _ _ _ => done _

theorem consoleText (holdsArgs : tandem.HoldsAll now args) :
    tandem.Agree now (Same Anything) (Eval.consoleText recur args)
      (Eval.consoleText other args) := by
  unfold Eval.consoleText
  split
  · exact done _
  · exact answers.display (holdsArgs _ (mem_cons_self ..))
  · exact answers.format (forall_mem_cons.mp holdsArgs).2 _
  · exact fault _

end Formats

/-! ## Methods -/

theorem staticMethod (holdsArgs : tandem.HoldsAll now args) (className method : String) :
    tandem.Agree now (Same tandem.Holds) (Eval.staticMethod recur className method args)
      (Eval.staticMethod other className method args) := by
  unfold Eval.staticMethod
  split
  case h_1 =>
    obtain ⟨holdsFirst, holdsSecond⟩ := holdsAll_pair.mp holdsArgs
    exact (answers.objectEquals holdsFirst holdsSecond).bind_same fun _ _ _ _ => plain rfl
  case h_3 =>
    exact (answers.format (forall_mem_cons.mp holdsArgs).2 _).bind_same fun _ _ _ _ => plain rfl
  case h_5 | h_6 =>
    refine (answers.consoleText holdsArgs).bind_same fun _ text _ _ => ?_
    exact (print _).andThen (plain rfl)
  case h_7 | h_8 =>
    obtain ⟨holdsFirst, holdsSecond⟩ := holdsAll_pair.mp holdsArgs
    exact extremum _ holdsFirst holdsSecond
  case h_11 => exact fault _
  all_goals exact plain rfl

theorem universalMethod (holds : tandem.Holds now target) (holdsArgs : tandem.HoldsAll now args)
    (method : String) :
    Option.Rel (tandem.Agree now (Same tandem.Holds))
      (Eval.universalMethod? program recur target method args)
      (Eval.universalMethod? program other target method args) := by
  unfold Eval.universalMethod?
  split
  · next second =>
      have holdsOther := holdsArgs second (mem_singleton_self _)
      refine .some ?_
      split
      · split
        · exact (answers.tupleEquals (Lawful.tuple.mp holds) (Lawful.tuple.mp holdsOther)).bind_same
            fun _ _ _ _ => plain rfl
        · exact plain rfl
      · exact plain rfl
  · exact .some (plain rfl)
  · exact .some ((answers.displayed holds).bind_same fun _ _ _ _ => plain rfl)
  · exact .none

theorem builtinMethod (holds : tandem.Holds now target) (holdsArgs : tandem.HoldsAll now args)
    (method : String) :
    tandem.Agree now (Same tandem.Holds) (Eval.builtinMethod program recur target method args)
      (Eval.builtinMethod program other target method args) := by
  unfold Eval.builtinMethod
  split
  · exact answers.staticMethod holdsArgs _ method
  · exact raise _ _
  · split
    · exact callValue (answers.apply holds holdsArgs)
    · have universal : Option.Rel (tandem.Agree now (Same tandem.Holds))
          (Eval.universalMethod? program recur target method args)
          (Eval.universalMethod? program other target method args) :=
        answers.universalMethod holds holdsArgs method
      generalize Eval.universalMethod? program recur _ method args = ours at universal
      generalize Eval.universalMethod? program other _ method args = theirs at universal
      cases universal with
      | some agree => exact agree
      | none => exact sortMethod holds holdsArgs method

/-! ## Names and stores -/

theorem readName (visible : name ∉ hidden) (reads : tandem.Reads hidden now scope outside frame) :
    tandem.Agree now (Same tandem.Holds) (Eval.readName program recur name scope frame)
      (Eval.readName program other name outside frame) := by
  unfold Eval.readName
  refine (lookupVar? visible reads.sees).bind_same fun later found le holdsFound => ?_
  cases found with
  | some value => exact Agree.value (holdsFound value rfl)
  | none =>
    have ofField : tandem.Agree later (Same tandem.Finds)
        (Eval.readName.fieldOf name frame.this) (Eval.readName.fieldOf name frame.this) := by
      unfold Eval.readName.fieldOf
      split
      · next isObject =>
          have holds := tandem.mono le reads.this
          rw [isObject] at holds
          exact (Lawful.object holds).map fun _ _ _ fields _ further _ isField =>
            tandem.mono further (holds_lookup fields isField)
      · exact pure fun _ _ => ⟨rfl, nofun⟩
    refine ofField.bind_same fun last found _ holdsFound => ?_
    cases found with
    | some value => exact Agree.value (holdsFound value rfl)
    | none =>
      dsimp only
      split
      · exact answers.getMember (Lawful.plain rfl) name
      · split
        · exact plain rfl
        · exact fault _

omit answers in
theorem holds_implicitReceiver {receiver : Value} (holds : tandem.Holds now frame.this)
    (isReceiver : Eval.implicitReceiver? frame = some receiver) : tandem.Holds now receiver := by
  unfold Eval.implicitReceiver? at isReceiver
  split at isReceiver
  · next isThis =>
      cases isReceiver
      exact isThis ▸ holds
  · cases isReceiver
    exact Lawful.plain rfl
  · cases isReceiver

theorem storeName (visible : name ∉ hidden) (holdsValue : tandem.Holds now value)
    (reads : tandem.Reads hidden now scope outside frame) :
    tandem.Agree now (Same Anything) (Eval.storeName program recur name value scope frame)
      (Eval.storeName program other name value outside frame) := by
  refine (assignVar visible holdsValue reads.sees).bind_same fun later assigned le _ => ?_
  split
  · exact done _
  · split
    · next isReceiver =>
        have holds := holds_implicitReceiver (tandem.mono le reads.this) isReceiver
        exact answers.setMember holds (tandem.mono le holdsValue) name
    · exact fault _

theorem stored {target : Expr} (sparesTarget : (Node.expr target).Spares hidden)
    (holdsValue : tandem.Holds now value) (reads : tandem.Reads hidden now scope outside frame) :
    tandem.Agree now (Same Anything) (Eval.store program recur target value scope frame)
      (Eval.store program other target value outside frame) := by
  obtain ⟨mark, kind⟩ := target
  refine (copyStruct holdsValue).bind_same fun later value le holdsCopy => ?_
  have reads := reads.mono le
  cases kind with
  | ident name =>
    exact answers.storeName (sparesTarget.self name (mem_singleton_self _)) holdsCopy reads
  | member receiver name =>
    refine (answers.eval (sparesTarget.of_child (mem_singleton_self _)) reads).bind_same
      fun last receiver further holds => ?_
    exact answers.setMember holds (tandem.mono further holdsCopy) name
  | index receiver args =>
    refine (answers.eval (sparesTarget.of_child (mem_cons_self ..)) reads).bind_same
      fun last receiver further holds => ?_
    refine (answers.evalAll (fun node isIn => sparesTarget.of_child (mem_cons_of_mem _ isIn))
      (reads.mono further)).bind_same fun final args beyond _ => ?_
    exact storeIndex (tandem.mono beyond holds) (tandem.mono (further.trans beyond) holdsCopy) args
  | paren inner | out inner =>
    exact answers.store (sparesTarget.of_child (mem_singleton_self _)) holdsCopy reads
  | discard => exact done _
  | _ => exact unsupported _

/-! ## Calls -/

omit [tandem.Lawful] answers in
theorem called {call same : Eval Value} (agree : tandem.Agree now (Same tandem.Holds) call same) :
    tandem.Agree now tandem.SameCall (do return { value := ← call })
      (do return { value := ← same }) :=
  agree.bind_same fun _ _ _ holds => pure fun _ le => ⟨rfl, tandem.mono le holds, .inl ⟨rfl, rfl⟩⟩

theorem invoked {start : Option String} (holds : tandem.Holds now target)
    (holdsArgs : tandem.HoldsAll now args) :
    tandem.Agree now tandem.SameCall (Eval.invoke program recur target method args start)
      (Eval.invoke program other target method args start) := by
  have ofClass (className : Option String) : tandem.Agree now tandem.SameCall
      (Eval.invokeOn program recur target method args className)
      (Eval.invokeOn program other target method args className) := by
    refine get_bind fun machine same couples enough => ?_
    rw [Program.findMethod?_congr (Lawful.objects couples) (Lawful.sequences couples)]
    have holds := tandem.mono enough holds
    have holdsArgs := holdsArgs.mono enough
    split
    · exact (answers.ensureStatics _).andThen (answers.runMember (Lawful.plain rfl) holdsArgs)
    · exact answers.runMember holds holdsArgs
    · exact called (answers.builtinMethod holds holdsArgs method)
  unfold Eval.invoke
  split
  · exact (Lawful.object holds).bind_same fun _ object le _ => (ofClass _).widen le
  · exact ofClass _
  · exact ofClass none

theorem callMember {receiver : Expr} (sparesReceiver : (Node.expr receiver).Spares hidden)
    (holdsArgs : tandem.HoldsAll now args) (reads : tandem.Reads hidden now scope outside frame) :
    tandem.Agree now tandem.SameCall
      (Eval.callMember program recur receiver method args scope frame)
      (Eval.callMember program other receiver method args outside frame) := by
  refine (answers.eval sparesReceiver reads).bind_same fun later target le holds => ?_
  have holdsArgs := holdsArgs.mono le
  split
  · split
    · exact answers.invoke holds holdsArgs
    · exact called (answers.builtinMethod holds holdsArgs method)
  · exact answers.invoke holds holdsArgs

theorem callName (visible : name ∉ hidden) (holdsArgs : tandem.HoldsAll now args)
    (reads : tandem.Reads hidden now scope outside frame) :
    tandem.Agree now tandem.SameCall (Eval.callName recur name args scope frame)
      (Eval.callName other name args outside frame) := by
  refine (lookupVar? visible reads.sees).bind_same fun later found le holdsFound => ?_
  have holdsArgs := holdsArgs.mono le
  cases found with
  | some function => exact answers.apply (holdsFound function rfl) holdsArgs
  | none =>
    dsimp only
    split
    · next isReceiver =>
        exact answers.invoke (holds_implicitReceiver (tandem.mono le reads.this) isReceiver)
          holdsArgs
    · exact fault _

theorem writeBack {callee twin : Nat} {args : List Expr} {params : List Param}
    (sparesArgs : ∀ node ∈ Node.ofExprs args, node.Spares hidden)
    (twins : tandem.Twins [] now callee twin) (reads : tandem.Reads hidden now scope outside frame) :
    tandem.Agree now (Same Anything) (Eval.writeBack recur callee scope frame args params)
      (Eval.writeBack other twin outside frame args params) := by
  induction args generalizing now params with
  | nil => exact done _
  | cons arg rest ih =>
    cases params with
    | nil => exact done _
    | cons param params =>
      obtain ⟨sparesArg, sparesRest⟩ := forall_mem_cons.mp sparesArgs
      have ofRest : tandem.Agree now (Same Anything)
          (Eval.writeBack recur callee scope frame rest params)
          (Eval.writeBack other twin outside frame rest params) := ih sparesRest twins reads
      obtain ⟨mark, kind⟩ := arg
      cases kind with
      | out target =>
        refine (lookupVar? not_mem_nil (tandem.sees twins)).bind_same
          fun later found le holdsFound => ?_
        cases found with
        | none => exact ofRest.widen le
        | some value =>
          exact (answers.store (sparesArg.of_child (mem_singleton_self _))
            (holdsFound value rfl) (reads.mono le)).andThen (ofRest.widen le)
      | _ => exact ofRest

theorem call {callee : Expr} {args : List Expr}
    (sparesCallee : (Node.expr callee).Spares hidden)
    (sparesArgs : ∀ node ∈ Node.ofExprs args, node.Spares hidden)
    (reads : tandem.Reads hidden now scope outside frame) :
    tandem.Agree now (Same tandem.Holds) (Eval.call program recur callee args scope frame)
      (Eval.call program other callee args outside frame) := by
  have ending {later : tandem.Time} (le : now ≤ later) (last : tandem.Time) (result same : CallResult)
      (further : later ≤ last) (sameCall : tandem.SameCall last result same) :
      tandem.Agree last (Same tandem.Holds) (Eval.finishCall recur scope frame args result)
        (Eval.finishCall other outside frame args same) := by
    unfold Eval.finishCall
    rw [sameCall.value]
    have value := Agree.value sameCall.holds
    rcases sameCall.params with ⟨noParams, noOthers⟩ |
      ⟨params, inner, outer, isParams, isSame, twins⟩
    · rw [noParams, noOthers]
      exact value
    · rw [isParams, isSame]
      exact (answers.writeBack sparesArgs twins (reads.mono (le.trans further))).andThen value
  unfold Eval.call
  refine (answers.evalAll sparesArgs reads).bind_same fun later values le holdsValues => ?_
  have reads := reads.mono le
  obtain ⟨mark, kind⟩ := callee
  cases kind with
  | member receiver name =>
    exact (answers.callMember (sparesCallee.of_child (mem_singleton_self _)) holdsValues
      reads).bind (ending le)
  | ident name =>
    exact (answers.callName (sparesCallee.self name (mem_singleton_self _)) holdsValues
      reads).bind (ending le)
  | _ =>
    refine (answers.eval sparesCallee reads).bind_same fun last function further holds => ?_
    exact (answers.apply holds (holdsValues.mono further)).bind (ending (le.trans further))

/-! ## Expressions -/

theorem evalBinary {left right : Expr} (op : BinaryOp)
    (sparesLeft : (Node.expr left).Spares hidden)
    (sparesRight : (Node.expr right).Spares hidden)
    (reads : tandem.Reads hidden now scope outside frame) :
    tandem.Agree now (Same tandem.Holds) (Eval.evalBinary program recur op left right scope frame)
      (Eval.evalBinary program other op left right outside frame) := by
  refine (answers.eval sparesLeft reads).bind_same fun later leftValue le holdsLeft => ?_
  have ofRight := answers.eval sparesRight (reads.mono le)
  split
  · exact Agree.value holdsLeft
  · exact Agree.value holdsLeft
  · exact ofRight
  · exact Agree.value holdsLeft
  · exact ofRight.bind_same fun last rightValue further holdsRight =>
      answers.binary op (tandem.mono further holdsLeft) holdsRight

theorem assign {target value : Expr} (op : Option BinaryOp)
    (sparesTarget : (Node.expr target).Spares hidden)
    (sparesValue : (Node.expr value).Spares hidden)
    (reads : tandem.Reads hidden now scope outside frame) :
    tandem.Agree now (Same tandem.Holds) (Eval.assign program recur op target value scope frame)
      (Eval.assign program other op target value outside frame) := by
  have ending {later : tandem.Time} (le : now ≤ later) (last : tandem.Time) (result : Value)
      (further : later ≤ last) (holds : tandem.Holds last result) :
      tandem.Agree last (Same tandem.Holds)
        (do
          recur (.store target result scope frame)
          return result)
        (do
          other (.store target result outside frame)
          return result) :=
    (answers.store sparesTarget holds (reads.mono (le.trans further))).andThen (Agree.value holds)
  cases op with
  | none => exact (answers.eval sparesValue reads).bind_same (ending le_rfl)
  | some op =>
    refine (answers.eval sparesTarget reads).bind_same fun later current le holdsCurrent => ?_
    refine (answers.eval sparesValue (reads.mono le)).bind_same
      fun last operand further holdsOperand => ?_
    exact (answers.binary op (tandem.mono further holdsCurrent) holdsOperand).bind_same
      (ending (le.trans further))

theorem evalCreate {args : List Expr} {inits : List FieldInit}
    (sparesArgs : ∀ node ∈ Node.ofExprs args, node.Spares hidden)
    (sparesInits : ∀ node ∈ Node.ofInits inits, node.Spares hidden)
    (reads : tandem.Reads hidden now scope outside frame) :
    tandem.Agree now (Same tandem.Holds) (Eval.evalCreate program recur type args inits scope frame)
      (Eval.evalCreate program other type args inits outside frame) := by
  refine (answers.evalAll sparesArgs reads).bind_same fun later args le holdsArgs => ?_
  refine (answers.create holdsArgs type).bind_same fun last created further holds => ?_
  refine andThen (forIn fun init isIn => ?_) (Agree.value holds)
  refine (answers.eval (sparesInits _ (mem_map_of_mem isIn))
    (reads.mono (le.trans further))).bind_same fun final value beyond holdsValue => ?_
  exact (answers.setMember (tandem.mono beyond holds) holdsValue init.name).andThen
    (pure fun _ _ => ⟨rfl, rfl⟩)

theorem evaluated {node : Expr} (sparesNode : (Node.expr node).Spares hidden)
    (reads : tandem.Reads hidden now scope outside frame) :
    tandem.Agree now (Same tandem.Holds) (Eval.eval program recur node scope frame)
      (Eval.eval program other node outside frame) := by
  obtain ⟨mark, kind⟩ := node
  have only {child : Expr} (isChild : Node.expr child ∈ kind.children) :
      tandem.Agree now (Same tandem.Holds) (recur (.eval child scope frame))
        (other (.eval child outside frame)) :=
    answers.eval (sparesNode.of_child isChild) reads
  have all {children : List Expr} (areChildren : Node.ofExprs children ⊆ kind.children) :
      tandem.Agree now (Same tandem.HoldsAll) (Eval.evalAll recur children scope frame)
        (Eval.evalAll other children outside frame) :=
    answers.evalAll (fun node isIn => sparesNode.of_child (areChildren isIn)) reads
  unfold Eval.eval
  cases kind with
  | literal value => exact plain (by cases value <;> rfl)
  | ident name =>
    exact answers.readName (sparesNode.self name (mem_singleton_self _)) reads
  | self | base => exact Agree.value reads.this
  | typeRef type =>
    cases type with
    | named => exact plain rfl
    | _ => exact unsupported _
  | member receiver name =>
    exact (only (mem_singleton_self _)).bind_same fun _ target _ holds =>
      answers.getMember holds name
  | call callee args =>
    exact answers.call (sparesNode.of_child (mem_cons_self ..))
      (fun node isIn => sparesNode.of_child (mem_cons_of_mem _ isIn)) reads
  | index receiver args =>
    refine (only (mem_cons_self ..)).bind_same fun later target le holds => ?_
    exact ((all (subset_cons_self ..)).widen le).bind_same fun _ args further _ =>
      getIndex (tandem.mono further holds) args
  | unary op operand =>
    exact (only (mem_singleton_self _)).bind_same fun _ value _ _ => unary op value
  | binary op left right =>
    exact answers.evalBinary op (sparesNode.of_child (mem_cons_self ..))
      (sparesNode.of_child (mem_cons_of_mem _ (mem_cons_self ..))) reads
  | assign op target value =>
    exact answers.assign op (sparesNode.of_child (mem_cons_self ..))
      (sparesNode.of_child (mem_cons_of_mem _ (mem_cons_self ..))) reads
  | conditional cond yes no =>
    refine (only (mem_cons_self ..)).bind_same fun later value le _ => ?_
    refine (asBool value).bind_same fun last holds further _ => ?_
    have le := le.trans further
    split
    · exact (only (mem_cons_of_mem _ (mem_cons_self ..))).widen le
    · exact (only (mem_cons_of_mem _ (mem_cons_of_mem _ (mem_cons_self ..)))).widen le
  | typeTest subject type =>
    refine (only (mem_singleton_self _)).bind_same fun later value _ _ => ?_
    refine get_bind fun machine same couples _ => ?_
    rw [Program.isInstance_congr (Lawful.objects couples) (Lawful.sequences couples)]
    exact plain rfl
  | cast type operand =>
    exact (only (mem_singleton_self _)).bind_same fun _ _ _ holds => cast holds type
  | seq effects value =>
    exact (all (subset_append_left ..)).andThen (only (mem_append_right _ (mem_singleton_self _)))
  | lambda id params isAsync body =>
    exact allocClosure ⟨rfl, rfl, rfl, reads.sees, reads.this, sparesNode.self,
      fun node isIn => sparesNode.of_child (mem_append_right _ isIn)⟩
  | create type args inits =>
    exact answers.evalCreate (fun node isIn => sparesNode.of_child (mem_append_left _ isIn))
      (fun node isIn => sparesNode.of_child (mem_append_right _ isIn)) reads
  | collection items =>
    exact (all (List.Subset.refl _)).bind_same fun _ _ _ holds => allocSequence holds
  | throw value =>
    exact (only (mem_singleton_self _)).bind_same fun _ _ _ holds => exit holds
  | defaultOf type => exact defaultOf type
  | tuple items =>
    exact (all (List.Subset.refl _)).bind_same fun _ items _ holds =>
      Agree.value (Lawful.tuple.mpr holds)
  | out inner | paren inner => exact only (mem_singleton_self _)
  | _ => exact unsupported _

/-! ## Statements -/

section Statements

omit [tandem.Lawful] answers in
theorem goesOn {body same : Eval Unit} (agree : tandem.Agree now (Same Anything) body same) :
    tandem.Agree now (Same Anything) (Eval.goesOn body) (Eval.goesOn same) := by
  refine agree.caught_bind (fun _ _ _ _ _ => done _) (fun _ => ⟨rfl, rfl⟩) fun _ reason _ holds => ?_
  cases reason with
  | breakLoop | continueLoop => exact done _
  | _ => exact exit holds

section

variable {cond : Option Expr} (sparesCond : ∀ node ∈ Node.ofExpr? cond, node.Spares hidden)

include sparesCond

omit [tandem.Lawful] in
theorem condition (reads : tandem.Reads hidden now scope outside frame) :
    tandem.Agree now (Same Anything) (Eval.condition recur cond scope frame)
      (Eval.condition other cond outside frame) := by
  cases cond with
  | none => exact done _
  | some cond =>
    exact (answers.eval (sparesCond _ (mem_singleton_self _)) reads).bind_same
      fun _ value _ _ => asBool value

omit [tandem.Lawful] in
theorem looped {step : List Expr}
    (sparesStep : ∀ node ∈ Node.ofExprs step, node.Spares hidden)
    (sparesBody : (Node.stmt body).Spares hidden)
    (writes : tandem.Writes hidden now scope outside frame) :
    tandem.Agree now (Same Anything) (Eval.loop recur cond step body scope frame)
      (Eval.loop other cond step body outside frame) := by
  refine (answers.condition sparesCond writes.reads).bind_same fun later holds le _ => ?_
  have writes := writes.mono le
  split
  · refine (goesOn (answers.exec sparesBody writes)).bind_same fun last goes further _ => ?_
    have writes := writes.mono further
    split
    · exact (answers.evalAll sparesStep writes.reads).andThen
        (answers (.loop sparesCond sparesStep sparesBody writes))
    · exact done _
  · exact done _

end

theorem forEach {name : String} {items : List Value} (visible : name ∉ hidden)
    (sparesBody : (Node.stmt body).Spares hidden)
    (writes : tandem.Writes hidden now scope outside frame) (holdsItems : tandem.HoldsAll now items) :
    tandem.Agree now (Same Anything) (Eval.forEach recur name body scope frame items)
      (Eval.forEach other name body outside frame items) := by
  induction items generalizing now with
  | nil => exact done _
  | cons item rest ih =>
    obtain ⟨holdsItem, holdsRest⟩ := forall_mem_cons.mp holdsItems
    refine (childScope (tandem.sees writes.twins)).bind fun later inner outer le twins => ?_
    refine (declareVar visible (tandem.mono le holdsItem) twins).andThen ?_
    refine (goesOn (answers.exec sparesBody ⟨twins, tandem.mono le writes.this⟩)).bind_same
      fun last goes further _ => ?_
    have grown := le.trans further
    split
    · exact ih (writes.mono grown) (HoldsAll.mono grown holdsRest)
    · exact done _

omit [tandem.Lawful] in
theorem execAll {nodes : List Stmt}
    (sparesNodes : ∀ node ∈ Node.ofStmts nodes, node.Spares hidden)
    (writes : tandem.Writes hidden now scope outside frame) :
    tandem.Agree now (Same Anything) (Eval.execAll recur nodes scope frame)
      (Eval.execAll other nodes outside frame) :=
  forM fun _ isIn => answers.exec (sparesNodes _ (mem_map_of_mem isIn)) writes

variable {value : Value}

omit [tandem.Lawful] in
theorem labelHolds {pattern : Pattern} {guard : Option Expr}
    (sparesLabel : ∀ node ∈ Node.ofLabel (.case pattern guard), node.Spares hidden)
    (reads : tandem.Reads hidden now scope outside frame) :
    tandem.Agree now (Same Anything) (Eval.labelHolds recur value pattern guard scope frame)
      (Eval.labelHolds other value pattern guard outside frame) := by
  obtain ⟨sparesPattern, sparesGuard⟩ := forall_mem_cons.mp sparesLabel
  obtain ⟨mark, kind⟩ := pattern
  cases kind with
  | constant constant =>
    refine (answers.eval (sparesPattern.of_child (mem_singleton_self _)) reads).bind_same
      fun later constant le _ => ?_
    split
    · exact answers.condition sparesGuard (reads.mono le)
    · exact done _
  | _ => exact fault _

omit [tandem.Lawful] in
theorem anyHolds {labels : List Label}
    (sparesLabels : ∀ node ∈ labels.flatMap Node.ofLabel, node.Spares hidden)
    (reads : tandem.Reads hidden now scope outside frame) :
    tandem.Agree now (Same Anything) (Eval.anyHolds recur value scope frame labels)
      (Eval.anyHolds other value outside frame labels) := by
  induction labels generalizing now with
  | nil => exact done _
  | cons label rest ih =>
    have sparesRest : ∀ node ∈ rest.flatMap Node.ofLabel, node.Spares hidden :=
      fun node isIn => sparesLabels node (mem_append_right _ isIn)
    cases label with
    | default => exact ih sparesRest reads
    | case pattern guard =>
      refine (answers.labelHolds (fun node isIn => sparesLabels node (mem_append_left _ isIn))
        reads).bind_same fun later holds le _ => ?_
      split
      · exact done _
      · exact ih sparesRest (reads.mono le)

omit [tandem.Lawful] in
theorem selectSection
    (sparesSections : ∀ node ∈ sections.flatMap Node.ofSection, node.Spares hidden)
    (reads : tandem.Reads hidden now scope outside frame) :
    tandem.Agree now (Same fun _ selected => ∀ sect ∈ selected, sect ∈ sections)
      (Eval.selectSection recur value scope frame sections)
      (Eval.selectSection other value outside frame sections) := by
  induction sections generalizing now with
  | nil => exact pure fun _ _ => ⟨rfl, nofun⟩
  | cons sect rest ih =>
    refine (answers.anyHolds (fun node isIn => sparesSections node
      (mem_append_left _ (mem_append_left _ isIn))) reads).bind_same fun later holds le _ => ?_
    split
    · refine pure fun _ _ => ⟨rfl, fun selected isSelected => ?_⟩
      cases isSelected
      exact mem_cons_self ..
    · refine (ih (fun node isIn => sparesSections node (mem_append_right _ isIn))
        (reads.mono le)).mono fun _ selected same related => ?_
      exact ⟨related.1, fun sect isSelected => mem_cons_of_mem _ (related.2 sect isSelected)⟩

theorem execSwitch {subject : Expr} (sparesSubject : (Node.expr subject).Spares hidden)
    (sparesSections : ∀ node ∈ sections.flatMap Node.ofSection, node.Spares hidden)
    (reads : tandem.Reads hidden now scope outside frame) :
    tandem.Agree now (Same Anything) (Eval.execSwitch recur subject sections scope frame)
      (Eval.execSwitch other subject sections outside frame) := by
  refine (answers.eval sparesSubject reads).bind_same fun later value le _ => ?_
  have reads := reads.mono le
  refine (answers.selectSection sparesSections reads).bind_same fun last selected further areThere => ?_
  have reads := reads.mono further
  dsimp only
  split
  · exact done _
  · next sect isSelected =>
      have isThere : sect ∈ sections := by
        rcases Option.or_eq_some_iff.mp isSelected with isChosen | ⟨-, isFallback⟩
        · exact areThere sect isChosen
        · exact mem_of_find?_eq_some isFallback
      have sparesBody : ∀ node ∈ Node.ofStmts sect.body, node.Spares hidden := fun node isIn =>
        sparesSections node (mem_flatMap.mpr ⟨sect, isThere, mem_append_right _ isIn⟩)
      refine (childScope reads.sees).bind fun final inner outer beyond twins => ?_
      refine (answers.execAll sparesBody ⟨twins, tandem.mono beyond reads.this⟩).caught_bind
        (fun _ _ _ _ _ => done _) (fun _ => ⟨rfl, rfl⟩) fun _ reason _ holds => ?_
      cases reason with
      | breakLoop => exact done _
      | _ => exact exit holds

theorem declareLocal {name : String} {init : Option Expr} (visible : name ∉ hidden)
    (sparesInit : ∀ node ∈ Node.ofExpr? init, node.Spares hidden)
    (writes : tandem.Writes hidden now scope outside frame) :
    tandem.Agree now (Same Anything) (Eval.declareLocal program recur type name init scope frame)
      (Eval.declareLocal program other type name init outside frame) := by
  have ending (later : tandem.Time) (value : Value) (le : now ≤ later) (holds : tandem.Holds later value) :
      tandem.Agree later (Same Anything)
        (do Machine.declareVar scope name (← Machine.copyStruct value))
        (do Machine.declareVar outside name (← Machine.copyStruct value)) :=
    (copyStruct holds).bind_same fun _ _ further holdsCopy =>
      declareVar visible holdsCopy (tandem.twins_mono (le.trans further) writes.twins)
  cases init with
  | none => exact (defaultOf type).bind_same ending
  | some init =>
    exact (answers.eval (sparesInit _ (mem_singleton_self _)) writes.reads).bind_same
      fun _ _ le holds => ending _ _ le (holds_convertTo holds)

theorem executed {node : Stmt} (sparesNode : (Node.stmt node).Spares hidden)
    (writes : tandem.Writes hidden now scope outside frame) :
    tandem.Agree now (Same Anything) (Eval.exec program recur node scope frame)
      (Eval.exec program other node outside frame) := by
  obtain ⟨mark, kind⟩ := node
  have only {child : Expr} (isChild : Node.expr child ∈ kind.children) :
      tandem.Agree now (Same tandem.Holds) (recur (.eval child scope frame))
        (other (.eval child outside frame)) :=
    answers.eval (sparesNode.of_child isChild) writes.reads
  unfold Eval.exec
  cases kind with
  | block body =>
    refine (childScope (tandem.sees writes.twins)).bind fun later inner outer le twins => ?_
    exact answers.execAll (fun node isIn => sparesNode.of_child isIn)
      ⟨twins, tandem.mono le writes.this⟩
  | eval value => exact (only (mem_singleton_self _)).andThen (done _)
  | declare type name init =>
    exact answers.declareLocal (sparesNode.self name (mem_singleton_self _))
      (fun node isIn => sparesNode.of_child isIn) writes
  | ifElse cond yes no =>
    have sparesCond : ∀ node ∈ Node.ofExpr? (some cond), node.Spares hidden :=
      fun node isIn => sparesNode.of_child (mem_singleton.mp isIn ▸ mem_cons_self ..)
    refine (answers.condition sparesCond writes.reads).bind_same fun later holds le _ => ?_
    have writes := writes.mono le
    split
    · exact answers.exec (sparesNode.of_child (mem_cons_of_mem _ (mem_cons_self ..))) writes
    · cases no with
      | some no =>
        exact answers.exec (sparesNode.of_child
          (mem_cons_of_mem _ (mem_cons_of_mem _ (mem_singleton_self _)))) writes
      | none => exact done _
  | whileLoop cond body =>
    refine answers.looped (fun node isIn => ?_) (forall_mem_nil _) ?_ writes
    · exact sparesNode.of_child (mem_singleton.mp isIn ▸ mem_cons_self ..)
    · exact sparesNode.of_child (mem_cons_of_mem _ (mem_singleton_self _))
  | forLoop init cond step body =>
    refine (childScope (tandem.sees writes.twins)).bind fun later inner outer le twins => ?_
    have writes : tandem.Writes hidden later inner outer frame := ⟨twins, tandem.mono le writes.this⟩
    refine (answers.execAll (fun node isIn => sparesNode.of_child ?_) writes).andThen ?_
    · exact mem_append_left _ (mem_append_left _ (mem_append_left _ isIn))
    refine answers.looped (fun node isIn => sparesNode.of_child ?_)
      (fun node isIn => sparesNode.of_child ?_) (sparesNode.of_child ?_) writes
    · exact mem_append_left _ (mem_append_left _ (mem_append_right _ isIn))
    · exact mem_append_left _ (mem_append_right _ isIn)
    · exact mem_append_right _ (mem_singleton_self _)
  | forEach type name iterable body =>
    refine (only (mem_cons_self ..)).bind_same fun later source le holds => ?_
    refine (iterate holds).bind_same fun last items further holdsItems => ?_
    exact answers.forEach (sparesNode.self name (mem_singleton_self _))
      (sparesNode.of_child (mem_cons_of_mem _ (mem_singleton_self _)))
      (writes.mono (le.trans further)) holdsItems
  | ret value =>
    cases value with
    | none => exact exit (Lawful.plain rfl)
    | some value =>
      exact (only (mem_singleton_self _)).bind_same fun _ _ _ holds => exit holds
  | breakLoop | continueLoop => exact exit trivial
  | throw value =>
    cases value with
    | none => exact fault _
    | some value =>
      exact (only (mem_singleton_self _)).bind_same fun _ _ _ holds => exit holds
  | switch subject sections =>
    exact answers.execSwitch (sparesNode.of_child (mem_cons_self ..))
      (fun node isIn => sparesNode.of_child (mem_cons_of_mem _ isIn)) writes.reads
  | localFunction => exact fault _
  | empty => exact done _

end Statements

/-! ## Runs -/

theorem step : tandem.Answers (Eval.step program recur) (Eval.step program other) := by
  intro α request same now asks
  cases asks with
  | eval sparesNode reads => exact answers.evaluated sparesNode reads
  | exec sparesNode writes => exact answers.executed sparesNode writes
  | loop sparesCond sparesStep sparesBody writes =>
    exact answers.looped sparesCond sparesStep sparesBody writes
  | store sparesTarget holds reads => exact answers.stored sparesTarget holds reads
  | invoke holds holdsArgs => exact answers.invoked holds holdsArgs
  | apply holds holdsArgs => exact answers.applyClosure holds holdsArgs
  | display holds => exact answers.displayed holds
  | construct holds holdsArgs => exact answers.runCtor holds holdsArgs

end Answers

/-- The run that may run out of fuel has no more of it than the other; if neither may, both have
    as much. -/
def Fuels (tandem : Tandem) (fuel other : Nat) : Prop :=
  match tandem.lags with
  | none => fuel = other
  | some true => other ≤ fuel
  | some false => fuel ≤ other

theorem fuels_succ : tandem.Fuels (fuel + 1) (other + 1) ↔ tandem.Fuels fuel other := by
  unfold Fuels
  split <;> omega

theorem answers_of_zero {program : Program} (fuels : tandem.Fuels fuel other)
    (isZero : fuel = 0 ∨ other = 0) :
    tandem.Answers (Eval.run program fuel) (Eval.run program other) := by
  intro α request same now _
  unfold Fuels at fuels
  split at fuels
  · obtain ⟨rfl, rfl⟩ : fuel = 0 ∧ other = 0 := by omega
    exact Agree.fault _
  · next lags =>
      obtain rfl : other = 0 := by omega
      exact fun _ _ _ _ => .inl (.inl ⟨lags, rfl⟩)
  · next lags =>
      obtain rfl : fuel = 0 := by omega
      exact fun _ _ _ _ => .inl (.inr ⟨lags, rfl⟩)

theorem answers_run [tandem.Lawful] {program : Program} 
    (fuels : tandem.Fuels fuel other) :
    tandem.Answers (Eval.run program fuel) (Eval.run program other) := by
  induction fuel generalizing other with
  | zero => exact answers_of_zero fuels (.inl rfl)
  | succ fuel ih =>
    cases other with
    | zero => exact answers_of_zero fuels (.inr rfl)
    | succ other =>
      have answers : tandem.Answers (Eval.run program fuel) (Eval.run program other) :=
        ih (fuels_succ.mp fuels)
      exact answers.step

end Tandem

end Unsugar
