import Unsugar.Proofs.Hoist.TidyQueues
import Unsugar.Proofs.Lower.Runs

namespace Unsugar

/-! # What a pass has noted stays noted

A pass notes that it changed something and which further passes the unit calls
for.  No rule takes such a note back, so what one node brings about is still to
be seen at the end of the pass.
-/

/-- Everything that is called for on the left is called for on the right. -/
structure Triggers.Within (left right : Triggers) : Prop where
  localFunctions : left.localFunctions → right.localFunctions
  chainedAssignment : left.chainedAssignment → right.chainedAssignment
  staticUsings : left.staticUsings → right.staticUsings
  patterns : left.patterns → right.patterns
  switchLabels : left.switchLabels → right.switchLabels

theorem Triggers.Within.refl (triggers : Triggers) : triggers.Within triggers :=
  ⟨id, id, id, id, id⟩

theorem Triggers.Within.trans {left middle right : Triggers} (first : left.Within middle)
    (second : middle.Within right) : left.Within right where
  localFunctions := second.localFunctions ∘ first.localFunctions
  chainedAssignment := second.chainedAssignment ∘ first.chainedAssignment
  staticUsings := second.staticUsings ∘ first.staticUsings
  patterns := second.patterns ∘ first.patterns
  switchLabels := second.switchLabels ∘ first.switchLabels

theorem Triggers.Within.eq_none {triggers : Triggers} (within : triggers.Within {}) :
    triggers = {} := by
  obtain ⟨locals, chains, statics, patterns, labels⟩ := triggers
  have ⟨first, second, third, fourth, fifth⟩ := within
  simp only [Bool.false_eq_true, imp_false, Bool.not_eq_true] at first second third fourth fifth
  subst first second third fourth fifth
  rfl

/-- A later state has every note of an earlier one, has drawn no fewer identities,
    and what it queued is as tidy. -/
structure PassState.Grows (before after : PassState) : Prop where
  changed : before.changed → after.changed
  triggers : before.triggers.Within after.triggers
  nextId : before.nextId ≤ after.nextId
  hoists : before.hoists.Tidy → after.hoists.Tidy

theorem PassState.Grows.refl (state : PassState) : state.Grows state :=
  ⟨id, .refl _, Nat.le_refl _, id⟩

theorem PassState.Grows.trans {before middle after : PassState} (first : before.Grows middle)
    (second : middle.Grows after) : before.Grows after :=
  ⟨second.changed ∘ first.changed, first.triggers.trans second.triggers,
    Nat.le_trans first.nextId second.nextId, second.hoists ∘ first.hoists⟩

/-- Something to look for in the state of a pass.  A change is always noticed, and
    what was noticed once stays. -/
structure Notice where
  noted : PassState → Prop
  ofChanged {state : PassState} : state.changed = true → noted state
  grows {before after : PassState} : noted before → before.Grows after → noted after

namespace Notice

def change : Notice where
  noted state := state.changed = true
  ofChanged := id
  grows noted grows := grows.changed noted

def anything : Notice where
  noted state := state.changed = true ∨ state.triggers ≠ {}
  ofChanged := .inl
  grows := by
    rintro before after (changed | called) grows
    · exact .inl (grows.changed changed)
    · refine .inr fun none => called ?_
      have within := grows.triggers
      rw [none] at within
      exact within.eq_none

end Notice

namespace Pass

variable {α β : Type} {notice : Notice} {change : Triggers → Triggers} {action : Pass α}
  {next : α → Pass β}

/-- Whatever an action does, it takes no note back. -/
def Grows (action : Pass α) : Prop :=
  ∀ env before result after, action env before = .ok (result, after) → before.Grows after

/-- However an action ends well, something is noted. -/
def Notes (notice : Notice) (action : Pass α) : Prop :=
  ∀ env before result after, action env before = .ok (result, after) → notice.noted after

namespace Grows

theorem pure {value : α} : Grows (pure value : Pass α) := by
  rintro env before result after ⟨⟩
  exact .refl _

theorem bind (first : Grows action) (rest : ∀ value, Grows (next value)) :
    Grows (action >>= next) := by
  intro env before result after ran
  obtain ⟨value, middle, ranFirst, ranRest⟩ := bind_eq_ok ran
  exact (first _ _ _ _ ranFirst).trans (rest _ _ _ _ _ ranRest)

theorem bindPure (first : Grows action) {build : α → β} :
    Grows (action >>= fun value => (Pure.pure (build value) : Pass β)) :=
  first.bind fun _ => .pure

/-- Steps that come after a choice between noting something and nothing. -/
theorem ite {condition : Prop} [Decidable condition] {yes no : Pass α} (isYes : Grows yes)
    (isNo : Grows no) : Grows (if condition then yes else no) := by
  split
  · exact isYes
  · exact isNo

end Grows

namespace Notes

theorem last (rest : ∀ value, Notes notice (next value)) : Notes notice (action >>= next) := by
  intro env before result after ran
  obtain ⟨value, middle, _, ranRest⟩ := bind_eq_ok ran
  exact rest _ _ _ _ _ ranRest

theorem first (noted : Notes notice action) (rest : ∀ value, Grows (next value)) :
    Notes notice (action >>= next) := by
  intro env before result after ran
  obtain ⟨value, middle, ranFirst, ranRest⟩ := bind_eq_ok ran
  exact notice.grows (noted _ _ _ _ ranFirst) (rest _ _ _ _ _ ranRest)

theorem unsupported {what : String} {span : Span} :
    Notes notice (unsupported what span : Pass α) := by
  rintro env before result after ⟨⟩

end Notes

/-! ## What every rule can do -/

variable {site : Site} {owner : Owner} {span : Span} {point : InstallPoint} {type target : Ty}
  {name hint what buffer : String} {kind : ExprKind} {args items targets : List Expr}
  {node anchor value replacement inner input receiver access subject otherwise result : Expr}
  {sequence : Sequenced} {missing start stop cond item root : Expr} {arg : SubscriptArg}
  {reference : Reference} {parts : List Part} {isEnd : Bool}

theorem read_grows : Grows (read : Pass PassEnv) := by
  rintro env before result after ⟨⟩
  exact .refl _

theorem get_grows : Grows (get : Pass PassState) := by
  rintro env before result after ⟨⟩
  exact .refl _

theorem view_grows : Grows view := read_grows.bindPure

theorem types_grows : Grows types := read_grows.bindPure

theorem typeOf_grows : Grows (typeOf node) := view_grows.bindPure

theorem modify_grows {update : PassState → PassState}
    (grows : ∀ state, PassState.Grows state (update state)) :
    Grows (modify update : Pass Unit) := by
  rintro env before result after ⟨⟩
  exact grows before

theorem markChanged_grows : Grows markChanged :=
  modify_grows fun _ => ⟨fun _ => rfl, .refl _, Nat.le_refl _, id⟩

theorem markChanged_notes : Notes notice markChanged := by
  rintro env before result after ⟨⟩
  exact notice.ofChanged rfl

theorem fail_grows {error : LowerError} : Grows (fail error : Pass α) := by
  rintro env before result after ⟨⟩

theorem unsupported_grows : Grows (unsupported what span : Pass α) :=
  read_grows.bind fun _ => fail_grows

theorem setKind_grows : Grows (setKind node kind) :=
  markChanged_grows.bindPure

theorem setKind_notes : Notes notice (setKind node kind) :=
  markChanged_notes.first fun _ => .pure

theorem replace_grows : Grows (replace node replacement) :=
  markChanged_grows.bindPure

theorem replace_notes : Notes notice (replace node replacement) :=
  markChanged_notes.first fun _ => .pure

theorem setStmt_grows {node : Stmt} {kind : StmtKind} : Grows (setStmt node kind) :=
  markChanged_grows.bindPure

theorem setStmt_notes {node : Stmt} {kind : StmtKind} : Notes notice (setStmt node kind) :=
  markChanged_notes.first fun _ => .pure

theorem splice_notes {node : Stmt} {first : StmtKind} {rest : List Stmt} :
    Notes notice (splice node first rest) :=
  markChanged_notes.first fun _ => .pure

theorem splice_grows {node : Stmt} {first : StmtKind} {rest : List Stmt} :
    Grows (splice node first rest) :=
  markChanged_grows.bindPure

theorem fresh_grows : Grows (fresh hint) := by
  rintro env before result after ⟨⟩
  exact ⟨id, .refl _, Nat.le_refl _, id⟩

theorem freshId_grows : Grows freshId := by
  rintro env before result after ⟨⟩
  exact ⟨id, .refl _, Nat.le_succ _, id⟩

theorem writeType_grows {type : TypeSyntax} : Grows (writeType type) := by
  rintro env before result after ⟨⟩
  exact ⟨id, .refl _, Nat.le_refl _, id⟩

theorem syntaxOf_grows : Grows (syntaxOf type) :=
  types_grows.bind fun _ => writeType_grows

theorem localSyntax_grows : Grows (localSyntax type) :=
  types_grows.bind fun _ => writeType_grows

theorem defaultValue_grows : Grows (defaultValue span type) :=
  types_grows.bind fun _ => .ite syntaxOf_grows.bindPure .pure

/-! ## Hoisting -/

theorem returnsValue_grows {body : Expr} : Grows (returnsValue node body) :=
  view_grows.bind fun _ => .ite .pure .pure

theorem movesIntoConstructor_grows : Grows (movesIntoConstructor owner root) := by
  unfold movesIntoConstructor
  split
  · refine read_grows.bind fun _ => ?_
    split
    · exact .pure
    · split <;> exact .pure
  · exact .pure

theorem findPoint_grows {nodes : List Node} : Grows (findPoint owner span nodes) := by
  have outside : Grows (findPoint.outside span) := unsupported_grows
  fun_induction findPoint owner span nodes with
  | case1 => exact outside
  | case2 => exact .pure
  | case3 _ _ _ ih => exact ih
  | case4 => exact returnsValue_grows.bindPure
  | case5 =>
    exact read_grows.bind fun _ => movesIntoConstructor_grows.bind fun _ => .ite .pure outside
  | case6 => rename_i ih; exact ih
  | case7 _ _ ih => exact ih

theorem installPoint_grows : Grows (installPoint site node span) :=
  findPoint_grows

theorem hoist_grows {type : TypeSyntax} : Grows (hoist point name type span) :=
  modify_grows fun _ => ⟨id, .refl _, Nat.le_refl _, fun tidy => tidy.declare _ _⟩

theorem temporary_grows : Grows (temporary point hint type span) :=
  fresh_grows.bind fun _ => syntaxOf_grows.bind fun _ => hoist_grows.bindPure

theorem stabilize_grows : Grows (stabilize site anchor value type hint) :=
  .ite .pure (installPoint_grows.bind fun _ => temporary_grows.bindPure)

/-! ## Names, bodies and deconstruction -/

theorem isVoid_grows {type : TypeSyntax} : Grows (isVoid type) := view_grows.bindPure

theorem enclosingType_grows : Grows (enclosingType owner) := read_grows.bindPure

theorem qualify_grows : Grows (qualify node name reference container) := by
  unfold qualify
  split
  · exact syntaxOf_grows.bind fun _ => Grows.pure.bind fun _ => setKind_grows
  · exact setKind_grows

theorem qualify_notes : Notes notice (qualify node name reference container) := by
  unfold qualify
  split
  · exact .last fun _ => .last fun _ => setKind_notes
  · exact setKind_notes

theorem outVariable?_grows : Grows (outVariable? inner) := by
  unfold outVariable?
  split
  · refine view_grows.bind fun _ => ?_
    dsimp only
    split
    · exact syntaxOf_grows.bindPure
    · exact .pure
  · exact fresh_grows.bind fun _ => view_grows.bind fun _ => syntaxOf_grows.bindPure
  · exact .pure

theorem outArgument_grows : Grows (outArgument site node input inner) := by
  refine outVariable?_grows.bind fun found => ?_
  split
  · exact .pure
  · exact installPoint_grows.bind fun _ => hoist_grows.bind fun _ => setKind_grows.bindPure

theorem deconstruct_grows {node : Stmt} : Grows (deconstruct node items targets value) :=
  types_grows.bind fun _ => typeOf_grows.bind fun _ => fresh_grows.bind fun _ =>
    localSyntax_grows.bind fun _ => splice_grows

theorem deconstruct_notes {node : Stmt} : Notes notice (deconstruct node items targets value) :=
  .last fun _ => .last fun _ => .last fun _ => .last fun _ => splice_notes

/-! ## Subscripts -/

theorem subscriptArg_grows : Grows (SubscriptArg.ofArgs? args) := by
  unfold SubscriptArg.ofArgs?
  split
  · split
    · exact .pure
    · exact .pure
    · exact types_grows.bind fun _ => typeOf_grows.bind fun _ => .ite .pure (.ite .pure .pure)
  · exact .pure

theorem bound_grows {value : Option Expr} : Grows (sequence.bound span missing value) := by
  unfold Sequenced.bound
  split
  · exact .pure
  · split
    · exact .pure
    · exact types_grows.bind fun _ => typeOf_grows.bind fun _ => .ite .pure .pure

theorem slice_grows : Grows (slice site anchor span sequence start stop) :=
  .ite .pure (.ite .pure stabilize_grows.bindPure)

theorem subscript_grows : Grows (subscript site anchor span receiver type arg) := by
  refine types_grows.bind fun _ => ?_
  split
  · exact .pure
  · exact .pure
  · exact bound_grows.bind fun _ => bound_grows.bind fun _ => slice_grows
  · exact typeOf_grows.bind fun _ => stabilize_grows.bind fun _ => slice_grows.bindPure

theorem subscriptOn_grows : Grows (subscriptOn site anchor span receiver arg) :=
  typeOf_grows.bind fun _ => stabilize_grows.bind fun _ => subscript_grows.bindPure

theorem lowerIndex_grows : Grows (lowerIndex site node receiver args) := by
  refine .ite .pure (subscriptArg_grows.bind fun found => ?_)
  split
  · exact .pure
  · exact subscriptOn_grows.bind fun _ => replace_grows

theorem lowerFromEnd_grows : Grows (lowerFromEnd site node value) :=
  .ite .pure replace_grows

theorem rangeBound_grows {input rebuilt : Option Expr} :
    Grows (rangeBound span isEnd input rebuilt) := by
  unfold rangeBound
  split
  · exact types_grows.bind fun _ => typeOf_grows.bind fun _ => .ite .pure .pure
  · exact .pure

theorem lowerRange_grows {start stop : Option Expr} : Grows (lowerRange site node start stop) := by
  unfold lowerRange
  refine .ite .pure ?_
  split
  exact rangeBound_grows.bind fun _ => rangeBound_grows.bind fun _ => replace_grows

/-! ## Conditional access -/

theorem bindAccess_grows : Grows (bindAccess site anchor receiver type access) := by
  fun_induction bindAccess site anchor receiver type access with
  | case1 mark inner name ih => exact ih.bindPure
  | case2 mark callee args ih => exact ih.bindPure
  | case3 mark inner args ih =>
    refine ih.bind fun _ => subscriptArg_grows.bind fun found => ?_
    split
    · exact .pure
    · exact subscriptOn_grows.bind fun _ => replace_grows
  | case4 mark name => exact setKind_grows
  | case5 mark args =>
    refine subscriptArg_grows.bind fun found => ?_
    split
    · exact subscript_grows.bind fun _ => replace_grows
    · exact setKind_grows
  | case6 => exact unsupported_grows

theorem guardAccess_grows {outer : Option (Expr × Ty)} {node : Expr} :
    Grows (guardAccess site anchor outer node) := by
  cases node with
  | mk mark kind =>
    cases kind with
    | conditionalAccess receiver access =>
      unfold guardAccess
      extract_lets span guarded
      have guardedGrows (receiver : Expr) : Grows (guarded receiver) := by
        refine typeOf_grows.bind fun _ => stabilize_grows.bind fun _ => ?_
        dsimp only
        split
        · exact guardAccess_grows.bindPure
        · exact bindAccess_grows.bindPure
      split
      · exact bindAccess_grows.bind guardedGrows
      · exact Grows.pure.bind guardedGrows
    | _ => exact unsupported_grows

theorem isVoidAccess_grows : Grows (isVoidAccess node) := by
  unfold isVoidAccess
  split
  · exact typeOf_grows.bindPure
  · exact .pure

theorem conditionalValue_grows : Grows (conditionalValue span type cond value) := by
  unfold conditionalValue
  split
  · exact .pure
  · exact syntaxOf_grows.bind fun _ => defaultValue_grows.bindPure
  · exact defaultValue_grows.bindPure

theorem lowerConditionalAccess_grows : Grows (lowerConditionalAccess site node kind) :=
  .ite .pure (isVoidAccess_grows.bind fun _ => .ite .pure
    (guardAccess_grows.bind fun _ => typeOf_grows.bind fun _ =>
      conditionalValue_grows.bind fun _ => replace_grows))

theorem lowerVoidAccess_grows : Grows (lowerVoidAccess site node) :=
  guardAccess_grows.bindPure

theorem lowerVoidStatement_grows {node : Stmt} : Grows (lowerVoidStatement site node value) :=
  lowerVoidAccess_grows.bind fun _ => setStmt_grows

theorem lowerVoidLambda_grows {id : Option Nat} {params : List Param} {isAsync : Bool} :
    Grows (lowerVoidLambda site node id params isAsync value) :=
  lowerVoidAccess_grows.bind fun _ => setKind_grows

/-! ## Other sugar of expressions -/

theorem contextType_grows : Grows (contextType node) := view_grows.bindPure

theorem convertResult_grows : Grows (convertResult input result target) :=
  view_grows.bind fun _ => .ite .pure syntaxOf_grows.bindPure

theorem switchChain_grows :
    {inputs arms : List Arm} → Grows (switchChain subject target otherwise inputs arms)
  | _ :: _, _ :: _ => by
    unfold switchChain
    refine switchChain_grows.bind fun _ => convertResult_grows.bind fun _ => ?_
    split
    · exact .ite .pure .pure
    · exact .pure
  | [], _ | _ :: _, [] => .pure

theorem lowerSwitchExpression_grows {arms : List Arm} :
    Grows (lowerSwitchExpression site node subject arms) :=
  contextType_grows.bind fun _ => typeOf_grows.bind fun _ =>
    stabilize_grows.bind fun _ => switchChain_grows.bind fun _ => replace_grows

theorem addItem_grows : Grows (addItem buffer span item) := by
  unfold addItem
  split
  · exact fresh_grows.bind fun _ => typeOf_grows.bind fun _ => localSyntax_grows.bindPure
  · exact .pure

theorem addItems_grows : {inputs items : List Expr} → Grows (addItems buffer inputs items)
  | _ :: _, _ :: _ => addItem_grows.bind fun _ => addItems_grows.bindPure
  | [], _ | _ :: _, [] => .pure

theorem lowerCollection_grows : Grows (lowerCollection node items) := by
  refine .ite .pure (contextType_grows.bind fun _ => types_grows.bind fun _ =>
    syntaxOf_grows.bind fun _ => fresh_grows.bind fun _ => addItems_grows.bind fun _ => ?_)
  dsimp only
  split
  · exact Grows.pure.bind fun _ => replace_grows
  · exact syntaxOf_grows.bind fun _ => replace_grows

theorem alignmentText_grows {input : Option Expr} : Grows (alignmentText input) := by
  unfold alignmentText
  split
  · exact .pure
  · refine view_grows.bind fun _ => ?_
    split
    · exact .pure
    · exact read_grows.bind fun _ => fail_grows

theorem compositeFormat_grows {next : Nat} : Grows (compositeFormat next parts) := by
  induction parts generalizing next with
  | nil => exact .pure
  | cons part rest ih =>
    cases part with
    | text content => exact ih.bindPure
    | hole value alignment format =>
      exact alignmentText_grows.bind fun _ => ih.bindPure

theorem lowerInterpolated_grows : Grows (lowerInterpolated node parts) :=
  .ite (compositeFormat_grows.bind fun _ => replace_grows) replace_grows

theorem lowerCopyWith_grows {inits : List FieldInit} :
    Grows (lowerCopyWith node receiver inits) := by
  refine typeOf_grows.bind fun _ => ?_
  have copied (type : Ty) : Grows (copyAs node receiver inits type) :=
    fresh_grows.bind fun _ => types_grows.bind fun _ => syntaxOf_grows.bind fun _ => replace_grows
  dsimp only
  split
  · exact typeOf_grows.bind copied
  · exact Grows.pure.bind copied

/-! ## Declarations -/

theorem trigger_grows (within : ∀ triggers, Triggers.Within triggers (change triggers)) :
    Grows (trigger change) :=
  modify_grows fun _ => ⟨id, within _, Nat.le_refl _, id⟩

theorem trigger_notes (calls : ∀ triggers, change triggers ≠ {}) :
    Notes .anything (trigger change) := by
  rintro env before result after ⟨⟩
  exact .inr (calls _)

theorem observe_grows {kind : StmtKind} : Grows (observe kind) := by
  unfold observe
  split
  · exact trigger_grows fun _ => ⟨fun _ => rfl, id, id, id, id⟩
  · exact .ite (trigger_grows fun _ => ⟨id, fun _ => rfl, id, id, id⟩) .pure
  · exact .ite .pure (trigger_grows fun _ => ⟨id, id, id, id, fun _ => rfl⟩)
  · exact .pure

theorem tests_notes : Notes .anything tests :=
  trigger_notes fun _ none => Bool.noConfusion (congrArg Triggers.patterns none)

theorem tests_grows : Grows tests := trigger_grows fun _ => ⟨id, id, id, fun _ => rfl, id⟩

theorem primaryParamsAt_grows : Grows (primaryParamsAt owner) := by
  unfold primaryParamsAt
  split
  · exact read_grows.bindPure
  · exact .pure

theorem inInstanceBody_grows : Grows (inInstanceBody site) := by
  unfold inInstanceBody
  split
  · refine read_grows.bind fun _ => ?_
    split
    · exact .pure
    · exact .pure
  · exact .pure

theorem noteCapture_grows : Grows (noteCapture owner name) := by
  unfold noteCapture
  split
  · rintro env before result after ⟨⟩
    exact ⟨id, .refl _, Nat.le_refl _, id⟩
  · exact .pure

theorem lowerName_grows : Grows (lowerName site node name) :=
  view_grows.bind fun _ => primaryParamsAt_grows.bind fun _ => inInstanceBody_grows.bind fun _ =>
      .ite (noteCapture_grows.bind fun _ => setKind_grows) .pure

theorem moveInitializer_grows : Grows (moveInitializer name value) := by
  refine freshId_grows.bind fun _ => ?_
  dsimp only
  split
  · refine Grows.bind ?_ fun _ => .pure
    rintro env before result after ⟨⟩
    exact ⟨id, .refl _, Nat.le_refl _, fun tidy => tidy.relocate _ _⟩
  · exact Grows.pure.bind fun _ => .pure

theorem withoutInitializer_grows {member : Member} : Grows (withoutInitializer member) := by
  refine .ite .pure ?_
  split
  · exact moveInitializer_grows.bindPure
  · exact moveInitializer_grows.bindPure
  · exact .pure

theorem Grows.mapM {action : α → Pass β} (grows : ∀ value, Grows (action value)) :
    {values : List α} → Grows (values.mapM action)
  | [] => by
    rw [List.mapM_nil]
    exact .pure
  | value :: _ => by
    rw [List.mapM_cons]
    exact (grows value).bind fun _ => (Grows.mapM grows).bindPure

theorem lowerPrimary_grows : Grows (lowerPrimary index leading decl) := by
  unfold lowerPrimary
  split
  · exact .pure
  · exact get_grows.bind fun _ => (Grows.mapM fun _ => withoutInitializer_grows).bind fun _ =>
      markChanged_grows.bindPure

theorem lowerRecord_grows : Grows (lowerRecord index decl) :=
  markChanged_grows.bind fun _ => types_grows.bind fun _ => lowerPrimary_grows

theorem desugarDecls_grows {index : Nat} : {decls : List TypeDecl} → Grows (desugarDecls index decls)
  | [] => .pure
  | _ :: _ => by
    unfold desugarDecls
    dsimp only
    split
    · exact lowerRecord_grows.bind fun _ => desugarDecls_grows.bindPure
    · exact lowerPrimary_grows.bind fun _ => desugarDecls_grows.bindPure

end Pass

/-! ## Breaks at the end -/

/-- A body that ends with a `break`, what is in front of it, and the `break`. -/
inductive EndsInBreak : List Stmt → List Stmt → Stmt → Prop where
  | here (mark : Mark) : EndsInBreak [⟨mark, .breakLoop⟩] [] ⟨mark, .breakLoop⟩
  | block {body kept : List Stmt} {dropped : Stmt} (mark : Mark)
      (ends : EndsInBreak body kept dropped) :
      EndsInBreak [⟨mark, .block body⟩] [⟨mark, .block kept⟩] dropped
  | later {rest kept : List Stmt} {dropped : Stmt} (node : Stmt)
      (ends : EndsInBreak rest kept dropped) :
      EndsInBreak (node :: rest) (node :: kept) dropped

mutual

theorem endsInBreak_of_dropBreak? : (node : Stmt) → (kept : Option Stmt) → (dropped : Stmt) →
    node.dropBreak? = some (kept, dropped) → EndsInBreak [node] kept.toList dropped
  | ⟨mark, kind⟩, kept, dropped, isDropped => by
    unfold Stmt.dropBreak? at isDropped
    split at isDropped
    · next isBreak =>
        cases isBreak
        cases isDropped
        exact .here mark
    · next body isBlock =>
        cases isBlock
        obtain ⟨⟨rest, last⟩, found, isResult⟩ := Option.map_eq_some_iff.1 isDropped
        cases isResult
        exact .block mark (endsInBreak_of_drop body rest dropped found)
    · cases isDropped

theorem endsInBreak_of_drop : (body kept : List Stmt) → (dropped : Stmt) →
    dropLastBreak? body = some (kept, dropped) → EndsInBreak body kept dropped
  | [], kept, dropped, isDropped => by
    cases isDropped
  | [last], kept, dropped, isDropped => by
    rw [dropLastBreak?] at isDropped
    obtain ⟨⟨rest, found⟩, isFound, isResult⟩ := Option.map_eq_some_iff.1 isDropped
    cases isResult
    exact endsInBreak_of_dropBreak? last rest dropped isFound
  | node :: second :: rest, kept, dropped, isDropped => by
    rw [dropLastBreak?] at isDropped
    · obtain ⟨⟨others, found⟩, isFound, isResult⟩ := Option.map_eq_some_iff.1 isDropped
      cases isResult
      exact .later node (endsInBreak_of_drop (second :: rest) others dropped isFound)
    · simp

end

end Unsugar
