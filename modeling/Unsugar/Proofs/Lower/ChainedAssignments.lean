import Unsugar.Proofs.Eval.UnseenVariables

open List

namespace Unsugar

/-! # Chained assignments as statements of their own

A chain stores while its evaluation unwinds, the statements that replace it store one after
the other from a temporary.  Both do the same with everything but the temporary.
-/

/-! ## The statements of a split chain -/

def splitAssignments (mark : Mark) (type : TypeSyntax) (name : String) (value : Expr)
    (targets : List Expr) : List Stmt :=
  ⟨mark, .declare type name (some value)⟩ ::
    targets.reverse.map fun target => mark.span.assignStmt target (mark.span.ident name)

theorem splitAssignments_cons {mark : Mark} {type : TypeSyntax} {name : String} {value target : Expr}
    {targets : List Expr} :
    splitAssignments mark type name value (target :: targets) =
      splitAssignments mark type name value targets ++
        [mark.span.assignStmt target (mark.span.ident name)] := by
  rw [splitAssignments, splitAssignments, reverse_cons, map_append]
  rfl

variable {targets : List Expr} {program : Program}

theorem gather_splitAssignments (node : Stmt) (type : TypeSyntax) (name : String) (value : Expr)
    (notEmpty : targets ≠ []) :
    node.gather (splitAssignments node.mark type name value targets) =
      { node with kind := .block (splitAssignments node.span.mark type name value targets) } := by
  unfold splitAssignments
  cases isRest : targets.reverse with
  | nil => exact absurd (reverse_eq_nil_iff.mp isRest) notEmpty
  | cons target rest => rfl

namespace Pass

theorem eq_of_assignmentChain {chain last : Expr} (isChain : assignmentChain chain = ([], last)) :
    chain = last := by
  obtain ⟨mark, kind⟩ := chain
  cases kind with
  | assign op target value =>
    cases op with
    | none => cases (Prod.mk.inj isChain).1
    | some op => exact (Prod.mk.inj isChain).2
  | _ => exact (Prod.mk.inj isChain).2

theorem assign_of_assignmentChain {chain last target : Expr}
    (isChain : assignmentChain chain = (target :: targets, last)) :
    ∃ mark value, chain = ⟨mark, .assign none target value⟩ ∧
      assignmentChain value = (targets, last) := by
  obtain ⟨mark, kind⟩ := chain
  cases kind with
  | assign op first value =>
    cases op with
    | none =>
      obtain ⟨isTargets, isLast⟩ := Prod.mk.inj isChain
      obtain ⟨rfl, isRest⟩ := List.cons.inj isTargets
      exact ⟨mark, value, rfl, Prod.ext isRest isLast⟩
    | some op => cases (Prod.mk.inj isChain).1
  | _ => cases (Prod.mk.inj isChain).1

end Pass

/-- Whether a value is a struct, which is copied whenever it is stored. -/
def Machine.holdsStruct (machine : Machine) : Value → Bool
  | .object address => (machine.objects.getD address default).isStruct
  | _ => false

theorem Machine.copyStruct_shared {machine : Machine} {value : Value}
    (shared : machine.holdsStruct value = false) :
    Machine.copyStruct value machine = (.ok value, machine) := by
  cases value with
  | object address =>
    have notStruct : (machine.objects.getD address default).isStruct = false := shared
    unfold Machine.copyStruct
    dsimp only
    rw [Eval.bind_ok (show Machine.object address machine =
      (.ok (machine.objects.getD address default), machine) from rfl), notStruct]
    rfl
  | _ => rfl

namespace Veil

variable {veil : Veil} {program : Program} {name : String}

theorem Alike.reads {machine other : Machine} (alike : veil.Alike machine other) {value : Value}
    (isHidden : name ∈ veil.hidden) (held : veil.held.lookup name = some value) (span : Span)
    (frame : Frame) (fuel : Nat) :
    Eval.run program (fuel + 1) (.eval (span.ident name) veil.home frame) other =
      (.ok value, other) := by
  change Eval.readName program (Eval.run program fuel) name veil.home frame other = _
  unfold Eval.readName
  rw [Eval.bind_ok (Machine.lookupVar?_eq other), alike.valueOf? isHidden held]
  rfl

theorem agree_assignStmt {bound : Layout} {fuel more scope : Nat} {frame : Frame} {value : Value}
    {target : Expr} (span : Span) (fuels : veil.tandem.Fuels fuel (more + 1))
    (isHidden : name ∈ veil.hidden) (held : veil.held.lookup name = some value)
    (sparesTarget : (Node.expr target).Spares veil.hidden) (clean : veil.Clean value)
    (sees : veil.Sees veil.hidden bound scope veil.home) (cleanFrame : veil.Clean frame.this) :
    veil.tandem.Agree bound (Same Anything) (Eval.run program fuel (.store target value scope frame))
      (Eval.run program (more + 3)
        (.exec (span.assignStmt target (span.ident name)) veil.home frame)) := by
  intro machine other alike enough
  have runs : Eval.run program (more + 3)
      (.exec (span.assignStmt target (span.ident name)) veil.home frame) other =
        Eval.run program (more + 1) (.store target value veil.home frame) other := by
    change (Eval.assign program (Eval.run program (more + 1)) none target (span.ident name) veil.home
      frame >>= fun _ => Pure.pure ()) other = _
    unfold Eval.assign
    simp only [bind_assoc, pure_bind]
    rw [Eval.bind_ok (alike.reads isHidden held span frame more), bind_pure_unit]
  rw [runs]
  exact (Tandem.answers_run fuels).store sparesTarget clean ⟨sees, cleanFrame⟩ machine other alike
    enough

/-- How a chain and the statements for it end: in the same way, and the same but for hidden
    variables, one of which holds the value. -/
def SplitEnd (veil : Veil) (name : String) (bound : Layout) (chain : Except Exit Value × Machine)
    (statements : Except Exit Unit × Machine) : Prop :=
  veil.tandem.Starved chain.1 statements.1 ∨
    ∃ held, (veil.holding held).Alike chain.2 statements.2 ∧ bound ≤ .of statements.2.scopes ∧
      (veil.holding held).tandem.SameEnd (fun _ value _ => held.lookup name = some value)
        (.of statements.2.scopes) chain.1 statements.1

section Chains

variable {mark : Mark} {type : TypeSyntax} {name : String} {last : Expr} {scope : Nat}
  {frame : Frame} {machine other : Machine} {fuel more : Nat}

theorem declared_splits (isHidden : name ∈ veil.hidden)
    (sparesLast : (Node.expr last).Spares veil.hidden)
    (sees : veil.Sees veil.hidden (.of other.scopes) scope veil.home)
    (cleanFrame : veil.Clean frame.this) (alike : veil.Alike machine other)
    (fuels : veil.tandem.Fuels fuel (more + 2))
    (shared : ∀ value after, Eval.run program fuel (.eval last scope frame) machine =
      (.ok value, after) → Program.convertTo type value = value ∧ after.holdsStruct value = false) :
    veil.SplitEnd name (.of other.scopes) (Eval.run program fuel (.eval last scope frame) machine)
      (Eval.run program (more + 3) (.exec ⟨mark, .declare type name (some last)⟩ veil.home frame)
        other) := by
  have answers : veil.tandem.Answers (Eval.run program fuel) (Eval.run program (more + 2)) :=
    Tandem.answers_run fuels
  have agree := answers.eval sparesLast ⟨sees, cleanFrame⟩ machine other alike le_rfl
  cases ran : Eval.run program fuel (.eval last scope frame) machine with
  | mk result after =>
  cases ranOther : Eval.run program (more + 2) (.eval last veil.home frame) other with
  | mk otherResult otherAfter =>
  rw [ran, ranOther] at agree
  have runs : Eval.run program (more + 3) (.exec ⟨mark, .declare type name (some last)⟩ veil.home
      frame) = Eval.run program (more + 2) (.eval last veil.home frame) >>= fun value =>
        Machine.copyStruct (Program.convertTo type value) >>= Machine.declareVar veil.home name := by
    change Eval.declareLocal program (Eval.run program (more + 2)) type name (some last) veil.home
      frame = _
    unfold Eval.declareLocal
    simp only [pure_bind]
  rw [runs]
  rcases agree with starved | ⟨alikeNow, grown, sameEnd⟩
  · refine .inl (starved.imp id fun isOut => ?_)
    obtain rfl : otherResult = .error (.fault .outOfFuel) := isOut
    rw [Eval.bind_error ranOther]
  have alikeNow : veil.Alike after otherAfter := alikeNow
  cases result with
  | error reason =>
    cases otherResult with
    | ok _ => cases sameEnd
    | error _ =>
      rw [Eval.bind_error ranOther]
      exact .inr ⟨veil.held, alikeNow, grown, sameEnd⟩
  | ok value =>
    cases otherResult with
    | error _ => cases sameEnd
    | ok _ =>
      obtain ⟨rfl, -⟩ := sameEnd
      obtain ⟨unconverted, isShared⟩ := shared value after ran
      have isSharedThere : otherAfter.holdsStruct value = false := by
        unfold Machine.holdsStruct at *
        rw [alikeNow.objects]
        exact isShared
      rw [Eval.bind_ok ranOther, unconverted, Eval.bind_ok (Machine.copyStruct_shared isSharedThere)]
      refine .inr ⟨_, alikeNow.declareHidden isHidden value, grown.trans Layout.le_setIn, ?_⟩
      exact (veil.lookup_declaring name name value).trans (if_pos rfl)

theorem chain_splits (clear : veil.IsClear) (isHidden : name ∈ veil.hidden) {chain : Expr}
    (isChain : Pass.assignmentChain chain = (targets, last))
    (sparesChain : (Node.expr chain).Spares veil.hidden)
    (sees : veil.Sees veil.hidden (.of other.scopes) scope veil.home)
    (alike : veil.Alike machine other)
    (fuels : ∀ later ≤ targets.length, veil.tandem.Fuels (fuel + later) (more + 1) ∧
      veil.tandem.Fuels (fuel + later) (more + 2))
    (shared : ∀ value after, Eval.run program fuel (.eval last scope frame) machine =
      (.ok value, after) → Program.convertTo type value = value ∧ after.holdsStruct value = false) :
    veil.SplitEnd name (.of other.scopes)
      (Eval.run program (fuel + targets.length) (.eval chain scope frame) machine)
      (Eval.execAll (Eval.run program (more + 3)) (splitAssignments mark type name last targets)
        veil.home frame other) := by
  induction targets generalizing chain with
  | nil =>
    obtain rfl := Pass.eq_of_assignmentChain isChain
    rw [splitAssignments, reverse_nil, map_nil, Eval.execAll_single]
    exact declared_splits isHidden sparesChain sees (clear.clean _) alike (fuels 0 (Nat.le_refl _)).2
      shared
  | cons target targets ih =>
    obtain ⟨mark', value, rfl, isRest⟩ := Pass.assign_of_assignmentChain isChain
    have before := ih isRest (sparesChain.of_child (mem_cons_of_mem _ (mem_cons_self ..)))
      fun later le => fuels later (Nat.le_succ_of_le le)
    rw [splitAssignments_cons, Eval.execAll_append]
    have runs : Eval.run program (fuel + (targets.length + 1))
        (.eval ⟨mark', .assign none target value⟩ scope frame) =
          Eval.run program (fuel + targets.length) (.eval value scope frame) >>= fun result =>
            Eval.run program (fuel + targets.length) (.store target result scope frame) >>= fun _ =>
              Pure.pure result := rfl
    rw [length_cons, runs]
    cases ran : Eval.run program (fuel + targets.length) (.eval value scope frame) machine with
    | mk result after =>
    cases ranOther : Eval.execAll (Eval.run program (more + 3))
        (splitAssignments mark type name last targets) veil.home frame other with
    | mk otherResult otherAfter =>
    rw [ran, ranOther] at before
    rcases before with starved | ⟨held, alikeNow, grown, sameEnd⟩
    · refine .inl (starved.imp (fun isOut => ?_) fun isOut => ?_)
      · obtain rfl : result = .error (.fault .outOfFuel) := isOut
        rw [Eval.bind_error ran]
      · obtain rfl : otherResult = .error (.fault .outOfFuel) := isOut
        rw [Eval.bind_error ranOther]
    cases result with
    | error reason =>
      cases otherResult with
      | ok _ => cases sameEnd
      | error _ =>
        rw [Eval.bind_error ran, Eval.bind_error ranOther]
        exact .inr ⟨held, alikeNow, grown, sameEnd⟩
    | ok result =>
      cases otherResult with
      | error _ => cases sameEnd
      | ok _ =>
        rw [Eval.bind_ok ran, Eval.bind_ok ranOther, Eval.execAll_single]
        have cleanFrame : (veil.holding held).Clean frame.this := (clear.clean _).holding
        have seesNow : (veil.holding held).Sees veil.hidden (.of otherAfter.scopes) scope veil.home := by
          obtain ⟨faces, inside, misses⟩ := sees.mono grown
          exact ⟨faces, inside, misses⟩
        have agrees : (veil.holding held).tandem.Agree (.of otherAfter.scopes) (Same Anything)
            (Eval.run program (fuel + targets.length) (.store target result scope frame))
            (Eval.run program (more + 3) (.exec (mark.span.assignStmt target (mark.span.ident name))
              veil.home frame)) :=
          agree_assignStmt mark.span (fuels targets.length (Nat.le_succ _)).1 isHidden sameEnd
            (sparesChain.of_child (mem_cons_self ..)) (clear.clean _).holding seesNow cleanFrame
        have agree := agrees after otherAfter alikeNow le_rfl
        cases stored : Eval.run program (fuel + targets.length)
          (.store target result scope frame) after with
        | mk ending last =>
        cases storedOther : Eval.run program (more + 3) (.exec
          (mark.span.assignStmt target (mark.span.ident name)) veil.home frame) otherAfter with
        | mk otherEnding otherLast =>
        rw [stored, storedOther] at agree
        rcases agree with starved | ⟨alikeThen, more, sameEnding⟩
        · refine .inl (starved.imp (fun isOut => ?_) id)
          obtain rfl : ending = .error (.fault .outOfFuel) := isOut
          rw [Eval.bind_error stored]
        refine .inr ⟨held, ?_⟩
        cases ending with
        | error _ =>
          rw [Eval.bind_error stored]
          cases otherEnding with
          | ok _ => cases sameEnding
          | error _ => exact ⟨alikeThen, grown.trans more, sameEnding⟩
        | ok _ =>
          rw [Eval.bind_ok stored]
          cases otherEnding with
          | error _ => cases sameEnding
          | ok _ => exact ⟨alikeThen, grown.trans more, sameEnd⟩

end Chains

end Veil

/-! ## Runs of both -/

/-- Two computations that end in the same way, if either of them ends, and leave machines that are
    related. -/
structure EndTogether (program : Program) (relation : Machine → Machine → Prop)
    (action : Answer → Eval Unit) (machine : Machine) (same : Answer → Eval Unit)
    (other : Machine) : Prop where
  forth : ∀ outcome after, outcome ≠ .error (.fault .outOfFuel) →
    Runs program action machine outcome after →
      ∃ later, Runs program same other outcome later ∧ relation after later
  back : ∀ outcome later, outcome ≠ .error (.fault .outOfFuel) →
    Runs program same other outcome later →
      ∃ after, Runs program action machine outcome after ∧ relation after later

theorem Runs.congr_succ {α : Type} {action other : Answer → Eval α}
    {machine start after : Machine} {outcome : Except Exit α}
    (same : ∀ fuel, action (Eval.run program (fuel + 1)) machine = other (Eval.run program fuel) start) :
    Runs program action machine outcome after ↔ Runs program other start outcome after := by
  constructor
  · rintro ⟨enough, runs⟩
    exact ⟨enough, fun fuel le => (same fuel).symm.trans (runs (fuel + 1) (by omega))⟩
  · rintro ⟨enough, runs⟩
    refine ⟨enough + 1, fun fuel le => ?_⟩
    obtain _ | fuel := fuel
    · omega
    exact (same fuel).trans (runs fuel (by omega))

theorem Runs.block_iff {mark : Mark} {body : List Stmt} {scope : Nat} {frame : Frame}
    {machine after : Machine} {outcome : Except Exit Unit} :
    Runs program (fun recur => recur (.exec ⟨mark, .block body⟩ scope frame)) machine outcome after ↔
      Runs program (fun recur => Eval.execAll recur body machine.scopes.size frame)
        (machine.withScope ⟨[], some scope⟩) outcome after :=
  congr_succ fun _ => rfl

theorem EndTogether.congr {relation : Machine → Machine → Prop}
    {action same twin : Answer → Eval Unit} {machine other start : Machine}
    (iff : ∀ outcome after, Runs program same other outcome after ↔ Runs program twin start outcome after)
    (together : EndTogether program relation action machine same other) :
    EndTogether program relation action machine twin start where
  forth outcome after fed runs := by
    obtain ⟨later, runsThere, related⟩ := together.forth outcome after fed runs
    exact ⟨later, (iff outcome later).mp runsThere, related⟩
  back outcome later fed runs := together.back outcome later fed ((iff outcome later).mpr runs)

section Runs

variable {program : Program} {mark : Mark} {type : TypeSyntax} {name : String} {last chain : Expr}
  {targets : List Expr} {scope outside : Nat} {frame : Frame} {machine other : Machine}

theorem Tandem.SameEnd.eq_map {tandem : Tandem} {now : tandem.Time} {α : Type}
    {Related : tandem.Time → α → Unit → Prop} {result : Except Exit α} {other : Except Exit Unit}
    (same : tandem.SameEnd Related now result other) : other = result.map fun _ => () := by
  cases result <;> cases other
  · exact congrArg Except.error same.1.symm
  · cases same
  · cases same
  · rfl

theorem chain_ends_together (veil : Bool → Veil) (lags : ∀ side, (veil side).lags = side)
    (clear : ∀ side, (veil side).IsClear) (hidden : ∀ side, (veil side).hidden = [name])
    (home : ∀ side, (veil side).home = outside) {extra : Option (Nat × Nat)}
    (isExtra : ∀ side, (veil side).extra = extra)
    (sees : ∀ side, (veil side).Sees [name] (.of other.scopes) scope outside)
    (alike : ∀ side, (veil side).Alike machine other)
    (sparesChain : (Node.expr chain).Spares [name]) (ordered : machine.Ordered)
    (orderedOther : other.Ordered) (isChain : Pass.assignmentChain chain = (targets, last))
    (shared : ∀ value after, Runs program (fun recur => recur (.eval last scope frame)) machine
      (.ok value) after → Program.convertTo type value = value ∧ after.holdsStruct value = false)
    (outer : Mark) :
    EndTogether program (Machine.SameExcept [name] outside [] extra)
      (fun recur => recur (.exec ⟨outer, .eval chain⟩ scope frame)) machine
      (fun recur => Eval.execAll recur (splitAssignments mark type name last targets) outside frame)
      other := by
  have there : outside < other.scopes.size := (sees false).inside.trans_eq Layout.length_of
  have inside : scope < machine.scopes.size :=
    ((sees false).faces.lt_iff (alike false).scopes).mp there
  have splits (side : Bool) {fuel more : Nat}
      (fuels : ∀ later ≤ targets.length, (veil side).tandem.Fuels (fuel + later) (more + 1) ∧
        (veil side).tandem.Fuels (fuel + later) (more + 2)) :
      (veil side).SplitEnd name (.of other.scopes)
        (Eval.run program (fuel + targets.length) (.eval chain scope frame) machine)
        (Eval.execAll (Eval.run program (more + 3)) (splitAssignments mark type name last targets)
          outside frame other) := by
    rw [← home side]
    refine Veil.chain_splits (clear side) ?_ isChain ?_ ?_ (alike side) fuels
      fun value after ran => shared value after (Runs.of_eval ordered inside ran nofun)
    · rw [hidden]
      exact mem_singleton_self _
    · rw [hidden]
      exact sparesChain
    · rw [hidden, home]
      exact sees side
  have lag (side : Bool) : (veil side).tandem.lags = some side := congrArg some (lags side)
  have related {side : Bool} {held : List (String × Value)} {after later : Machine}
      (isAlike : ((veil side).holding held).Alike after later) :
      Machine.SameExcept [name] outside [] extra after later :=
    ⟨(veil side).holding held, hidden side, home side, (clear side).closures, isExtra side,
      (clear side).objects, (clear side).sequences, isAlike⟩
  have asStatement {fuel : Nat} {result : Except Exit Value} {after : Machine}
      (ran : Eval.run program fuel (.eval chain scope frame) machine = (result, after)) :
      Eval.run program (fuel + 1) (.exec ⟨outer, .eval chain⟩ scope frame) machine =
        (result.map fun _ => (), after) := Eval.bind_pure (fun _ => ()) ran
  refine ⟨fun outcome after fed runs => ?_, fun outcome later fed runs => ?_⟩
  · obtain ⟨enough, runs⟩ := runs
    have split := @splits false enough (enough + targets.length) fun later le => by
      unfold Tandem.Fuels
      rw [lag]
      dsimp only
      omega
    cases ran : Eval.run program (enough + targets.length) (.eval chain scope frame) machine with
    | mk result middle =>
    have ends := (asStatement ran).symm.trans (runs (enough + targets.length + 1) (by omega))
    obtain ⟨rfl, rfl⟩ := Prod.mk.inj ends
    rw [ran] at split
    rcases split with starved | ⟨held, isAlike, -, sameEnd⟩
    · rcases starved with ⟨isLag, -⟩ | ⟨-, isOut⟩
      · rw [lag] at isLag
        cases isLag
      · obtain rfl : result = .error (.fault .outOfFuel) := isOut
        exact absurd rfl fed
    · exact ⟨_, Runs.of_execAll orderedOther there (Prod.ext sameEnd.eq_map rfl) fed, related isAlike⟩
  · obtain ⟨enough, runs⟩ := runs
    have split := @splits true (enough + 2) enough fun later le => by
      unfold Tandem.Fuels
      rw [lag]
      dsimp only
      omega
    have ends : Eval.execAll (Eval.run program (enough + 3))
        (splitAssignments mark type name last targets) outside frame other = (outcome, later) :=
      runs (enough + 3) (by omega)
    rw [ends] at split
    cases ran : Eval.run program (enough + 2 + targets.length) (.eval chain scope frame) machine with
    | mk result middle =>
    rw [ran] at split
    rcases split with starved | ⟨held, isAlike, -, sameEnd⟩
    · rcases starved with ⟨-, isOut⟩ | ⟨isLag, -⟩
      · exact absurd isOut fed
      · rw [lag] at isLag
        cases isLag
    · obtain rfl : outcome = result.map fun _ => () := sameEnd.eq_map
      exact ⟨middle, Runs.of_exec ordered inside (asStatement ran) fed, related isAlike⟩

end Runs

/-! ## What the pass makes of a chain -/

/-- The static type that the temporary of a chain gets: that of the innermost target, or of the
    value where it is unknown. -/
def View.chainType (view : View) (targets : List Expr) (value : Expr) : Ty :=
  match targets.getLast? with
  | some target => if view.typeOf target = .unknown then view.typeOf value else view.typeOf target
  | none => view.typeOf value

def TypeSyntax.isDouble : TypeSyntax → Bool
  | .nullable inner => inner.isDouble
  | .named name _ => name == "double"
  | _ => false

theorem Program.convertTo_of_not_double {type : TypeSyntax} (notDouble : type.isDouble = false)
    (value : Value) : Program.convertTo type value = value := by
  fun_induction Program.convertTo type value with
  | case1 inner value ih => exact ih notDouble
  | case2 => cases notDouble
  | case3 => rfl

theorem Pass.chainRules_eq {env : PassEnv} {state : PassState} {chain last : Expr} (site : Site)
    (node : Stmt) (isChain : assignmentChain chain = (targets, last))
    (isLong : 1 < targets.length) :
    ∃ later, chainRules.stmt site node (.eval chain) env state =
      .ok (splitAssignments node.mark (env.view.types.names.localSyntax (env.view.chainType targets last))
        (freshName "t" state.nextName) last targets, later) := by
  have isRule : chainRules.stmt site node (.eval chain) = splitChain node targets last := by
    unfold chainRules
    dsimp only
    rw [isChain]
    exact if_pos isLong
  have isType (state : PassState) :
      chainType targets last env state = .ok (env.view.chainType targets last, state) := by
    unfold chainType View.chainType
    cases targets.getLast? with
    | none => rfl
    | some target =>
      dsimp only
      rw [bind_ok (typeOf_ok env target state)]
      split <;> rfl
  rw [isRule]
  unfold splitChain
  dsimp only
  rw [bind_ok (show fresh "t" env state =
    .ok (freshName "t" state.nextName, { state with nextName := state.nextName + 1 }) from rfl),
    bind_ok (isType _)]
  exact ⟨_, rfl⟩

/-! ## Chains -/

def chainOf (outer inner value : Expr) : Expr :=
  ⟨.numbered 7, .assign none outer ⟨.numbered 5, .assign none inner value⟩⟩

def chainStmt (chain : Expr) : Stmt := ⟨.numbered 8, .eval chain⟩

def storingChain (index : Expr) : Expr :=
  let span : Span := ⟨0, 0⟩
  chainOf (span.ident "x") (span.index (span.ident "a") [index]) (span.intLit 5)

def storingMachine (name : String) : Machine :=
  { sequences := #[⟨[.int 7, .int 8], true⟩]
    scopes := #[⟨[("x", .int 3), ("a", .list 0), (name, .int 1)], none⟩] }

theorem storingMachine_ordered {name : String} : (storingMachine name).Ordered where
  parents scope entry isThere parent isParent := by
    obtain ⟨below, rfl⟩ := Array.getElem?_eq_some_iff.mp isThere
    obtain rfl : scope = 0 := Nat.lt_one_iff.mp below
    cases isParent
  closures address closure isThere := by simp [storingMachine] at isThere

def widenedChain : Expr :=
  chainOf ⟨.numbered 6, .ident "o"⟩ ⟨.numbered 4, .ident "d"⟩
    ⟨.numbered 3, .conditional ⟨.numbered 0, .ident "b"⟩ ⟨.numbered 1, .literal (.int 1)⟩
      ⟨.numbered 2, .literal (.float 0x4004000000000000)⟩⟩

def widenedUnit : CompilationUnit :=
  let params : List Param := [.plain .dynamic "o", .plain .dynamic "d", .plain (.simple "bool") "b"]
  let body : Stmt := ⟨.numbered 9, .block [chainStmt widenedChain]⟩
  ⟨[], none, [⟨"P", .classType, [], [], none, [], none,
    [⟨.method "Run" [] params .void (.block body), [.isStatic], ⟨0, 0⟩⟩], ⟨0, 0⟩⟩]⟩

def widenedEnv : PassEnv :=
  { pass := "chained-assignment", unit := widenedUnit, view := widenedUnit.analyze 10 widenedUnit.vocabulary }

def widenedMachine : Machine :=
  { scopes := #[⟨[("o", .null), ("d", .null), ("b", .bool true)], none⟩] }

/-- Splitting a chain of assignments makes no difference, neither in a list of statements nor where
    only one statement fits, except to the temporary, as long as nothing else has its name, the
    value is no struct, and the type of the temporary is not `double`. -/
theorem chain_split_alike {env : PassEnv} {state : PassState} {site : Site} {node : Stmt}
    {chain last : Expr} {targets : List Expr} (isChain : Pass.assignmentChain chain = (targets, last))
    (isLong : 1 < targets.length)
    (notDouble : (env.view.types.names.localSyntax (env.view.chainType targets last)).isDouble = false)
    {program : Program} {machine : Machine} {scope : Nat} {frame : Frame}
    (ordered : machine.Ordered) (inside : scope < machine.scopes.size)
    (sparesMachine : machine.Spares [freshName "t" state.nextName])
    (sparesChain : (Node.expr chain).Spares [freshName "t" state.nextName])
    (shared : ∀ value after, Runs program (fun recur => recur (.eval last scope frame)) machine
      (.ok value) after → after.holdsStruct value = false) :
    ∃ statements later, Pass.chainRules.stmt site node (.eval chain) env state = .ok (statements, later) ∧
      EndTogether program (Machine.SameExcept [freshName "t" state.nextName] scope [] none)
        (fun recur => recur (.exec { node with kind := .eval chain } scope frame)) machine
        (fun recur => Eval.execAll recur statements scope frame) machine ∧
      EndTogether program (Machine.SameExcept [freshName "t" state.nextName] machine.scopes.size []
          (some (machine.scopes.size, scope)))
        (fun recur => recur (.exec { node with kind := .eval chain } scope frame)) machine
        (fun recur => recur (.exec (node.gather statements) scope frame)) machine := by
  obtain ⟨later, isRule⟩ : ∃ later, _ = Except.ok (_, later) :=
    Pass.chainRules_eq site node isChain isLong
  have plain (value : Value) (after : Machine)
      (runs : Runs program (fun recur => recur (.eval last scope frame)) machine (.ok value) after) :=
    And.intro (Program.convertTo_of_not_double notDouble value) (shared value after runs)
  refine ⟨_, later, isRule, ?_, ?_⟩
  · exact chain_ends_together (Veil.covering [freshName "t" state.nextName] scope machine)
      (fun _ => rfl) (Veil.covering_clear _ _ machine) (fun _ => rfl) (fun _ => rfl) (fun _ => rfl)
      (fun _ => .self rfl inside)
      (fun side => Veil.covering_alike side ordered inside sparesMachine) sparesChain ordered
      ordered isChain plain node.mark
  · have isBlock := gather_splitAssignments node
      (env.view.types.names.localSyntax (env.view.chainType targets last))
      (freshName "t" state.nextName) last (List.ne_nil_of_length_pos (by omega : 0 < targets.length))
    rw [isBlock]
    refine EndTogether.congr (fun _ _ => (Runs.block_iff ..).symm) (chain_ends_together
      (fun side => (Veil.idle side).entered [freshName "t" state.nextName] machine.scopes.size scope)
      (fun _ => rfl) (fun side => ⟨fun _ => rfl, fun _ => rfl, rfl⟩) (fun _ => rfl) (fun _ => rfl)
      (fun _ => rfl) (fun _ => ⟨.inr rfl, ?_, .inl rfl⟩)
      (fun side => (Veil.idle_alike side ordered).enter rfl rfl ordered inside _) sparesChain ordered
      (ordered.withScope inside) isChain plain node.mark)
    rw [Layout.length_of]
    exact (Array.size_push _).ge

theorem chain_split_alike_stores :
    (Node.expr (storingChain (Span.intLit ⟨0, 0⟩ 0))).Spares ["__t0"] ∧
    ∃ statements later,
      Pass.chainRules.stmt ⟨.member 0 0, []⟩ (chainStmt (storingChain (Span.intLit ⟨0, 0⟩ 0)))
        (.eval (storingChain (Span.intLit ⟨0, 0⟩ 0))) widenedEnv { nextName := 0, nextId := 10 } =
          .ok (statements, later) ∧
      EndTogether ⟨[]⟩ (Machine.SameExcept ["__t0"] 0 [] none)
        (fun recur => recur (.exec (chainStmt (storingChain (Span.intLit ⟨0, 0⟩ 0))) 0 ⟨.null, none⟩))
        (storingMachine "i")
        (fun recur => Eval.execAll recur statements 0 ⟨.null, none⟩) (storingMachine "i") ∧
      EndTogether ⟨[]⟩ (Machine.SameExcept ["__t0"] 1 [] (some (1, 0)))
        (fun recur => recur (.exec (chainStmt (storingChain (Span.intLit ⟨0, 0⟩ 0))) 0 ⟨.null, none⟩))
        (storingMachine "i")
        (fun recur => recur (.exec ((chainStmt (storingChain (Span.intLit ⟨0, 0⟩ 0))).gather statements)
          0 ⟨.null, none⟩)) (storingMachine "i") := by
  have isFive (value : Value) (after : Machine)
      (runs : Runs ⟨[]⟩ (fun recur => recur (.eval (Span.intLit ⟨0, 0⟩ 5) 0 ⟨.null, none⟩))
        (storingMachine "i") (.ok value) after) : after.holdsStruct value = false := by
    have five : Runs ⟨[]⟩ (fun recur => recur (.eval (Span.intLit ⟨0, 0⟩ 5) 0 ⟨.null, none⟩))
        (storingMachine "i") (.ok (.int 5)) (storingMachine "i") := Runs.of_add 1 fun _ => rfl
    obtain ⟨isValue, -⟩ := runs.unique five
    cases isValue
    rfl
  have sparesMachine : (storingMachine "i").Spares ["__t0"] := fun address closure isThere => by
    simp [storingMachine] at isThere
  exact ⟨by decide, chain_split_alike rfl (by decide) rfl storingMachine_ordered (by decide)
    sparesMachine (by decide) isFive⟩

/-- Where the type of the innermost target is unknown, the value is converted to its own static
    type; a variable with the name of the temporary is hidden by it. -/
theorem chain_split_differs :
    (widenedEnv.view.typeOf ⟨.numbered 4, .ident "d"⟩ = .unknown ∧
      ∃ statements later after last,
        Pass.chainRules.stmt ⟨.member 0 0, []⟩ (chainStmt widenedChain) (.eval widenedChain) widenedEnv
          { nextName := 0, nextId := 10 } = .ok (statements, later) ∧
        Runs ⟨[]⟩ (fun recur => recur (.exec (chainStmt widenedChain) 0 ⟨.null, none⟩)) widenedMachine
          (.ok ()) after ∧
        Runs ⟨[]⟩ (fun recur => Eval.execAll recur statements 0 ⟨.null, none⟩) widenedMachine (.ok ()) last ∧
        after.valueOf? 0 "d" = some (.int 1) ∧
        last.valueOf? 0 "d" = some (.double (Binary64.ofInt 1))) ∧
    ∃ statements later after thrown last,
      Pass.chainRules.stmt ⟨.member 0 0, []⟩ (chainStmt (storingChain (Span.ident ⟨0, 0⟩ "__t0")))
        (.eval (storingChain (Span.ident ⟨0, 0⟩ "__t0"))) widenedEnv
        { nextName := 0, nextId := 10 } = .ok (statements, later) ∧
      Runs ⟨[]⟩ (fun recur => recur (.exec (chainStmt (storingChain (Span.ident ⟨0, 0⟩ "__t0"))) 0
        ⟨.null, none⟩)) (storingMachine "__t0") (.ok ()) after ∧
      Runs ⟨[]⟩ (fun recur => Eval.execAll recur statements 0 ⟨.null, none⟩) (storingMachine "__t0")
        (.error (.throw thrown)) last := by
  constructor
  · refine ⟨rfl, splitAssignments (.numbered 8) (.simple "double") "__t0"
      ⟨.numbered 3, .conditional ⟨.numbered 0, .ident "b"⟩ ⟨.numbered 1, .literal (.int 1)⟩
        ⟨.numbered 2, .literal (.float 0x4004000000000000)⟩⟩
      [⟨.numbered 6, .ident "o"⟩, ⟨.numbered 4, .ident "d"⟩], _,
      { widenedMachine with
        scopes := #[⟨[("o", .int 1), ("d", .int 1), ("b", .bool true)], none⟩] },
      { widenedMachine with
        scopes := #[⟨[("o", .double (Binary64.ofInt 1)), ("d", .double (Binary64.ofInt 1)),
          ("b", .bool true), ("__t0", .double (Binary64.ofInt 1))], none⟩] }, rfl,
      Runs.of_add 20 fun _ => rfl, ?_, rfl, rfl⟩
    have declares : Runs ⟨[]⟩ (fun recur => recur (.exec ⟨.numbered 8, .declare (.simple "double") "__t0"
        (some ⟨.numbered 3, .conditional ⟨.numbered 0, .ident "b"⟩ ⟨.numbered 1, .literal (.int 1)⟩
          ⟨.numbered 2, .literal (.float 0x4004000000000000)⟩⟩)⟩ 0 ⟨.null, none⟩)) widenedMachine (.ok ())
        { widenedMachine with
          scopes := #[⟨[("o", .null), ("d", .null), ("b", .bool true),
            ("__t0", .double (Binary64.ofInt 1))], none⟩] } := Runs.of_add 20 fun _ => rfl
    -- Beyond its declaration, nothing depends on which number the temporary holds.
    generalize Binary64.ofInt 1 = bits at declares ⊢
    exact Runs.execAll_cons declares (Runs.of_add 20 fun _ => rfl)
  · refine ⟨splitAssignments (.numbered 8) .var "__t0" (Span.intLit ⟨0, 0⟩ 5)
      [Span.ident ⟨0, 0⟩ "x", Span.index ⟨0, 0⟩ (Span.ident ⟨0, 0⟩ "a") [Span.ident ⟨0, 0⟩ "__t0"]],
      _, { storingMachine "__t0" with
        sequences := #[⟨[.int 7, .int 5], true⟩]
        scopes := #[⟨[("x", .int 5), ("a", .list 0), ("__t0", .int 1)], none⟩] }, .object 0,
      { storingMachine "__t0" with
        objects := #[⟨"IndexOutOfRangeException",
          [("Message", .str "Index was outside the bounds of the array.")], false⟩]
        scopes := #[⟨[("x", .int 3), ("a", .list 0), ("__t0", .int 5)], none⟩] },
      rfl, Runs.of_add 20 fun _ => rfl, Runs.of_add 20 fun _ => ?_⟩
    · rfl

end Unsugar
