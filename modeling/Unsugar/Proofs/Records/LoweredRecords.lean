import Unsugar.Proofs.Lower.LoweredUnits
import Unsugar.Proofs.Types.Inheritance

open List

namespace Unsugar

open Pass

/-! # Records in a program

A record is lowered to a class or struct whose members that compare and hash are
found by the calls that need them, whatever else the record declares.
-/

/-! ## Members that calls look for -/

variable {index : Nat} {machine : Machine} {args : List Value} {value : Value} {owner : String}

/-- A question about members to which storage and constructors have no answer. -/
structure IgnoresStorage {β : Type} (ask : Member → Option β) : Prop where
  field : ∀ type name init modifiers span, ask ⟨.field type name init, modifiers, span⟩ = none
  property : ∀ type name getter setter init modifiers span,
    ask ⟨.property type name getter setter init, modifiers, span⟩ = none
  ctor : ∀ params initializer body modifiers span,
    ask ⟨.ctor params initializer body, modifiers, span⟩ = none

section Asking

variable {β : Type} {ask : Member → Option β} (env : PassEnv)

theorem withoutInitializer_asked (ignores : IgnoresStorage ask) {member : Member} :
    (Outcomes.passResult env).holds (withoutInitializer member) fun result =>
      ask result.1 = ask member := by
  let outcomes := Outcomes.passResult env
  obtain ⟨kind, modifiers, span⟩ := member
  unfold withoutInitializer
  split
  · exact outcomes.pure rfl
  · split
    · rename_i isField
      obtain rfl : kind = _ := isField
      exact outcomes.after _ fun _ => outcomes.pure (by rw [ignores.field, ignores.field])
    · rename_i isProperty
      obtain rfl : kind = _ := isProperty
      exact outcomes.after _ fun _ => outcomes.pure (by rw [ignores.property, ignores.property])
    · exact outcomes.pure rfl

theorem mapM_withoutInitializer_asked (ignores : IgnoresStorage ask) {members : List Member} :
    (Outcomes.passResult env).holds (members.mapM withoutInitializer) fun results =>
      (results.map (·.1)).filterMap ask = members.filterMap ask := by
  let outcomes := Outcomes.passResult env
  induction members with
  | nil => exact outcomes.pure rfl
  | cons member rest ih =>
    rw [mapM_cons]
    refine outcomes.bind (withoutInitializer_asked env ignores) fun first same => ?_
    refine outcomes.map ih fun others sameOthers => ?_
    simp only [map_cons, filterMap_cons, same, sameOthers]

/-- A declaration whose header is that of another one, and whose members answer as
    the members of the other one do. -/
structure TypeDecl.AnswersAs (decl other : TypeDecl) (ask : Member → Option β) : Prop where
  asked : decl.members.filterMap ask = other.members.filterMap ask
  name : decl.name = other.name
  kind : decl.kind = other.kind
  bases : decl.bases = other.bases

theorem lowerPrimary_answersAs (ignores : IgnoresStorage ask) {leading : List Stmt}
    {decl : TypeDecl} :
    (Outcomes.passResult env).holds (lowerPrimary index leading decl) fun result =>
      result.AnswersAs decl ask := by
  let outcomes := Outcomes.passResult env
  unfold lowerPrimary
  split
  · exact outcomes.pure ⟨rfl, rfl, rfl, rfl⟩
  · refine outcomes.after _ fun state => ?_
    refine outcomes.bind (mapM_withoutInitializer_asked env ignores) fun moved same => ?_
    refine outcomes.after _ fun _ => outcomes.pure ⟨?_, rfl, rfl, rfl⟩
    dsimp only
    rw [filterMap_append, filterMap_append, same]
    have noFields (params : List Param) :
        (params.map fun param => (⟨.field param.type (captureField param.name) none, [.isPrivate],
          decl.span⟩ : Member)).filterMap ask = [] := by
      simp [filterMap_map, ignores.field]
    rw [noFields]
    simp [ignores.ctor]

end Asking

/-! ## Records -/

def TypeDecl.recordShape (decl : TypeDecl) : RecordShape :=
  ⟨decl.name, decl.typeParams, decl.primary.getD [], decl.kind == .recordStruct, decl.span⟩

def TypeDecl.writesEquality (decl : TypeDecl) : Bool :=
  decl.members.any fun member =>
    isMethod "Equals" (fun _ => true) member || isMethod "GetHashCode" (fun _ => true) member ||
      isOperator .eq member || isOperator .notEq member

def Pass.RecordShape.equalityMembers (shape : RecordShape) (types : Universe) : List Member :=
  [shape.equalsObject, shape.equalsSelf, shape.hash types, shape.eqOperator, shape.neOperator]

section Methods

variable {β : Type} {ask : Member → Option β} {types : Universe}

/-- A question that only members which compare or hash answer. -/
structure AsksForEquality (ask : Member → Option β) : Prop extends IgnoresStorage ask where
  written : ∀ member, isMethod "Equals" (fun _ => true) member = false →
    isMethod "GetHashCode" (fun _ => true) member = false → isOperator .eq member = false →
    isOperator .notEq member = false → ask member = none

theorem isMethod_mono {name : String} {test : List Param → Bool} {member : Member}
    (isNone : isMethod name (fun _ => true) member = false) : isMethod name test member = false := by
  unfold isMethod at isNone ⊢
  split at isNone
  · simp_all
  · rfl

theorem filterMap_methods (asks : AsksForEquality ask) {decl : TypeDecl}
    (synthesized : decl.writesEquality = false) :
    (decl.recordShape.methods types decl.members).filterMap ask =
      (decl.recordShape.equalityMembers types).filterMap ask := by
  have notWritten : ∀ member ∈ decl.members, (isMethod "Equals" (fun _ => true) member = false ∧
      isMethod "GetHashCode" (fun _ => true) member = false) ∧ isOperator .eq member = false ∧
      isOperator .notEq member = false := by
    intro member isIn
    have isNone := any_eq_false.1 synthesized member isIn
    simpa [and_assoc] using isNone
  have noEquals (test : List Param → Bool) : decl.members.any (isMethod "Equals" test) = false :=
    any_eq_false.2 fun member isIn => by simp [isMethod_mono (notWritten member isIn).1.1]
  have noHash (test : List Param → Bool) : decl.members.any (isMethod "GetHashCode" test) = false :=
    any_eq_false.2 fun member isIn => by simp [isMethod_mono (notWritten member isIn).1.2]
  have noOperator (op : BinaryOp) (isEquality : op = .eq ∨ op = .notEq) :
      decl.members.any (isOperator op) = false :=
    any_eq_false.2 fun member isIn => by
      rcases isEquality with rfl | rfl
      · simp [(notWritten member isIn).2.1]
      · simp [(notWritten member isIn).2.2]
  have skipped (condition : Bool) {members : List Member} (isNone : members.filterMap ask = []) :
      (if condition then [] else members).filterMap ask = [] := by
    cases condition
    · exact isNone
    · rfl
  have other {member : Member} (noEquals : isMethod "Equals" (fun _ => true) member = false)
      (noHash : isMethod "GetHashCode" (fun _ => true) member = false)
      (noEq : isOperator .eq member = false) (noNe : isOperator .notEq member = false) :
      [member].filterMap ask = [] := by
    simp [asks.written member noEquals noHash noEq noNe]
  unfold RecordShape.methods
  simp only [filterMap_append, noEquals, noHash, noOperator .eq (.inl rfl),
    noOperator .notEq (.inr rfl), Bool.false_eq_true, if_false]
  rw [skipped _ (skipped _ (other rfl rfl rfl rfl)), skipped _ (skipped _ (other rfl rfl rfl rfl)),
    skipped _ (other rfl rfl rfl rfl), skipped _ (other rfl rfl rfl rfl),
    skipped _ (other rfl rfl rfl rfl)]
  simp only [nil_append, append_nil, ← filterMap_append]
  rfl

end Methods

theorem lowerRecord_asked {β : Type} {ask : Member → Option β} {env : PassEnv}
    (ignores : IgnoresStorage ask) {decl : TypeDecl} :
    (Outcomes.passResult env).holds (lowerRecord index decl) fun result =>
      result.members.filterMap ask = decl.members.filterMap ask ++
        (decl.recordShape.methods env.view.types decl.members).filterMap ask ∧
      result.name = decl.name ∧ result.bases = decl.bases ∧
      result.kind = (if decl.kind == .recordStruct then .structType else .classType) := by
  let outcomes := Outcomes.passResult env
  refine outcomes.after _ fun _ => ?_
  have typesRead : outcomes.holds types (· = env.view.types) := fun before result after ran => by
    cases ran
    rfl
  refine outcomes.bind typesRead fun types isTypes => ?_
  subst isTypes
  intro before result after ran
  obtain ⟨asked, name, kind, bases⟩ := lowerPrimary_answersAs env ignores before result after ran
  refine ⟨?_, name, bases, kind⟩
  have noProperties : (decl.recordShape.properties decl.members).filterMap ask = [] := by
    simp [RecordShape.properties, filterMap_map, ignores.property]
  rw [asked]
  change List.filterMap ask (decl.recordShape.properties decl.members ++ decl.members ++
    decl.recordShape.methods env.view.types decl.members) = _
  rw [filterMap_append, filterMap_append, noProperties, nil_append]

/-! ## Calls on records -/

def valueTypeNames : List String :=
  ["object", "int", "long", "double", "bool", "char", "string"]

/-- Whether a value that is no object may belong to a type of the library. -/
def Value.isLibrary (value : Value) (name : String) : Bool :=
  match value with
  | .list _ => ["List", "IEnumerable"].contains name
  | .str _ => name == "IEnumerable"
  | .closure _ => ["Func", "Action"].contains name
  | _ => false

/-- A record that a program has in lowered form, with equality members as they are
    made for it. -/
structure Program.HasRecord (program : Program) (types : Universe) (decl : TypeDecl) : Prop where
  lowered : ∃ index env before lowered after, env.view.types = types ∧
    lowerRecord index decl env before = .ok (lowered, after) ∧
    program.find? decl.name = some lowered
  synthesized : decl.writesEquality = false
  ownName : decl.name ∉ valueTypeNames

def Member.code (owner : String) (member : Member) : Code :=
  match member.kind with
  | .method _ _ params _ body | .operator _ params _ body => ⟨owner, params, body⟩
  | _ => ⟨owner, [], .none⟩

namespace Program

theorem foldl_better {α : Type} (candidates : List (Option (Nat × α))) (best : Option (Nat × α)) :
    candidates.foldl better best = ((candidates.filterMap id).map some).foldl better best := by
  induction candidates generalizing best with
  | nil => rfl
  | cons candidate rest ih =>
    cases candidate with
    | none =>
      have kept : better best none = best := by cases best <;> rfl
      simp only [foldl_cons, kept, filterMap_cons, id]
      exact ih best
    | some candidate => exact ih _

theorem pickBest_map {α β : Type} {members : List α} (candidate : α → Option (Nat × β)) :
    pickBest (members.map candidate) = pickBest ((members.filterMap candidate).map some) := by
  unfold pickBest
  rw [foldl_better, filterMap_map]
  rfl

variable {program : Program}
  {name : String}

theorem chain_cons {decl : TypeDecl} (found : program.find? name = some decl) :
    ∃ rest, program.chain name = decl :: rest := by
  obtain ⟨isIn, -⟩ := Program.mem_of_find? found
  obtain ⟨steps, isLength⟩ : ∃ steps, program.types.length = steps + 1 :=
    ⟨program.types.length - 1, by have := length_pos_of_mem isIn; omega⟩
  unfold chain
  rw [isLength, chainFrom, found]
  exact ⟨_, rfl⟩

theorem findMethod?_of_own {className : String} {decl : TypeDecl} {found : Code × Bool}
    (declared : program.find? className = some decl)
    (isBest : pickBest (decl.members.map (program.methodCandidate machine decl.name name args)) =
      some found) : program.findMethod? machine className name args = some found := by
  obtain ⟨rest, isChain⟩ := chain_cons declared
  unfold findMethod?
  rw [isChain, findSome?_cons, isBest]

theorem overloadScore_single {param : Param} (byValue : param.passing = .byValue) :
    program.overloadScore machine [param] [value] = program.accepts machine value param.type := by
  unfold overloadScore
  simp [fits, byValue]

/-! ### Which values belong to a record -/

theorem isInstance_object (notBuiltin : name ∉ valueTypeNames) (machine : Machine)
    (args : List TypeSyntax) (address : Nat) :
    program.isInstance machine (.object address) (.named name args) =
      program.derives (machine.objects.getD address default).className name := by
  unfold isInstance
  split <;> simp_all [valueTypeNames]

theorem isInstance_other (notBuiltin : name ∉ valueTypeNames)
    {args : List TypeSyntax} (notObject : ∀ address, value ≠ .object address)
    (notLibrary : value.isLibrary name = false) :
    program.isInstance machine value (.named name args) = false := by
  unfold isInstance
  split <;> simp_all [valueTypeNames, Value.isLibrary]

theorem accepts_record (declared : (program.find? name).isSome) (notBuiltin : name ∉ valueTypeNames)
    {args : List TypeSyntax} :
    program.accepts machine value (.named name args) =
      if value.isNull || program.isInstance machine value (.named name args) then some 1 else none := by
  have isKnown : program.knows name = true := by simp [knows, declares, declared]
  unfold accepts
  rw [isKnown]
  cases value with
  | null => simp_all [valueTypeNames, Value.isNull]
  | _ => simp_all [valueTypeNames, Value.isNull]

end Program

def Program.fitsRecord (program : Program) (machine : Machine) (decl : TypeDecl) (value : Value) :
    Bool :=
  value.isNull || program.isInstance machine value decl.recordShape.selfType

def TypeDecl.equalsCode (decl : TypeDecl) (isOwn : Bool) : Code :=
  (if isOwn then decl.recordShape.equalsSelf else decl.recordShape.equalsObject).code decl.name

namespace Program

variable {program : Program}

theorem asksForEquality_method {name : String} (isEquality : name = "Equals" ∨ name = "GetHashCode") :
    AsksForEquality (program.methodCandidate machine owner name args) where
  field _ _ _ _ _ := rfl
  property _ _ _ _ _ _ _ := rfl
  ctor _ _ _ _ _ := rfl
  written member noEquals noHash _ _ := by
    obtain ⟨kind, modifiers, span⟩ := member
    cases kind with
    | method declared typeParams params ret body =>
      have otherName : (declared == name) = false := by
        simp only [isMethod, Bool.and_true] at noEquals noHash
        rcases isEquality with rfl | rfl <;> assumption
      unfold methodCandidate
      cases body <;> simp [otherName]
    | _ => rfl

def operatorCandidate (owner : String) (op : BinaryOp) (member : Member) : Option Code :=
  match member.kind with
  | .operator declared params _ body =>
    if declared = op then some ⟨owner, params, body⟩ else none
  | _ => none

theorem asksForEquality_operator {op : BinaryOp} (isEquality : op = .eq ∨ op = .notEq) :
    AsksForEquality (operatorCandidate owner op) where
  field _ _ _ _ _ := rfl
  property _ _ _ _ _ _ _ := rfl
  ctor _ _ _ _ _ := rfl
  written member _ _ noEq noNe := by
    obtain ⟨kind, modifiers, span⟩ := member
    cases kind with
    | operator declared params ret body =>
      have otherOp : declared ≠ op := by
        simp only [isOperator] at noEq noNe
        rcases isEquality with rfl | rfl
        · exact beq_eq_false_iff_ne.1 noEq
        · exact beq_eq_false_iff_ne.1 noNe
      exact if_neg otherOp
    | _ => rfl

namespace HasRecord

variable {types : Universe} {decl : TypeDecl}
  (has : program.HasRecord types decl)

include has

theorem asked {β : Type} {ask : Member → Option β} (asks : AsksForEquality ask) :
    ∃ lowered, program.find? decl.name = some lowered ∧ lowered.name = decl.name ∧
      lowered.bases = decl.bases ∧
      lowered.members.filterMap ask = (decl.recordShape.equalityMembers types).filterMap ask := by
  obtain ⟨index, env, before, lowered, after, rfl, ran, found⟩ := has.lowered
  obtain ⟨members, name, bases, -⟩ := lowerRecord_asked asks.toIgnoresStorage _ _ _ ran
  refine ⟨lowered, found, name, bases, ?_⟩
  have noWritten : decl.members.filterMap ask = [] := by
    refine filterMap_eq_nil_iff.2 fun member isIn => ?_
    have isNone := any_eq_false.1 has.synthesized member isIn
    simp only [Bool.or_eq_true, not_or, Bool.not_eq_true] at isNone
    exact asks.written member isNone.1.1.1 isNone.1.1.2 isNone.1.2 isNone.2
  rw [members, noWritten, nil_append, filterMap_methods asks has.synthesized]

theorem declared : (program.find? decl.name).isSome := by
  obtain ⟨_, _, _, _, _, _, _, found⟩ := has.lowered
  simp [found]

/-- `Equals` finds the overload for the record itself for `null` and for instances of
    the record, and the overload for any object for other values. -/
theorem findEquals (machine : Machine) (value : Value) :
    program.findMethod? machine decl.name "Equals" [value] =
      some (decl.equalsCode (program.fitsRecord machine decl value), false) := by
  obtain ⟨lowered, found, isName, -, members⟩ :=
    has.asked (asksForEquality_method (.inl rfl))
  refine findMethod?_of_own found ?_
  rw [pickBest_map, isName, members]
  have self : program.accepts machine value (Param.plain decl.recordShape.selfType "other").type =
      if program.fitsRecord machine decl value then some 1 else none :=
    accepts_record has.declared has.ownName
  have object : program.accepts machine value (Param.plain (.simple "object") "obj").type = some 0 := rfl
  have scored (member : Member) {ret : TypeSyntax} {param : Param} {body : Stmt}
      (isMember : member.kind = .method "Equals" [] [param] ret (.block body))
      (byValue : param.passing = .byValue) (notStatic : member.isStatic = false) :
      program.methodCandidate machine decl.name "Equals" [value] member =
        (program.accepts machine value param.type).map fun score =>
          (score, member.code decl.name, false) := by
    unfold methodCandidate Member.code
    rw [isMember]
    simp [overloadScore_single byValue, notStatic]
  have others : [decl.recordShape.hash types, decl.recordShape.eqOperator,
      decl.recordShape.neOperator].filterMap
        (program.methodCandidate machine decl.name "Equals" [value]) = [] := rfl
  unfold RecordShape.equalityMembers
  rw [filterMap_cons, filterMap_cons, others, scored _ rfl rfl rfl, scored _ rfl rfl rfl]
  unfold TypeDecl.equalsCode
  cases isOwn : program.fitsRecord machine decl value with
  | false =>
    rw [isOwn] at self
    rw [object, self]
    rfl
  | true =>
    rw [isOwn] at self
    rw [object, self]
    rfl

theorem findHash (machine : Machine) : program.findMethod? machine decl.name "GetHashCode" [] =
      some ((decl.recordShape.hash types).code decl.name, false) := by
  obtain ⟨lowered, found, isName, -, members⟩ :=
    has.asked (asksForEquality_method (.inr rfl))
  refine findMethod?_of_own found ?_
  rw [pickBest_map, isName, members]
  rfl

theorem findOperator :
    program.findOperator? decl.name .eq = some (decl.recordShape.eqOperator.code decl.name) ∧
      program.findOperator? decl.name .notEq = some (decl.recordShape.neOperator.code decl.name) := by
  have finds {op : BinaryOp} (isEquality : op = .eq ∨ op = .notEq) {code : Code}
      (isFirst : (decl.recordShape.equalityMembers types).findSome? (operatorCandidate decl.name op) =
        some code) : program.findOperator? decl.name op = some code := by
    obtain ⟨lowered, found, isName, -, members⟩ := has.asked (asksForEquality_operator isEquality)
    obtain ⟨rest, isChain⟩ := chain_cons found
    have isOwn : lowered.members.findSome? (operatorCandidate lowered.name op) = some code := by
      rw [isName, ← isFirst, ← head?_filterMap, members, head?_filterMap]
    have isSearch : program.findOperator? decl.name op = (program.chain decl.name).findSome? fun other =>
        other.members.findSome? (operatorCandidate other.name op) := rfl
    rw [isSearch, isChain, findSome?_cons, isOwn]
  exact ⟨finds (.inl rfl) rfl, finds (.inr rfl) rfl⟩

end HasRecord

end Program

end Unsugar
