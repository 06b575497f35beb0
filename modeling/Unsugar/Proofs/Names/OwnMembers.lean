import Unsugar.Proofs.Types.FoundTypes
import Unsugar.Proofs.Analysis.Paths

open List

namespace Unsugar

/-! # What bare names mean

A bare name means something local, a member of the type it is written in or of a base,
an imported static member, or a type.  The first two of these lists that find anything
decide, so the possibilities of one name are all members or all none.
-/

open Infer

/-! ## Members of one type -/

variable {isStatic : Bool} {unit : CompilationUnit} {site : Site} {node result : Node}

/-- Whatever a name may refer to is a member of one type, and all of it is static or
    nothing is. -/
structure Resolution.Means (resolution : Resolution) (container : Ty) (isStatic : Bool) : Prop where
  found : resolution.toList ≠ []
  members (reference : Reference) : reference ∈ resolution.toList →
    reference.kind.isTypeMember = true ∧ reference.container = some container ∧
      reference.isStatic = isStatic

@[simp] theorem Resolution.toList_ofList (references : List Reference) :
    (Resolution.ofList references).toList = references := by
  obtain _ | ⟨_, _ | _⟩ := references <;> rfl

variable {container : Ty} {resolution : Resolution} {reference : Reference}
  {receiver? : Site → Mark → Option Expr} {related : Node → Node → Prop}

theorem Resolution.Means.unique {other : Ty} {others : Bool}
    (means : resolution.Means container isStatic) (isOther : resolution.Means other others) :
    container = other := by
  obtain ⟨reference, isMeant⟩ := exists_mem_of_ne_nil _ means.found
  exact Option.some.inj
    ((means.members reference isMeant).2.1.symm.trans (isOther.members reference isMeant).2.1)

theorem Resolution.Means.memberReference? (means : resolution.Means container isStatic) :
    ∃ reference, Pass.memberReference? resolution = some reference ∧
      reference.container = some container ∧ reference.isStatic = isStatic := by
  obtain ⟨found, candidates⟩ := resolution
  have taken {reference : Reference} (isTaken : reference ∈ Resolution.toList ⟨found, candidates⟩) :
      (some reference).filter (fun reference => reference.kind.isTypeMember) = some reference := by
    rw [Option.filter_some, if_pos (means.members reference isTaken).1]
  cases found with
  | some reference =>
    have isTaken : reference ∈ Resolution.toList ⟨some reference, candidates⟩ := mem_cons_self
    exact ⟨reference, taken isTaken, (means.members reference isTaken).2⟩
  | none =>
    obtain _ | ⟨first, _ | ⟨second, rest⟩⟩ := candidates
    · exact absurd rfl means.found
    · have isTaken : first ∈ Resolution.toList ⟨none, [first]⟩ := mem_cons_self
      exact ⟨first, taken isTaken, (means.members first isTaken).2⟩
    · have isTaken : first ∈ Resolution.toList ⟨none, first :: second :: rest⟩ :=
        mem_cons_self
      obtain ⟨_, isContainer, sameStatic⟩ := means.members first isTaken
      have agree : (second :: rest).all (fun other =>
          other.container == first.container && other.isStatic == first.isStatic) = true := by
        refine all_eq_true.mpr fun other isOther => ?_
        obtain ⟨_, otherContainer, otherStatic⟩ :=
          means.members other (mem_cons_of_mem first isOther)
        rw [otherContainer, isContainer, otherStatic, sameStatic, beq_self_eq_true,
          beq_self_eq_true, Bool.and_self]
      refine ⟨first, ?_, isContainer, sameStatic⟩
      change ((if _ then some first else none : Option Reference).filter _) = _
      rw [if_pos agree]
      exact taken isTaken

theorem Resolution.mem_of_memberReference?
    (taken : Pass.memberReference? resolution = some reference) :
    reference ∈ resolution.toList ∧ reference.kind.isTypeMember = true := by
  obtain ⟨isTaken, isMember⟩ := Option.filter_eq_some_iff.mp taken
  refine ⟨?_, isMember⟩
  obtain ⟨found, candidates⟩ := resolution
  cases found with
  | some found =>
    cases isTaken
    exact mem_cons_self
  | none =>
    obtain _ | ⟨first, _ | ⟨second, rest⟩⟩ := candidates
    · cases isTaken
    · cases isTaken
      exact mem_cons_self
    · change (if _ then some first else none) = some reference at isTaken
      split at isTaken
      · cases isTaken
        exact mem_cons_self
      · cases isTaken

/-- Where all possibilities of a name are members, what it is taken for tells what it
    means. -/
theorem Resolution.means_of_memberReference? {references : List Reference}
    (areMembers : ∀ other ∈ references, other.kind.isTypeMember = true)
    (taken : Pass.memberReference? (.ofList references) = some reference)
    (isContainer : reference.container = some container) :
    (Resolution.ofList references).Means container reference.isStatic := by
  have agree : ∀ other ∈ references,
      other.container = some container ∧ other.isStatic = reference.isStatic := by
    obtain ⟨isTaken, _⟩ := Option.filter_eq_some_iff.mp taken
    obtain _ | ⟨first, _ | ⟨second, rest⟩⟩ := references
    · cases isTaken
    · cases isTaken
      exact forall_mem_singleton.mpr ⟨isContainer, rfl⟩
    · change (if _ then some first else none) = some reference at isTaken
      split at isTaken
      · rename_i agree
        cases isTaken
        refine forall_mem_cons.mpr ⟨⟨isContainer, rfl⟩, fun other isOther => ?_⟩
        have same := all_eq_true.mp agree other isOther
        rw [Bool.and_eq_true, beq_iff_eq, beq_iff_eq] at same
        exact ⟨same.1.trans isContainer, same.2⟩
      · cases isTaken
  exact {
    found := ne_nil_of_mem (Resolution.mem_of_memberReference? taken).1
    members := by
      rw [Resolution.toList_ofList]
      exact fun other isOther => ⟨areMembers other isOther, agree other isOther⟩ }

/-! ## Members that a type shows -/

section Members

variable {types : Universe} {type owner : Ty} {name : String} {member : MemberInfo}

theorem Universe.chain_stops {step : Ty} {limit : Nat} (isStep : step ∈ types.chain true limit type) :
    step ∈ types.chain false limit type := by
  induction limit generalizing type with
  | zero => cases isStep
  | succ limit ih =>
    rw [Universe.chain] at isStep ⊢
    simp only [Bool.true_and, Bool.false_and] at isStep ⊢
    rw [if_neg Bool.false_ne_true]
    split at isStep
    · obtain rfl := mem_singleton.mp isStep
      split <;> exact mem_cons_self
    · split at isStep
      · obtain rfl | isStep := mem_cons.mp isStep
        · exact mem_cons_self
        · exact mem_cons_of_mem _ (ih isStep)
      · exact isStep

theorem Universe.mem_ownMembers (isOwn : (owner, member) ∈ types.ownMembers name type) :
    owner = type ∧ member ∈ (types.data type).members := by
  obtain ⟨found, isFound, same⟩ := mem_map.mp isOwn
  cases same
  exact ⟨rfl, (mem_filter.mp isFound).1⟩

theorem Universe.mem_candidates (isCandidate : (owner, member) ∈ types.candidates type name) :
    (owner ∈ types.chain false chainLimit type ∨ owner = .object) ∧
      member ∈ (types.data owner).members := by
  unfold Universe.candidates at isCandidate
  dsimp only at isCandidate
  split at isCandidate
  · rename_i members isFound
    obtain ⟨step, isStep, shows⟩ := exists_of_findSome?_eq_some isFound
    have isOwn : (owner, member) ∈ types.ownMembers name step := by
      split at shows
      · cases shows
      · cases shows
        exact isCandidate
    obtain ⟨rfl, isMember⟩ := Universe.mem_ownMembers isOwn
    exact ⟨.inl (Universe.chain_stops isStep), isMember⟩
  · split at isCandidate
    · cases isCandidate
    · obtain ⟨rfl, isMember⟩ := Universe.mem_ownMembers isCandidate
      exact ⟨.inr rfl, isMember⟩

def Universe.ShowsMembers (types : Universe) : Prop :=
  ∀ type, ∀ member ∈ (types.data type).members, member.kind.isTypeMember = true

theorem Outline.add_members {names : TypeNames} {decl : TypeDecl} {outline : Outline}
    {declared : Member} (areMembers : ∀ member ∈ outline.members, member.kind.isTypeMember = true) :
    ∀ member ∈ (outline.add names decl declared).members, member.kind.isTypeMember = true := by
  have appended (info : MemberInfo) (isMember : info.kind.isTypeMember = true) :
      ∀ member ∈ outline.members ++ [info], member.kind.isTypeMember = true :=
    forall_mem_append.mpr ⟨areMembers, forall_mem_singleton.mpr isMember⟩
  obtain ⟨kind, modifiers, span⟩ := declared
  cases kind with
  | field | property | method => exact appended _ rfl
  | ctor | operator => exact areMembers

theorem TypeNames.define_members (names : TypeNames) {decl : TypeDecl} :
    ∀ member ∈ (names.define decl).members, member.kind.isTypeMember = true := by
  have fromOutline (members : List Member) (outline : Outline)
      (areMembers : ∀ member ∈ outline.members, member.kind.isTypeMember = true) :
      ∀ member ∈ (members.foldl (Outline.add names decl) outline).members,
        member.kind.isTypeMember = true := by
    induction members generalizing outline with
    | nil => exact areMembers
    | cons member rest ih =>
      exact ih _ (Outline.add_members areMembers)
  refine fromOutline decl.members (.ofPrimary names decl) ?_
  unfold Outline.ofPrimary
  split
  · intro member isMember
    obtain ⟨param, _, rfl⟩ := mem_map.mp isMember
    rfl
  · exact nofun

theorem Universe.ofUnit_shows {vocabulary : Vocabulary} :
    (Universe.ofUnit unit vocabulary).ShowsMembers := by
  let types := Universe.ofUnit unit vocabulary
  have defined (index : Nat) : ∀ member ∈ (types.definitions[index]?.getD .unknown).members,
      member.kind.isTypeMember = true := by
    change ∀ member ∈ (((unit.types.map types.names.define).toArray)[index]?.getD .unknown).members, _
    rw [getElem?_toArray, getElem?_map]
    cases unit.types[index]? with
    | none => exact forall_mem_nil _
    | some decl => exact types.names.define_members
  have items (number : Nat) (elements : List Ty) :
      ∀ member ∈ (TypeData.tupleItems number elements).map fun item =>
        ({ name := item.member, kind := .field, type := item.type } : MemberInfo),
          member.kind.isTypeMember = true := by
    intro member isMember
    obtain ⟨item, _, rfl⟩ := mem_map.mp isMember
    rfl
  intro type
  cases type with
  | unknown | param => exact forall_mem_nil _
  | prim kind =>
    change ∀ member ∈ kind.members, _
    cases kind <;> decide
  | library kind =>
    change ∀ member ∈ kind.members, _
    cases kind <;> decide
  | declared index => exact defined index
  | applied name args =>
    change ∀ member ∈ (types.data (.applied name args)).members, _
    unfold Universe.data
    dsimp only
    split
    · rename_i kind _
      cases kind <;> simp [LibraryGeneric.data, MemberInfo.ofProperty, MemberInfo.ofMethod,
        SymbolKind.isTypeMember]
    · rename_i index _
      intro member isMember
      obtain ⟨declared, isDeclared, rfl⟩ := mem_map.mp isMember
      exact defined index declared isDeclared
    · split <;> exact forall_mem_nil _
    · exact forall_mem_nil _
  | array element =>
    exact forall_mem_cons.mpr ⟨rfl, forall_mem_singleton.mpr rfl⟩
  | nullable inner => exact forall_mem_cons.mpr ⟨rfl, forall_mem_singleton.mpr rfl⟩
  | tuple elements => exact items 1 elements

end Members

/-! ## What a bare name is resolved to -/

namespace InferEnv

variable {env : InferEnv} {type : Ty} {name : String} {arity : Option Nat}

theorem mem_memberOn {staticOnly : Bool}
    (isFound : reference ∈ (env.memberOn type name arity staticOnly).toList) :
    ∃ owner member, (owner, member) ∈ env.types.candidates type name ∧
      reference.kind = member.kind ∧ reference.container = some owner ∧
        (staticOnly = true → reference.isStatic = true) := by
  rw [memberOn, Resolution.toList_ofList] at isFound
  obtain ⟨⟨owner, member⟩, isFit, rfl⟩ := mem_map.mp isFound
  obtain ⟨isCandidate, fits⟩ := mem_filter.mp isFit
  refine ⟨owner, member, isCandidate, rfl, rfl, fun isRestricted => ?_⟩
  rw [isRestricted] at fits
  exact (Bool.and_eq_true_iff.mp fits).1

theorem memberOn_isTypeMember (shows : env.types.ShowsMembers) {staticOnly : Bool} :
    ∀ reference ∈ (env.memberOn type name arity staticOnly).toList,
      reference.kind.isTypeMember = true := by
  intro reference isFound
  obtain ⟨owner, member, isCandidate, sameKind, _⟩ := mem_memberOn isFound
  rw [sameKind]
  exact shows owner member (Universe.mem_candidates isCandidate).2

theorem imported_isTypeMember (shows : env.types.ShowsMembers) :
    ∀ reference ∈ (env.imported name arity).toList, reference.kind.isTypeMember = true := by
  intro reference isFound
  rw [imported, Resolution.toList_ofList] at isFound
  obtain ⟨type, _, isFound⟩ := mem_flatMap.mp isFound
  exact memberOn_isTypeMember shows reference isFound

/-- What holds of a list that finds something, and of what the rest find where it does
    not, holds of what is found first. -/
theorem firstFound_first {holds : Resolution → Prop} {first : Resolution} {rest : List Resolution}
    (isFirst : holds first) (others : first.toList = [] → holds (firstFound rest)) :
    holds (firstFound (first :: rest)) := by
  rw [firstFound]
  split
  · rename_i isEmpty
    exact others (isEmpty_iff.mp isEmpty)
  · exact isFirst

/-- Where the possibilities of a bare name come from: they are no members, or what its own
    type shows, or, where that shows nothing, what is imported. -/
inductive Source (env : InferEnv) (type : Ty) (name : String) (arity : Option Nat)
    (resolution : Resolution) : Prop where
  | elsewhere (areOthers : ∀ reference ∈ resolution.toList, reference.kind.isTypeMember = false)
  | own (isShown : resolution = env.memberOn type name arity false)
  | imported (isHidden : (env.memberOn type name arity false).toList = [])
      (isImported : resolution = env.imported name arity)

theorem Source.means {resolution : Resolution} (source : env.Source type name arity resolution)
    (shows : env.types.ShowsMembers) {container : Ty}
    (taken : Pass.memberReference? resolution = some reference)
    (isContainer : reference.container = some container) :
    resolution.Means container reference.isStatic := by
  cases source with
  | elsewhere areOthers =>
    obtain ⟨isFound, isMember⟩ := Resolution.mem_of_memberReference? taken
    rw [areOthers reference isFound] at isMember
    cases isMember
  | own isShown =>
    subst isShown
    have areMembers := @memberOn_isTypeMember env type name arity shows false
    rw [memberOn, Resolution.toList_ofList] at areMembers
    exact Resolution.means_of_memberReference? areMembers taken isContainer
  | imported _ isImported =>
    subst isImported
    have areMembers := @imported_isTypeMember env name arity shows
    rw [InferEnv.imported, Resolution.toList_ofList] at areMembers
    exact Resolution.means_of_memberReference? areMembers taken isContainer

theorem resolveName_source {scopes : List (List (String × Reference))} (locals : AreLocal scopes)
    (isCurrent : env.currentType = some type) :
    env.Source type name arity (env.resolveName scopes name arity) := by
  have inScopes : ∀ reference ∈ (Resolution.ofList (lookupScopes? name scopes).toList).toList,
      reference.kind.isTypeMember = false := by
    rw [Resolution.toList_ofList]
    intro reference isFound
    obtain isLocal | isParameter | isFunction :=
      (locals.lookup (Option.mem_toList.mp isFound)).kind
    · rw [isLocal]
      rfl
    · rw [isParameter]
      rfl
    · rw [isFunction]
      rfl
  have primary : ∀ reference ∈ (Resolution.ofList (env.primaryParam? name).toList).toList,
      reference.kind.isTypeMember = false := by
    rw [Resolution.toList_ofList]
    intro reference isFound
    obtain ⟨_, _, isFound⟩ := Option.bind_eq_some_iff.mp (Option.mem_toList.mp isFound)
    obtain ⟨_, _, isFound⟩ := Option.bind_eq_some_iff.mp isFound
    cases isFound
    rfl
  have named : ∀ reference ∈ (env.typeNamed name).toList, reference.kind.isTypeMember = false := by
    rw [typeNamed, Resolution.toList_ofList]
    intro reference isFound
    obtain ⟨_, _, rfl⟩ := mem_map.mp isFound
    rfl
  unfold resolveName
  rw [isCurrent]
  have next {first : Resolution} {rest : List Resolution} :=
    @firstFound_first (env.Source type name arity) first rest
  refine next (.elsewhere inScopes) fun _ => ?_
  cases env.context with
  | initializer =>
    refine next (.elsewhere primary) fun _ => next (.own rfl) fun noOwn => ?_
    exact next (.imported noOwn rfl) fun _ => next (.elsewhere named) fun _ => .elsewhere nofun
  | body =>
    refine next (.own rfl) fun noOwn => next (.elsewhere primary) fun _ => ?_
    exact next (.imported noOwn rfl) fun _ => next (.elsewhere named) fun _ => .elsewhere nofun

end InferEnv

/-! ## Names that are written out

The passes that qualify names give some bare names a receiver, and change nothing else.
Which names they are, and what the receivers are, can be said for each name on its own
from what the view knows about it and from where it stands.
-/

open Node

/-! ## Rules that give names receivers -/

def writtenAfter (receiver : Option Expr) (name : String) : ExprKind :=
  match receiver with
  | some receiver => .member receiver name
  | none => .ident name

def Rules.writeOut (receiver? : Site → Mark → Option Expr) : Rules Id :=
  { Rules.keep with
    expr := fun site node kind =>
      match kind with
      | .ident name => ⟨node.mark, writtenAfter (receiver? site node.mark) name⟩
      | _ => ⟨node.mark, kind⟩ }

def Expr.IsReceiver (receiver : Expr) : Prop :=
  receiver.kind = .self ∨ ∃ type, receiver.kind = .typeRef type

def Node.isBareName : Node → Bool
  | .expr ⟨_, .ident _⟩ => true
  | _ => false

structure WrittenOut (receiver? : Site → Mark → Option Expr) (site : Site) (node result : Node) :
    Prop where
  name (mark : Mark) (name : String) : node = .expr ⟨mark, .ident name⟩ →
    result = .expr ⟨mark, writtenAfter (receiver? site mark) name⟩
  bare : result.isBareName = true → result = node
  typeParams : result.typeParams = node.typeParams
  below : node.children = [] → ∀ child ∈ result.children,
    child.children = [] ∧ child.isBareName = false ∧ child.typeParams = []

theorem WrittenOut.plain {start below : Site} {child found : Node}
    (written : WrittenOut receiver? site node result) (isAlone : node.children = [])
    (isChild : child ∈ result.children) (held : child.Holds start below found) :
    found.isBareName = false ∧ found.typeParams = [] := by
  obtain ⟨isLeaf, noName, noParams⟩ := written.below isAlone child isChild
  cases held with
  | here => exact ⟨noName, noParams⟩
  | child isBelow =>
    rw [isLeaf] at isBelow
    cases isBelow

theorem WrittenOut.noName (site : Site) (node result : Node)
    (written : WrittenOut receiver? site node result) (isAlone : node.children = [])
    (child : Node) (isChild : child ∈ result.children) (start below : Site) (found : Node)
    (held : child.Holds start below found) : ¬ found.isBareName = true :=
  Bool.not_eq_true _ ▸ (written.plain isAlone isChild held).1

section WriteOut

variable {receiver? : Site → Mark → Option Expr}

theorem WrittenOut.ofName (areReceivers : ∀ site mark receiver,
      receiver? site mark = some receiver → receiver.IsReceiver) (site : Site) (mark : Mark) (name : String) :
    WrittenOut receiver? site (.expr ⟨mark, .ident name⟩)
      (.expr ⟨mark, writtenAfter (receiver? site mark) name⟩) where
  name other given same := by
    cases same
    rfl
  bare isName := by
    cases isReceiver : receiver? site mark with
    | none => rfl
    | some receiver =>
      rw [isReceiver] at isName
      cases isName
  typeParams := rfl
  below _ child isChild := by
    cases isReceiver : receiver? site mark with
    | none =>
      rw [isReceiver] at isChild
      cases isChild
    | some receiver =>
      rw [isReceiver] at isChild
      obtain rfl := mem_singleton.mp isChild
      obtain ⟨mark, kind⟩ := receiver
      obtain isSelf | ⟨type, isType⟩ := areReceivers _ _ _ isReceiver
      · cases isSelf
        exact ⟨rfl, rfl, rfl⟩
      · cases isType
        exact ⟨rfl, rfl, rfl⟩

theorem WrittenOut.ofOther (noName : node.isBareName = false)
    (stays : result.isBareName = false) (typeParams : result.typeParams = node.typeParams)
    (children : node.children.length = result.children.length) : WrittenOut receiver? site node result where
  name mark name same := by
    rw [same] at noName
    cases noName
  bare isName := by
    rw [stays] at isName
    cases isName
  typeParams := typeParams
  below isAlone child isChild := by
    rw [isAlone] at children
    rw [eq_nil_of_length_eq_zero children.symm] at isChild
    cases isChild

theorem ExprKind.Related.isBareName {kind result : ExprKind}
    (isRelated : kind.Related related result) (mark after : Mark) :
    (expr ⟨after, result⟩).isBareName = (expr ⟨mark, kind⟩).isBareName := by
  cases isRelated with
  | alone => cases kind <;> rfl
  | lambda | test | paren => rfl
  | other isOther stays =>
    have noName (mark : Mark) {kind : ExprKind} (isOther : kind.isOther = true) :
        (expr ⟨mark, kind⟩).isBareName = false := by
      cases kind <;> first | rfl | cases isOther
    rw [noName _ isOther, noName _ stays]

theorem StmtKind.Related.typeParams {kind result : StmtKind}
    (isRelated : kind.Related related result) (mark after : Mark) :
    (stmt ⟨after, result⟩).typeParams = (stmt ⟨mark, kind⟩).typeParams := by
  have declared (mark : Mark) (kind : StmtKind) : (stmt ⟨mark, kind⟩).typeParams = kind.typeParams := by
    cases kind <;> rfl
  rw [declared, declared]
  cases isRelated with
  | other _ _ _ sameParams => exact sameParams
  | _ => rfl

theorem Rules.writeOut_mirrors (areReceivers : ∀ site mark receiver,
      receiver? site mark = some receiver → receiver.IsReceiver) :
    (Rules.writeOut receiver?).RelateAt .pureValue (Mirrors (WrittenOut receiver?)) where
  expr site node kind related := by
    obtain ⟨mark, original⟩ := node
    cases isName : (Node.expr ⟨mark, original⟩).isBareName with
    | true =>
      cases original <;> cases isName
      cases related with
      | alone isAlone => exact .alone (.ofName areReceivers site mark _) rfl
      | other isOther => cases isOther
    | false =>
      have noName := (related.isBareName mark mark).trans isName
      have stays : (Rules.writeOut receiver?).expr site ⟨mark, original⟩ kind = ⟨mark, kind⟩ := by
        cases kind <;> first | rfl | cases noName
      change Mirrors _ site _ (.expr ((Rules.writeOut receiver?).expr site ⟨mark, original⟩ kind))
      rw [stays]
      exact .ofExpr related (.ofOther isName noName rfl related.children.length_eq)
  stmt site node kind related := by
    obtain ⟨mark, original⟩ := node
    exact ⟨_, rfl, .ofStmt related
      (.ofOther rfl rfl (related.typeParams mark mark) related.children.length_eq)⟩
  pattern site node kind related := by
    obtain ⟨mark, original⟩ := node
    exact Mirrors.ofPattern related (.ofOther rfl rfl rfl related.children.length_eq)

end WriteOut

/-! ## What the passes write out -/

theorem PassEnv.receiver?_isReceiver {env : PassEnv} {wanted : Reference → Ty → Bool → Bool}
    (site : Site) (mark : Mark) (receiver : Expr)
    (isReceiver : env.receiver? wanted site mark = some receiver) : receiver.IsReceiver := by
  obtain ⟨reference, _, isReceiver⟩ := Option.bind_eq_some_iff.mp isReceiver
  obtain ⟨container, _, isReceiver⟩ := Option.bind_eq_some_iff.mp isReceiver
  obtain ⟨_, same⟩ := Option.ite_none_right_eq_some.mp isReceiver
  cases same
  unfold PassEnv.receiver
  split
  · exact .inr ⟨_, rfl⟩
  · exact .inl rfl

namespace Pass

/-- An action comes to a value whatever the state is, and queues nothing. -/
def plainValue (env : PassEnv) : Values Pass where
  yields action value _ := ∀ before, ∃ after,
    action env before = .ok (value, after) ∧ after.hoists = before.hoists
  pure value before := ⟨before, rfl, rfl⟩
  bind first rest before := by
    obtain ⟨middle, ranFirst, sameFirst⟩ := first before
    obtain ⟨after, ranRest, sameRest⟩ := rest middle
    exact ⟨after, (bind_ok ranFirst).trans ranRest, sameRest.trans sameFirst⟩

variable {env : PassEnv} {wanted : Reference → Ty → Bool → Bool}

theorem plainValue_ask {α β : Type} {question : Pass α} {answer : α} {next : α → Pass β}
    {value : β} (asked : ∀ state, question env state = .ok (answer, state))
    {noted : Bool} (rest : (plainValue env).yields (next answer) value noted) :
    (plainValue env).yields (question >>= next) value noted :=
  have first : (plainValue env).yields question answer false :=
    fun before => ⟨before, asked before, rfl⟩
  (plainValue env).bind first rest

theorem qualify_yields {mark : Mark} {kind : ExprKind} {name : String} {reference : Reference}
    {container : Ty} :
    (plainValue env).yields (qualify ⟨mark, kind⟩ name reference container)
      ⟨mark, .member (env.receiver mark.span reference.isStatic container) name⟩ false := by
  intro before
  unfold qualify PassEnv.receiver
  cases reference.isStatic with
  | true => exact ⟨_, rfl, rfl⟩
  | false => exact ⟨_, rfl, rfl⟩

theorem qualifyRules_follow {env : PassEnv} (wanted : Reference → Ty → Bool → Bool) :
    (qualifyRules wanted).Follow (plainValue env) (Rules.writeOut (env.receiver? wanted))
      fun _ => false where
  expr site below mark original := by
    generalize (original.rebuild _ below : Id ExprKind) = kind
    cases kind with
    | ident name =>
      refine plainValue_ask (view_ok env) ?_
      change (plainValue env).yields _
        (⟨mark, writtenAfter (env.receiver? wanted site mark) name⟩ : Expr) _
      unfold PassEnv.receiver?
      have sameResolution : env.view.resolution ⟨mark, original⟩ =
          (env.view.facts.get mark.id).resolution := rfl
      rw [sameResolution]
      cases memberReference? (env.view.facts.get mark.id).resolution with
      | none => exact (plainValue env).pure _
      | some reference =>
        rw [Option.bind_some]
        dsimp only
        cases reference.container with
        | none => exact (plainValue env).pure _
        | some container =>
          rw [Option.bind_some]
          refine plainValue_ask (enclosingType_ok env site.owner) ?_
          change (plainValue env).yields (if wanted reference container
            (env.reaches site.owner container) = true then _ else _) _ _
          split
          · exact qualify_yields
          · exact (plainValue env).pure _
    | _ => exact (plainValue env).pure _
  stmt _ _ _ _ := (plainValue env).pure _
  pattern _ _ _ _ := (plainValue env).pure _

theorem rebuild_writesOut {env : PassEnv} (wanted : Reference → Ty → Bool → Bool)
    {before : PassState} :
    ∃ after, env.unit.rebuild (qualifyRules wanted) env before =
        .ok (env.unit.rebuild (Rules.writeOut (env.receiver? wanted)), after) ∧
      after.hoists = before.hoists ∧
      (after.changed = false →
        (env.unit.rebuild (Rules.writeOut (env.receiver? wanted)) : Id CompilationUnit) = env.unit) := by
  obtain ⟨after, ran, same⟩ := env.unit.rebuild_follows (qualifyRules_follow wanted) before
  refine ⟨after, ran, same, fun unchanged => ?_⟩
  have settles : Settles .change env _ _ env.unit :=
    env.unit.rebuild_settles (qualifyRules_settle env wanted)
  have stay : ∀ site node, env.unit.Holds site node → StaysBare env wanted site node := by
    by_contra moves
    have changed := settles.notes moves _ _ _ ran
    exact Bool.noConfusion (unchanged.symm.trans changed)
  have kept := settles.keeps stay before
  rw [ran] at kept
  exact (Prod.mk.inj (Except.ok.inj kept)).1

end Pass

theorem Pass.names_run (env : PassEnv) (start : PassState) (fresh : start.hoists = {}) :
    ∃ result, Pass.names.run env start = .ok result ∧ result.unit.getD env.unit =
      (env.unit.rebuild (Rules.writeOut (env.receiver? fun _ _ inReach => inReach)) :
        Id CompilationUnit) := by
  obtain ⟨after, ran, sameHoists, unchanged⟩ :=
    rebuild_writesOut (fun _ _ inReach => inReach)
  have named : (ReaderT.run names env).run start = .ok (env.unit.rebuild (Rules.writeOut _), after) := ran
  unfold Pass.run
  rw [named]
  change ∃ result, (if (after.changed || !after.hoists.isEmpty) = true then _ else _) = _ ∧ _
  rw [sameHoists.trans fresh]
  cases changed : after.changed with
  | true => exact ⟨_, rfl, rfl⟩
  | false => exact ⟨_, rfl, (unchanged changed).symm⟩

/-! ## Members of the enclosing type

The pass over names gives a receiver to every bare name that means members of one type
in reach of the declaration it stands in.  What is in reach is decided by the type that
is found under the name of the declaration alone.  For a declaration without type
parameters that is the declared type; a generic one is never found so, and names of its
members stay bare, unless another type goes by its name.
-/

open Infer Node

/-! ## Reach -/

/-- Types in reach of a declaration: the type that is found under its name has this type
    along its bases, or one that goes by the same name. -/
def Universe.InReach (types : Universe) (decl : TypeDecl) (container : Ty) : Prop :=
  ∃ type, types.names.lookup? decl.name = some type ∧
    ∃ base ∈ types.chain false Universe.chainLimit type,
      base = container ∨ (types.data base).name = (types.data container).name

theorem PassEnv.reaches_iff (env : PassEnv) {owner : Owner} {decl : TypeDecl}
    (isDecl : env.unit.declAt? owner = some decl) :
    env.reaches owner container = true ↔ env.view.types.InReach decl container := by
  have isEnclosing : env.enclosing? owner = env.view.types.names.lookup? decl.name := by
    cases owner with
    | member type index =>
      have isType : env.unit.types[type]? = some decl := isDecl
      rw [enclosing?, isType, Option.bind_some]
    | header type =>
      have isType : env.unit.types[type]? = some decl := isDecl
      rw [enclosing?, isType, Option.bind_some]
    | detached => cases isDecl
  rw [reaches, isEnclosing, Universe.InReach]
  cases env.view.types.names.lookup? decl.name with
  | none => simp
  | some type => simp [Pass.inBaseChain]

theorem CompilationUnit.Holds.declAt?
    (held : unit.Holds site node) : ∃ decl ∈ unit.types, unit.declAt? site.owner = some decl := by
  cases held with
  | header isType _ held =>
    rw [held.owner]
    exact ⟨_, mem_of_getElem? isType, isType⟩
  | member isType _ _ held =>
    rw [held.owner]
    exact ⟨_, mem_of_getElem? isType, isType⟩

/-! ## What analysis knows of names -/

def Analyzed.within (analyzed : Analyzed) (decl : TypeDecl) : InferEnv :=
  (analyzed.tree.unit.inferEnv analyzed.tree.vocabulary).within decl

namespace Tree

variable {tree : Tree} {path : List Nat} {place : Place} {mark : Mark} {name : String}
  {decl : TypeDecl}

theorem analyze_single (tree : Tree) (id : Nat) : tally id tree.analyze.tree.unit.roots ≤ 1 := by
  have counted := tree.unit.tally_number id
  change tally id tree.unit.number.1.roots ≤ 1
  split at counted <;> omega

theorem analyze_id (isPlace : tree.analyze.tree.unit.at? path = some place) :
    ∃ id, place.node.id = some id :=
  Option.isSome_iff_exists.mp
    (tree.analyze_numbered _ (CompilationUnit.at?_holds isPlace).reachable)

theorem analyze_shows (tree : Tree) : tree.analyze.view.types.ShowsMembers :=
  Universe.ofUnit_shows

theorem analyze_source (isPlace : tree.analyze.tree.unit.at? path = some place)
    (isName : place.node = .expr ⟨mark, .ident name⟩)
    (isDecl : tree.analyze.tree.unit.declAt? place.site.owner = some decl) :
    (tree.analyze.view.facts.get mark.id).resolution = {} ∨
      (tree.analyze.within decl).Source (declaredType tree.analyze.view.types decl) name
        (place.site.arity? mark.id) (tree.analyze.view.facts.get mark.id).resolution := by
  obtain ⟨id, isId⟩ := tree.analyze_id isPlace
  have held := CompilationUnit.at?_holds isPlace
  rw [isName] at isId held
  have isMark : mark.id = some id := isId
  obtain unknown | ⟨_, scopes, context, locals, found⟩ :=
    CompilationUnit.resolution_held (tree.analyze_single id) isDecl isId held
  · rw [isMark]
    exact .inl unknown
  · have source : ({ tree.analyze.within decl with context } : InferEnv).Source
        (declaredType tree.analyze.view.types decl) name (place.site.arity? mark.id)
        (({ tree.analyze.within decl with context } : InferEnv).resolveName scopes name
          (place.site.arity? mark.id)) := InferEnv.resolveName_source locals rfl
    have same : (tree.analyze.view.facts.get mark.id).resolution =
        ({ tree.analyze.within decl with context } : InferEnv).resolveName scopes name
          (place.site.arity? mark.id) := by
      have known : (tree.analyze.view.facts.get mark.id).resolution =
          tree.analyze.view.resolutionOf id := by
        rw [isMark]
        rfl
      exact known.trans found
    rw [← same] at source
    -- the lookups that count do not see the context
    refine .inr ?_
    cases source with
    | elsewhere areOthers => exact .elsewhere areOthers
    | own isShown => exact .own isShown
    | imported isHidden isImported => exact .imported isHidden isImported

theorem analyze_means (isPlace : tree.analyze.tree.unit.at? path = some place)
    (isName : place.node = .expr ⟨mark, .ident name⟩) {container : Ty}
    (taken : Pass.memberReference? (tree.analyze.view.facts.get mark.id).resolution = some reference)
    (isContainer : reference.container = some container) :
    (tree.analyze.view.facts.get mark.id).resolution.Means container reference.isStatic := by
  obtain ⟨decl, _, isDecl⟩ := (CompilationUnit.at?_holds isPlace).declAt?
  obtain unknown | source := tree.analyze_source isPlace isName isDecl
  · rw [unknown] at taken
    cases taken
  · exact source.means tree.analyze_shows taken isContainer

end Tree

/-! ## What the pass does -/

section Names

variable {tree : Tree} {path : List Nat} {place : Place} {mark : Mark} {name : String}
  {decl : TypeDecl}

def Analyzed.ownReceiver? (analyzed : Analyzed) : Site → Mark → Option Expr :=
  (analyzed.env .names).receiver? fun _ _ inReach => inReach

theorem Tree.ownReceiver?_of_means (isDecl : tree.analyze.tree.unit.declAt? place.site.owner = some decl)
    {container : Ty}
    (means : (tree.analyze.view.facts.get mark.id).resolution.Means container isStatic)
    (inReach : tree.analyze.view.types.InReach decl container) :
    tree.analyze.ownReceiver? place.site mark =
      some ((tree.analyze.env .names).receiver mark.span isStatic container) := by
  obtain ⟨reference, taken, isContainer, sameStatic⟩ := means.memberReference?
  have reached := ((tree.analyze.env .names).reaches_iff isDecl).mpr inReach
  unfold Analyzed.ownReceiver? PassEnv.receiver?
  change (Pass.memberReference? (tree.analyze.view.facts.get mark.id).resolution).bind _ = _
  rw [taken, Option.bind_some, isContainer, Option.bind_some, if_pos reached, sameStatic]

theorem Tree.means_of_ownReceiver? (isPlace : tree.analyze.tree.unit.at? path = some place)
    (isName : place.node = .expr ⟨mark, .ident name⟩)
    (isDecl : tree.analyze.tree.unit.declAt? place.site.owner = some decl) {receiver : Expr}
    (isReceiver : tree.analyze.ownReceiver? place.site mark = some receiver) :
    ∃ container isStatic,
      (tree.analyze.view.facts.get mark.id).resolution.Means container isStatic ∧
        tree.analyze.view.types.InReach decl container := by
  obtain ⟨reference, taken, isReceiver⟩ := Option.bind_eq_some_iff.mp isReceiver
  obtain ⟨container, isContainer, isReceiver⟩ := Option.bind_eq_some_iff.mp isReceiver
  obtain ⟨reached, _⟩ := Option.ite_none_right_eq_some.mp isReceiver
  exact ⟨container, reference.isStatic, tree.analyze_means isPlace isName taken isContainer,
    ((tree.analyze.env .names).reaches_iff isDecl).mp reached⟩

/-- The pass over names succeeds on every tree and changes nothing but bare names.  A
    bare name is written out, after `this` or after its type, exactly if it means members
    of one type in reach of its declaration, and whatever is bare afterwards was bare
    before and means no such members.  The bases of a declaration without type parameters
    are in reach of it.  A generic declaration is not found under its name: unless another
    type is, nothing is in reach. -/
theorem names_writes_out_reached (tree : Tree) (triggers : Triggers) :
    let analyzed := tree.analyze
    let unit := analyzed.tree.unit
    let types := analyzed.view.types
    ∃ result, Pass.names.run (analyzed.env .names) (analyzed.start triggers) = .ok result ∧
      let output := result.unit.getD unit
      output = (unit.rebuild (Rules.writeOut analyzed.ownReceiver?) : Id CompilationUnit) ∧
      (∀ path place mark name decl, unit.at? path = some place →
        place.node = .expr ⟨mark, .ident name⟩ → unit.declAt? place.site.owner = some decl →
        ∃ found, output.at? path = some found ∧
          (∀ container isStatic,
            (analyzed.view.resolution ⟨mark, .ident name⟩).Means container isStatic →
            types.InReach decl container →
              found.node = .expr ⟨mark, .member (if isStatic
                then mark.span.typeRef (types.names.syntaxOf container) else mark.span.self) name⟩) ∧
          ((¬ ∃ container isStatic,
              (analyzed.view.resolution ⟨mark, .ident name⟩).Means container isStatic ∧
                types.InReach decl container) →
            found.node = place.node)) ∧
      (∀ path found mark name, output.at? path = some found →
        found.node = .expr ⟨mark, .ident name⟩ →
        ∃ place decl, unit.at? path = some place ∧ place.node = found.node ∧
          unit.declAt? place.site.owner = some decl ∧
          ∀ container isStatic,
            (analyzed.view.resolution ⟨mark, .ident name⟩).Means container isStatic →
              ¬ types.InReach decl container) ∧
      ∀ decl ∈ unit.types,
        (decl.typeParams = [] → ∀ base ∈ types.chain false Universe.chainLimit
          (declaredType types decl), types.InReach decl base) ∧
        (decl.typeParams ≠ [] → types.names.lookup? decl.name ≠ some (declaredType types decl)) := by
  intro analyzed unit types
  obtain ⟨result, ran, isOutput⟩ :=
    Pass.names_run (analyzed.env .names) (analyzed.start triggers) rfl
  refine ⟨result, ran, ?_⟩
  intro output
  have rebuilt : output = (unit.rebuild (Rules.writeOut analyzed.ownReceiver?) :
    Id CompilationUnit) := isOutput
  have mirrored : List.Forall₂ (Placed (Mirrors (WrittenOut analyzed.ownReceiver?))) unit.places
      output.places := by
    rw [rebuilt]
    exact unit.rebuild_places (Rules.writeOut_mirrors PassEnv.receiver?_isReceiver)
  refine ⟨rebuilt, ?_, ?_, ?_⟩
  · intro path place mark name decl isPlace isName isDecl
    obtain ⟨found, isFound, written, _⟩ := CompilationUnit.at?_mirrored mirrored isPlace
    refine ⟨found, isFound, fun container isStatic means inReach => ?_, fun none => ?_⟩
    · rw [written.name mark name isName, Tree.ownReceiver?_of_means isDecl means inReach]
      rfl
    · cases isReceiver : analyzed.ownReceiver? place.site mark with
      | none => rw [written.name mark name isName, isReceiver, writtenAfter, isName]
      | some receiver =>
        exact absurd (Tree.means_of_ownReceiver? isPlace isName isDecl isReceiver) none
  · intro path found mark name isFound isName
    have isBare : found.node.isBareName = true := by
      rw [isName]
      rfl
    obtain ⟨place, isPlace, written, _⟩ :=
      CompilationUnit.at?_source mirrored WrittenOut.noName isFound isBare
    obtain ⟨decl, _, isDecl⟩ := (CompilationUnit.at?_holds isPlace).declAt?
    have same : place.node = found.node := (written.bare isBare).symm
    refine ⟨place, decl, isPlace, same, isDecl, fun container isStatic means inReach => ?_⟩
    have became := written.name mark name (same.trans isName)
    rw [Tree.ownReceiver?_of_means isDecl means inReach, isName] at became
    cases became
  · intro decl isDecl
    refine ⟨fun isPlain base isBase => ?_, declaredType_of_generic isDecl⟩
    exact ⟨_, declaredType_of_plain isDecl isPlain, base, isBase, .inl rfl⟩

end Names

def boxTree (typeParams : List String) : Tree :=
  let span : Span := default
  { unit := { usings := [], namespaceName := none, types := [
      { name := "Box", kind := .classType, modifiers := [], typeParams, primary := none, bases := []
        baseArgs := none
        members := [ ⟨.field (.simple "int") "x" none, [], span⟩,
          ⟨.method "Get" [] [] (.simple "int") (.block (span.block [span.ret (span.ident "x")])), [],
            span⟩]
        span }] } }

theorem boxTree_means {typeParams : List String} (isSmall : typeParams = [] ∨ typeParams = ["T"]) :
    ((boxTree typeParams).analyze.view.facts.get (some 0)).resolution.Means (.declared 0) false := by
  have found : ((boxTree typeParams).analyze.view.facts.get (some 0)).resolution =
      .ofList [{ name := "x", kind := .field, type := .int, container := some (.declared 0) }] := by
    obtain rfl | rfl := isSmall <;> rfl
  rw [found]
  exact ⟨cons_ne_nil _ _, forall_mem_singleton.mpr ⟨rfl, rfl, rfl⟩⟩

/-- The field of the plain class is written `this.x`; that of the generic class stays bare. -/
theorem names_writes_out_reached_box :
    (∃ result found, Pass.names.run ((boxTree []).analyze.env .names)
        ((boxTree []).analyze.start {}) = .ok result ∧
      (result.unit.getD (boxTree []).analyze.tree.unit).at? [0, 0, 0] = some found ∧
      found.node = .expr ⟨⟨default, some 0⟩, .member (Span.self default) "x"⟩) ∧
    ∃ result found, Pass.names.run ((boxTree ["T"]).analyze.env .names)
        ((boxTree ["T"]).analyze.start {}) = .ok result ∧
      (result.unit.getD (boxTree ["T"]).analyze.tree.unit).at? [0, 0, 0] = some found ∧
      found.node = .expr ⟨⟨default, some 0⟩, .ident "x"⟩ := by
  constructor
  · obtain ⟨result, ran, _, written, _, plain⟩ := names_writes_out_reached (boxTree []) {}
    obtain ⟨found, isFound, out, _⟩ := written [0, 0, 0] _ ⟨default, some 0⟩ "x" _ rfl rfl rfl
    refine ⟨result, found, ran, isFound, out _ _ (boxTree_means (.inl rfl)) ?_⟩
    exact (plain _ List.mem_cons_self).1 rfl _ List.mem_cons_self
  · obtain ⟨result, ran, _, written, _⟩ := names_writes_out_reached (boxTree ["T"]) {}
    obtain ⟨found, isFound, _, stays⟩ := written [0, 0, 0] _ ⟨default, some 0⟩ "x" _ rfl rfl rfl
    refine ⟨result, found, ran, isFound, stays ?_⟩
    rintro ⟨_, _, _, type, isFound, _⟩
    cases isFound

end Unsugar
