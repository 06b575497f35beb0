import Unsugar.Proofs.Names.OwnMembers
import Unsugar.Proofs.Types.AlikeUniverses

open List

namespace Unsugar

/-! # Names in a tree that is analyzed again

Before it is analyzed a tree is numbered.  That changes identities only: the same names
stand at the end of the same paths, and declarations say the same.
-/

open Node

/-! ## Numbering -/

/-- What stays of a node when it gets another identity: a bare name, a type, a member of a
    type, and what is declared. -/
structure Node.SameForm (node result : Node) : Prop where
  name (mark : Mark) (name : String) : node = .expr ⟨mark, .ident name⟩ →
    ∃ after, result = .expr ⟨after, .ident name⟩
  type (mark : Mark) (type : TypeSyntax) : node = .expr ⟨mark, .typeRef type⟩ →
    ∃ after, result = .expr ⟨after, .typeRef type⟩
  member (mark inner : Mark) (type : TypeSyntax) (name : String) :
    node = .expr ⟨mark, .member ⟨inner, .typeRef type⟩ name⟩ →
      ∃ after within, result = .expr ⟨after, .member ⟨within, .typeRef type⟩ name⟩
  typeParams : result.typeParams = node.typeParams
  length : node.children.length = result.children.length

variable {site : Site} {mark after : Mark} {decl : TypeDecl} {name : String}

theorem Node.SameForm.ofExpr {kind result : ExprKind}
    (related : kind.Related (Mirrors (fun _ => SameForm) site) result) :
    SameForm (.expr ⟨mark, kind⟩) (.expr ⟨after, result⟩) where
  name other name same := by
    cases same
    cases related with
    | alone => exact ⟨after, rfl⟩
    | other isOther => cases isOther
  type other type same := by
    cases same
    cases related with
    | alone => exact ⟨after, rfl⟩
    | other isOther => cases isOther
  member other inner type name same := by
    cases same
    cases related with
    | alone isAlone => cases isAlone
    | other _ _ sameHead children =>
      cases result with
      | member receiver written =>
        cases sameHead
        cases children with
        | cons first _ =>
          obtain ⟨within, same⟩ := first.related.type inner type rfl
          cases same
          exact ⟨after, within, rfl⟩
      | _ => cases sameHead
  typeParams := rfl
  length := related.children.length_eq

theorem Node.SameForm.ofStmt {kind result : StmtKind}
    (related : kind.Related (Mirrors (fun _ => SameForm) site) result) :
    SameForm (.stmt ⟨mark, kind⟩) (.stmt ⟨after, result⟩) :=
  ⟨nofun, nofun, nofun, related.typeParams mark after, related.children.length_eq⟩

theorem Node.SameForm.ofPattern {kind result : PatternKind}
    (related : kind.Related (Mirrors (fun _ => SameForm) site) result) :
    SameForm (.pattern ⟨mark, kind⟩) (.pattern ⟨after, result⟩) :=
  ⟨nofun, nofun, nofun, rfl, related.children.length_eq⟩

theorem Node.Mirrors.relabel {node : Node} {after : Mark} {kind : ExprKind} (id : Nat)
    (mirrors : Mirrors (fun _ => SameForm) site node (.expr ⟨after, kind⟩)) :
    Mirrors (fun _ => SameForm) site node (.expr ⟨after, kind.relabel id⟩) := by
  cases kind with
  | lambda label params isAsync body =>
    have sameForm (form : node.SameForm (.expr ⟨after, .lambda label params isAsync body⟩)) :
        node.SameForm (.expr ⟨after, .lambda (some id) params isAsync body⟩) :=
      { name := fun mark name same => nomatch (form.name mark name same)
        type := fun mark type same => nomatch (form.type mark type same)
        member := fun mark inner type name same =>
          nomatch (form.member mark inner type name same)
        typeParams := form.typeParams
        length := form.length }
    cases mirrors with
    | alone form isAlone => exact .alone (sameForm form) isAlone
    | inner form sameArity sameUnmet sameLength children =>
      exact .inner (sameForm form) sameArity sameUnmet sameLength children
  | _ => exact mirrors

theorem Rules.number_mirrors :
    Rules.number.RelateAt (.stateValue Nat) (Mirrors fun _ => SameForm) where
  expr site node kind related := by
    obtain ⟨mark, original⟩ := node
    exact fun id => (Node.Mirrors.ofExpr related (.ofExpr related)).relabel id
  stmt site node kind related := by
    obtain ⟨mark, original⟩ := node
    exact fun id => ⟨_, rfl, .ofStmt related (.ofStmt related)⟩
  pattern site node kind related := by
    obtain ⟨mark, original⟩ := node
    exact fun id => Node.Mirrors.ofPattern related (.ofPattern related)

theorem Tree.analyze_mirrors (tree : Tree) :
    Forall₂ (Placed (Mirrors fun _ => SameForm)) tree.unit.places tree.analyze.tree.unit.places :=
  tree.unit.rebuild_places Rules.number_mirrors 0

theorem Tree.analyze_signature (tree : Tree) :
    tree.analyze.tree.unit.types.map TypeDecl.signature = tree.unit.types.map TypeDecl.signature :=
  rebuildTypes_signature (.stateValue Nat) Rules.number 0 tree.unit.types 0

/-! ## Imported members

A bare name can mean static members of the types that `using static` names, or of their
bases.  The pass that drops the directives writes a name out after its type if that type
is one of those named.  A name that means members of a base of them, or of several types,
stays bare, and then nothing imports what it meant.
-/

open Infer Node

/-! ## Members of the type that has them -/

section Candidates

variable {types : Universe} {type owner : Ty} {name : String} {member : MemberInfo}

theorem Universe.chain_head (stopEarly : Bool) (limit : Nat) (type : Ty) :
    ∃ rest, types.chain stopEarly (limit + 1) type = type :: rest := by
  rw [Universe.chain]
  split
  · exact ⟨[], rfl⟩
  · split
    · exact ⟨_, rfl⟩
    · exact ⟨[], rfl⟩

theorem Universe.candidates_of_own (isOwn : (owner, member) ∈ types.ownMembers name type) :
    types.candidates type name = types.ownMembers name type := by
  obtain ⟨rest, isChain⟩ := @Universe.chain_head types true 64 type
  unfold Universe.candidates
  dsimp only
  rw [chainLimit, isChain, findSome?_cons]
  cases found : types.ownMembers name type with
  | nil =>
    rw [found] at isOwn
    cases isOwn
  | cons => rfl

theorem Universe.candidates_owner (isCandidate : (owner, member) ∈ types.candidates type name) :
    types.candidates owner name = types.candidates type name := by
  have ofStep {step : Ty} (isOwn : (owner, member) ∈ types.ownMembers name step) :
      types.candidates owner name = types.ownMembers name step := by
    obtain ⟨rfl, _⟩ := Universe.mem_ownMembers isOwn
    exact Universe.candidates_of_own isOwn
  unfold Universe.candidates at isCandidate
  dsimp only at isCandidate
  split at isCandidate
  · rename_i members isFound
    obtain ⟨step, _, shows⟩ := exists_of_findSome?_eq_some isFound
    have same : types.ownMembers name step = members := by
      split at shows
      · cases shows
      · exact Option.some.inj shows
    rw [← same] at isCandidate
    rw [ofStep isCandidate, same]
    conv_rhs => rw [Universe.candidates]
    rw [isFound]
  · rename_i isMissing
    split at isCandidate
    · cases isCandidate
    · rename_i isKnown
      rw [ofStep isCandidate]
      conv_rhs => rw [Universe.candidates]
      rw [isMissing]
      exact (if_neg isKnown).symm

end Candidates

namespace InferEnv

variable {env other : InferEnv} {type container : Ty} {name : String} {arity : Option Nat}

theorem memberOn_congr (same : env.types.candidates type name = other.types.candidates container name)
    {staticOnly : Bool} :
    env.memberOn type name arity staticOnly = other.memberOn container name arity staticOnly := by
  rw [memberOn, same, memberOn]

theorem mem_imported (means : (env.imported name arity).Means container true) {reference : Reference} :
    reference ∈ (env.memberOn container name arity true).toList ↔
      reference ∈ (env.imported name arity).toList := by
  -- each import that shows any of them shows them all
  have shown {type : Ty} (isImport : type ∈ env.imports) {reference : Reference}
      (isShown : reference ∈ (env.memberOn type name arity true).toList) :
      env.memberOn container name arity true = env.memberOn type name arity true := by
    obtain ⟨owner, member, isCandidate, _, isContainer, _⟩ := mem_memberOn isShown
    have isFound : reference ∈ (env.imported name arity).toList := by
      rw [imported, Resolution.toList_ofList]
      exact mem_flatMap.mpr ⟨type, isImport, isShown⟩
    obtain rfl := Option.some.inj (isContainer.symm.trans (means.members reference isFound).2.1)
    exact memberOn_congr (Universe.candidates_owner isCandidate)
  have found := means.found
  rw [imported, Resolution.toList_ofList] at found ⊢
  refine ⟨fun isMember => ?_, fun isImported => ?_⟩
  · obtain ⟨first, isFirst⟩ := exists_mem_of_ne_nil _ found
    obtain ⟨type, isImport, isShown⟩ := mem_flatMap.mp isFirst
    rw [shown isImport isShown] at isMember
    exact mem_flatMap.mpr ⟨type, isImport, isMember⟩
  · obtain ⟨type, isImport, isShown⟩ := mem_flatMap.mp isImported
    rw [shown isImport isShown]
    exact isShown

theorem known_of_imported (means : (env.imported name arity).Means container true) :
    container.isUnknown = false := by
  obtain ⟨reference, isImported⟩ := exists_mem_of_ne_nil _ means.found
  have isMember := (mem_imported means).mpr isImported
  obtain ⟨owner, member, isCandidate, _, isContainer, _⟩ := mem_memberOn isMember
  obtain rfl := Option.some.inj (isContainer.symm.trans (means.members reference isImported).2.1)
  obtain ⟨_, isIn⟩ := Universe.mem_candidates isCandidate
  cases owner with
  | unknown => cases isIn
  | _ => rfl

end InferEnv

/-! ## The pass -/

def PassEnv.importReceiver? (env : PassEnv) : Site → Mark → Option Expr :=
  env.receiver? fun reference container inReach =>
    reference.isStatic &&
      (Pass.staticImports env.view.types env.unit.usings).contains container && !inReach

def PassEnv.withoutImports (env : PassEnv) : CompilationUnit :=
  { (env.unit.rebuild (Rules.writeOut env.importReceiver?) : Id CompilationUnit) with
    usings := env.unit.usings.filter fun directive => !directive.isStatic }

theorem CompilationUnit.rebuild_usings {unit : CompilationUnit} {rules : Rules Id} :
    (unit.rebuild rules : Id CompilationUnit).usings = unit.usings :=
  (unit.rebuild_shape .pureValue rules).2

namespace Pass

theorem dropImports_ok {env : PassEnv} {unit : CompilationUnit} {before : PassState} :
    ∃ after, (do
        if unit.usings.any (·.isStatic) then markChanged
        return { unit with usings := unit.usings.filter fun directive => !directive.isStatic } :
          Pass CompilationUnit) env before =
        .ok ({ unit with usings := unit.usings.filter fun directive => !directive.isStatic }, after) ∧
      after.hoists = before.hoists ∧ (unit.hasStatic = true → after.changed = true) := by
  by_cases isStatic : unit.usings.any (·.isStatic) = true
  · rw [if_pos isStatic]
    exact ⟨{ before with changed := true }, rfl, rfl, fun _ => rfl⟩
  · rw [if_neg isStatic]
    exact ⟨before, rfl, rfl, fun called => absurd called isStatic⟩

theorem staticUsings_run (env : PassEnv) (start : PassState) (fresh : start.hoists = {}) :
    ∃ result, staticUsings.run env start = .ok result ∧ (result.unit = some env.withoutImports ∨
        (result.unit = none ∧ env.unit.hasStatic = false)) := by
  obtain ⟨middle, ranRebuild, sameHoists, _⟩ := rebuild_writesOut
    (fun reference container inReach => reference.isStatic &&
      (staticImports env.view.types env.unit.usings).contains container && !inReach)
  let written : CompilationUnit := env.unit.rebuild (Rules.writeOut env.importReceiver?) (m := Id)
  have sameUsings : written.usings = env.unit.usings := env.unit.rebuild_usings
  obtain ⟨after, dropped, keptHoists, changes⟩ := dropImports_ok
  have ran : (ReaderT.run staticUsings env).run start = .ok (env.withoutImports, after) := by
    change staticUsings env start = _
    unfold staticUsings
    rw [bind_ok (read_ok env start), bind_ok (types_ok env start), bind_ok ranRebuild]
    rw [sameUsings] at dropped
    exact dropped
  have noHoists := (keptHoists.trans sameHoists).trans fresh
  unfold Pass.run
  rw [ran]
  change ∃ result, (if (after.changed || !after.hoists.isEmpty) = true then _ else _) = _ ∧ _
  rw [noHoists]
  cases changed : after.changed with
  | true => exact ⟨_, rfl, .inl rfl⟩
  | false =>
    refine ⟨_, rfl, .inr ⟨rfl, Bool.eq_false_iff.mpr fun isStatic => ?_⟩⟩
    rw [changes (by rwa [CompilationUnit.hasStatic, sameUsings])] at changed
    cases changed

end Pass

structure Tree.DropsImports (tree next : Tree) : Prop where
  unit : next.unit = (tree.analyze.env .staticUsings).withoutImports
  typeParams : next.vocabulary.typeParams = tree.analyze.tree.vocabulary.typeParams

theorem Lowering.staticUsings_run (lowering : Lowering) :
    ∃ next, Lowering.runOn lowering.tree.analyze .staticUsings lowering = .ok next ∧
      (lowering.tree.DropsImports next.tree ∨
        (next.tree = lowering.tree ∧ lowering.tree.analyze.tree.unit.hasStatic = false)) := by
  obtain ⟨result, ran, isOutput⟩ := Pass.staticUsings_run (lowering.tree.analyze.env .staticUsings)
    (lowering.tree.analyze.start lowering.triggers) rfl
  obtain ⟨unit, nextName, triggers, written⟩ := result
  unfold runOn
  change ∃ next, (Pass.staticUsings.run (lowering.tree.analyze.env .staticUsings)
    (lowering.tree.analyze.start lowering.triggers) >>= _) = _ ∧ _
  rw [ran]
  obtain isOutput | ⟨isOutput, none⟩ := isOutput
  · cases isOutput
    exact ⟨_, rfl, .inl ⟨rfl, append_nil _⟩⟩
  · cases isOutput
    exact ⟨_, rfl, .inr ⟨rfl, none⟩⟩

namespace Tree.DropsImports

variable {tree next : Tree} (drops : tree.DropsImports next)

include drops

theorem mirrored : Forall₂
    (Placed (Mirrors (WrittenOut (tree.analyze.env .staticUsings).importReceiver?)))
    tree.analyze.tree.unit.places next.unit.places := by
  rw [drops.unit]
  exact tree.analyze.tree.unit.rebuild_places (Rules.writeOut_mirrors PassEnv.receiver?_isReceiver)

theorem at?_found {path : List Nat} {place : Place} {mark : Mark}
    (isPlace : tree.analyze.tree.unit.at? path = some place)
    (isName : place.node = .expr ⟨mark, .ident name⟩) :
    ∃ found, next.analyze.tree.unit.at? path = some found ∧ place.Alike found ∧
      ((tree.analyze.env .staticUsings).importReceiver? place.site mark = none →
        ∃ after, found.node = .expr ⟨after, .ident name⟩) ∧
      ∀ inner type, (tree.analyze.env .staticUsings).importReceiver? place.site mark =
          some ⟨inner, .typeRef type⟩ →
        ∃ after within, found.node = .expr ⟨after, .member ⟨within, .typeRef type⟩ name⟩ := by
  obtain ⟨middle, isMiddle, written, alike⟩ :=
    CompilationUnit.at?_mirrored drops.mirrored isPlace
  obtain ⟨found, isFound, form, alikeFound⟩ :=
    CompilationUnit.at?_mirrored next.analyze_mirrors isMiddle
  have became := written.name mark name isName
  refine ⟨found, isFound, ⟨alikeFound.owner.trans alike.owner, alikeFound.arity.trans alike.arity,
    alikeFound.isMet.trans alike.isMet⟩, fun isBare => ?_, fun inner type isReceiver => ?_⟩
  · rw [isBare] at became
    exact form.name _ _ became
  · rw [isReceiver] at became
    exact form.member _ _ _ _ became

theorem typeParams_source (isParam : name ∈ next.analyze.tree.unit.vocabulary.typeParams) :
    name ∈ tree.analyze.tree.unit.vocabulary.typeParams := by
  have renumbered (site : Site) (node result : Node) (form : node.SameForm result)
      (isAlone : node.children = []) (child : Node) (isChild : child ∈ result.children)
      (start below : Site) (found : Node) (_ : child.Holds start below found) :
      ¬ name ∈ found.typeParams := by
    have noChild := form.length.symm.trans (congrArg List.length isAlone)
    rw [eq_nil_of_length_eq_zero noChild] at isChild
    cases isChild
  have written (site : Site) (node result : Node)
      (written : WrittenOut (tree.analyze.env .staticUsings).importReceiver? site node result)
      (isAlone : node.children = []) (child : Node) (isChild : child ∈ result.children)
      (start below : Site) (found : Node) (held : child.Holds start below found) :
      ¬ name ∈ found.typeParams := by
    rw [(written.plain isAlone isChild held).2]
    exact not_mem_nil
  obtain ⟨node, isReachable, isParam⟩ := mem_flatMap.mp isParam
  obtain ⟨path, found, isFound, rfl⟩ := CompilationUnit.exists_path_of_reachable isReachable
  obtain ⟨middle, isMiddle, form, _⟩ :=
    CompilationUnit.at?_source next.analyze_mirrors renumbered isFound isParam
  rw [form.typeParams] at isParam
  obtain ⟨place, isPlace, sameNode, _⟩ :=
    CompilationUnit.at?_source drops.mirrored written isMiddle isParam
  rw [sameNode.typeParams] at isParam
  exact mem_flatMap.mpr ⟨place.node, (CompilationUnit.at?_holds isPlace).reachable, isParam⟩

theorem signature : tree.analyze.tree.unit.types.map TypeDecl.signature =
    next.analyze.tree.unit.types.map TypeDecl.signature := by
  rw [next.analyze_signature, drops.unit]
  exact (rebuildTypes_signature .pureValue _ 0 tree.analyze.tree.unit.types).symm

theorem alike : tree.analyze.view.types.Alike next.analyze.view.types := by
  have ofDecls (types : List TypeDecl) : types.flatMap TypeDecl.allTypeParams =
      (types.map TypeDecl.signature).flatMap TypeDecl.allTypeParams := by
    rw [flatMap_map]
    exact congrArg types.flatMap (funext fun decl => decl.allTypeParams_signature.symm)
  refine Universe.ofUnit_alike drops.signature fun name => ?_
  change name ∈ tree.analyze.tree.unit.types.flatMap TypeDecl.allTypeParams ++
      tree.analyze.tree.vocabulary.typeParams ↔
    name ∈ next.analyze.tree.unit.types.flatMap TypeDecl.allTypeParams ++
      (next.vocabulary.typeParams ++ next.analyze.tree.unit.vocabulary.typeParams)
  rw [ofDecls tree.analyze.tree.unit.types, drops.signature, ← ofDecls, drops.typeParams]
  have known : name ∈ next.analyze.tree.unit.vocabulary.typeParams →
      name ∈ tree.analyze.tree.vocabulary.typeParams :=
    fun isParam => mem_append_right _ (drops.typeParams_source isParam)
  simp only [mem_append]
  tauto

theorem decl_found {owner : Owner} (isDecl : tree.analyze.tree.unit.declAt? owner = some decl) :
    ∃ found, next.analyze.tree.unit.declAt? owner = some found ∧
      declaredType next.analyze.view.types found = declaredType tree.analyze.view.types decl := by
  have ofIndex {index : Nat} (isType : tree.analyze.tree.unit.types[index]? = some decl) :
      ∃ found, next.analyze.tree.unit.types[index]? = some found ∧
        declaredType next.analyze.view.types found = declaredType tree.analyze.view.types decl := by
    have same := congrArg (·[index]?) drops.signature
    rw [getElem?_map, isType, getElem?_map] at same
    obtain ⟨found, isFound, sameSignature⟩ := Option.map_eq_some_iff.mp same.symm
    have sameParams : found.typeParams = decl.typeParams :=
      congrArg (fun decl => decl.typeParams) sameSignature
    have sameName : found.name = decl.name := congrArg (fun decl => decl.name) sameSignature
    refine ⟨found, isFound, ?_⟩
    rw [declaredType, declaredType, sameParams, sameName, drops.alike.names.lookup?,
      drops.alike.names.genericDecl?]
  cases owner with
  | member type index => exact ofIndex isDecl
  | header type => exact ofIndex isDecl
  | detached => cases isDecl

theorem memberOn (decl found : TypeDecl) (type : Ty) (name : String) (arity : Option Nat)
    (staticOnly : Bool) : (next.analyze.within found).memberOn type name arity staticOnly =
      (tree.analyze.within decl).memberOn type name arity staticOnly := by
  refine InferEnv.memberOn_congr ?_
  have ofView (tree : Tree) (decl : TypeDecl) :
      (tree.analyze.within decl).types = tree.analyze.view.types := rfl
  rw [ofView, ofView]
  exact (drops.alike.candidates type name).symm

theorem hasStatic : next.analyze.tree.unit.hasStatic = false := by
  change next.unit.hasStatic = false
  rw [drops.unit, CompilationUnit.hasStatic, PassEnv.withoutImports]
  simp

end Tree.DropsImports

/-! ## What imported names mean afterwards -/

theorem Tree.no_imports {tree : Tree} (none : tree.analyze.tree.unit.hasStatic = false)
    {decl : TypeDecl} : (tree.analyze.within decl).imports = [] := by
  have noUsings : tree.analyze.tree.unit.usings.filter (·.isStatic) = [] :=
    filter_eq_nil_iff.mpr (any_eq_false.mp none)
  change (tree.analyze.tree.unit.usings.filter (·.isStatic)).filterMap _ = []
  rw [noUsings]
  rfl

/-- A name that stands in a declaration is resolved to what its imports bring in: its own
    type shows nothing under the name. -/
structure Analyzed.Imports (analyzed : Analyzed) (decl : TypeDecl) (name : String)
    (arity : Option Nat) (resolution : Resolution) : Prop where
  found : resolution.toList ≠ []
  isHidden : ((analyzed.within decl).memberOn (declaredType analyzed.view.types decl) name arity
    false).toList = []
  isImported : resolution = (analyzed.within decl).imported name arity

/-- What the pass writes names after: a type that a directive names and that is not in
    reach of the declaration. -/
def Analyzed.WritesImport (analyzed : Analyzed) (decl : TypeDecl) (container : Ty) : Prop :=
  container ∈ Pass.staticImports analyzed.view.types analyzed.tree.unit.usings ∧
    ¬ analyzed.view.types.InReach decl container

section Imported

variable {tree next : Tree} {path : List Nat} {place : Place} {mark : Mark} {name : String}
  {decl : TypeDecl}

theorem Tree.importReceiver?_of_means
    (isDecl : tree.analyze.tree.unit.declAt? place.site.owner = some decl) {container : Ty}
    (means : (tree.analyze.view.facts.get mark.id).resolution.Means container true)
    (writes : tree.analyze.WritesImport decl container) :
    ∃ inner, (tree.analyze.env .staticUsings).importReceiver? place.site mark =
      some ⟨inner, .typeRef (tree.analyze.view.types.names.syntaxOf container)⟩ := by
  obtain ⟨reference, taken, isContainer, isStatic⟩ := means.memberReference?
  have unreached : (tree.analyze.env .staticUsings).reaches place.site.owner container = false :=
    Bool.eq_false_iff.mpr fun reached =>
      writes.2 (((tree.analyze.env .staticUsings).reaches_iff isDecl).mp reached)
  unfold PassEnv.importReceiver? PassEnv.receiver?
  change ∃ inner, (Pass.memberReference? (tree.analyze.view.facts.get mark.id).resolution).bind _ = _
  rw [taken, Option.bind_some, isContainer, Option.bind_some, unreached, isStatic]
  have named : (Pass.staticImports (tree.analyze.env .staticUsings).view.types
      (tree.analyze.env .staticUsings).unit.usings).contains container = true :=
    contains_iff_mem.mpr writes.1
  refine ⟨{ span := mark.span }, if_pos ?_⟩
  dsimp only
  rw [isStatic, named]
  rfl

theorem Tree.means_of_importReceiver? (isPlace : tree.analyze.tree.unit.at? path = some place)
    (isName : place.node = .expr ⟨mark, .ident name⟩)
    (isDecl : tree.analyze.tree.unit.declAt? place.site.owner = some decl) {receiver : Expr}
    (isReceiver : (tree.analyze.env .staticUsings).importReceiver? place.site mark = some receiver) :
    ∃ container, (tree.analyze.view.facts.get mark.id).resolution.Means container true ∧
      tree.analyze.WritesImport decl container := by
  obtain ⟨reference, taken, isReceiver⟩ := Option.bind_eq_some_iff.mp isReceiver
  obtain ⟨container, isContainer, isReceiver⟩ := Option.bind_eq_some_iff.mp isReceiver
  obtain ⟨wanted, _⟩ := Option.ite_none_right_eq_some.mp isReceiver
  rw [Bool.and_eq_true, Bool.and_eq_true] at wanted
  obtain ⟨⟨isStatic, named⟩, unreached⟩ := wanted
  have means := tree.analyze_means isPlace isName taken isContainer
  rw [isStatic] at means
  refine ⟨container, means, contains_iff_mem.mp named, fun inReach => ?_⟩
  rw [((tree.analyze.env .staticUsings).reaches_iff isDecl).mpr inReach] at unreached
  cases unreached

theorem Tree.isMet_of_known (isPlace : tree.analyze.tree.unit.at? path = some place)
    (isDecl : tree.analyze.tree.unit.declAt? place.site.owner = some decl)
    (known : (tree.analyze.view.facts.get place.node.id).resolution ≠ {}) : place.isMet = true := by
  obtain ⟨id, isId⟩ := tree.analyze_id isPlace
  rw [isId] at known
  obtain unknown | ⟨met, _⟩ := CompilationUnit.resolution_held (tree.analyze_single id) isDecl isId
    (CompilationUnit.at?_holds isPlace)
  · exact absurd unknown known
  · obtain ⟨route, other, isOther, _, sameNode, isMet⟩ := met.exists_path
    have sameId : other.node.id = some id := sameNode ▸ isId
    cases CompilationUnit.at?_unique (tree.analyze_single id) isPlace isId isOther sameId
    cases isPlace.symm.trans isOther
    exact isMet

/-- What a path leads to is called with as many arguments as what it led to. -/
theorem Place.Alike.sameArity {found : Place} (alike : place.Alike found)
    (isPlace : tree.analyze.tree.unit.at? path = some place)
    (isFound : next.analyze.tree.unit.at? path = some found) :
    found.site.arity? found.node.id = place.site.arity? place.node.id := by
  have ofPlace {tree : Tree} {place : Place} (isPlace : tree.analyze.tree.unit.at? path = some place) :
      place.arity = place.site.arity? place.node.id :=
    CompilationUnit.at?_arity tree.analyze_single tree.analyze_numbered isPlace
  rw [← ofPlace isFound, ← ofPlace isPlace, alike.arity]

end Imported

section Kept

variable {tree next : Tree} {path : List Nat} {place found : Place} {mark after : Mark}
  {name : String} {decl : TypeDecl} (drops : tree.DropsImports next)
  (isPlace : tree.analyze.tree.unit.at? path = some place)
  (isName : place.node = .expr ⟨mark, .ident name⟩)
  (isDecl : tree.analyze.tree.unit.declAt? place.site.owner = some decl)
  (imports : tree.analyze.Imports decl name (place.site.arity? mark.id)
    (tree.analyze.view.facts.get mark.id).resolution)
  (isFound : next.analyze.tree.unit.at? path = some found) (alike : place.Alike found)

include drops isPlace isName isDecl imports isFound alike

theorem Tree.DropsImports.keeps {container : Ty} {inner : Mark}
    (means : (tree.analyze.view.facts.get mark.id).resolution.Means container true)
    (isWritten : found.node = .expr ⟨after,
      .member ⟨inner, .typeRef (tree.analyze.view.types.names.syntaxOf container)⟩ name⟩)
    (isBound : tree.analyze.view.types.names.bind
      (tree.analyze.view.types.names.syntaxOf container) = container) (reference : Reference) :
    reference ∈ (next.analyze.view.facts.get after.id).resolution.toList ↔
      reference ∈ (tree.analyze.view.facts.get mark.id).resolution.toList := by
  obtain ⟨decl', isDecl', _⟩ := drops.decl_found isDecl
  rw [← alike.owner] at isDecl'
  have isMet : found.isMet = true := by
    rw [alike.isMet]
    refine Tree.isMet_of_known isPlace isDecl fun unknown => imports.found ?_
    rw [isName] at unknown
    change (tree.analyze.view.facts.get mark.id).resolution = {} at unknown
    rw [unknown]
    rfl
  obtain ⟨id, isId⟩ := next.analyze_id isFound
  have isKnown : id < next.analyze.nextId := by
    obtain ⟨isIn, root, isRoot, held, _⟩ := (CompilationUnit.at?_holds isFound).root isDecl'
    have stands := Nat.lt_of_lt_of_le (InferState.tally_pos isRoot held isId)
      (CompilationUnit.tally_allRoots_le isIn)
    have counted := next.unit.tally_number id
    change tally id next.analyze.tree.unit.roots ≤
      if id < next.analyze.nextId then 1 else 0 at counted
    split at counted <;> omega
  have finds : (next.analyze.within decl').Finds found.site found.node
      (next.analyze.view.facts.get (some id)).resolution :=
    CompilationUnit.resolution_met (next.analyze_single id) isDecl' isId
      (CompilationUnit.at?_meets isFound isMet) isKnown
  have sameArity := alike.sameArity isPlace isFound
  rw [isWritten] at finds isId sameArity
  rw [isName] at sameArity
  change found.site.arity? after.id = place.site.arity? mark.id at sameArity
  have isMark : after.id = some id := isId
  have bound : next.analyze.view.types.names.bind
      (tree.analyze.view.types.names.syntaxOf container) = container := by
    rw [← drops.alike.names.bind]
    exact isBound
  have isImported := imports.isImported
  rw [isImported] at means
  have isShown : (next.analyze.view.facts.get after.id).resolution =
      (tree.analyze.within decl).memberOn container name (place.site.arity? mark.id) true := by
    rw [isMark]
    refine finds.trans ?_
    change (if (next.analyze.view.types.names.bind _).isUnknown = true then _ else
      (next.analyze.within decl').memberOn (next.analyze.view.types.names.bind _) name
        (found.site.arity? after.id) true) = _
    rw [bound, InferEnv.known_of_imported means, if_neg Bool.false_ne_true]
    rw [sameArity]
    exact drops.memberOn decl decl' container name _ true
  rw [isShown, isImported]
  exact InferEnv.mem_imported means

theorem Tree.DropsImports.loses (stays : found.node = .expr ⟨after, .ident name⟩)
    (reference : Reference)
    (isMeant : reference ∈ (next.analyze.view.facts.get after.id).resolution.toList) :
    reference.kind.isTypeMember = false := by
  obtain ⟨decl', isDecl', sameType⟩ := drops.decl_found isDecl
  rw [← alike.owner] at isDecl'
  have sameArity := alike.sameArity isPlace isFound
  rw [stays, isName] at sameArity
  change found.site.arity? after.id = place.site.arity? mark.id at sameArity
  obtain unknown | source := next.analyze_source isFound stays isDecl'
  · rw [unknown] at isMeant
    cases isMeant
  · cases source with
    | elsewhere areOthers => exact areOthers reference isMeant
    | own isShown =>
      have same : (next.analyze.within decl').memberOn (declaredType next.analyze.view.types decl')
          name (found.site.arity? after.id) false =
            (tree.analyze.within decl).memberOn (declaredType tree.analyze.view.types decl) name
              (place.site.arity? mark.id) false := by
        rw [sameType, sameArity]
        exact drops.memberOn decl decl' _ name _ false
      rw [isShown, same, imports.isHidden] at isMeant
      cases isMeant
    | imported _ isImported =>
      rw [isImported, InferEnv.imported, Tree.no_imports drops.hasStatic] at isMeant
      cases isMeant

end Kept

/-- The pass that drops static imports always succeeds.  Every bare name that is resolved
    through an import keeps its place.  If it means members of one type that a directive
    names, and that is not in reach, it is written out after the type, and is resolved to the
    same members as before, provided that the type is found under what is written.  It is,
    unless it is a primitive type and a declaration has the name that it is written with.
    Otherwise the name stays bare, and is not resolved to any member any more. -/
theorem staticUsings_keeps_named (lowering : Lowering) :
    let before := lowering.tree.analyze
    let names := before.view.types.names
    ∃ next, Lowering.runOn before .staticUsings lowering = .ok next ∧
      let after := next.tree.analyze
      after.tree.unit.hasStatic = false ∧
      (∀ path place mark name decl, before.tree.unit.at? path = some place →
        place.node = .expr ⟨mark, .ident name⟩ →
        before.tree.unit.declAt? place.site.owner = some decl →
        before.Imports decl name (place.site.arity? mark.id)
          (before.view.resolution ⟨mark, .ident name⟩) →
        ∃ found node, after.tree.unit.at? path = some found ∧ found.node = .expr node ∧
          (∀ container, (before.view.resolution ⟨mark, .ident name⟩).Means container true →
            before.WritesImport decl container →
            (∃ inner, node.kind = .member ⟨inner, .typeRef (names.syntaxOf container)⟩ name) ∧
            (names.bind (names.syntaxOf container) = container → ∀ reference,
              reference ∈ (after.view.resolution node).toList ↔
                reference ∈ (before.view.resolution ⟨mark, .ident name⟩).toList)) ∧
          ((¬ ∃ container, (before.view.resolution ⟨mark, .ident name⟩).Means container true ∧
              before.WritesImport decl container) →
            node.kind = .ident name ∧ ∀ reference ∈ (after.view.resolution node).toList,
              reference.kind.isTypeMember = false)) ∧
      ∀ container ∈ Pass.staticImports before.view.types before.tree.unit.usings,
        (∀ kind, container = .prim kind → names.plainDecl? kind.name = none) →
          names.bind (names.syntaxOf container) = container := by
  intro before names
  obtain ⟨next, ran, outcome⟩ := lowering.staticUsings_run
  refine ⟨next, ran, ?_⟩
  have reads (container : Ty)
      (isImport : container ∈ Pass.staticImports before.view.types before.tree.unit.usings)
      (isShown : ∀ kind, container = .prim kind → names.plainDecl? kind.name = none) :
      names.bind (names.syntaxOf container) = container := by
    obtain ⟨_, _, found⟩ := List.mem_filterMap.mp isImport
    exact TypeNames.bind_syntaxOf_found found isShown
  obtain drops | ⟨sameTree, none⟩ := outcome
  · refine ⟨drops.hasStatic, ?_, reads⟩
    intro path place mark name decl isPlace isName isDecl imports
    obtain ⟨found, isFound, alike, stays, written⟩ := drops.at?_found isPlace isName
    by_cases isWritten : ∃ container, (before.view.facts.get mark.id).resolution.Means container true ∧
        before.WritesImport decl container
    · obtain ⟨first, meansFirst, writesFirst⟩ := isWritten
      obtain ⟨inner, isReceiver⟩ := Tree.importReceiver?_of_means isDecl meansFirst writesFirst
      obtain ⟨after, within, isNode⟩ := written inner _ isReceiver
      refine ⟨found, _, isFound, isNode, fun container means _ => ?_, fun none =>
        absurd ⟨first, meansFirst, writesFirst⟩ none⟩
      obtain rfl := meansFirst.unique means
      exact ⟨⟨within, rfl⟩, drops.keeps isPlace isName isDecl imports isFound alike means isNode⟩
    · have isBare : (before.env .staticUsings).importReceiver? place.site mark = none := by
        cases isReceiver : (before.env .staticUsings).importReceiver? place.site mark with
        | none => rfl
        | some receiver =>
          exact absurd (Tree.means_of_importReceiver? isPlace isName isDecl isReceiver) isWritten
      obtain ⟨after, isNode⟩ := stays isBare
      refine ⟨found, _, isFound, isNode, fun container means writes =>
        absurd ⟨container, means, writes⟩ isWritten, fun _ => ⟨rfl, ?_⟩⟩
      exact drops.loses isPlace isName isDecl imports isFound alike isNode
  · refine ⟨by rw [sameTree]; exact none, ?_, reads⟩
    intro path place mark name decl _ _ _ imports
    refine absurd ?_ imports.found
    rw [imports.isImported, InferEnv.imported, Tree.no_imports none]
    rfl

def importingTree (imported : String) : Tree :=
  let span : Span := default
  let declare (name : String) (bases : List TypeSyntax) (members : List Member) : TypeDecl :=
    { name, kind := .classType, modifiers := [], typeParams := [], primary := none, bases
      baseArgs := none, members, span }
  { unit := { usings := [{ path := imported, isStatic := true, span }], namespaceName := none, types := [
      declare "B" [] [⟨.field (.simple "int") "s" none, [.isStatic], span⟩],
      declare "D" [.simple "B"] [],
      declare "P" [] [⟨.method "Get" [] [] (.simple "int")
        (.block (span.block [span.ret (span.ident "s")])), [], span⟩]] } }

theorem importingTree_means {imported : String} (isImport : imported = "B" ∨ imported = "D") :
    ((importingTree imported).analyze.view.facts.get (some 0)).resolution =
      .ofList [{ name := "s", kind := .field, type := .int, container := some (.declared 0)
                 isStatic := true }] := by
  obtain rfl | rfl := isImport <;> rfl

theorem importingTree_imports {imported : String} (isImport : imported = "B" ∨ imported = "D")
    (isDecl : (importingTree imported).analyze.tree.unit.types[2]? = some decl) :
    (importingTree imported).analyze.Imports decl "s" none
      ((importingTree imported).analyze.view.facts.get (some 0)).resolution := by
  rw [importingTree_means isImport]
  obtain rfl | rfl := isImport <;> cases isDecl <;>
    exact { found := cons_ne_nil _ _, isHidden := rfl, isImported := rfl }

theorem importingTree_unreached
    (isDecl : (importingTree "B").analyze.tree.unit.types[2]? = some decl) :
    ¬ (importingTree "B").analyze.view.types.InReach decl (.declared 0) := by
  rintro ⟨type, isType, base, isBase, same⟩
  cases isDecl
  cases isType
  have isChain : (importingTree "B").analyze.view.types.chain false Universe.chainLimit (.declared 2) =
      [.declared 2, .object] := rfl
  obtain rfl | isBase := mem_cons.mp (isChain ▸ isBase)
  · obtain same | same := same
    · cases same
    · exact absurd same (show "P" ≠ "B" by decide)
  · obtain rfl := mem_singleton.mp isBase
    obtain same | same := same
    · cases same
    · exact absurd same (show "object" ≠ "B" by decide)

/-- The member of a type that is imported is written out and means the same.  Imported by
    way of a type that derives from its own, it means nothing in the end. -/
theorem staticUsings_keeps_named_base :
    (∃ next found node, Lowering.runOn (importingTree "B").analyze .staticUsings
        { tree := importingTree "B" } = .ok next ∧
      next.tree.analyze.tree.unit.at? [0, 0, 0] = some found ∧ found.node = .expr node ∧
      (∃ inner, node.kind = .member ⟨inner, .typeRef (.simple "B")⟩ "s") ∧
      ∀ reference, reference ∈ (next.tree.analyze.view.resolution node).toList ↔ reference ∈
        ((importingTree "B").analyze.view.facts.get (some 0)).resolution.toList) ∧
    ∃ next found node, Lowering.runOn (importingTree "D").analyze .staticUsings
        { tree := importingTree "D" } = .ok next ∧
      next.tree.analyze.tree.unit.at? [0, 0, 0] = some found ∧ found.node = .expr node ∧
      node.kind = .ident "s" ∧ ∀ reference ∈ (next.tree.analyze.view.resolution node).toList,
        reference.kind.isTypeMember = false := by
  constructor
  · obtain ⟨next, ran, _, kept, reads⟩ := staticUsings_keeps_named { tree := importingTree "B" }
    obtain ⟨found, node, isFound, isNode, written, _⟩ := kept [0, 0, 0] _ ⟨default, some 0⟩ "s" _
      rfl rfl rfl (importingTree_imports (.inl rfl) rfl)
    have means : ((importingTree "B").analyze.view.facts.get (some 0)).resolution.Means
        (.declared 0) true := by
      rw [importingTree_means (.inl rfl)]
      exact ⟨List.cons_ne_nil _ _, List.forall_mem_singleton.mpr ⟨rfl, rfl, rfl⟩⟩
    have isNamed : .declared 0 ∈ Pass.staticImports (importingTree "B").analyze.view.types
        (importingTree "B").analyze.tree.unit.usings := List.mem_singleton.mpr rfl
    obtain ⟨isMember, same⟩ := written _ means ⟨isNamed, importingTree_unreached rfl⟩
    exact ⟨next, found, node, ran, isFound, isNode, isMember, same (reads _ isNamed nofun)⟩
  · obtain ⟨next, ran, _, kept, _⟩ := staticUsings_keeps_named { tree := importingTree "D" }
    obtain ⟨found, node, isFound, isNode, _, stays⟩ := kept [0, 0, 0] _ ⟨default, some 0⟩ "s" _
      rfl rfl rfl (importingTree_imports (.inr rfl) rfl)
    refine ⟨next, found, node, ran, isFound, isNode, stays ?_⟩
    rintro ⟨container, means, isNamed, _⟩
    change ((importingTree "D").analyze.view.facts.get (some 0)).resolution.Means container true at means
    rw [importingTree_means (.inr rfl)] at means
    obtain rfl := Option.some.inj (means.members _ List.mem_cons_self).2.1
    cases List.mem_singleton.mp isNamed

end Unsugar
