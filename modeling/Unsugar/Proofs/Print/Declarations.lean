import Unsugar.Proofs.Print.Rendering
import Unsugar.Proofs.Lower.LoweredUnits

open List

namespace Unsugar

open Conditionals Node

/-! # Printed declarations

The text of a unit is read as the steps through the unit.
-/

variable {body : Option Body} {typeName : String} {steps : List Step}

/-- The names that are written in a member outside its nodes. -/
def MemberKind.words : MemberKind → List String
  | .field type name _ | .property type name _ _ _ => name :: type.words
  | .method name typeParams params ret _ => name :: typeParams ++ paramWords params ++ ret.words
  | .ctor params _ _ => paramWords params
  | .operator _ params ret _ => paramWords params ++ ret.words

def TypeDecl.words (decl : TypeDecl) : List String :=
  decl.name :: decl.typeParams ++ paramWords (decl.primary.getD []) ++
    TypeSyntax.wordsAll decl.bases ++ decl.members.flatMap (·.kind.words)

def CompilationUnit.words (unit : CompilationUnit) : List String :=
  unit.usings.map (·.path) ++ unit.namespaceName.toList ++ unit.types.flatMap TypeDecl.words

/-- Everywhere in a unit, names are plain, and arguments for a base have a base. -/
structure CompilationUnit.IsSpelled (unit : CompilationUnit) : Prop where
  plain : ∀ word ∈ unit.words, isPlain word = true
  nodesPlain : ∀ inner ∈ unit.reachable, ∀ word ∈ inner.words, isPlain word = true
  hasBase : ∀ decl ∈ unit.types, decl.bases = [] → decl.baseArgs = none

/-! ## Members -/

theorem Conditionals.Reads.joined {follows ends : Bool} {texts : List String}
    (fits : (ends || follows) = true) (empty : Conditionals.Reads follows ends "" [])
    (each : ∀ text ∈ texts, Conditionals.Reads follows ends text []) :
    Conditionals.Reads follows ends (String.join texts) [] := by
  induction texts with
  | nil => exact empty
  | cons text rest ih =>
    obtain ⟨first, others⟩ := forall_mem_cons.1 each
    rw [String.join_cons]
    exact first.append (ih others) fits

theorem renderModifiers_reads (modifiers : List Modifier) :
    Conditionals.Reads false true (renderModifiers modifiers) [] := by
  unfold renderModifiers
  refine Conditionals.Reads.joined rfl .empty_apart fun text isText => ?_
  obtain ⟨⟨modifier, keyword⟩, isEntry, isKeyword⟩ := mem_filterMap.1 isText
  have plain : ∀ entry ∈ Modifier.keywords, isPlain entry.2 = true := by decide
  obtain ⟨_, rfl⟩ : modifier ∈ modifiers ∧ keyword ++ " " = text := by simpa using isKeyword
  exact (Conditionals.Reads.plain (plain _ isEntry)).append .blank rfl

theorem renderParamList_reads {params : List Param} (depth : Nat)
    (plain : ∀ word ∈ paramWords params, isPlain word = true)
    (each : ∀ node ∈ ofParams params, node.IsRead) :
    Conditionals.Reads true true (renderParamList depth params)
      ((ofParams params).flatMap Node.steps) :=
  .enclosed .openParen (renderParams_listed depth plain each).commaList
    (closed_nodes (.ofParams params)) .paren

theorem renderShortAccessor_reads (depth : Nat) (keyword : String)
    (plain : isPlain keyword = true) (isShort : Body.isShort body = true)
    (each : ∀ node ∈ (body.map ofBody).getD [], node.IsRead) :
    Conditionals.Reads true false (renderShortAccessor depth keyword body) (Body.layout? body) := by
  match body with
  | none => exact .empty
  | some .none =>
    exact ((Conditionals.Reads.blank.append (.plain plain) rfl).append .semicolon rfl).unfinished
  | some (.expr value) =>
    have lead := Conditionals.Reads.blank.append (.plain plain) rfl
    exact ((lead.join .arrow ((each _ mem_cons_self).reads depth _)).append .semicolon
      rfl).unfinished.of_eq (by simp [Body.layout?, Body.layout])
  | some (.block body) => cases isShort

theorem renderLongAccessor_reads (depth : Nat) (keyword : String)
    (plain : isPlain keyword = true) (each : ∀ node ∈ (body.map ofBody).getD [], node.IsRead) :
    Conditionals.Reads false true (renderLongAccessor depth keyword body) (Body.layout? body) := by
  cases body with
  | none => exact .empty_apart
  | some body =>
    have lead := (Conditionals.Reads.indentText depth).append (.plain plain) rfl
    exact lead.append (Body.reads depth each) rfl

theorem renderAccessors_reads {getter setter : Option Body} {depth : Nat}
    (ofGetter : ∀ node ∈ (getter.map ofBody).getD [], node.IsRead)
    (ofSetter : ∀ node ∈ (setter.map ofBody).getD [], node.IsRead) :
    Conditionals.Reads true true (renderAccessors depth getter setter)
      (Body.layout? getter ++ Body.layout? setter) := by
  have closed : Closed (Body.layout? getter ++ Body.layout? setter) :=
    ((Body.accounts? getter).append (Body.accounts? setter)).closed
  unfold renderAccessors
  split
  case h_1 value =>
    exact ((Conditionals.Reads.arrow.append ((ofGetter _ mem_cons_self).reads depth _)
      rfl).append .semicolon rfl).of_eq (by simp [Body.layout?, Body.layout])
  case h_2 =>
    split
    case isTrue areShort =>
      obtain ⟨getterShort, setterShort⟩ := (Bool.and_eq_true _ _).mp areShort
      have opening : Conditionals.Reads true true " \x7b" [.enter] := .gap rfl rfl rfl
      have opened := (opening.append
        (renderShortAccessor_reads depth "get" rfl getterShort ofGetter) rfl).append
        (renderShortAccessor_reads depth "set" rfl setterShort ofSetter) rfl
      exact opened.closeSilently [] _ (by simp) closed .blankBrace
    case isFalse =>
      have lead := Conditionals.Reads.lineBreak.append (.indentText depth) rfl
      have opened := (((lead.append .openBrace rfl).append
        (renderLongAccessor_reads (depth + 1) "get" rfl ofGetter) rfl).append
        (renderLongAccessor_reads (depth + 1) "set" rfl ofSetter) rfl).append
        (.indentText depth) rfl
      exact opened.closeSilently [] _ (by simp) closed .brace

theorem MemberKind.text_reads (kind : MemberKind) (depth : Nat)
    (typePlain : isPlain typeName = true)
    (plain : ∀ word ∈ kind.words, isPlain word = true) (each : ∀ node ∈ kind.roots, node.IsRead) :
    Conditionals.Reads false true (kind.render depth typeName) kind.steps := by
  cases kind with
  | field type name init =>
    obtain ⟨namePlain, typePlain⟩ := forall_mem_cons.1 plain
    exact ((((type.reads typePlain).join .blank (.plain namePlain)).append
      (renderInit?_reads depth each) rfl).append .endLine rfl).of_eq (by simp [MemberKind.steps])
  | property type name getter setter init =>
    obtain ⟨namePlain, typePlain⟩ := forall_mem_cons.1 plain
    obtain ⟨ofAccessors, ofInit⟩ := forall_mem_append.1 each
    obtain ⟨ofGetter, ofSetter⟩ := forall_mem_append.1 ofAccessors
    have initialized : Conditionals.Reads true false
        (if init.isSome then renderInit? depth init ++ ";" else "")
        ((ofExpr? init).flatMap Node.steps) := by
      cases init with
      | none => exact .empty
      | some init =>
        exact (((renderInit?_reads depth ofInit).append .semicolon rfl).of_eq
          (append_nil _)).unfinished
    exact (((((type.reads typePlain).join .blank (.plain namePlain)).append
      (renderAccessors_reads ofGetter ofSetter) rfl).append initialized rfl).append .lineBreak
      rfl).of_eq (by simp [MemberKind.steps])
  | method name typeParams params ret body =>
    obtain ⟨ofParams, ofBody⟩ := forall_mem_append.1 each
    obtain ⟨headPlain, retPlain⟩ := forall_mem_append.1 plain
    obtain ⟨namesPlain, paramsPlain⟩ := forall_mem_append.1 headPlain
    obtain ⟨namePlain, typeParamsPlain⟩ := forall_mem_cons.1 namesPlain
    have head := ((ret.reads retPlain).join .blank (.plain namePlain)).append
      (.angleList typeParamsPlain) rfl
    exact (head.append (renderParamList_reads depth paramsPlain ofParams) rfl).append
      (Body.reads depth ofBody) rfl
  | ctor params initializer body =>
    obtain ⟨ofHead, ofBody⟩ := forall_mem_append.1 each
    obtain ⟨ofParams, ofArgs⟩ := forall_mem_append.1 ofHead
    have named := Conditionals.Reads.plain typePlain
    have head := named.append (renderParamList_reads depth plain ofParams) rfl
    have toBase : Conditionals.Reads true true " : base(" [.enter] := .gap rfl rfl rfl
    have toThis : Conditionals.Reads true true " : this(" [.enter] := .gap rfl rfl rfl
    cases initializer with
    | none =>
      exact ((head.append .empty rfl).append (Body.reads depth ofBody) rfl).of_eq
        (by simp [MemberKind.steps])
    | some initializer =>
      obtain ⟨target, args⟩ := initializer
      have listed := (renderExprs_listed depth ofArgs).commaList
      have closed := closed_nodes (.ofExprs args)
      cases target with
      | base =>
        exact ((head.append (toBase.enclosed listed closed .paren) rfl).append
          (Body.reads depth ofBody) rfl).of_eq (by simp [MemberKind.steps])
      | this =>
        exact ((head.append (toThis.enclosed listed closed .paren) rfl).append
          (Body.reads depth ofBody) rfl).of_eq (by simp [MemberKind.steps])
  | operator op params ret body =>
    obtain ⟨ofParams, ofBody⟩ := forall_mem_append.1 each
    obtain ⟨paramsPlain, retPlain⟩ := forall_mem_append.1 plain
    have word : Conditionals.Reads true true " operator " [] := .gap rfl rfl rfl
    exact ((((ret.reads retPlain).append word rfl).append op.reads rfl).append
      (renderParamList_reads depth paramsPlain ofParams) rfl).append (Body.reads depth ofBody) rfl

/-! ## Types and units -/

theorem TypeSyntax.mem_wordsAll {type : TypeSyntax} {types : List TypeSyntax} {word : String}
    (isType : type ∈ types) (isWord : word ∈ type.words) : word ∈ wordsAll types := by
  induction types with
  | nil => cases isType
  | cons first rest ih =>
    rw [wordsAll, mem_append]
    cases isType with
    | head => exact .inl isWord
    | tail _ isRest => exact .inr (ih isRest)

theorem renderBases_reads {bases : List TypeSyntax} {baseArgs : Option (List Expr)} (depth : Nat)
    (plain : ∀ word ∈ TypeSyntax.wordsAll bases, isPlain word = true)
    (each : ∀ node ∈ (baseArgs.map ofExprs).getD [], node.IsRead)
    (hasBase : bases = [] → baseArgs = none) :
    Conditionals.Reads true false (renderBases depth baseArgs bases)
      (((baseArgs.map ofExprs).getD []).flatMap Node.steps) := by
  cases bases with
  | nil =>
    rw [hasBase rfl]
    exact .empty
  | cons first rest =>
    obtain ⟨firstPlain, restPlain⟩ := forall_mem_append.1 plain
    have colon : Conditionals.Reads true true " : " [] := .gap rfl rfl rfl
    have comma : Conditionals.Reads true true ", " [] := .gap rfl rfl rfl
    have others : Conditionals.Reads true false
            (String.join (rest.map fun base => ", " ++ base.render)) [] := by
      refine Conditionals.Reads.joined rfl .empty fun text isText => ?_
      obtain ⟨base, isBase, rfl⟩ := mem_map.1 isText
      exact comma.append (base.reads fun word isWord =>
        restPlain word (TypeSyntax.mem_wordsAll isBase isWord)) rfl
    have head := colon.append (first.reads firstPlain) rfl
    cases baseArgs with
    | none => exact (head.append .empty rfl).append others rfl
    | some args =>
      have listed := (renderExprs_listed depth each).commaList
      have called :=
        Conditionals.Reads.enclosed .openParen listed (closed_nodes (.ofExprs args)) .paren
      exact ((head.append called rfl).append others rfl).of_eq (by simp)

theorem TypeDeclKind.reads (kind : TypeDeclKind) :
    Conditionals.Reads false false kind.keyword [] := by
  cases kind <;> exact .plain rfl

theorem members_listed {members : List Member} (typePlain : isPlain typeName = true)
    (plain : ∀ word ∈ members.flatMap (·.kind.words), isPlain word = true)
    (each : ∀ node ∈ memberRoots members, node.IsRead) :
    Listed (members.map (Member.render 1 typeName)) (members.flatMap (·.kind.steps)) := by
  induction members with
  | nil => exact .nil
  | cons member rest ih =>
    obtain ⟨ownPlain, restPlain⟩ := forall_mem_append.1 plain
    obtain ⟨ownEach, restEach⟩ := forall_mem_append.1 each
    have lead := Conditionals.Reads.indentText 1
    have own := (lead.append (renderModifiers_reads member.modifiers) rfl).append
      (member.kind.text_reads 1 typePlain ownPlain ownEach) rfl
    exact .cons own.unfinished (ih restPlain restEach)

theorem TypeDecl.reads (decl : TypeDecl) (plain : ∀ word ∈ decl.words, isPlain word = true)
    (each : ∀ node ∈ decl.headerRoots ++ memberRoots decl.members, node.IsRead)
    (hasBase : decl.bases = [] → decl.baseArgs = none) :
    Conditionals.Reads false true decl.render decl.steps := by
  obtain ⟨headerPlain, membersPlain⟩ := forall_mem_append.1 plain
  obtain ⟨namesPlain, basesPlain⟩ := forall_mem_append.1 headerPlain
  obtain ⟨ownPlain, primaryPlain⟩ := forall_mem_append.1 namesPlain
  obtain ⟨namePlain, typeParamsPlain⟩ := forall_mem_cons.1 ownPlain
  obtain ⟨ofHeader, ofMembers⟩ := forall_mem_append.1 each
  obtain ⟨ofPrimary, ofArgs⟩ := forall_mem_append.1 ofHeader
  have named := (((renderModifiers_reads decl.modifiers).append decl.kind.reads rfl).join .blank
    (.plain namePlain)).append (.angleList typeParamsPlain) rfl
  have primary : Conditionals.Reads true false ((decl.primary.map (renderParamList 0)).getD "")
      (((decl.primary.map ofParams).getD []).flatMap Node.steps) := by
    cases isPrimary : decl.primary with
    | none => exact .empty
    | some params =>
      rw [isPrimary] at primaryPlain ofPrimary
      exact (renderParamList_reads 0 primaryPlain ofPrimary).unfinished
  have opening : Conditionals.Reads true true "\n\x7b\n" [.enter] := .gap rfl rfl rfl
  have header := (named.append primary rfl).append
    (renderBases_reads 0 basesPlain ofArgs hasBase) rfl
  have opened := (header.append opening rfl).append
    ((members_listed namePlain membersPlain ofMembers).separated Conditionals.Reads.lineBreak) rfl
  have members := accounts_concat decl.members fun member => member.kind.accounts
  exact opened.close (decl.headerRoots.flatMap Node.steps) (decl.members.flatMap (·.kind.steps))
    (by simp [TypeDecl.headerRoots]) members.balanced .braceLine

theorem types_listed {types : List TypeDecl}
    (plain : ∀ word ∈ types.flatMap TypeDecl.words, isPlain word = true)
    (each : ∀ node ∈ types.flatMap fun decl => decl.headerRoots ++ memberRoots decl.members,
      node.IsRead)
    (hasBase : ∀ decl ∈ types, decl.bases = [] → decl.baseArgs = none) :
    Listed (types.map TypeDecl.render) (types.flatMap TypeDecl.steps) := by
  induction types with
  | nil => exact .nil
  | cons decl rest ih =>
    obtain ⟨ownPlain, restPlain⟩ := forall_mem_append.1 plain
    obtain ⟨ownEach, restEach⟩ := forall_mem_append.1 each
    obtain ⟨ownBase, restBase⟩ := forall_mem_cons.1 hasBase
    exact .cons (decl.reads ownPlain ownEach ownBase).unfinished (ih restPlain restEach restBase)

theorem Using.reads (directive : Using) (plain : isPlain directive.path = true) :
    Conditionals.Reads false true directive.render [] := by
  have word : Conditionals.Reads false true
      (if directive.isStatic then "using static " else "using ") [] := by
    split <;> exact .lead rfl rfl
  exact (word.append (.plain plain) rfl).append .endLine rfl

theorem CompilationUnit.reads (unit : CompilationUnit) (spelled : unit.IsSpelled) :
    Conditionals.Reads false false unit.text unit.steps := by
  obtain ⟨headPlain, typesPlain⟩ := forall_mem_append.1 spelled.plain
  obtain ⟨usingsPlain, namespacePlain⟩ := forall_mem_append.1 headPlain
  have each : ∀ node ∈ unit.roots, node.IsRead := fun root isRoot =>
    root.isRead fun inner isInner => spelled.nodesPlain inner (by
      rw [unit.reachable_eq]
      exact mem_flatMap.2 ⟨root, isRoot, isInner⟩)
  have usings : Conditionals.Reads false true (String.join (unit.usings.map Using.render)) [] := by
    refine Conditionals.Reads.joined rfl .empty_apart fun text isText => ?_
    obtain ⟨directive, isDirective, rfl⟩ := mem_map.1 isText
    exact directive.reads (usingsPlain _ (mem_map_of_mem isDirective))
  have gap : Conditionals.Reads false true (if unit.usings.isEmpty then "" else "\n") [] := by
    split
    · exact .empty_apart
    · exact Conditionals.Reads.lineBreak.apart
  have lead := usings.append gap rfl
  refine (lead.append (show Conditionals.Reads false true _ [] from ?_) rfl).append
    ((types_listed typesPlain each spelled.hasBase).separated Conditionals.Reads.lineBreak) rfl
  split
  · exact .empty_apart
  · next name isNamed =>
      have word : Conditionals.Reads false true "namespace " [] := .lead rfl rfl
      have semicolon : Conditionals.Reads true true ";\n\n" [] := .gap rfl rfl rfl
      have isPlain := namespacePlain name (by simp [isNamed])
      exact (word.append (.plain isPlain) rfl).append semicolon rfl

/-! ## Which texts keep their `else`

The text of a tree gives every `else` to the statement that has it in the tree
exactly if nowhere the first branch of an `if` with `else` ends with an `if`
without one.
-/

theorem Conditionals.Accounts.owners_eq_iff {waiting : Nat} {isSafe : Prop}
    (accounts : Accounts steps waiting isSafe) :
    (Reader.start.walk steps).owners = ownersOf steps ↔ isSafe := by
  obtain ⟨count, left, read, own, reading, owning, facts⟩ := accounts
  obtain ⟨_, _, _, right⟩ := facts 0
  rw [ownersOf, reading, owning]
  simpa [Reader.start] using right

theorem Conditionals.Reads.readOwners_eq {ends : Bool} {text : String}
    (reads : Conditionals.Reads false ends text steps) :
    readOwners text = (Reader.start.walk steps).owners := by
  rw [readOwners, (reads Reader.start rfl fun _ => rfl).1]
  rfl

theorem Stmt.text_reads {node : Stmt} (spelled : (stmt node).IsSpelled) :
    Conditionals.Reads false true node.text (stmt node).steps := by
  have isRead : node.IsRead := (stmt node).isRead spelled
  obtain ⟨mark, kind⟩ := node
  exact (Stmt.reads_lines 0 isRead).trimmed ((isRead.endsLine 0).append _)

theorem text_keeps_else_iff (node : Stmt) (unit : CompilationUnit) :
    ((stmt node).IsSpelled →
      (readOwners node.text = ownersOf (stmt node).steps ↔
        ∀ inner ∈ node.reachable true, inner.keepsElse = true)) ∧
    (unit.IsSpelled →
      (readOwners unit.text = ownersOf unit.steps ↔
        ∀ inner ∈ unit.reachable, inner.keepsElse = true)) := by
  constructor
  · intro spelled
    rw [(Stmt.text_reads spelled).readOwners_eq]
    exact (stmt node).accounted.owners_eq_iff
  · intro spelled
    rw [(unit.reads spelled).readOwners_eq]
    exact unit.accounts.owners_eq_iff

instance (node : Node) : Decidable node.IsSpelled :=
  inferInstanceAs (Decidable (∀ inner ∈ node.reachable true, ∀ word ∈ inner.words,
    isPlain word = true))

instance (unit : CompilationUnit) : Decidable unit.IsSpelled :=
  decidable_of_iff ((∀ word ∈ unit.words, isPlain word = true) ∧
    (∀ inner ∈ unit.reachable, ∀ word ∈ inner.words, isPlain word = true) ∧
    ∀ decl ∈ unit.types, decl.bases = [] → decl.baseArgs = none)
    ⟨fun ⟨plain, nodesPlain, hasBase⟩ => ⟨plain, nodesPlain, hasBase⟩,
      fun ⟨plain, nodesPlain, hasBase⟩ => ⟨plain, nodesPlain, hasBase⟩⟩

def nestedIf : Stmt :=
  let span : Span := default
  let run (name : String) := span.evalStmt (span.call (span.ident name) [])
  span.ifElse (span.ident "a") (span.ifElse (span.ident "b") (run "x") none) (some (run "y"))

def guardedCall : Tree :=
  let span : Span := default
  let guarded := span.expr (.conditionalAccess (span.ident "d")
    (span.call (span.expr (.memberBinding "Go")) []))
  let body := span.ifElse (span.ident "a") (span.evalStmt guarded)
    (some (span.evalStmt (span.methodCall (span.ident "e") "Go" [])))
  classTree none [⟨.method "Go" [] [] .void (.block (span.block [])), [], span⟩,
      ⟨.method "M" [] [.plain (.simple "bool") "a", .plain (.simple "C") "d",
        .plain (.simple "C") "e"] .void (.block (span.block [body])), [.isStatic], span⟩]

/-- Two statements side by side in the tree that read as one inside the other; and a
    unit whose text is right before it is lowered, and not after. -/
theorem else_moves_nestedIf_guardedCall :
    ((stmt nestedIf).IsSpelled ∧ ownersOf (stmt nestedIf).steps = [some 0] ∧
      readOwners nestedIf.text = [some 1] ∧
      ¬ ∀ inner ∈ nestedIf.reachable true, inner.keepsElse = true) ∧
    (guardedCall.unit.IsSpelled ∧
      readOwners guardedCall.unit.text = ownersOf guardedCall.unit.steps) ∧
    ∃ lowered, guardedCall.lower = .ok lowered ∧ lowered.unit.IsSpelled ∧
      ownersOf lowered.unit.steps = [some 0] ∧ readOwners lowered.unit.text = [some 1] ∧
      ¬ ∀ inner ∈ lowered.unit.reachable, inner.keepsElse = true := by
  refine ⟨?_, ?_, ?_⟩
  · have spelled : (stmt nestedIf).IsSpelled := by decide +kernel
    have own : ownersOf (stmt nestedIf).steps = [some 0] := by decide +kernel
    have read : readOwners nestedIf.text = [some 1] := by decide +kernel
    refine ⟨spelled, own, read, fun keeps => ?_⟩
    have same := ((text_keeps_else_iff nestedIf guardedCall.unit).1 spelled).2 keeps
    rw [own, read] at same
    cases same
  · have spelled : guardedCall.unit.IsSpelled := by decide +kernel
    exact ⟨spelled, ((text_keeps_else_iff nestedIf _).2 spelled).2 (by decide +kernel)⟩
  · have lowers : guardedCall.lowersTo (fun unit => unit.IsSpelled ∧
        ownersOf unit.steps = [some 0] ∧ readOwners unit.text = [some 1]) = true := by
      decide +kernel
    obtain ⟨lowered, ran, found⟩ := Tree.lower_of_lowersTo lowers
    obtain ⟨spelled, own, read⟩ := of_decide_eq_true found
    refine ⟨lowered, ran, spelled, own, read, fun keeps => ?_⟩
    have same := ((text_keeps_else_iff nestedIf lowered.unit).2 spelled).2 keeps
    rw [own, read] at same
    cases same

end Unsugar
