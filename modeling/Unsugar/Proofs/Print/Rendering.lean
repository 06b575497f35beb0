import Unsugar.Proofs.Print.Tokens
import Unsugar.Proofs.Print.Layout

open List

namespace Unsugar

open Conditionals Node

/-! # Printed nodes

The text of a node is read as the steps through the node.
-/

variable {nodes : List Node} {texts : List String} {alignment cond : Option Expr}
  {format designation : String} {properties : List PropertyPattern} {body : Stmt}
  {positional : List Pattern} {init : List Stmt} {step : List Expr}

/-- Everywhere in a subtree, names are plain. -/
def Node.IsSpelled (node : Node) : Prop :=
  ∀ inner ∈ node.reachable true, ∀ word ∈ inner.words, isPlain word = true

/-! ## Marks between nodes -/

namespace Conditionals

theorem closed_nodes (noneOpen : NoneOpen nodes) : Closed (nodes.flatMap Node.steps) :=
  (accounts_closed (fun node _ => node.accounted) noneOpen).closed

theorem closed_node {node : Node} (notOpen : node.openIfs = 0) : Closed node.steps :=
  (notOpen ▸ node.accounted : Accounts node.steps 0 node.IsClear).closed

theorem balanced_nodes : Balanced (nodes.flatMap Node.steps) :=
  have ⟨_, accounts, _⟩ := accounts_flatMap fun node (_ : node ∈ nodes) => node.accounted
  accounts.balanced

theorem Closes.paren : Closes true ")" := .evaluated rfl fun _ _ _ _ => rfl

theorem Closes.parenLine : Closes true ")\n" := .evaluated rfl fun _ _ _ _ => rfl

theorem Closes.square : Closes true "]" := .evaluated rfl fun _ _ _ _ => rfl

theorem Closes.brace : Closes true "\x7d" := .evaluated rfl fun _ _ _ _ => rfl

theorem Closes.blankBrace : Closes true " \x7d" := .evaluated rfl fun _ _ _ _ => rfl

theorem Closes.braceLine : Closes true "\x7d\n" := .evaluated rfl fun _ _ _ _ => rfl

namespace Reads

variable {follows ends : Bool} {text inner opening closing : String} {steps inside : List Step}

theorem openParen : Reads true true "(" [.enter] := .gap rfl rfl rfl

theorem openSquare : Reads true true "[" [.enter] := .gap rfl rfl rfl

theorem openBrace : Reads true true "\x7b\n" [.enter] := .gap rfl rfl rfl

theorem blank : Reads true true " " [] := .gap rfl rfl rfl

theorem point : Reads true true "." [] := .gap rfl rfl rfl

theorem points : Reads true true ".." [] := .gap rfl rfl rfl

theorem arrow : Reads true true " => " [] := .gap rfl rfl rfl

theorem semicolon : Reads true true ";" [] := .gap rfl rfl rfl

theorem endLine : Reads true true ";\n" [] := .gap rfl rfl rfl

theorem lineBreak : Reads true true "\n" [] := .gap rfl rfl rfl

theorem join (reads : Reads follows ends text steps) {mark : String} (marks : Reads true true mark [])
    {ends' : Bool} (others : Reads false ends' inner inside) :
    Reads follows ends' (text ++ mark ++ inner) (steps ++ inside) :=
  ((reads.append marks (Bool.or_true _)).append others rfl).of_eq (by simp)

theorem enclosed (opens : Reads follows true opening [.enter])
    (reads : Reads false ends inner inside) (closed : Closed inside) (closes : Closes true closing) :
    Reads follows true (opening ++ inner ++ closing) inside :=
  (opens.append reads rfl).closeSilently [] inside rfl closed closes

theorem enclosing (reads : Reads follows ends text steps) (opens : Reads true true opening [.enter])
    (listed : Listed texts inside) (closed : Closed inside)
    (closes : Closes true closing) :
    Reads follows true (text ++ opening ++ commaList texts ++ closing) (steps ++ inside) :=
  ((reads.append opens (Bool.or_true _)).append listed.commaList rfl).closeSilently steps inside
    (by simp) closed closes

end Reads

end Conditionals

/-! ## What is read from a node -/

structure Expr.IsRead (node : Expr) : Prop where
  reads (depth min : Nat) : Reads false false (node.render depth min) (expr node).steps
  unpaired (depth min : Nat) : isUnpaired (node.render depth min) = true

def Pattern.IsRead (node : Pattern) : Prop :=
  ∀ depth min, Reads false false (node.render depth min) (pattern node).steps

structure Stmt.IsRead (node : Stmt) : Prop where
  lines (depth : Nat) : Reads false true (node.kind.render depth) (stmt node).steps
  endsLine (depth : Nat) : EndsLine (node.kind.render depth)
  inlined (depth : Nat) : Reads false false (node.renderInline depth) (stmt node).steps
  braced (depth : Nat) : Reads true true (node.renderBraces depth) (grouped (stmt node).steps)

def Node.IsRead : Node → Prop
  | expr node => node.IsRead
  | stmt node => node.IsRead
  | pattern node => node.IsRead

/-! ## Lists -/

section Lists

variable (depth : Nat)

theorem renderExprs_listed {nodes : List Expr} (each : ∀ node ∈ ofExprs nodes, node.IsRead) :
    Listed (renderExprs depth nodes) ((ofExprs nodes).flatMap Node.steps) := by
  induction nodes with
  | nil => exact .nil
  | cons node rest ih =>
    obtain ⟨first, others⟩ := forall_mem_cons.1 each
    exact .cons (first.reads depth _) (ih others)

variable {value : Option Expr} {node : Stmt}

theorem renderExpr?_reads {min : Nat} (each : ∀ node ∈ ofExpr? value, node.IsRead) :
    Reads false false (renderExpr? depth min value) ((ofExpr? value).flatMap Node.steps) := by
  cases value with
  | none => exact Reads.empty.apart
  | some node => exact ((each _ mem_cons_self).reads depth min).of_eq (by simp [ofExpr?])

theorem led_reads {render : Option Expr → String} {lead : String} (leads : Reads true true lead [])
    (ofNone : render none = "")
    (ofSome : ∀ node, render (some node) = lead ++ node.render depth Level.lowest)
    (each : ∀ node ∈ ofExpr? value, node.IsRead) :
    Reads true false (render value) ((ofExpr? value).flatMap Node.steps) := by
  cases value with
  | none =>
    rw [ofNone]
    exact .empty
  | some node =>
    rw [ofSome]
    exact (leads.append ((each _ mem_cons_self).reads depth _) rfl).of_eq (by simp [ofExpr?])

section

variable (each : ∀ node ∈ ofExpr? value, node.IsRead)

include each

theorem renderInit?_reads :
    Reads true false (renderInit? depth value) ((ofExpr? value).flatMap Node.steps) :=
  led_reads depth (.gap rfl rfl rfl) rfl (fun _ => rfl) each

theorem renderGuard?_reads :
    Reads true false (renderGuard? depth value) ((ofExpr? value).flatMap Node.steps) :=
  led_reads depth (.gap rfl rfl rfl) rfl (fun _ => rfl) each

theorem renderOperand?_reads :
    Reads true false (renderOperand? depth value) ((ofExpr? value).flatMap Node.steps) :=
  led_reads depth .blank rfl (fun _ => rfl) each

end

theorem Passing.reads (passing : Passing) : Reads false true passing.render [] := by
  cases passing <;> exact .lead rfl rfl

theorem renderParams_listed {params : List Param}
    (plain : ∀ word ∈ paramWords params, isPlain word = true)
    (each : ∀ node ∈ ofParams params, node.IsRead) :
    Listed (renderParams depth params) ((ofParams params).flatMap Node.steps) := by
  induction params with
  | nil => exact .nil
  | cons param rest ih =>
    obtain ⟨type, name, passing, default⟩ := param
    obtain ⟨ownPlain, restPlain⟩ := forall_mem_append.1 plain
    obtain ⟨namePlain, typePlain⟩ := forall_mem_cons.1 ownPlain
    obtain ⟨ownEach, restEach⟩ := forall_mem_append.1 each
    have ofType : Reads false true (if type.isPresent then type.render ++ " " else "") [] := by
      split
      · exact (type.reads typePlain).append .blank rfl
      · exact .empty_apart
    have first := ((passing.reads.append ofType rfl).append (.plain namePlain) rfl).append
      (renderInit?_reads depth ownEach) rfl
    exact (Listed.cons first (ih restPlain restEach)).of_eq (by simp [ofParams])

theorem renderInits_listed {inits : List FieldInit}
    (plain : ∀ name ∈ inits.map (·.name), isPlain name = true)
    (each : ∀ node ∈ ofInits inits, node.IsRead) :
    Listed (renderInits depth inits) ((ofInits inits).flatMap Node.steps) := by
  induction inits with
  | nil => exact .nil
  | cons init rest ih =>
    obtain ⟨name, value⟩ := init
    obtain ⟨namePlain, restPlain⟩ := forall_mem_cons.1 plain
    obtain ⟨ofValue, restEach⟩ := forall_mem_cons.1 each
    have equals : Reads true true " = " [] := .gap rfl rfl rfl
    exact .cons (((Reads.plain namePlain).append equals rfl).append (ofValue.reads depth _) rfl)
      (ih restPlain restEach)

theorem renderArms_reads {arms : List Arm} (each : ∀ node ∈ arms.flatMap ofArm, node.IsRead) :
    Reads false true (renderArms depth arms) ((arms.flatMap ofArm).flatMap Node.steps) := by
  induction arms with
  | nil => exact .empty_apart
  | cons arm rest ih =>
    obtain ⟨span, tested, guard, result⟩ := arm
    obtain ⟨ownEach, restEach⟩ := forall_mem_append.1 each
    obtain ⟨ofTested, others⟩ := forall_mem_cons.1 ownEach
    obtain ⟨ofGuard, ofResult⟩ := forall_mem_append.1 others
    have comma : Reads true true ",\n" [] := .gap rfl rfl rfl
    have own := (((((Reads.indentText depth).append (ofTested depth 0) rfl).append
      (renderGuard?_reads depth ofGuard) rfl).append Reads.arrow rfl).append
      ((ofResult _ mem_cons_self).reads depth Level.lowest) rfl).append comma rfl
    exact (own.append (ih restEach) rfl).of_eq (by simp [ofArm])

def renderWidth? : Option Expr → String
  | none => ""
  | some width => "," ++ width.render depth Level.lowest

def renderHole (value : Expr) (alignment : Option Expr) (format : String) : String :=
  value.render depth (Level.conditional + 1) ++ renderWidth? depth alignment ++
    (if format.isEmpty then "" else ":" ++ format)

theorem renderParts_hole {value : Expr} {rest : List Part} :
    renderParts depth (.hole value alignment format :: rest) =
      "\x7b" ++ renderHole depth value alignment format ++ "\x7d" ++ renderParts depth rest := by
  cases alignment <;> simp [renderParts, renderHole, renderWidth?, String.append_assoc]

theorem renderHole_fills {value : Expr} (plain : isPlain format = true) (ofValue : value.IsRead)
    (ofAlignment : ∀ node ∈ ofExpr? alignment, node.IsRead) :
    Fills ("\x7b" ++ renderHole depth value alignment format ++ "\x7d")
      ((expr value :: ofExpr? alignment).flatMap Node.steps) := by
  have comma : Reads true true "," [] := .gap rfl rfl rfl
  have colon : Reads true true ":" [] := .gap rfl rfl rfl
  have aligned : Reads true false (renderWidth? depth alignment) _ :=
    led_reads depth comma rfl (fun _ => rfl) ofAlignment
  have formatted : Reads true false (if format.isEmpty then "" else ":" ++ format) [] := by
    split
    · exact .empty
    · exact colon.append (.plain plain) rfl
  have reads := ((ofValue.reads depth (Level.conditional + 1)).append aligned rfl).append formatted
    rfl
  refine .hole (reads.of_eq (append_nil _)) (closed_nodes (by simp [Node.openIfs])) ?_
  have ofValue := ofValue.unpaired depth (Level.conditional + 1)
  cases alignment <;> cases isEmpty : format.isEmpty <;>
    simp +decide [renderHole, renderWidth?, isUnpaired_append, ofValue, isEmpty]

theorem renderParts_fills {parts : List Part}
    (plain : ∀ word ∈ parts.flatMap Part.words, isPlain word = true)
    (each : ∀ node ∈ parts.flatMap ofPart, node.IsRead) :
    Fills (renderParts depth parts) ((parts.flatMap ofPart).flatMap Node.steps) := by
  induction parts with
  | nil => exact .empty
  | cons part rest ih =>
    obtain ⟨ownPlain, restPlain⟩ := forall_mem_append.1 plain
    obtain ⟨ownEach, restEach⟩ := forall_mem_append.1 each
    have goesOn := ih restPlain restEach
    cases part with
    | text text => exact (Fills.interpolationText text).append goesOn
    | hole value alignment format =>
      obtain ⟨ofValue, ofAlignment⟩ := forall_mem_cons.1 ownEach
      rw [renderParts_hole]
      exact ((renderHole_fills depth (ownPlain format mem_cons_self) ofValue
        ofAlignment).append goesOn).of_eq (by simp [ofPart])

theorem renderPatterns_listed {nodes : List Pattern} (each : ∀ node ∈ nodes.map pattern, node.IsRead) :
    Listed (renderPatterns depth nodes) ((nodes.map pattern).flatMap Node.steps) := by
  induction nodes with
  | nil => exact .nil
  | cons node rest ih =>
    obtain ⟨first, others⟩ := forall_mem_cons.1 each
    exact .cons (first depth 0) (ih others)

theorem renderProperties_listed (plain : ∀ word ∈ properties.flatMap (·.path), isPlain word = true)
    (each : ∀ node ∈ properties.map fun property => pattern property.pattern, node.IsRead) :
    Listed (renderProperties depth properties)
      ((properties.map fun property => pattern property.pattern).flatMap Node.steps) := by
  induction properties with
  | nil => exact .nil
  | cons property rest ih =>
    obtain ⟨path, inner⟩ := property
    obtain ⟨pathPlain, restPlain⟩ := forall_mem_append.1 plain
    obtain ⟨ofInner, restEach⟩ := forall_mem_cons.1 each
    have colon : Reads true true ": " [] := .gap rfl rfl rfl
    exact .cons ((((Listed.plain pathPlain).separated Reads.point).append colon rfl).append
      (ofInner depth 0) rfl) (ih restPlain restEach)

theorem Stmt.reads_lines (isRead : node.IsRead) :
    Reads false true (node.render depth) (stmt node).steps := by
  obtain ⟨mark, kind⟩ := node
  exact (Reads.indentText depth).append (isRead.lines depth) rfl

theorem Stmt.reads_embedded (isRead : node.IsRead) :
    Reads false true (node.renderEmbedded depth) (stmt node).steps := by
  obtain ⟨mark, kind⟩ := node
  exact (Reads.indentText _).append (isRead.lines _) rfl

theorem Stmt.reads_else (isRead : node.IsRead) :
    Reads false true (node.renderElse depth) (.meetElse :: (stmt node).steps) := by
  obtain ⟨mark, kind⟩ := node
  have sameLine : Reads false true "else " [.meetElse] := .lead rfl rfl
  have ownLine : Reads false true "else\n" [.meetElse] := .lead rfl rfl
  cases kind with
  | ifElse cond yes no => exact sameLine.append (isRead.lines depth) rfl
  | _ => exact (ownLine.append (.indentText _) rfl).append (isRead.lines _) rfl

theorem renderStmts_reads {nodes : List Stmt} (each : ∀ node ∈ ofStmts nodes, node.IsRead) :
    Reads false true (renderStmts depth nodes) ((ofStmts nodes).flatMap Node.steps) := by
  induction nodes with
  | nil => exact .empty_apart
  | cons node rest ih =>
    obtain ⟨first, others⟩ := forall_mem_cons.1 each
    exact (Stmt.reads_lines depth first).append (ih others) rfl

theorem renderInlines_listed {nodes : List Stmt} (each : ∀ node ∈ ofStmts nodes, node.IsRead) :
    Listed (renderInlines depth nodes) ((ofStmts nodes).flatMap Node.steps) := by
  induction nodes with
  | nil => exact .nil
  | cons node rest ih =>
    obtain ⟨first, others⟩ := forall_mem_cons.1 each
    exact .cons (first.inlined depth) (ih others)

theorem renderLabels_reads {labels : List Label}
    (each : ∀ node ∈ labels.flatMap ofLabel, node.IsRead) :
    Reads false true (renderLabels depth labels) ((labels.flatMap ofLabel).flatMap Node.steps) := by
  induction labels with
  | nil => exact .empty_apart
  | cons label rest ih =>
    obtain ⟨ownEach, restEach⟩ := forall_mem_append.1 each
    have goesOn := ih restEach
    cases label with
    | default =>
      have own : Reads false true "default:\n" [] := .lead rfl rfl
      exact ((Reads.indentText depth).append own rfl).append goesOn rfl
    | case tested guard =>
      obtain ⟨ofTested, ofGuard⟩ := forall_mem_cons.1 ownEach
      have lead : Reads false true "case " [] := .lead rfl rfl
      have colon : Reads true true ":\n" [] := .gap rfl rfl rfl
      exact ((((((Reads.indentText depth).append lead rfl).append (ofTested depth 0) rfl).append
        (renderGuard?_reads depth ofGuard) rfl).append colon rfl).append goesOn rfl).of_eq
        (by simp [ofLabel])

theorem renderSections_reads {sections : List Section}
    (each : ∀ node ∈ sections.flatMap ofSection, node.IsRead) :
    Reads false true (renderSections depth sections)
      ((sections.flatMap ofSection).flatMap Node.steps) := by
  induction sections with
  | nil => exact .empty_apart
  | cons sect rest ih =>
    obtain ⟨labels, body⟩ := sect
    obtain ⟨ownEach, restEach⟩ := forall_mem_append.1 each
    obtain ⟨ofLabels, ofBody⟩ := forall_mem_append.1 ownEach
    exact (((renderLabels_reads depth ofLabels).append (renderStmts_reads (depth + 1) ofBody)
      rfl).append (ih restEach) rfl).of_eq (by simp [ofSection])

theorem LambdaBody.reads {body : LambdaBody} (each : ∀ node ∈ ofLambdaBody body, node.IsRead) :
    Reads true false (body.render depth) (body.layout Node.steps) := by
  cases body with
  | expr value => exact Reads.blank.append ((each _ mem_cons_self).reads depth _) rfl
  | block body =>
    exact ((Reads.lineBreak.append (.indentText depth) rfl).append
      ((each _ mem_cons_self).braced depth) rfl).unfinished

theorem Body.reads {body : Body} (each : ∀ node ∈ ofBody body, node.IsRead) :
    Reads true true (body.render depth) (body.layout Node.steps) := by
  cases body with
  | none => exact .endLine
  | expr value =>
    exact ((Reads.arrow.append ((each _ mem_cons_self).reads depth _) rfl).append .endLine
      rfl).of_eq (append_nil _)
  | block body =>
    exact (((Reads.lineBreak.append (.indentText depth) rfl).append
      ((each _ mem_cons_self).braced depth) rfl).append Reads.lineBreak rfl).of_eq
      (append_nil _)

end Lists

/-! ## Expressions -/

theorem braceClause_reads {steps : List Step} (listed : Listed texts steps)
    (closed : Closed steps) : Reads true true (braceClause texts) steps := by
  have opening : Reads true true " \x7b " [.enter] := .gap rfl rfl rfl
  cases listed with
  | nil => exact .between (fun _ _ _ _ => rfl) rfl
  | cons first others =>
    exact Reads.enclosed opening (Listed.cons first others).commaList closed .blankBrace

theorem BinaryOp.reads (op : BinaryOp) : Reads true true op.symbol [] := by
  cases op <;> exact .gap rfl rfl rfl

theorem UnaryOp.reads (op : UnaryOp) : Reads true true op.symbol [] := by
  cases op <;> exact .gap rfl rfl rfl

variable {mark : Mark} (kind : StmtKind) (depth : Nat)

theorem Expr.reads_of_kind {kind : ExprKind} {depth : Nat}
    (reads : Reads false false (kind.render depth) (expr ⟨mark, kind⟩).steps) (min : Nat) :
    Reads false false (Expr.render depth min ⟨mark, kind⟩) (expr ⟨mark, kind⟩).steps := by
  unfold Expr.render
  split
  · exact (Reads.enclosed .openParen reads (closed_node rfl) .paren).apart.unfinished
  · exact reads

theorem ExprKind.text_reads (kind : ExprKind) (depth : Nat)
    (plain : ∀ word ∈ kind.words, isPlain word = true) (each : ∀ node ∈ kind.children, node.IsRead) :
    Reads false false (kind.render depth) (kind.layout Node.steps) := by
  cases kind with
  | literal value => exact value.reads
  | ident name => exact .plain (plain name mem_cons_self)
  | self => exact (Reads.plain rfl : Reads false false "this" [])
  | base => exact (Reads.plain rfl : Reads false false "base" [])
  | typeRef type => exact type.reads plain
  | member receiver name =>
    have ofReceiver := (each _ mem_cons_self).reads depth Level.primary
    exact ofReceiver.join Reads.point (.plain (plain name mem_cons_self))
  | conditionalAccess receiver access =>
    obtain ⟨ofReceiver, ofAccess⟩ := forall_mem_cons.1 each
    have mark : Reads true true "?" [] := .gap rfl rfl rfl
    exact ((ofReceiver.reads depth _).join mark
      ((ofAccess _ mem_cons_self).reads depth _)).of_eq (by simp [layout, children])
  | memberBinding name =>
    exact (Reads.point.append (.plain (plain name mem_cons_self)) rfl).apart
  | elementBinding args =>
    exact (Reads.enclosed .openSquare (renderExprs_listed depth each).commaList
      (closed_nodes (.ofExprs args)) .square).apart.unfinished
  | call callee args =>
    obtain ⟨ofCallee, ofArgs⟩ := forall_mem_cons.1 each
    exact ((ofCallee.reads depth _).enclosing .openParen (renderExprs_listed depth ofArgs)
      (closed_nodes (.ofExprs args)) .paren).unfinished
  | index receiver args =>
    obtain ⟨ofReceiver, ofArgs⟩ := forall_mem_cons.1 each
    exact ((ofReceiver.reads depth _).enclosing .openSquare (renderExprs_listed depth ofArgs)
      (closed_nodes (.ofExprs args)) .square).unfinished
  | fromEnd value =>
    have sign : Reads true true "^" [] := .gap rfl rfl rfl
    exact (sign.append ((each _ mem_cons_self).reads depth _) rfl).apart.of_eq
      (by simp [layout, children])
  | range start stop =>
    obtain ⟨ofStart, ofStop⟩ := forall_mem_append.1 each
    exact ((renderExpr?_reads depth ofStart).join .points
      (renderExpr?_reads depth ofStop)).of_eq (by simp [layout, children])
  | unary op operand =>
    exact (op.reads.append ((each _ mem_cons_self).reads depth _) rfl).apart.of_eq
      (by simp [layout, children])
  | binary op left right =>
    obtain ⟨ofLeft, ofRight⟩ := forall_mem_cons.1 each
    have ofRight := ofRight _ mem_cons_self
    exact (((((ofLeft.reads depth _).append .blank rfl).append op.reads rfl).append .blank
      rfl).append (ofRight.reads depth _) rfl).of_eq (by simp [layout, children])
  | assign op target value =>
    obtain ⟨ofTarget, ofValue⟩ := forall_mem_cons.1 each
    have ofValue := ofValue _ mem_cons_self
    have equals : Reads true true "= " [] := .gap rfl rfl rfl
    have ofOp : Reads true false ((op.map BinaryOp.symbol).getD "") [] := by
      cases op with
      | none => exact .empty
      | some op => exact op.reads.unfinished
    exact (((((ofTarget.reads depth _).append .blank rfl).append ofOp rfl).append equals
      rfl).append (ofValue.reads depth _) rfl).of_eq (by simp [layout, children])
  | conditional cond yes no =>
    obtain ⟨ofCond, others⟩ := forall_mem_cons.1 each
    obtain ⟨ofYes, ofNo⟩ := forall_mem_cons.1 others
    have ofNo := ofNo _ mem_cons_self
    have mark : Reads true true " ? " [] := .gap rfl rfl rfl
    have colon : Reads true true " : " [] := .gap rfl rfl rfl
    exact (((ofCond.reads depth _).join mark (ofYes.reads depth _)).join colon
      (ofNo.reads depth _)).of_eq (by simp [layout, children])
  | isPattern subject tested =>
    obtain ⟨ofSubject, ofTested⟩ := forall_mem_cons.1 each
    have word : Reads true true " is " [] := .gap rfl rfl rfl
    exact ((ofSubject.reads depth _).join word (ofTested _ mem_cons_self depth 0)).of_eq
      (by simp [layout, children])
  | typeTest subject type =>
    have word : Reads true true " is " [] := .gap rfl rfl rfl
    exact ((each _ mem_cons_self).reads depth _).join word (type.reads plain)
  | cast type operand =>
    have ofType := Reads.enclosed .openParen (type.reads plain) closed_nil .paren
    exact (ofType.append ((each _ mem_cons_self).reads depth _) rfl).apart.of_eq
      (by simp [layout, children])
  | seq effects value =>
    obtain ⟨ofEffects, ofValue⟩ := forall_mem_append.1 each
    have last := Listed.cons ((ofValue _ mem_cons_self).reads depth Level.lowest) .nil
    have listed := ((renderExprs_listed depth ofEffects).append last).commaList
    have closed : Closed ((ofExprs effects ++ [expr value]).flatMap Node.steps) :=
      closed_nodes (by simp [Node.openIfs])
    exact (Reads.enclosed .openParen (listed.of_eq (by simp)) closed .paren).apart.unfinished
  | lambda id params isAsync body =>
    obtain ⟨ofParams, ofBody⟩ := forall_mem_append.1 each
    have lead : Reads false true (if isAsync then "async " else "") [] := by
      cases isAsync
      · exact .empty_apart
      · exact .lead rfl rfl
    have closing : Closes true ") =>" := .evaluated rfl fun _ _ _ _ => rfl
    exact ((lead.enclosing .openParen (renderParams_listed depth plain ofParams)
      (closed_nodes (.ofParams params)) closing).append (LambdaBody.reads depth ofBody) rfl)
  | create type args inits =>
    obtain ⟨ofArgs, ofInits⟩ := forall_mem_append.1 each
    obtain ⟨typePlain, namesPlain⟩ := forall_mem_append.1 plain
    have word : Reads false true "new " [] := .lead rfl rfl
    have call := (word.append (type.reads typePlain) rfl).enclosing .openParen
      (renderExprs_listed depth ofArgs) (closed_nodes (.ofExprs args)) .paren
    have listed := renderInits_listed depth namesPlain ofInits
    cases inits with
    | nil => exact (call.append .empty rfl).of_eq (by simp [layout, children, Node.ofInits])
    | cons init rest =>
      exact (call.append (braceClause_reads listed (closed_nodes (.ofInits _))) rfl).unfinished.of_eq
        (by simp [layout, children])
  | copyWith receiver inits =>
    obtain ⟨ofReceiver, ofInits⟩ := forall_mem_cons.1 each
    have word : Reads true false " with" [] := (Reads.plain rfl).following rfl
    exact (((ofReceiver.reads depth _).append word rfl).append
      (braceClause_reads (renderInits_listed depth plain ofInits) (closed_nodes (.ofInits _)))
      rfl).unfinished.of_eq (by simp [layout, children])
  | collection items =>
    exact (Reads.enclosed .openSquare (renderExprs_listed depth each).commaList
      (closed_nodes (.ofExprs items)) .square).apart.unfinished
  | spread value =>
    exact (Reads.points.append ((each _ mem_cons_self).reads depth _) rfl).apart.of_eq
      (by simp [layout, children])
  | switch subject arms =>
    obtain ⟨ofSubject, ofArms⟩ := forall_mem_cons.1 each
    have word : Reads true true " switch\n" [] := .gap rfl rfl rfl
    have opened := (((((ofSubject.reads depth Level.range).append word rfl).append
      (.indentText depth) rfl).append .openBrace rfl).append (renderArms_reads (depth + 1) ofArms)
      rfl).append (.indentText depth) rfl
    exact (opened.closeSilently (expr subject).steps ((arms.flatMap ofArm).flatMap Node.steps)
      (by simp) (closed_nodes (.ofArms arms)) .brace).unfinished
  | throw value =>
    have word : Reads false true "throw " [] := .lead rfl rfl
    exact (word.append ((each _ mem_cons_self).reads depth _) rfl).of_eq
      (by simp [layout, children])
  | defaultOf type =>
    have opening : Reads false true "default(" [.enter] := .lead rfl rfl
    unfold ExprKind.render
    split
    · exact (opening.enclosed (type.reads plain) closed_nil .paren).unfinished
    · exact .plain rfl
  | tuple items =>
    exact (Reads.enclosed .openParen (renderExprs_listed depth each).commaList
      (closed_nodes (.ofExprs items)) .paren).apart.unfinished
  | await value =>
    have word : Reads false true "await " [] := .lead rfl rfl
    exact (word.append ((each _ mem_cons_self).reads depth _) rfl).of_eq
      (by simp [layout, children])
  | interpolated parts =>
    exact (Reads.template (renderParts_fills depth plain each)).apart.unfinished
  | declaration type name =>
    obtain ⟨namePlain, typePlain⟩ := forall_mem_cons.1 plain
    exact (type.reads typePlain).join .blank (.plain namePlain)
  | discard => exact (Reads.plain rfl : Reads false false "_" [])
  | out value =>
    have word : Reads false true "out " [] := .lead rfl rfl
    exact (word.append ((each _ mem_cons_self).reads depth _) rfl).of_eq
      (by simp [layout, children])
  | paren inner =>
    exact (Reads.enclosed .openParen ((each _ mem_cons_self).reads depth _)
      (closed_node rfl) .paren).apart.unfinished.of_eq (by simp [layout, children])

/-! ## Patterns -/

theorem Pattern.reads_of_kind {kind : PatternKind} {depth : Nat}
    (reads : Reads false false (kind.render depth) (pattern ⟨mark, kind⟩).steps) (min : Nat) :
    Reads false false (Pattern.render depth min ⟨mark, kind⟩) (pattern ⟨mark, kind⟩).steps := by
  unfold Pattern.render
  split
  · exact (Reads.enclosed .openParen reads (closed_node rfl) .paren).apart.unfinished
  · exact reads

theorem designation_reads (plain : isPlain designation = true) :
    Reads true false (if designation.isEmpty then "" else " " ++ designation) [] := by
  split
  · exact .empty
  · exact Reads.blank.append (.plain plain) rfl

section Recursive

variable (depth : Nat)

def renderPositional (positional : List Pattern) : String :=
  match positional with
  | [] => ""
  | first :: rest => "(" ++ commaList (renderPatterns depth (first :: rest)) ++ ")"

def renderClause (properties : List PropertyPattern) : String :=
  match properties with
  | [] => "\x7b \x7d"
  | first :: rest => "\x7b " ++ commaList (renderProperties depth (first :: rest)) ++ " \x7d"

theorem renderPositional_reads (each : ∀ node ∈ positional.map pattern, node.IsRead) :
    Reads true false (renderPositional depth positional)
      ((positional.map pattern).flatMap Node.steps) := by
  have listed := (renderPatterns_listed depth each).commaList
  cases positional with
  | nil => exact .empty
  | cons first rest =>
    exact (Reads.enclosed .openParen listed (closed_nodes (.ofPatterns _)) .paren).unfinished

theorem renderClause_reads (plain : ∀ word ∈ properties.flatMap (·.path), isPlain word = true)
    (each : ∀ node ∈ properties.map fun property => pattern property.pattern, node.IsRead) :
    Reads true true (renderClause depth properties)
      ((properties.map fun property => pattern property.pattern).flatMap Node.steps) := by
  have opening : Reads true true "\x7b " [.enter] := .gap rfl rfl rfl
  have listed := (renderProperties_listed depth plain each).commaList
  cases properties with
  | nil => exact (Reads.between (fun _ _ _ _ => rfl) rfl : Reads true true "\x7b \x7d" [])
  | cons first rest =>
    exact Reads.enclosed opening listed (closed_nodes (.ofProperties _)) .blankBrace

theorem PatternKind.render_recursive {type : TypeSyntax} :
    (PatternKind.recursive type positional properties designation).render depth =
      (if type.isPresent then type.render else "") ++ renderPositional depth positional ++
        (if !properties.isEmpty || positional.isEmpty then
          (if type.isPresent || !positional.isEmpty then " " else "") ++
            renderClause depth properties
        else "") ++
        (if designation.isEmpty then "" else " " ++ designation) := by
  cases positional <;> cases properties <;> rfl

end Recursive

theorem PatternKind.text_reads (kind : PatternKind) (depth : Nat)
    (plain : ∀ word ∈ kind.words, isPlain word = true) (each : ∀ node ∈ kind.children, node.IsRead) :
    Reads false false (kind.render depth) (kind.children.flatMap Node.steps) := by
  cases kind with
  | constant value =>
    exact ((each _ mem_cons_self).reads depth _).of_eq (by simp [children])
  | declaration type name =>
    obtain ⟨namePlain, typePlain⟩ := forall_mem_cons.1 plain
    exact (type.reads typePlain).join .blank (.plain namePlain)
  | var name =>
    have word : Reads false true "var " [] := .lead rfl rfl
    exact word.append (.plain (plain name mem_cons_self)) rfl
  | recursive type positional properties designation =>
    obtain ⟨ofPositional, ofProperties⟩ := forall_mem_append.1 each
    obtain ⟨headPlain, pathsPlain⟩ := forall_mem_append.1 plain
    obtain ⟨designationPlain, typePlain⟩ := forall_mem_cons.1 headPlain
    rw [PatternKind.render_recursive]
    have ofType : Reads false false (if type.isPresent then type.render else "") [] := by
      split
      · exact type.reads typePlain
      · exact Reads.empty.apart
    have ofClause : Reads true false
        (if !properties.isEmpty || positional.isEmpty then
          (if type.isPresent || !positional.isEmpty then " " else "") ++
            renderClause depth properties
        else "")
        ((properties.map fun property => pattern property.pattern).flatMap Node.steps) := by
      have gap : Reads true false (if type.isPresent || !positional.isEmpty then " " else "") [] := by
        split
        · exact Reads.blank.unfinished
        · exact .empty
      split
      case isTrue => exact (gap.append (renderClause_reads depth pathsPlain ofProperties) rfl).unfinished
      case isFalse isShort =>
        have noProperties : properties = [] := by
          cases properties <;> simp_all
        rw [noProperties]
        exact .empty
    exact (((ofType.append (renderPositional_reads depth ofPositional) rfl).append ofClause
      rfl).append (designation_reads designationPlain) rfl).of_eq (by simp [children])
  | list elements designation =>
    have listed := (renderPatterns_listed depth each).commaList
    exact ((Reads.enclosed .openSquare listed (closed_nodes (.ofPatterns _)) .square).append
      (designation_reads (plain designation mem_cons_self)) rfl).apart.of_eq
      (by simp [children])
  | slice inner =>
    cases inner with
    | none => exact (Reads.gap rfl rfl rfl : Reads true true ".." []).apart.unfinished
    | some inner =>
      have points : Reads true true ".. " [] := .gap rfl rfl rfl
      exact (points.append (each _ mem_cons_self depth _) rfl).apart.of_eq (by simp [children])
  | relational op value =>
    have ofValue := (each _ mem_cons_self).reads depth (Level.relational + 1)
    exact (op.toBinary.reads.join .blank ofValue).apart.of_eq (by simp [children])
  | type type => exact type.reads plain
  | and left right =>
    obtain ⟨ofLeft, ofRight⟩ := forall_mem_cons.1 each
    have word : Reads true true " and " [] := .gap rfl rfl rfl
    exact ((ofLeft depth _).join word (ofRight _ mem_cons_self depth _)).of_eq (by simp [children])
  | or left right =>
    obtain ⟨ofLeft, ofRight⟩ := forall_mem_cons.1 each
    have word : Reads true true " or " [] := .gap rfl rfl rfl
    exact ((ofLeft depth _).join word (ofRight _ mem_cons_self depth _)).of_eq (by simp [children])
  | not inner =>
    have word : Reads false true "not " [] := .lead rfl rfl
    exact (word.append (each _ mem_cons_self depth _) rfl).of_eq (by simp [children])
  | discard => exact (Reads.plain rfl : Reads false false "_" [])
  | paren inner =>
    exact (Reads.enclosed .openParen (each _ mem_cons_self depth _)
      (closed_node rfl) .paren).apart.unfinished.of_eq (by simp [children])

/-! ## Statements -/

theorem Conditionals.Reads.endIf {follows ends : Bool} {text : String} {steps : List Step}
    (reads : Reads follows ends text steps) : Reads follows ends text (steps ++ [.endIf]) :=
  reads.congr fun reader => by simp [Reader.take]

theorem ifElse_reads {cond : Expr} {yes : Stmt} {no : Option Stmt}
    (each : ∀ node ∈ (StmtKind.ifElse cond yes no).children, node.IsRead) :
    Reads false true ((StmtKind.ifElse cond yes no).render depth)
      ((StmtKind.ifElse cond yes no).layout Node.steps) := by
  obtain ⟨ofCond, others⟩ := forall_mem_cons.1 each
  obtain ⟨ofYes, ofNo⟩ := forall_mem_cons.1 others
  have opening : Reads false true "if (" [.meetIf, .enter] := .lead rfl rfl
  have head := (opening.append (ofCond.reads depth Level.lowest) rfl).closeSilently [.meetIf]
    (expr cond).steps rfl (closed_node rfl) .parenLine
  have first := head.append (Stmt.reads_embedded depth ofYes) rfl
  cases no with
  | none => exact (first.append .empty_apart rfl).endIf.of_eq (by simp [StmtKind.layout])
  | some no =>
    have second := (Reads.indentText depth).append
      (Stmt.reads_else depth (ofNo _ mem_cons_self)) rfl
    exact (first.append second rfl).endIf.of_eq (by simp [StmtKind.layout])

def renderStep (depth : Nat) (step : List Expr) : String :=
  match step with
  | [] => ""
  | first :: rest => " " ++ commaList (renderExprs depth (first :: rest))

theorem StmtKind.render_forLoop : (StmtKind.forLoop init cond step body).render depth =
      "for (" ++ commaList (renderInlines depth init) ++ ";" ++ renderOperand? depth cond ++ ";" ++
        renderStep depth step ++ ")\n" ++ body.renderEmbedded depth := by
  cases step <;> rfl

theorem forLoop_reads
    (each : ∀ node ∈ (StmtKind.forLoop init cond step body).children, node.IsRead) :
    Reads false true ((StmtKind.forLoop init cond step body).render depth)
      ((StmtKind.forLoop init cond step body).layout Node.steps) := by
  obtain ⟨ofHead, ofBody⟩ := forall_mem_append.1 each
  obtain ⟨ofStart, ofStep⟩ := forall_mem_append.1 ofHead
  obtain ⟨ofInit, ofCond⟩ := forall_mem_append.1 ofStart
  have opening : Reads false true "for (" [.enter] := .lead rfl rfl
  have stepped : Reads true false (renderStep depth step) ((ofExprs step).flatMap Node.steps) := by
    have listed := (renderExprs_listed depth ofStep).commaList
    cases step with
    | nil => exact .empty
    | cons first rest => exact Reads.blank.append listed rfl
  have opened := ((((opening.append (renderInlines_listed depth ofInit).commaList rfl).append
    .semicolon rfl).append (renderOperand?_reads depth ofCond) rfl).append .semicolon rfl).append
    stepped rfl
  have head := opened.close [] ((ofStmts init ++ ofExpr? cond ++ ofExprs step).flatMap Node.steps)
    (by simp) balanced_nodes .parenLine
  rw [StmtKind.render_forLoop]
  exact head.append (Stmt.reads_embedded depth (ofBody _ mem_cons_self)) rfl

theorem StmtKind.text_reads (depth : Nat) (plain : ∀ word ∈ kind.words, isPlain word = true)
    (each : ∀ node ∈ kind.children, node.IsRead) :
    Reads false true (kind.render depth) (kind.layout Node.steps) := by
  cases kind with
  | block body =>
    have opened := (Reads.openBrace.append (renderStmts_reads (depth + 1) each) rfl).append
      (.indentText depth) rfl
    exact (opened.close [] ((ofStmts body).flatMap Node.steps) (by simp)
      balanced_nodes .braceLine).apart
  | eval value =>
    exact (((each _ mem_cons_self).reads depth _).append .endLine rfl).of_eq
      (by simp [layout, children])
  | declare type name init =>
    obtain ⟨namePlain, typePlain⟩ := forall_mem_cons.1 plain
    exact ((((type.reads typePlain).join .blank (.plain namePlain)).append
      (renderInit?_reads depth each) rfl).append .endLine rfl).of_eq (by simp [layout, children])
  | ifElse cond yes no => exact ifElse_reads depth each
  | whileLoop cond body =>
    obtain ⟨ofCond, ofBody⟩ := forall_mem_cons.1 each
    have opening : Reads false true "while (" [.enter] := .lead rfl rfl
    exact ((opening.enclosed (ofCond.reads depth _) (closed_node rfl) .parenLine).append
      (Stmt.reads_embedded depth (ofBody _ mem_cons_self)) rfl).of_eq
      (by simp [layout, children])
  | forLoop init cond step body => exact forLoop_reads depth each
  | forEach type name iterable body =>
    obtain ⟨namePlain, typePlain⟩ := forall_mem_cons.1 plain
    obtain ⟨ofIterable, ofBody⟩ := forall_mem_cons.1 each
    have opening : Reads false true "foreach (" [.enter] := .lead rfl rfl
    have word : Reads true true " in " [] := .gap rfl rfl rfl
    have opened := (((opening.append (type.reads typePlain) rfl).join .blank
      (.plain namePlain)).join word (ofIterable.reads depth Level.lowest))
    exact ((opened.closeSilently [] (expr iterable).steps (by simp) (closed_node rfl)
      .parenLine).append (Stmt.reads_embedded depth (ofBody _ mem_cons_self)) rfl).of_eq
      (by simp [layout, children])
  | ret value =>
    have word : Reads false false "return" [] := .plain rfl
    exact ((word.append (renderOperand?_reads depth each) rfl).append .endLine rfl).of_eq
      (by simp [layout, children])
  | throw value =>
    have word : Reads false false "throw" [] := .plain rfl
    exact ((word.append (renderOperand?_reads depth each) rfl).append .endLine rfl).of_eq
      (by simp [layout, children])
  | breakLoop => exact (Reads.lead rfl rfl : Reads false true "break;\n" [])
  | continueLoop => exact (Reads.lead rfl rfl : Reads false true "continue;\n" [])
  | empty => exact Reads.endLine.apart
  | switch subject sections =>
    obtain ⟨ofSubject, ofSections⟩ := forall_mem_cons.1 each
    have opening : Reads false true "switch (" [.enter] := .lead rfl rfl
    have head := opening.enclosed (ofSubject.reads depth Level.lowest) (closed_node rfl) .parenLine
    have opened := (((head.append (.indentText depth) rfl).append .openBrace rfl).append
      (renderSections_reads (depth + 1) ofSections) rfl).append (.indentText depth) rfl
    exact opened.close (expr subject).steps ((sections.flatMap ofSection).flatMap Node.steps)
      (by simp) balanced_nodes .braceLine
  | localFunction name typeParams params ret body =>
    obtain ⟨ofParams, ofBody⟩ := forall_mem_append.1 each
    obtain ⟨headPlain, retPlain⟩ := forall_mem_append.1 plain
    obtain ⟨namesPlain, paramsPlain⟩ := forall_mem_append.1 headPlain
    obtain ⟨namePlain, typeParamsPlain⟩ := forall_mem_cons.1 namesPlain
    have head := ((ret.reads retPlain).join .blank (.plain namePlain)).append
      (.angleList typeParamsPlain) rfl
    exact (head.enclosing .openParen (renderParams_listed depth paramsPlain ofParams)
      (closed_nodes (.ofParams params)) .paren).append (Body.reads depth ofBody) rfl

theorem Stmt.endsLine_embedded {node : Stmt} (isRead : node.IsRead) {depth : Nat} :
    EndsLine (node.renderEmbedded depth) := by
  obtain ⟨mark, kind⟩ := node
  exact (isRead.endsLine _).append _

theorem Stmt.endsLine_else {node : Stmt} (isRead : node.IsRead) (depth : Nat) :
    EndsLine (node.renderElse depth) := by
  obtain ⟨mark, kind⟩ := node
  cases kind with
  | _ => exact (isRead.endsLine _).append _

theorem Stmt.renderBraces_end (node : Stmt) (depth : Nat) :
    ∃ before, node.renderBraces depth = before ++ "\x7d" := by
  obtain ⟨mark, kind⟩ := node
  cases kind with
  | _ => exact ⟨_, rfl⟩

theorem Body.endsLine (body : Body) (depth : Nat) : EndsLine (body.render depth) := by
  cases body with
  | none => exact .semicolon
  | expr value => exact .append _ .semicolon
  | block body =>
    obtain ⟨before, isBefore⟩ := body.renderBraces_end depth
    refine ⟨"\n" ++ indentText depth ++ before, "\x7d", ?_, .inr rfl⟩
    simp [Body.render, isBefore, String.append_assoc]

theorem StmtKind.endsLine (depth : Nat) (each : ∀ node ∈ kind.children, node.IsRead) :
    EndsLine (kind.render depth) := by
  have embedded {body : Stmt} (isChild : stmt body ∈ kind.children) :
      EndsLine (body.renderEmbedded depth) := Stmt.endsLine_embedded (each _ isChild)
  cases kind with
  | ifElse cond yes no =>
    cases no with
    | none =>
      have same : (StmtKind.ifElse cond yes none).render depth =
          "if (" ++ cond.render depth Level.lowest ++ ")\n" ++ yes.renderEmbedded depth ++ "" := rfl
      rw [same, String.append_empty]
      exact .append _ (embedded (mem_cons_of_mem _ mem_cons_self))
    | some no =>
      have ofNo := Stmt.endsLine_else (each (stmt no) (by simp [children, ofStmt?])) depth
      exact .append _ (.append _ ofNo)
  | whileLoop cond body => exact .append _ (embedded (by simp [children]))
  | forLoop init cond step body =>
    rw [StmtKind.render_forLoop]
    exact .append _ (embedded (by simp [children]))
  | forEach type name iterable body => exact .append _ (embedded (by simp [children]))
  | block body => exact .append _ .brace
  | switch subject sections => exact .append _ .brace
  | localFunction name typeParams params ret body => exact .append _ (body.endsLine depth)
  | breakLoop => exact .append "break" .semicolon
  | continueLoop => exact .append "continue" .semicolon
  | empty => exact .semicolon
  | _ => exact .append _ .semicolon

theorem StmtKind.inlined (depth : Nat) (plain : ∀ word ∈ kind.words, isPlain word = true)
    (each : ∀ node ∈ kind.children, node.IsRead) :
    Reads false false (Stmt.renderInline depth ⟨mark, kind⟩) (kind.layout Node.steps) := by
  have trimmed := ((kind.text_reads 0 plain each).trimmed (kind.endsLine 0 each)).unfinished
  cases kind with
  | eval value =>
    exact ((each _ mem_cons_self).reads depth _).of_eq (by simp [layout, children])
  | declare type name init =>
    obtain ⟨namePlain, typePlain⟩ := forall_mem_cons.1 plain
    exact (((type.reads typePlain).join .blank (.plain namePlain)).append
      (renderInit?_reads depth each) rfl).of_eq (by simp [layout, children])
  | _ => exact trimmed

theorem StmtKind.braced (depth : Nat) (plain : ∀ word ∈ kind.words, isPlain word = true)
    (each : ∀ node ∈ kind.children, node.IsRead) :
    Reads true true (Stmt.renderBraces depth ⟨mark, kind⟩) (grouped (kind.layout Node.steps)) := by
  have accounts := kind.accounts mark fun node _ => node.accounted
  have opened := ((Reads.openBrace.append (.indentText (depth + 1)) rfl).append
    (kind.text_reads (depth + 1) plain each) rfl).append (.indentText depth) rfl
  have whole := opened.close [] _ (by simp) accounts.balanced .brace
  cases kind with
  | block body =>
    have opened := (Reads.openBrace.append (renderStmts_reads (depth + 1) each) rfl).append
      (.indentText depth) rfl
    have once := opened.close [] ((ofStmts body).flatMap Node.steps) (by simp) balanced_nodes .brace
    exact once.congr fun reader => accounts.closed.walk_grouped.symm
  | _ => exact whole

/-! ## All nodes -/

theorem Node.isSpelled_iff (node : Node) :
    node.IsSpelled ↔ (∀ word ∈ node.words, isPlain word = true) ∧
      ∀ child ∈ node.children, child.IsSpelled := by
  simp only [Node.IsSpelled]
  rw [node.reachable_eq]
  simp only [forall_mem_cons, forall_mem_flatMap]

theorem Node.isRead (node : Node) (spelled : node.IsSpelled) : node.IsRead := by
  induction node using Node.childInduction with
  | step node below =>
    obtain ⟨plain, childrenSpelled⟩ := node.isSpelled_iff.1 spelled
    have each : ∀ child ∈ node.children, child.IsRead := fun child isChild =>
      below child isChild (childrenSpelled child isChild)
    have laidOut := node.steps_eq
    cases node with
    | expr node =>
      obtain ⟨mark, kind⟩ := node
      refine ⟨fun depth => Expr.reads_of_kind ?_, fun depth => Expr.unpaired ?_⟩
      · rw [laidOut]
        exact kind.text_reads depth plain each
      · exact kind.unpaired depth plain fun inner isChild =>
          (each (expr inner) isChild).unpaired depth
    | stmt node =>
      obtain ⟨mark, kind⟩ := node
      constructor
      case lines => exact fun depth => laidOut ▸ kind.text_reads depth plain each
      case endsLine => exact fun depth => kind.endsLine depth each
      case inlined => exact fun depth => laidOut ▸ kind.inlined depth plain each
      case braced => exact fun depth => laidOut ▸ kind.braced depth plain each
    | pattern node =>
      obtain ⟨mark, kind⟩ := node
      exact fun depth => Pattern.reads_of_kind (laidOut ▸ kind.text_reads depth plain each)

end Unsugar
