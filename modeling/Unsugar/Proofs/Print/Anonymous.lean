import Mathlib.Logic.Function.Basic
import Unsugar.Proofs.Print.Rendering
import Unsugar.Syntax.Numbering

namespace Unsugar

/-! # Text without identities

Nothing that is printed depends on an identity: a subtree has the text that it has once
its identities are forgotten.
-/

/-! ## What a text looks at -/

variable (site : Site)

theorem rebuildStmts_cons {node : Stmt} {rest : List Stmt} :
    (rebuildStmts Rules.forget site (node :: rest) : Id (List Stmt)) =
      (node.rebuild Rules.forget site : Id Stmt) ::
        (rebuildStmts Rules.forget site rest : Id (List Stmt)) := by
  obtain ⟨mark, kind⟩ := node
  rfl

theorem ExprKind.level_forget (kind : ExprKind) :
    (kind.rebuild Rules.forget site : Id ExprKind).anonymous.level = kind.level := by
  cases kind <;> rfl

theorem ExprKind.render_anonymous {depth : Nat} (kind : ExprKind) :
    kind.anonymous.render depth = kind.render depth := by
  cases kind <;> rfl

theorem Expr.startsWithMinus_forget (node : Expr) :
    (node.rebuild Rules.forget site : Id Expr).kind.startsWithMinus = node.kind.startsWithMinus := by
  obtain ⟨mark, kind⟩ := node
  cases kind with
  | unary op operand => cases op <;> rfl
  | _ => rfl

theorem PatternKind.level_forget (kind : PatternKind) :
    (kind.rebuild Rules.forget site : Id PatternKind).level = kind.level := by
  cases kind with
  | slice inner => cases inner <;> rfl
  | _ => rfl

theorem rebuildPatterns_isEmpty {rules : Rules Id} {site : Site} {nodes : List Pattern} :
    (rebuildPatterns rules site nodes : Id (List Pattern)).isEmpty = nodes.isEmpty := by
  cases nodes <;> rfl

theorem rebuildProperties_isEmpty {rules : Rules Id} {site : Site}
    {properties : List PropertyPattern} :
    (rebuildProperties rules site properties : Id (List PropertyPattern)).isEmpty =
      properties.isEmpty := by
  cases properties with
  | nil => rfl
  | cons property rest =>
    obtain ⟨path, inner⟩ := property
    rfl

theorem StmtKind.isBlock_forget (kind : StmtKind) :
    (kind.rebuild Rules.forget site : Id StmtKind).isBlock = kind.isBlock := by
  cases kind <;> rfl

def inlineText (text : String) : String := String.ofList (trimBlankEnd text.toList)

/-- What opens a `for` without a semicolon of its own. -/
def StmtKind.isInline : StmtKind → Bool
  | .eval _ | .declare .. => true
  | _ => false

theorem Stmt.renderInline_other {depth : Nat} (node : Stmt) (isOther : node.kind.isInline = false) :
    node.renderInline depth = inlineText (node.kind.render 0) := by
  obtain ⟨mark, kind⟩ := node
  cases kind with
  | eval | declare => cases isOther
  | _ => simp only [Stmt.renderInline, inlineText]

theorem StmtKind.isInline_forget (kind : StmtKind) :
    (kind.rebuild Rules.forget site : Id StmtKind).isInline = kind.isInline := by
  cases kind <;> rfl

/-! ## Rendering

One theorem for each sort of syntax, along the recursion of the printer.
-/

mutual

theorem Expr.render_forget (site : Site) (depth min : Nat) : (node : Expr) →
    (node.rebuild Rules.forget site : Id Expr).render depth min = node.render depth min
  | ⟨mark, kind⟩ => by
    change Expr.render depth min ⟨mark.span.mark, _⟩ = _
    rw [Expr.render, Expr.render, ExprKind.level_forget, ExprKind.render_anonymous,
      kind.render_forget _ depth]

theorem ExprKind.render_forget (site : Site) (depth : Nat) : (kind : ExprKind) →
    (kind.rebuild Rules.forget site : Id ExprKind).render depth = kind.render depth
  | .literal _ | .ident _ | .self | .base | .typeRef _ | .memberBinding _
  | .defaultOf _ | .declaration .. | .discard => rfl
  | .member inner name => congrArg (· ++ "." ++ name) (inner.render_forget site depth _)
  | .fromEnd inner => congrArg ("^" ++ ·) (inner.render_forget site depth _)
  | .unary op inner => by
    rw [ExprKind.render]
    change op.symbol ++ (inner.rebuild Rules.forget site : Id Expr).render depth
      (if op = .neg ∧ (inner.rebuild Rules.forget site : Id Expr).kind.startsWithMinus = true
        then Level.primary else Level.unary) = _
    rw [Expr.startsWithMinus_forget, inner.render_forget site depth]
  | .typeTest inner type => congrArg (· ++ " is " ++ type.render) (inner.render_forget site depth _)
  | .cast type inner => congrArg ("(" ++ type.render ++ ")" ++ ·) (inner.render_forget site depth _)
  | .spread inner => congrArg (".." ++ ·) (inner.render_forget site depth _)
  | .throw inner => congrArg ("throw " ++ ·) (inner.render_forget site depth _)
  | .await inner => congrArg ("await " ++ ·) (inner.render_forget site depth _)
  | .out inner => congrArg ("out " ++ ·) (inner.render_forget site depth _)
  | .paren inner => congrArg ("(" ++ · ++ ")") (inner.render_forget site depth _)
  | .conditionalAccess left right =>
    congrArg₂ (· ++ "?" ++ ·) (left.render_forget site depth _) (right.render_forget site depth _)
  | .binary op left right => by
    change (ExprKind.binary op (left.rebuild Rules.forget site : Id Expr)
      (right.rebuild Rules.forget site : Id Expr)).render depth = _
    simp only [ExprKind.render, left.render_forget site depth, right.render_forget site depth]
  | .assign op left right =>
    congrArg₂ (· ++ " " ++ (op.map BinaryOp.symbol).getD "" ++ "= " ++ ·)
      (left.render_forget site depth _) (right.render_forget site depth _)
  | .elementBinding items | .collection items =>
    congrArg ("[" ++ commaList · ++ "]") (renderExprs_forget items)
  | .tuple items => congrArg ("(" ++ commaList · ++ ")") (renderExprs_forget items)
  | .call head args =>
    congrArg₂ (· ++ "(" ++ commaList · ++ ")") (head.render_forget site depth _)
      (renderExprs_forget args)
  | .index head args =>
    congrArg₂ (· ++ "[" ++ commaList · ++ "]") (head.render_forget site depth _)
      (renderExprs_forget args)
  | .range start stop =>
    congrArg₂ (· ++ ".." ++ ·) (renderExpr?_forget start) (renderExpr?_forget stop)
  | .conditional cond yes no =>
    congrArg₂ (· ++ " : " ++ ·) (congrArg₂ (· ++ " ? " ++ ·) (cond.render_forget site depth _)
        (yes.render_forget site depth _)) (no.render_forget site depth _)
  | .isPattern subject tested =>
    congrArg₂ (· ++ " is " ++ ·) (subject.render_forget site depth _)
      (tested.render_forget site depth _)
  | .seq effects value =>
    congrArg₂ (fun effects value => "(" ++ commaList (effects ++ [value]) ++ ")")
      (renderExprs_forget effects) (value.render_forget site depth _)
  | .lambda _ params isAsync body =>
    congrArg₂ (fun params body =>
        (if isAsync then "async " else "") ++ "(" ++ commaList params ++ ") =>" ++ body)
      (renderParams_forget params) (body.render_forget site depth)
  | .create type args [] =>
    congrArg ("new " ++ type.render ++ "(" ++ commaList · ++ ")" ++ "") (renderExprs_forget args)
  | .create type args (⟨name, value⟩ :: rest) =>
    congrArg₂ ("new " ++ type.render ++ "(" ++ commaList · ++ ")" ++ braceClause ·)
      (renderExprs_forget args)
      (renderInits_forget (⟨name, value⟩ :: rest))
  | .copyWith receiver inits =>
    congrArg₂ (· ++ " with" ++ braceClause ·) (receiver.render_forget site depth _)
      (renderInits_forget inits)
  | .switch subject arms =>
    congrArg₂ (· ++ " switch\n" ++ indentText depth ++ "\x7b\n" ++ · ++ indentText depth ++ "\x7d")
      (subject.render_forget site depth _) (renderArms_forget arms)
  | .interpolated parts => congrArg ("$\"" ++ · ++ "\"") (renderParts_forget parts)

theorem renderExprs_forget {site : Site} {depth : Nat} : (nodes : List Expr) →
    renderExprs depth (rebuildExprs Rules.forget site nodes : Id (List Expr)) =
      renderExprs depth nodes
  | [] => rfl
  | node :: rest =>
    congrArg₂ List.cons (node.render_forget site depth _) (renderExprs_forget rest)

theorem renderExpr?_forget {site : Site} {depth min : Nat} : (node : Option Expr) →
    renderExpr? depth min (rebuildExpr? Rules.forget site node : Id (Option Expr)) =
      renderExpr? depth min node
  | none => rfl
  | some node => node.render_forget site depth min

theorem renderInit?_forget {site : Site} {depth : Nat} : (node : Option Expr) →
    renderInit? depth (rebuildExpr? Rules.forget site node : Id (Option Expr)) =
      renderInit? depth node
  | none => rfl
  | some node => congrArg (" = " ++ ·) (node.render_forget site depth _)

theorem renderGuard?_forget {site : Site} {depth : Nat} : (node : Option Expr) →
    renderGuard? depth (rebuildExpr? Rules.forget site node : Id (Option Expr)) =
      renderGuard? depth node
  | none => rfl
  | some node => congrArg (" when " ++ ·) (node.render_forget site depth _)

theorem renderOperand?_forget {site : Site} {depth : Nat} : (node : Option Expr) →
    renderOperand? depth (rebuildExpr? Rules.forget site node : Id (Option Expr)) =
      renderOperand? depth node
  | none => rfl
  | some node => congrArg (" " ++ ·) (node.render_forget site depth _)

theorem renderParams_forget {site : Site} {depth : Nat} : (params : List Param) →
    renderParams depth (rebuildParams Rules.forget site params : Id (List Param)) =
      renderParams depth params
  | [] => rfl
  | ⟨type, name, passing, default⟩ :: rest =>
    congrArg₂ (fun default others =>
        (passing.render ++ (if type.isPresent then type.render ++ " " else "") ++ name ++
          default) :: others)
      (renderInit?_forget default) (renderParams_forget rest)

theorem LambdaBody.render_forget (site : Site) (depth : Nat) : (body : LambdaBody) →
    (body.rebuild Rules.forget site : Id LambdaBody).render depth = body.render depth
  | .expr value => congrArg (" " ++ ·) (value.render_forget site depth _)
  | .block body => congrArg ("\n" ++ indentText depth ++ ·) body.renderBraces_forget

theorem renderInits_forget {site : Site} {depth : Nat} : (inits : List FieldInit) →
    renderInits depth (rebuildInits Rules.forget site inits : Id (List FieldInit)) =
      renderInits depth inits
  | [] => rfl
  | ⟨name, value⟩ :: rest =>
    congrArg₂ (fun value others => (name ++ " = " ++ value) :: others)
      (value.render_forget site depth _) (renderInits_forget rest)

theorem renderArms_forget {site : Site} {depth : Nat} : (arms : List Arm) →
    renderArms depth (rebuildArms Rules.forget site arms : Id (List Arm)) = renderArms depth arms
  | [] => rfl
  | ⟨_, tested, guard, result⟩ :: rest =>
    congrArg₂ (· ++ ",\n" ++ ·) (congrArg₂ (· ++ " => " ++ ·)
        (congrArg₂ (indentText depth ++ · ++ ·) (tested.render_forget site depth _)
          (renderGuard?_forget guard))
        (result.render_forget site depth _))
      (renderArms_forget rest)

theorem renderParts_forget {site : Site} {depth : Nat} : (parts : List Part) →
    renderParts depth (rebuildParts Rules.forget site parts : Id (List Part)) =
      renderParts depth parts
  | [] => rfl
  | .text text :: rest =>
    congrArg (Quoted.interpolationText text ++ ·) (renderParts_forget rest)
  | .hole value none format :: rest =>
    congrArg₂ (fun value others => "\x7b" ++ value ++ "" ++
        (if format.isEmpty then "" else ":" ++ format) ++ "\x7d" ++ others)
      (value.render_forget site depth _) (renderParts_forget rest)
  | .hole value (some width) format :: rest =>
    congrArg₂ (fun filled others => filled ++
        (if format.isEmpty then "" else ":" ++ format) ++ "\x7d" ++ others)
      (congrArg₂ (fun value width => "\x7b" ++ value ++ ("," ++ width))
        (value.render_forget site depth _) (width.render_forget site depth _))
      (renderParts_forget rest)

theorem Pattern.render_forget (site : Site) (depth min : Nat) : (node : Pattern) →
    (node.rebuild Rules.forget site : Id Pattern).render depth min = node.render depth min
  | ⟨mark, kind⟩ => by
    change Pattern.render depth min ⟨mark.span.mark, _⟩ = _
    rw [Pattern.render, Pattern.render, PatternKind.level_forget, kind.render_forget _ depth]

theorem PatternKind.render_forget (site : Site) (depth : Nat) : (kind : PatternKind) →
    (kind.rebuild Rules.forget site : Id PatternKind).render depth = kind.render depth
  | .constant value => value.render_forget site depth _
  | .relational op value => congrArg (op.toBinary.symbol ++ " " ++ ·) (value.render_forget site depth _)
  | .recursive type positional properties designation => by
    have positionals := renderPositional_forget site depth positional
    have clauses := renderClause_forget site depth properties
    change (PatternKind.recursive type
      (rebuildPatterns Rules.forget site positional : Id (List Pattern))
      (rebuildProperties Rules.forget site properties : Id (List PropertyPattern))
      designation).render depth = _
    rw [PatternKind.render_recursive, PatternKind.render_recursive, positionals, clauses,
      rebuildPatterns_isEmpty, rebuildProperties_isEmpty]
  | .list elements designation =>
    congrArg ("[" ++ commaList · ++ "]" ++ (if designation.isEmpty then "" else " " ++ designation))
      (renderPatterns_forget elements)
  | .slice (some inner) => congrArg (".. " ++ ·) (inner.render_forget site depth _)
  | .not inner => congrArg ("not " ++ ·) (inner.render_forget site depth _)
  | .paren inner => congrArg ("(" ++ · ++ ")") (inner.render_forget site depth _)
  | .and left right =>
    congrArg₂ (· ++ " and " ++ ·) (left.render_forget site depth _)
      (right.render_forget site depth _)
  | .or left right =>
    congrArg₂ (· ++ " or " ++ ·) (left.render_forget site depth _)
      (right.render_forget site depth _)
  | .slice none | .declaration .. | .var _ | .type _ | .discard => rfl

theorem renderPatterns_forget {site : Site} {depth : Nat} : (nodes : List Pattern) →
    renderPatterns depth (rebuildPatterns Rules.forget site nodes : Id (List Pattern)) =
      renderPatterns depth nodes
  | [] => rfl
  | node :: rest =>
    congrArg₂ List.cons (node.render_forget site depth _) (renderPatterns_forget rest)

theorem renderPositional_forget (site : Site) (depth : Nat) : (nodes : List Pattern) →
    renderPositional depth (rebuildPatterns Rules.forget site nodes : Id (List Pattern)) =
      renderPositional depth nodes
  | [] => rfl
  | node :: rest =>
    congrArg ("(" ++ commaList · ++ ")") (congrArg₂ List.cons (node.render_forget site depth _)
        (renderPatterns_forget rest))

theorem renderProperties_forget {site : Site} {depth : Nat} : (properties : List PropertyPattern) →
      renderProperties depth
        (rebuildProperties Rules.forget site properties : Id (List PropertyPattern)) =
          renderProperties depth properties
  | [] => rfl
  | ⟨path, inner⟩ :: rest =>
    congrArg₂ (fun inner others => (".".intercalate path ++ ": " ++ inner) :: others)
      (inner.render_forget site depth _) (renderProperties_forget rest)

theorem renderClause_forget (site : Site) (depth : Nat) : (properties : List PropertyPattern) →
    renderClause depth
      (rebuildProperties Rules.forget site properties : Id (List PropertyPattern)) =
        renderClause depth properties
  | [] => rfl
  | ⟨path, inner⟩ :: rest =>
    congrArg ("\x7b " ++ commaList · ++ " \x7d")
      (congrArg₂ (fun inner others => (".".intercalate path ++ ": " ++ inner) :: others)
        (inner.render_forget site depth _) (renderProperties_forget rest))

theorem Stmt.renderBraces_forget {site : Site} {depth : Nat} : (node : Stmt) →
    (node.rebuild Rules.forget site : Id Stmt).renderBraces depth = node.renderBraces depth
  | ⟨mark, kind⟩ => by
    have same := kind.render_forget (site.below (.stmt ⟨mark, kind⟩)) (depth + 1)
    cases kind with
    | block body =>
      exact congrArg ("\x7b\n" ++ · ++ indentText depth ++ "\x7d") (renderStmts_forget body)
    | _ =>
      exact congrArg ("\x7b\n" ++ indentText (depth + 1) ++ · ++ indentText depth ++ "\x7d") same

theorem Stmt.render_forget (site : Site) (depth : Nat) : (node : Stmt) →
    (node.rebuild Rules.forget site : Id Stmt).render depth = node.render depth
  | ⟨_, kind⟩ => congrArg (indentText depth ++ ·) (kind.render_forget _ depth)

theorem Stmt.renderEmbedded_forget (site : Site) (depth : Nat) : (node : Stmt) →
    (node.rebuild Rules.forget site : Id Stmt).renderEmbedded depth = node.renderEmbedded depth
  | ⟨mark, kind⟩ => by
    change Stmt.renderEmbedded depth ⟨mark.span.mark, _⟩ = _
    simp only [Stmt.renderEmbedded, StmtKind.isBlock_forget, kind.render_forget]

theorem renderStmts_forget {site : Site} {depth : Nat} : (nodes : List Stmt) →
    renderStmts depth (rebuildStmts Rules.forget site nodes : Id (List Stmt)) =
      renderStmts depth nodes
  | [] => rfl
  | node :: rest => by
    rw [rebuildStmts_cons, renderStmts, renderStmts, node.render_forget site depth,
      renderStmts_forget rest]

theorem Stmt.renderInline_forget {site : Site} {depth : Nat} : (node : Stmt) →
    (node.rebuild Rules.forget site : Id Stmt).renderInline depth = node.renderInline depth
  | ⟨mark, kind⟩ => by
    have same := kind.render_forget (site.below (.stmt ⟨mark, kind⟩)) 0
    cases isInline : kind.isInline with
    | false =>
      rw [Stmt.renderInline_other ⟨mark, kind⟩ isInline, Stmt.renderInline_other _
        ((StmtKind.isInline_forget _ kind).trans isInline)]
      exact congrArg inlineText same
    | true =>
      cases kind with
      | eval value => exact value.render_forget _ depth _
      | declare type name init =>
        exact congrArg (type.render ++ " " ++ name ++ ·) (renderInit?_forget init)
      | _ => cases isInline

theorem renderInlines_forget {site : Site} {depth : Nat} : (nodes : List Stmt) →
    renderInlines depth (rebuildEachStmt Rules.forget site nodes : Id (List Stmt)) =
      renderInlines depth nodes
  | [] => rfl
  | node :: rest =>
    congrArg₂ List.cons node.renderInline_forget (renderInlines_forget rest)

theorem Stmt.renderElse_forget {site : Site} {depth : Nat} : (node : Stmt) →
    (node.rebuild Rules.forget site : Id Stmt).renderElse depth = node.renderElse depth
  | ⟨mark, kind⟩ => by
    have same (depth : Nat) := kind.render_forget (site.below (.stmt ⟨mark, kind⟩)) depth
    cases kind with
    | ifElse cond yes no => exact congrArg ("else " ++ ·) (same depth)
    | block body => exact congrArg ("else\n" ++ indentText depth ++ ·) (same depth)
    | _ => exact congrArg ("else\n" ++ indentText (depth + 1) ++ ·) (same (depth + 1))

theorem StmtKind.render_forget (site : Site) (depth : Nat) : (kind : StmtKind) →
    (kind.rebuild Rules.forget site : Id StmtKind).render depth = kind.render depth
  | .block body =>
    congrArg ("\x7b\n" ++ · ++ indentText depth ++ "\x7d\n") (renderStmts_forget body)
  | .eval value => congrArg (· ++ ";\n") (value.render_forget site depth _)
  | .declare type name init =>
    congrArg (type.render ++ " " ++ name ++ · ++ ";\n") (renderInit?_forget init)
  | .ifElse cond yes none =>
    congrArg₂ ("if (" ++ · ++ ")\n" ++ · ++ "") (cond.render_forget site depth _)
      (yes.renderEmbedded_forget site depth)
  | .ifElse cond yes (some no) =>
    congrArg₂ (fun head other => head ++ (indentText depth ++ other))
      (congrArg₂ ("if (" ++ · ++ ")\n" ++ ·) (cond.render_forget site depth _)
        (yes.renderEmbedded_forget site depth))
      no.renderElse_forget
  | .whileLoop cond body =>
    congrArg₂ ("while (" ++ · ++ ")\n" ++ ·) (cond.render_forget site depth _)
      (body.renderEmbedded_forget site depth)
  | .forLoop init cond step body => by
    have steps := renderStep_forget site depth step
    change (StmtKind.forLoop (rebuildEachStmt Rules.forget site init : Id (List Stmt))
      (rebuildExpr? Rules.forget site cond : Id (Option Expr))
      (rebuildExprs Rules.forget site step : Id (List Expr))
      (body.rebuild Rules.forget site : Id Stmt)).render depth = _
    rw [StmtKind.render_forLoop, StmtKind.render_forLoop, renderInlines_forget init,
      renderOperand?_forget cond, steps, body.renderEmbedded_forget site depth]
  | .forEach type name iterable body =>
    congrArg₂ ("foreach (" ++ type.render ++ " " ++ name ++ " in " ++ · ++ ")\n" ++ ·)
      (iterable.render_forget site depth _) (body.renderEmbedded_forget site depth)
  | .ret value => congrArg ("return" ++ · ++ ";\n") (renderOperand?_forget value)
  | .throw value => congrArg ("throw" ++ · ++ ";\n") (renderOperand?_forget value)
  | .breakLoop | .continueLoop | .empty => rfl
  | .switch subject sections =>
    congrArg₂ ("switch (" ++ · ++ ")\n" ++ indentText depth ++ "\x7b\n" ++ · ++ indentText depth ++
        "\x7d\n")
      (subject.render_forget site depth _) (renderSections_forget sections)
  | .localFunction name typeParams params ret body =>
    congrArg₂ (fun params body => ret.render ++ " " ++ name ++ angleList typeParams ++ "(" ++
        commaList params ++ ")" ++ body)
      (renderParams_forget params) (body.render_forget site depth)

theorem renderStep_forget (site : Site) (depth : Nat) : (step : List Expr) →
    renderStep depth (rebuildExprs Rules.forget site step : Id (List Expr)) = renderStep depth step
  | [] => rfl
  | node :: rest =>
    congrArg (" " ++ commaList ·) (congrArg₂ List.cons (node.render_forget site depth _)
        (renderExprs_forget rest))

theorem renderSections_forget {site : Site} {depth : Nat} : (sections : List Section) →
    renderSections depth (rebuildSections Rules.forget site sections : Id (List Section)) =
      renderSections depth sections
  | [] => rfl
  | ⟨labels, body⟩ :: rest =>
    congrArg₂ (· ++ ·) (congrArg₂ (· ++ ·) (renderLabels_forget labels) (renderStmts_forget body))
      (renderSections_forget rest)

theorem renderLabels_forget {site : Site} {depth : Nat} : (labels : List Label) →
    renderLabels depth (rebuildLabels Rules.forget site labels : Id (List Label)) =
      renderLabels depth labels
  | [] => rfl
  | .default :: rest =>
    congrArg (indentText depth ++ "default:\n" ++ ·) (renderLabels_forget rest)
  | .case tested guard :: rest =>
    congrArg₂ (· ++ ":\n" ++ ·)
      (congrArg₂ (indentText depth ++ "case " ++ · ++ ·) (tested.render_forget site depth _)
        (renderGuard?_forget guard))
      (renderLabels_forget rest)

theorem Body.render_forget (site : Site) (depth : Nat) : (body : Body) →
    (body.rebuild Rules.forget site : Id Body).render depth = body.render depth
  | .none => rfl
  | .expr value => congrArg (" => " ++ · ++ ";\n") (value.render_forget site depth _)
  | .block body =>
    congrArg ("\n" ++ indentText depth ++ · ++ "\n") body.renderBraces_forget

end

/-! ## Nodes -/

namespace Node

/-- A node without the identities at it and below it. -/
def forget : Node → Node
  | .expr node => .expr node.forget
  | .stmt node => .stmt (node.rebuild Rules.forget .detached : Id Stmt)
  | .pattern node => .pattern (node.rebuild Rules.forget .detached : Id Pattern)

def text : Node → String
  | .expr node => node.text
  | .stmt node => node.text
  | .pattern node => node.text

theorem text_forget (node : Node) : node.forget.text = node.text := by
  cases node with
  | expr node => exact node.render_forget _ _ _
  | stmt node =>
    exact congrArg (fun text => String.ofList (trimBlankEnd text.toList)) (node.render_forget _ _)
  | pattern node => exact node.render_forget _ _ _

end Node

end Unsugar
