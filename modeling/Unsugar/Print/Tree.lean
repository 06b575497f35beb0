import Unsugar.Syntax.Tree
import Unsugar.Text.Characters
import Unsugar.Text.Decimal

namespace Unsugar

/-! # Printing expressions, statements and patterns

A node is printed in parentheses when it binds looser than its place allows, so
a tree needs no explicit parentheses to be printed faithfully.  Statements are
indented by four blanks a level, and braces stand on lines of their own.
-/

def Level.primary : Nat := 17
def Level.unary : Nat := 16
def Level.range : Nat := 15
/-- Switch expressions and copies with changes. -/
def Level.switch : Nat := 14
def Level.relational : Nat := 10
def Level.coalesce : Nat := 3
def Level.conditional : Nat := 2
/-- Assignments, lambdas and throw expressions. -/
def Level.lowest : Nat := 1

def ExprKind.level : ExprKind → Nat
  | .assign .. | .lambda .. | .throw _ => Level.lowest
  | .conditional .. => Level.conditional
  | .binary op _ _ => op.level
  | .isPattern .. | .typeTest .. => Level.relational
  | .switch .. | .copyWith .. => Level.switch
  | .range .. => Level.range
  | .unary .. | .cast .. | .fromEnd _ | .await _ | .spread _ => Level.unary
  | .literal (.int value) => if value < 0 then Level.unary else Level.primary
  | _ => Level.primary

def PatternKind.level : PatternKind → Nat
  | .or .. => 1
  | .and .. => 2
  | .not _ => 3
  | _ => 4

/-- A minus sign directly before one of these would read as another token. -/
def ExprKind.startsWithMinus : ExprKind → Bool
  | .unary .neg _ => true
  | .literal (.int value) => value < 0
  | _ => false

def StmtKind.isBlock : StmtKind → Bool
  | .block _ => true
  | _ => false

def Literal.render : Literal → String
  | .int value => toString value
  | .float bits =>
    let text := Decimal.renderShortest bits
    if Decimal.isFinite bits && !text.contains '.' then text ++ ".0" else text
  | .bool value => if value then "true" else "false"
  | .char value => Quoted.charLiteral value
  | .str value => Quoted.stringLiteral value
  | .null => "null"

def Passing.render : Passing → String
  | .byValue => ""
  | passing => passing.keyword ++ " "

/-- The blanks a line starts with at a depth of nesting. -/
def indentText (depth : Nat) : String :=
  String.ofList (List.replicate (4 * depth) ' ')

def commaList (items : List String) : String := ", ".intercalate items

def angleList (names : List String) : String :=
  match names with
  | [] => ""
  | names => "<" ++ commaList names ++ ">"

def braceClause (items : List String) : String :=
  match items with
  | [] => " \x7b \x7d"
  | items => " \x7b " ++ commaList items ++ " \x7d"

mutual

/-- Print an expression where anything looser than `min` needs parentheses. -/
def Expr.render (depth min : Nat) : Expr → String
  | ⟨_, kind⟩ =>
    if kind.level < min then "(" ++ kind.render depth ++ ")" else kind.render depth

def ExprKind.render (depth : Nat) : ExprKind → String
  | .literal value => value.render
  | .ident name => name
  | .self => "this"
  | .base => "base"
  | .typeRef type => type.render
  | .member receiver name => receiver.render depth Level.primary ++ "." ++ name
  | .conditionalAccess receiver access =>
    receiver.render depth Level.primary ++ "?" ++ access.render depth Level.primary
  | .memberBinding name => "." ++ name
  | .elementBinding args => "[" ++ commaList (renderExprs depth args) ++ "]"
  | .call callee args =>
    callee.render depth Level.primary ++ "(" ++ commaList (renderExprs depth args) ++ ")"
  | .index receiver args =>
    receiver.render depth Level.primary ++ "[" ++ commaList (renderExprs depth args) ++
      "]"
  | .fromEnd value => "^" ++ value.render depth Level.unary
  | .range start stop =>
    renderExpr? depth Level.unary start ++ ".." ++ renderExpr? depth Level.unary stop
  | .unary op operand =>
    let min :=
      if op = .neg ∧ operand.kind.startsWithMinus = true then Level.primary
      else Level.unary
    op.symbol ++ operand.render depth min
  | .binary op left right =>
    let (leftMin, rightMin) :=
      if op.groupsRight then (op.level + 1, op.level) else (op.level, op.level + 1)
    left.render depth leftMin ++ " " ++ op.symbol ++ " " ++ right.render depth rightMin
  | .assign op target value =>
    target.render depth Level.unary ++ " " ++ (op.map BinaryOp.symbol).getD "" ++ "= " ++
      value.render depth Level.lowest
  | .conditional cond yes no =>
    cond.render depth Level.coalesce ++ " ? " ++ yes.render depth Level.lowest ++ " : " ++
      no.render depth Level.lowest
  | .isPattern subject pattern =>
    subject.render depth Level.relational ++ " is " ++ pattern.render depth 0
  | .typeTest subject type =>
    subject.render depth Level.relational ++ " is " ++ type.render
  | .cast type operand => "(" ++ type.render ++ ")" ++ operand.render depth Level.unary
  | .seq effects value =>
    "(" ++ commaList (renderExprs depth effects ++ [value.render depth Level.lowest]) ++
      ")"
  | .lambda _ params isAsync body =>
    (if isAsync then "async " else "") ++ "(" ++ commaList (renderParams depth params) ++
      ") =>" ++ body.render depth
  | .create type args inits =>
    "new " ++ type.render ++ "(" ++ commaList (renderExprs depth args) ++ ")" ++
      (match inits with
      | [] => ""
      | init :: rest => braceClause (renderInits depth (init :: rest)))
  | .copyWith receiver inits =>
    receiver.render depth (Level.switch + 1) ++ " with" ++
      braceClause (renderInits depth inits)
  | .collection items => "[" ++ commaList (renderExprs depth items) ++ "]"
  | .spread value => ".." ++ value.render depth Level.unary
  | .switch subject arms =>
    subject.render depth Level.range ++ " switch\n" ++ indentText depth ++ "\x7b\n" ++
      renderArms (depth + 1) arms ++ indentText depth ++ "\x7d"
  | .throw value => "throw " ++ value.render depth Level.lowest
  | .defaultOf type =>
    if type.isPresent then "default(" ++ type.render ++ ")" else "default"
  | .tuple items => "(" ++ commaList (renderExprs depth items) ++ ")"
  | .await value => "await " ++ value.render depth Level.unary
  | .interpolated parts => "$\"" ++ renderParts depth parts ++ "\""
  | .declaration type name => type.render ++ " " ++ name
  | .discard => "_"
  | .out value => "out " ++ value.render depth Level.primary
  | .paren inner => "(" ++ inner.render depth Level.lowest ++ ")"

def renderExprs (depth : Nat) : List Expr → List String
  | [] => []
  | node :: rest => node.render depth Level.lowest :: renderExprs depth rest

def renderExpr? (depth min : Nat) : Option Expr → String
  | none => ""
  | some node => node.render depth min

def renderInit? (depth : Nat) : Option Expr → String
  | none => ""
  | some node => " = " ++ node.render depth Level.lowest

def renderGuard? (depth : Nat) : Option Expr → String
  | none => ""
  | some node => " when " ++ node.render depth Level.lowest

def renderOperand? (depth : Nat) : Option Expr → String
  | none => ""
  | some node => " " ++ node.render depth Level.lowest

def renderParams (depth : Nat) : List Param → List String
  | [] => []
  | ⟨type, name, passing, default⟩ :: rest =>
    (passing.render ++ (if type.isPresent then type.render ++ " " else "") ++ name ++
      renderInit? depth default) :: renderParams depth rest

def LambdaBody.render (depth : Nat) : LambdaBody → String
  | .expr value => " " ++ value.render depth Level.lowest
  | .block body => "\n" ++ indentText depth ++ body.renderBraces depth

def renderInits (depth : Nat) : List FieldInit → List String
  | [] => []
  | ⟨name, value⟩ :: rest =>
    (name ++ " = " ++ value.render depth Level.lowest) :: renderInits depth rest

def renderArms (depth : Nat) : List Arm → String
  | [] => ""
  | ⟨_, pattern, guard, result⟩ :: rest =>
    indentText depth ++ pattern.render depth 0 ++ renderGuard? depth guard ++ " => " ++
      result.render depth Level.lowest ++ ",\n" ++ renderArms depth rest

def renderParts (depth : Nat) : List Part → String
  | [] => ""
  | .text text :: rest => Quoted.interpolationText text ++ renderParts depth rest
  | .hole value alignment format :: rest =>
    "\x7b" ++ value.render depth (Level.conditional + 1) ++
      (match alignment with
      | none => ""
      | some width => "," ++ width.render depth Level.lowest) ++
      (if format.isEmpty then "" else ":" ++ format) ++ "\x7d" ++ renderParts depth rest

/-- Print a pattern where anything looser than `min` needs parentheses. -/
def Pattern.render (depth min : Nat) : Pattern → String
  | ⟨_, kind⟩ =>
    if kind.level < min then "(" ++ kind.render depth ++ ")" else kind.render depth

def PatternKind.render (depth : Nat) : PatternKind → String
  | .constant value => value.render depth (Level.relational + 1)
  | .declaration type name => type.render ++ " " ++ name
  | .var name => "var " ++ name
  | .recursive type positional properties designation =>
    let typeText := if type.isPresent then type.render else ""
    let positionalText :=
      match positional with
      | [] => ""
      | first :: rest => "(" ++ commaList (renderPatterns depth (first :: rest)) ++ ")"
    let needsBraces := !properties.isEmpty || positional.isEmpty
    let gap := if type.isPresent || !positional.isEmpty then " " else ""
    let clause :=
      match properties with
      | [] => "\x7b \x7d"
      | first :: rest =>
        "\x7b " ++ commaList (renderProperties depth (first :: rest)) ++ " \x7d"
    typeText ++ positionalText ++ (if needsBraces then gap ++ clause else "") ++
      (if designation.isEmpty then "" else " " ++ designation)
  | .list elements designation =>
    "[" ++ commaList (renderPatterns depth elements) ++ "]" ++
      (if designation.isEmpty then "" else " " ++ designation)
  | .slice none => ".."
  | .slice (some inner) => ".. " ++ inner.render depth 4
  | .relational op value =>
    op.toBinary.symbol ++ " " ++ value.render depth (Level.relational + 1)
  | .type type => type.render
  | .and left right => left.render depth 2 ++ " and " ++ right.render depth 3
  | .or left right => left.render depth 1 ++ " or " ++ right.render depth 2
  | .not inner => "not " ++ inner.render depth 3
  | .discard => "_"
  | .paren inner => "(" ++ inner.render depth 0 ++ ")"

def renderPatterns (depth : Nat) : List Pattern → List String
  | [] => []
  | node :: rest => node.render depth 0 :: renderPatterns depth rest

def renderProperties (depth : Nat) : List PropertyPattern → List String
  | [] => []
  | ⟨path, inner⟩ :: rest =>
    (".".intercalate path ++ ": " ++ inner.render depth 0) :: renderProperties depth rest

/-- A statement between braces, ending at the closing brace. -/
def Stmt.renderBraces (depth : Nat) : Stmt → String
  | ⟨_, .block body⟩ =>
    "\x7b\n" ++ renderStmts (depth + 1) body ++ indentText depth ++ "\x7d"
  | ⟨_, kind⟩ =>
    "\x7b\n" ++ indentText (depth + 1) ++ kind.render (depth + 1) ++ indentText depth ++
      "\x7d"

/-- A statement as lines of its own, the last ending with a line break. -/
def Stmt.render (depth : Nat) : Stmt → String
  | ⟨_, kind⟩ => indentText depth ++ kind.render depth

/-- A statement under `if` or a loop: a block stays at the same depth, any other
    statement goes one deeper. -/
def Stmt.renderEmbedded (depth : Nat) : Stmt → String
  | ⟨_, kind⟩ =>
    let depth := if kind.isBlock then depth else depth + 1
    indentText depth ++ kind.render depth

def renderStmts (depth : Nat) : List Stmt → String
  | [] => ""
  | node :: rest => node.render depth ++ renderStmts depth rest

/-- A statement among those that open a `for`, without its semicolon. -/
def Stmt.renderInline (depth : Nat) : Stmt → String
  | ⟨_, .eval value⟩ => value.render depth Level.lowest
  | ⟨_, .declare type name init⟩ =>
    type.render ++ " " ++ name ++ renderInit? depth init
  | ⟨_, kind⟩ => String.ofList (trimBlankEnd (kind.render 0).toList)

def renderInlines (depth : Nat) : List Stmt → List String
  | [] => []
  | node :: rest => node.renderInline depth :: renderInlines depth rest

def Stmt.renderElse (depth : Nat) : Stmt → String
  | ⟨_, .ifElse cond yes no⟩ => "else " ++ (StmtKind.ifElse cond yes no).render depth
  | ⟨_, kind⟩ =>
    let inner := if kind.isBlock then depth else depth + 1
    "else\n" ++ indentText inner ++ kind.render inner

def StmtKind.render (depth : Nat) : StmtKind → String
  | .block body =>
    "\x7b\n" ++ renderStmts (depth + 1) body ++ indentText depth ++ "\x7d\n"
  | .eval value => value.render depth Level.lowest ++ ";\n"
  | .declare type name init =>
    type.render ++ " " ++ name ++ renderInit? depth init ++ ";\n"
  | .ifElse cond yes no =>
    "if (" ++ cond.render depth Level.lowest ++ ")\n" ++ yes.renderEmbedded depth ++
      (match no with
      | none => ""
      | some other => indentText depth ++ other.renderElse depth)
  | .whileLoop cond body =>
    "while (" ++ cond.render depth Level.lowest ++ ")\n" ++ body.renderEmbedded depth
  | .forLoop init cond step body =>
    "for (" ++ commaList (renderInlines depth init) ++ ";" ++ renderOperand? depth cond ++
      ";" ++
      (match step with
      | [] => ""
      | first :: rest => " " ++ commaList (renderExprs depth (first :: rest))) ++ ")\n" ++
      body.renderEmbedded depth
  | .forEach type name iterable body =>
    "foreach (" ++ type.render ++ " " ++ name ++ " in " ++
      iterable.render depth Level.lowest ++ ")\n" ++ body.renderEmbedded depth
  | .ret value => "return" ++ renderOperand? depth value ++ ";\n"
  | .throw value => "throw" ++ renderOperand? depth value ++ ";\n"
  | .breakLoop => "break;\n"
  | .continueLoop => "continue;\n"
  | .empty => ";\n"
  | .switch subject sections =>
    "switch (" ++ subject.render depth Level.lowest ++ ")\n" ++ indentText depth ++
      "\x7b\n" ++ renderSections (depth + 1) sections ++ indentText depth ++ "\x7d\n"
  | .localFunction name typeParams params ret body =>
    ret.render ++ " " ++ name ++ angleList typeParams ++ "(" ++
      commaList (renderParams depth params) ++ ")" ++ body.render depth

def renderSections (depth : Nat) : List Section → String
  | [] => ""
  | ⟨labels, body⟩ :: rest =>
    renderLabels depth labels ++ renderStmts (depth + 1) body ++
      renderSections depth rest

def renderLabels (depth : Nat) : List Label → String
  | [] => ""
  | .default :: rest => indentText depth ++ "default:\n" ++ renderLabels depth rest
  | .case pattern guard :: rest =>
    indentText depth ++ "case " ++ pattern.render depth 0 ++ renderGuard? depth guard ++
      ":\n" ++ renderLabels depth rest

/-- Body of a member or local function, through the end of its line. -/
def Body.render (depth : Nat) : Body → String
  | .none => ";\n"
  | .expr value => " => " ++ value.render depth Level.lowest ++ ";\n"
  | .block body => "\n" ++ indentText depth ++ body.renderBraces depth ++ "\n"

end

def Expr.text (node : Expr) : String := node.render 0 Level.lowest

/-- The text of a statement by itself, without the line break at its end. -/
def Stmt.text (node : Stmt) : String :=
  String.ofList (trimBlankEnd (node.render 0).toList)

def Pattern.text (node : Pattern) : String := node.render 0 0

end Unsugar
