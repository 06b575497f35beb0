import Unsugar.Lower.Pass

namespace Unsugar.Pass

/-! # Local functions

A local function becomes a variable that holds a lambda.  All functions of a
block are declared before any of them is assigned, so that they can call each
other; declarations and assignments keep their order at the top of the block.
-/

def lambdaBody (span : Span) (name : String) (typeParams : List String) (params : List Param)
    (body : Body) : Pass LambdaBody := do
  if !typeParams.isEmpty then
    unsupported ("generic local function `" ++ name ++ "`") span
  else if params.any fun param => param.passing != .byValue then
    unsupported ("local function `" ++ name ++ "` with ref, out, in or params parameters") span
  else
    match body with
    | .block body => return .block body
    | .expr value => return .expr value
    | .none => unsupported ("local function `" ++ name ++ "` without a body") span

def functionSyntax (params : List Param) (ret : TypeSyntax) : Pass TypeSyntax := do
  let args := params.map (·.type)
  if (← view).bind ret = .void then return .named "Action" args
  else return .named "Func" (args ++ [ret])

structure FunctionBlock where
  decls : List Stmt := []
  assigns : List Stmt := []
  rest : List Stmt := []

def sortFunctions : List Stmt → Pass FunctionBlock
  | [] => return {}
  | ⟨mark, .localFunction name typeParams params ret body⟩ :: others => do
    let span := mark.span
    let body ← lambdaBody span name typeParams params body
    let type ← functionSyntax params ret
    let assign := span.assign (span.ident name) (span.lambda params body)
    let sorted ← sortFunctions others
    return { sorted with
      decls := span.declare type name none :: sorted.decls
      assigns := ⟨mark, .eval assign⟩ :: sorted.assigns }
  | node :: others => do
    let sorted ← sortFunctions others
    return { sorted with rest := node :: sorted.rest }

def isLocalFunction : Stmt → Bool
  | ⟨_, .localFunction ..⟩ => true
  | _ => false

def localFunctionRules : Rules Pass :=
  { Rules.keep with
    stmt := fun _ node kind => do
      match kind with
      | .block body =>
        if body.any isLocalFunction then
          let sorted ← sortFunctions body
          setStmt node (.block (sorted.decls ++ sorted.assigns ++ sorted.rest))
        else return [{ node with kind }]
      | _ => return [{ node with kind }] }

def localFunctions : Pass CompilationUnit := do
  (← read).unit.rebuild localFunctionRules

end Unsugar.Pass
