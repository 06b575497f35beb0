namespace Unsugar

/-! # Passes and when they run -/

inductive PassKind where
  /-- Expression bodies of members and local functions become blocks. -/
  | expressionBodies
  /-- Implicit receivers are written out. -/
  | names
  | deconstruction
  /-- Expression sugar, records and primary constructors. -/
  | desugar
  | localFunctions
  | chainedAssignment
  | staticUsings
  | patterns
  | switchLabels
  deriving DecidableEq, Repr, Inhabited

namespace PassKind

def name : PassKind → String
  | expressionBodies => "expression-bodies"
  | names => "names"
  | deconstruction => "deconstruction"
  | desugar => "desugar"
  | localFunctions => "local-functions"
  | chainedAssignment => "chained-assignment"
  | staticUsings => "static-usings"
  | patterns => "patterns"
  | switchLabels => "switch-labels"

def always : List PassKind := [expressionBodies, names, deconstruction, desugar]

end PassKind

/-- Constructs seen while desugaring; each calls for one more pass. -/
structure Triggers where
  localFunctions : Bool := false
  chainedAssignment : Bool := false
  staticUsings : Bool := false
  patterns : Bool := false
  switchLabels : Bool := false
  deriving DecidableEq, Repr, Inhabited

/-- The passes that follow desugaring, in order.  Local functions go first, so
    that the others see their bodies as lambdas. -/
def Triggers.plan (triggers : Triggers) : List PassKind :=
  [(triggers.localFunctions, .localFunctions),
    (triggers.chainedAssignment, .chainedAssignment),
    (triggers.staticUsings, .staticUsings),
    (triggers.patterns, .patterns),
    (triggers.switchLabels, .switchLabels)].filterMap fun (wanted, pass) =>
      if wanted then some pass else none

end Unsugar
