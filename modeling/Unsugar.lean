import Unsugar.Analysis.Text
import Unsugar.Proofs.Build.ConfigDigest
import Unsugar.Proofs.Lower.ChainedAssignments
import Unsugar.Proofs.Print.Declarations
import Unsugar.Proofs.Build.StoredDocuments
import Unsugar.Proofs.Print.ReadBack
import Unsugar.Proofs.Print.Literals
import Unsugar.Proofs.Spans.Provenance
import Unsugar.Proofs.Switch.LoweredRuns
import Unsugar.Proofs.Switch.JumpTargets
import Unsugar.Proofs.Hoist.RepeatedNames
import Unsugar.Proofs.Hoist.Arrivals
import Unsugar.Proofs.Hoist.BranchTests
import Unsugar.Proofs.Patterns.StructuralTests
import Unsugar.Proofs.Patterns.SubjectReads
import Unsugar.Proofs.Expressions.CompositeFormat
import Unsugar.Proofs.Expressions.NullConditional
import Unsugar.Proofs.Expressions.Subscripts
import Unsugar.Proofs.Names.Imports
import Unsugar.Proofs.Records.Symmetry
import Unsugar.Proofs.Types.GenericUses
import Unsugar.Proofs.Types.TypePlaces
import Unsugar.Proofs.Types.InstanceTable
import Unsugar.Proofs.Types.MemberSearches
import Unsugar.Proofs.Analysis.SwitchTypes
import Unsugar.Proofs.Expressions.FoldedConstants
import Unsugar.Proofs.Eval.CallDepth
import Unsugar.Proofs.Eval.StructCopies
import Unsugar.Proofs.Types.ImplicitCasts
import Unsugar.Proofs.Syntax.ParentMaps
import Unsugar.Proofs.Syntax.FreshNames
import Unsugar.Proofs.Interner.Threads
