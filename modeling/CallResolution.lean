import CallResolution.Attempt
import CallResolution.Bindings
import CallResolution.CallKind
import CallResolution.Conversion
import CallResolution.Decimal.Floating
import CallResolution.Decimal.Shortest
import CallResolution.Definition
import CallResolution.Dictionary
import CallResolution.Environment
import CallResolution.Error
import CallResolution.Expr
import CallResolution.Generic.Inference
import CallResolution.Generic.Specialization
import CallResolution.Literal
import CallResolution.Member
import CallResolution.Node
import CallResolution.Overload.Candidate
import CallResolution.Overload.Dispatch
import CallResolution.Overload.MemberAccess
import CallResolution.Overload.Ranking
import CallResolution.Overload.Rest
import CallResolution.Reduction.CallSite
import CallResolution.Reduction.LiveMembers
import CallResolution.Reduction.Reduce
import CallResolution.Reduction.State
import CallResolution.Registry.Basic
import CallResolution.Registry.Builtin
import CallResolution.Registry.Instance
import CallResolution.Scope.Basic
import CallResolution.Scope.Chain
import CallResolution.Scope.Forest
import CallResolution.Scope.Match
import CallResolution.Scope.Table
import CallResolution.Scope.TableForest
import CallResolution.Span
import CallResolution.SymbolKey
import CallResolution.Text.Extending
import CallResolution.Text.Hex
import CallResolution.Text.Printable
import CallResolution.Text.Quoted
import CallResolution.Text.Ranges
import CallResolution.Text.Unassigned
import CallResolution.TypeDecl
import CallResolution.TypeId
import CallResolution.XXHash
import CallResolution.Proofs.Answer
import CallResolution.Proofs.Attempt
import CallResolution.Proofs.Conversion.Depth
import CallResolution.Proofs.Generic.Inference
import CallResolution.Proofs.Overload.Congruence
import CallResolution.Proofs.Overload.Prefilter
import CallResolution.Proofs.Overload.Selection
import CallResolution.Proofs.Overload.Soundness
import CallResolution.Proofs.Overload.Stages
import CallResolution.Proofs.Reduction.Alike
import CallResolution.Proofs.Reduction.LiveMembers
import CallResolution.Proofs.Reduction.Renaming
import CallResolution.Proofs.Registry.Growth
import CallResolution.Proofs.Registry.Reachable
import CallResolution.Proofs.Scope.Match
import CallResolution.Proofs.Registry.Instantiation
import CallResolution.Proofs.Registry.Failure
import CallResolution.Proofs.Conversion.Order
import CallResolution.Proofs.Scope.Specificity
import CallResolution.Proofs.Registry.Termination
import CallResolution.Proofs.Registry.Settling
import CallResolution.Proofs.Registry.Steady
import CallResolution.Proofs.Registry.Confluence
import CallResolution.Proofs.Reduction.Restoration
import CallResolution.Proofs.Overload.Survivors
import CallResolution.Proofs.Reduction.WellScoped
import CallResolution.Proofs.Scope.Inherited
import CallResolution.Proofs.Registry.Coherence
import CallResolution.Proofs.Environment.Sealing
import CallResolution.Proofs.Registry.Accounted
import CallResolution.Proofs.Conversion.Agreement
import CallResolution.Proofs.Tandem
import CallResolution.Proofs.Overload.Tandem
import CallResolution.Proofs.Reduction.Tandem
import CallResolution.Proofs.Registry.Closure
import CallResolution.Proofs.Registry.Lockstep
import CallResolution.Proofs.Environment.History
import CallResolution.Proofs.Reduction.Growth
import CallResolution.Proofs.Scope.Table
import CallResolution.Proofs.Scope.TableForest
import CallResolution.Proofs.Scope.Refinement
import CallResolution.Proofs.Scope.Digest
import CallResolution.Proofs.Scope.Ranking
import CallResolution.Proofs.Conversion.Hierarchy
import CallResolution.Proofs.Conversion.Termination
import CallResolution.Proofs.Conversion.Listing
import CallResolution.Proofs.Conversion.Inheritance
import CallResolution.Proofs.Registry.Image
import CallResolution.Proofs.Registry.Composition
import CallResolution.Proofs.Registry.Refusal
import CallResolution.Proofs.Conversion.Openness
import CallResolution.Proofs.Conversion.Stability
import CallResolution.Proofs.Overload.Permutation
import CallResolution.Proofs.Overload.TypeArgs
import CallResolution.Proofs.Generic.Recovery
import CallResolution.Proofs.Overload.Indexer
import CallResolution.Proofs.Overload.Failure
import CallResolution.Proofs.Registry.Arrays
import CallResolution.Proofs.Reduction.Diagnostics
import CallResolution.Proofs.Reduction.DepthLimit
import CallResolution.Proofs.Identity
import CallResolution.Proofs.Conversion.Position
