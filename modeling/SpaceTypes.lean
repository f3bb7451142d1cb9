import SpaceTypes.Text.CodePoints
import SpaceTypes.Text.Blank
import SpaceTypes.Text.Colour
import SpaceTypes.Text.Quoted
import SpaceTypes.Text.Alphanumeric
import SpaceTypes.Property
import SpaceTypes.Registry
import SpaceTypes.Registry.Separation
import SpaceTypes.Registry.Coherence
import SpaceTypes.Mapping
import SpaceTypes.NameTable
import SpaceTypes.Hierarchy
import SpaceTypes.Ty
import SpaceTypes.Ty.Outline
import SpaceTypes.Ty.WellFormed
import SpaceTypes.Ty.Subtype
import SpaceTypes.Refinement
import SpaceTypes.Failure
import SpaceTypes.Context
import SpaceTypes.TypeExpr
import SpaceTypes.TypeExpr.Parser
import SpaceTypes.AssemblyError
import SpaceTypes.DependentDraft
import SpaceTypes.Constraint
import SpaceTypes.Constraint.Report
import SpaceTypes.Constraint.System
import SpaceTypes.Environment
import SpaceTypes.Config
import SpaceTypes.Inference.Variables
import SpaceTypes.Inference.Error
import SpaceTypes.Inference.Goal
import SpaceTypes.Inference.Solution
import SpaceTypes.Inference.GoalSystem
import SpaceTypes.Declaration
import SpaceTypes.Program.Error
import SpaceTypes.Program.Collection
import SpaceTypes.Program
import SpaceTypes.Proofs.Recorded
import SpaceTypes.Proofs.Moves
import SpaceTypes.Proofs.Soundness
import SpaceTypes.Proofs.Errors
import SpaceTypes.Proofs.Convergence
import SpaceTypes.Proofs.Provenance
import SpaceTypes.Proofs.Completeness
import SpaceTypes.Proofs.Replay
import SpaceTypes.Proofs.Saturation
import SpaceTypes.Proofs.RegistryRuns
import SpaceTypes.Proofs.Growth
import SpaceTypes.Proofs.Endings
import SpaceTypes.Proofs.NameOrder
import SpaceTypes.Proofs.Subtyping
import SpaceTypes.Proofs.SubtypeOrder
import SpaceTypes.Proofs.Grammar
import SpaceTypes.Proofs.RoundTrip
import SpaceTypes.Proofs.LeastTypes
import SpaceTypes.Proofs.GoalOrder
import SpaceTypes.Proofs.Collected
import SpaceTypes.Proofs.Inheritance
import SpaceTypes.Proofs.Reporting
import SpaceTypes.Proofs.SystemRuns
import SpaceTypes.Proofs.Verification
import SpaceTypes.Proofs.Accepted
import SpaceTypes.Proofs.Preservation
import SpaceTypes.Proofs.DeclarationOrder
import SpaceTypes.Proofs.ProgramTypes
import SpaceTypes.Proofs.Places
import SpaceTypes.Proofs.ProgramVerdicts
import SpaceTypes.Proofs.ProgramSafety
import SpaceTypes.Proofs.Blame
import SpaceTypes.Proofs.ConstraintTrees
import SpaceTypes.Proofs.Refusals
import SpaceTypes.Proofs.IllFormed
import SpaceTypes.Proofs.EnvironmentRuns
