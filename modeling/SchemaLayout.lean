import SchemaLayout.Main
import SchemaLayout.Samples
import SchemaLayout.Proofs.Names.Distinct
import SchemaLayout.Proofs.Names.Entries
import SchemaLayout.Proofs.Names.Lookup
import SchemaLayout.Proofs.Names.Fallible
import SchemaLayout.Proofs.Text.Kebab
import SchemaLayout.Proofs.Text.Hyphens
import SchemaLayout.Proofs.Schema.Validity
import SchemaLayout.Proofs.Schema.Building
import SchemaLayout.Proofs.Format.Records
import SchemaLayout.Proofs.Format.Definitions
import SchemaLayout.Proofs.Format.Trees
import SchemaLayout.Proofs.Schema.Substitution
import SchemaLayout.Proofs.Schema.Renaming
import SchemaLayout.Proofs.Folding.Labels
import SchemaLayout.Proofs.Folding.Shapes
import SchemaLayout.Proofs.Folding.Refinement
import SchemaLayout.Proofs.Folding.Coarsest
import SchemaLayout.Proofs.Folding.Validity
import SchemaLayout.Proofs.Folding.Survivors
import SchemaLayout.Proofs.Folding.Fixpoint
import SchemaLayout.Proofs.Folding.Widening
import SchemaLayout.Proofs.Reserved.Idempotence
import SchemaLayout.Proofs.Filters.Groups
import SchemaLayout.Proofs.Filters.Merging
import SchemaLayout.Proofs.Filters.Placement
import SchemaLayout.Proofs.Filters.Validity
import SchemaLayout.Proofs.Filters.Joining
import SchemaLayout.Proofs.Filters.Combining
import SchemaLayout.Proofs.Filters.Outcome
import SchemaLayout.Proofs.Filters.Counting
import SchemaLayout.Proofs.AtomicOperations.Pinning
import SchemaLayout.Proofs.AtomicOperations.Replacing
import SchemaLayout.Proofs.AtomicOperations.Uncovering
import SchemaLayout.Proofs.Pipeline.Validity
import SchemaLayout.Proofs.Pipeline.Operations
import SchemaLayout.Proofs.Pipeline.Settling
import SchemaLayout.Proofs.Output.Reachability
import SchemaLayout.Proofs.Output.Verification
import SchemaLayout.Proofs.Output.Planning
import SchemaLayout.Proofs.Output.Placement
import SchemaLayout.Proofs.Output.Arrangement
import SchemaLayout.Proofs.Output.Outcome
import SchemaLayout.Proofs.Output.Declarations
import SchemaLayout.Proofs.Output.Resolution
import SchemaLayout.Proofs.Output.Segments
import SchemaLayout.Proofs.Output.Patterns
import SchemaLayout.Proofs.Output.Grammar
import SchemaLayout.Proofs.Output.PlainPaths
import SchemaLayout.Proofs.Output.Specifiers
import SchemaLayout.Proofs.Output.Verdict
import SchemaLayout.Proofs.Output.PlannedFiles
import SchemaLayout.Proofs.Output.Collisions
import SchemaLayout.Proofs.Schema.SecondRenaming
import SchemaLayout.Proofs.Schema.ListingOrder
import SchemaLayout.Proofs.Schema.LeafRewrites
import SchemaLayout.Proofs.Reserved.Outcome
import SchemaLayout.Proofs.Pipeline.Untouched
import SchemaLayout.Proofs.Pipeline.Report
