import TreeShape.Directory
import TreeShape.Node.Edit
import TreeShape.Main
import TreeShape.Proofs.Checker.Typed
import TreeShape.Proofs.Checker.Nesting
import TreeShape.Proofs.Checker.Loading
import TreeShape.Proofs.Checker.Alike
import TreeShape.Proofs.Checker.Options
import TreeShape.Proofs.Checker.Sourced
import TreeShape.Proofs.Checker.Children
import TreeShape.Proofs.Checker.Standing
import TreeShape.Proofs.Position.Order
import TreeShape.Proofs.Source.Breaks
import TreeShape.Proofs.Source.Offsets
import TreeShape.Proofs.Checker.Similar
import TreeShape.Proofs.Source.Intervals
import TreeShape.Proofs.Node.Built
import TreeShape.Proofs.Report.Lines
import TreeShape.Proofs.CommandLine.Outcome
import TreeShape.Proofs.Checker.Columns
import TreeShape.Proofs.Checker.Recovery
import TreeShape.Proofs.Node.Addressed
import TreeShape.Proofs.Position.Faults
import TreeShape.Proofs.Checker.FirstFault
import TreeShape.Proofs.Settings.Merging
import TreeShape.Proofs.Settings.Layers
import TreeShape.Proofs.Checker.Distinct
import TreeShape.Proofs.Checker.Siblings
import TreeShape.Proofs.Checker.Ancestors
import TreeShape.Proofs.Source.Between
import TreeShape.Proofs.Source.BreakStyle
import TreeShape.Proofs.Position.PointSet
import TreeShape.Proofs.Position.Box
import TreeShape.Proofs.Data.Operations
import TreeShape.Proofs.Settings.Optional
