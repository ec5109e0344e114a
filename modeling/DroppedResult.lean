import DroppedResult.Error
import DroppedResult.Main
import DroppedResult.Proofs.Traversal
import DroppedResult.Proofs.Reports
import DroppedResult.Proofs.SharedTable
import DroppedResult.Proofs.BoundNames
import DroppedResult.Proofs.SameTrees
import DroppedResult.Proofs.Verdicts
import DroppedResult.Proofs.Relatives
import DroppedResult.Proofs.Specifiers
import DroppedResult.Proofs.MethodChains
import DroppedResult.Proofs.NearestBarrier
import DroppedResult.Proofs.Locality
import DroppedResult.Proofs.Wrapping
import DroppedResult.Proofs.Exclusions
import DroppedResult.Proofs.LeadingImport
import DroppedResult.Proofs.ReceiverChains
import DroppedResult.Proofs.Queries
import DroppedResult.Proofs.PlaceOrder
import DroppedResult.Proofs.Runs
import DroppedResult.Proofs.Discovery
import DroppedResult.Proofs.JsonReading
import DroppedResult.Proofs.JsonReports
import DroppedResult.Proofs.Patterns
import DroppedResult.Proofs.ExitCodes
import DroppedResult.Proofs.Positions
import DroppedResult.Proofs.TextOrder
import DroppedResult.Proofs.Validation
import DroppedResult.Proofs.Defaults
import DroppedResult.Proofs.Selection
import DroppedResult.Proofs.Tallies
import DroppedResult.Proofs.ReportLines
import DroppedResult.Proofs.ColoredReports
import DroppedResult.Proofs.NodeTexts
import DroppedResult.Proofs.RowOrder
import DroppedResult.Proofs.NewConfigs
import DroppedResult.Proofs.CommandRuns
import DroppedResult.Proofs.ArgumentOrder
import DroppedResult.Proofs.ModuleNames
import DroppedResult.Proofs.FileNames
