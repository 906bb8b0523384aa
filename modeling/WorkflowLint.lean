import WorkflowLint.Lexer
import WorkflowLint.Main
import WorkflowLint.Proofs.Acceptance
import WorkflowLint.Proofs.Breakdown
import WorkflowLint.Proofs.Canonical
import WorkflowLint.Proofs.Collection
import WorkflowLint.Proofs.Continuation
import WorkflowLint.Proofs.Coupling
import WorkflowLint.Proofs.Discovery
import WorkflowLint.Proofs.EarlierReports
import WorkflowLint.Proofs.EditorSession
import WorkflowLint.Proofs.Execution
import WorkflowLint.Proofs.Expansion
import WorkflowLint.Proofs.Growth
import WorkflowLint.Proofs.JsonText
import WorkflowLint.Proofs.KnownNames
import WorkflowLint.Proofs.LexerRun
import WorkflowLint.Proofs.LineBreaks
import WorkflowLint.Proofs.LineEnd
import WorkflowLint.Proofs.LintCommand
import WorkflowLint.Proofs.Lookup
import WorkflowLint.Proofs.ManifestReading
import WorkflowLint.Proofs.NamelessStatement
import WorkflowLint.Proofs.Obstacle
import WorkflowLint.Proofs.Offset
import WorkflowLint.Proofs.PathText
import WorkflowLint.Proofs.PatternUnion
import WorkflowLint.Proofs.PlainTree
import WorkflowLint.Proofs.Progress
import WorkflowLint.Proofs.ReadingOrder
import WorkflowLint.Proofs.Recovery
import WorkflowLint.Proofs.Reference
import WorkflowLint.Proofs.Relocation
import WorkflowLint.Proofs.Renaming
import WorkflowLint.Proofs.ReportCount
import WorkflowLint.Proofs.ReportLines
import WorkflowLint.Proofs.ReportJson
import WorkflowLint.Proofs.Reports
import WorkflowLint.Proofs.Resolution
import WorkflowLint.Proofs.Respelling
import WorkflowLint.Proofs.Restart
import WorkflowLint.Proofs.RootName
import WorkflowLint.Proofs.Segmentation
import WorkflowLint.Proofs.Simulation
import WorkflowLint.Proofs.Spacing
import WorkflowLint.Proofs.TokenText
import WorkflowLint.Proofs.Utf8
import WorkflowLint.Proofs.Viability
import WorkflowLint.Proofs.Walk
import WorkflowLint.Token.Display
