import ImportChart.Main
import ImportChart.Pattern.Laws
import ImportChart.Reference.Scan.Laws
import ImportChart.Proofs.Reference.Placement
import ImportChart.Proofs.Reference.Resolution
import ImportChart.Proofs.Graph.Trace
import ImportChart.Proofs.Graph.Construction
import ImportChart.Proofs.Graph.Agreement
import ImportChart.Proofs.Analysis.Account
import ImportChart.Proofs.Graph.Listing
import ImportChart.Proofs.Graph.Listing.WellFormed
import ImportChart.Proofs.Graph.Successors
import ImportChart.Proofs.Pattern.Reading
import ImportChart.Proofs.Reference.Passage
import ImportChart.Proofs.Language.Lexical
import ImportChart.Proofs.Language.Javascript.Step
import ImportChart.Proofs.Language.Javascript.Template
import ImportChart.Proofs.Language.Javascript.Statement
import ImportChart.Proofs.Language.Comment
import ImportChart.Proofs.Language.Go.PackageImport
import ImportChart.Proofs.Reference.Lines
import ImportChart.Proofs.Language.Python.CommaList
import ImportChart.Proofs.Language.Python.ModuleImport
import ImportChart.Proofs.Reference.Header
import ImportChart.Proofs.Graph.Diagram
import ImportChart.Proofs.Graph.Styling
import ImportChart.Proofs.Graph.Statistics
import ImportChart.Proofs.Analysis.Files
import ImportChart.Proofs.Analysis.Provenance
import ImportChart.Proofs.Analysis.Lines
import ImportChart.Proofs.Analysis.Sharing
import ImportChart.Proofs.Analysis.Focus
import ImportChart.Proofs.Analysis.FocusedGraph
import ImportChart.Proofs.Analysis.Limit
import ImportChart.Proofs.Analysis.Reports
import ImportChart.Proofs.Tree.Record
import ImportChart.Proofs.FileSystem
import ImportChart.Proofs.Walk
import ImportChart.Proofs.Run.Outcome
import ImportChart.Proofs.Run.Validation
import ImportChart.Proofs.Analysis.Loading
import ImportChart.Proofs.Reference.Index
import ImportChart.Proofs.Reference.Relative
import ImportChart.Proofs.Reference.Growth
import ImportChart.Proofs.Summary
import ImportChart.Proofs.Summary.Records
import ImportChart.Proofs.Text.ByteOrder
import ImportChart.Proofs.Tree.Annotation
import ImportChart.Proofs.Tree.Insertion
import ImportChart.Proofs.Tree.Level
import ImportChart.Proofs.Tree.Rebuilding
import ImportChart.Proofs.Graph.Filtering
import ImportChart.Proofs.Reference.Keyword
import ImportChart.Proofs.Text.LastPart
import ImportChart.Proofs.Language.Recognition
import ImportChart.Proofs.Language.Library
import ImportChart.Proofs.Reference.LookBack
import ImportChart.Proofs.Reference.Cursor
import ImportChart.Proofs.Language.Javascript.OpenTemplate
import ImportChart.Proofs.Reference.Progress
