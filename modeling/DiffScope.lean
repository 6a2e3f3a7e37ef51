import DiffScope.Json.Reader
import DiffScope.Proofs.Json.Tokens
import DiffScope.Proofs.Json.Values
import DiffScope.Proofs.Report.Encoding
import DiffScope.Main
import DiffScope.Proofs.Checked
import DiffScope.Proofs.Syntax.Lines
import DiffScope.Proofs.Syntax.Nesting
import DiffScope.Proofs.Scope.Search
import DiffScope.Proofs.Scope.Selection
import DiffScope.Proofs.Snippet.Windows
import DiffScope.Proofs.Scope.Smallest
import DiffScope.Proofs.Extract.SmallestUnits
import DiffScope.Proofs.Component.Regions
import DiffScope.Proofs.Snippet.Limits
import DiffScope.Proofs.Extract.Placement
import DiffScope.Proofs.Diff.Scan
import DiffScope.Proofs.Extract.Batch
import DiffScope.Proofs.Extract.Isolation
import DiffScope.Proofs.Diff.Header
import DiffScope.Proofs.Diff.Writing
import DiffScope.Proofs.Diff.RoundTrip
import DiffScope.Proofs.Diff.Meaning
import DiffScope.Proofs.Component.Moved
import DiffScope.Proofs.Component.Writing
import DiffScope.Proofs.Component.Tags
import DiffScope.Proofs.Component.Contents
import DiffScope.Proofs.Component.Splitting
import DiffScope.Proofs.Component.Stretches
import DiffScope.Proofs.Diff.Localized
import DiffScope.Proofs.Extract.Units
import DiffScope.Proofs.Extract.Files
import DiffScope.Proofs.Extract.Coherent
import DiffScope.Proofs.Extract.Bounds
import DiffScope.Proofs.Extract.GoodOrder
import DiffScope.Proofs.Extract.Scheduling
import DiffScope.Proofs.Extract.ToldOnce
import DiffScope.Proofs.Extract.WindowedLines
import DiffScope.Proofs.Extract.Marks
import DiffScope.Proofs.Extract.Moved
import DiffScope.Proofs.Scope.Kept
import DiffScope.Proofs.Scope.Coverage
import DiffScope.Proofs.Scope.Walk
import DiffScope.Proofs.Snippet.Rows
import DiffScope.Proofs.Snippet.Spread
import DiffScope.Proofs.Snippet.Around
import DiffScope.Proofs.Snippet.Moved
import DiffScope.Proofs.Text.Pieces
import DiffScope.Proofs.Text.ByteOrder
import DiffScope.Proofs.Command.Views
import DiffScope.Proofs.Diff.Joining
import DiffScope.Proofs.Diff.Numbering
import DiffScope.Proofs.Snippet.Source
import DiffScope.Proofs.Diff.Grammar
import DiffScope.Proofs.Diff.Strict
import DiffScope.Proofs.Diff.Remapping
import DiffScope.Proofs.Component.Closed
import DiffScope.Proofs.Syntax.Faults
import DiffScope.Proofs.Scope.Options
import DiffScope.Proofs.Component.Kinds
import DiffScope.Proofs.Config.Layers
import DiffScope.Proofs.Snippet.Merged
import DiffScope.Proofs.Scope.Keys
import DiffScope.Proofs.Config.Saving
