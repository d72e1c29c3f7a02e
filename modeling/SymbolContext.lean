import SymbolContext.CommandLine
import SymbolContext.Definition.Bracket
import SymbolContext.Definition.Expand
import SymbolContext.Diagnostic
import SymbolContext.Duration
import SymbolContext.Error
import SymbolContext.Excerpt.Block
import SymbolContext.Excerpt.LineRange
import SymbolContext.Excerpt.Numbered
import SymbolContext.FileTree.Basic
import SymbolContext.FileTree.Sources
import SymbolContext.Frame
import SymbolContext.Json.Decode
import SymbolContext.Json.Double
import SymbolContext.Json.Number
import SymbolContext.Json.Reader
import SymbolContext.Json.Token
import SymbolContext.Json.Value
import SymbolContext.Json.Writer
import SymbolContext.Location
import SymbolContext.LogSettings
import SymbolContext.Main
import SymbolContext.OpenFiles
import SymbolContext.Path
import SymbolContext.Program
import SymbolContext.Proofs.Definition.Closure
import SymbolContext.Proofs.Definition.InPlace
import SymbolContext.Proofs.Definition.Innermost
import SymbolContext.Proofs.Definition.Matching
import SymbolContext.Proofs.Excerpt.Merge
import SymbolContext.Proofs.Excerpt.NormalForm
import SymbolContext.Proofs.Excerpt.Rows
import SymbolContext.Proofs.Excerpt.Shown
import SymbolContext.Proofs.Excerpt.Unnumbered
import SymbolContext.Proofs.Excerpt.Windows
import SymbolContext.Proofs.FileTree.Places
import SymbolContext.Proofs.FileTree.Sources
import SymbolContext.Proofs.Frame.Failure
import SymbolContext.Proofs.Frame.Grammar
import SymbolContext.Proofs.Frame.RoundTrip
import SymbolContext.Proofs.Frame.Stream
import SymbolContext.Proofs.Json.Fits
import SymbolContext.Proofs.Json.Literal
import SymbolContext.Proofs.Json.Record
import SymbolContext.Proofs.Json.RoundTrip
import SymbolContext.Proofs.Json.Rounding
import SymbolContext.Proofs.Json.Shortest
import SymbolContext.Proofs.Location.Compact
import SymbolContext.Proofs.LogSettings.ProcessFiles
import SymbolContext.Proofs.OpenFiles.History
import SymbolContext.Proofs.OpenFiles.Mirror
import SymbolContext.Proofs.Path.Parent
import SymbolContext.Proofs.Path.Parts
import SymbolContext.Proofs.Program.Calls
import SymbolContext.Proofs.Program.Cleanup
import SymbolContext.Proofs.Program.Events
import SymbolContext.Proofs.Query.Definitions
import SymbolContext.Proofs.Query.Grouping
import SymbolContext.Proofs.Query.Numbering
import SymbolContext.Proofs.Query.Oracle
import SymbolContext.Proofs.Query.Partition
import SymbolContext.Proofs.Query.References
import SymbolContext.Proofs.Rpc.Closing
import SymbolContext.Proofs.Rpc.Correlation
import SymbolContext.Proofs.Rpc.Line
import SymbolContext.Proofs.Rpc.Replies
import SymbolContext.Proofs.Rpc.Steps
import SymbolContext.Proofs.Server.Discipline
import SymbolContext.Proofs.Symbol.Shapes
import SymbolContext.Proofs.Text.ByteOrder
import SymbolContext.Proofs.Text.Decimal
import SymbolContext.Proofs.Text.Lines
import SymbolContext.Proofs.Text.Lossy
import SymbolContext.Proofs.Text.Utf8
import SymbolContext.Proofs.Trace
import SymbolContext.Proofs.Uri.File
import SymbolContext.Proofs.Uri.RoundTrip
import SymbolContext.Proofs.WarmUp.Candidates
import SymbolContext.Proofs.WarmUp.Opening
import SymbolContext.Query.Backend
import SymbolContext.Query.Definitions
import SymbolContext.Query.Matches
import SymbolContext.Query.References
import SymbolContext.Rehearsal.Child
import SymbolContext.Rehearsal.Link
import SymbolContext.Rehearsal.Peer
import SymbolContext.Rehearsal.Scene
import SymbolContext.Rehearsal.Script
import SymbolContext.Rehearsal.Shell
import SymbolContext.Rehearsal.Stage
import SymbolContext.Rehearsal.StandIn
import SymbolContext.Rpc.Connection
import SymbolContext.Rpc.Message
import SymbolContext.Server.Client
import SymbolContext.Server.Process
import SymbolContext.Server.Session
import SymbolContext.Settings
import SymbolContext.Symbol.Hit
import SymbolContext.Symbol.Outline
import SymbolContext.Symbol.Payload
import SymbolContext.Text.Blank
import SymbolContext.Text.Decimal
import SymbolContext.Text.Extending
import SymbolContext.Text.Lines
import SymbolContext.Text.Quoted
import SymbolContext.Text.Unprintable
import SymbolContext.Text.Utf8
import SymbolContext.Uri.Basic
import SymbolContext.Uri.File
import SymbolContext.Uri.Host
import SymbolContext.WarmUp
