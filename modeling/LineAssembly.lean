import LineAssembly.Command.Directory
import LineAssembly.Command.Execute
import LineAssembly.Command.Options
import LineAssembly.Command.Path
import LineAssembly.Json.Basic
import LineAssembly.Json.Display
import LineAssembly.Json.Integer
import LineAssembly.Json.Lexeme
import LineAssembly.Json.Parse
import LineAssembly.Json.Render
import LineAssembly.Machine.Fault
import LineAssembly.Machine.Snapshot
import LineAssembly.Machine.State
import LineAssembly.Machine.Table
import LineAssembly.Main
import LineAssembly.Number.Binary64
import LineAssembly.Number.Decimal
import LineAssembly.Number.Hex
import LineAssembly.Number.Shortest
import LineAssembly.Proofs.Number.Decimal
import LineAssembly.Proofs.Source.Blocks
import LineAssembly.Proofs.Source.Listing
import LineAssembly.Proofs.Source.Relocation
import LineAssembly.Proofs.Text.Lines
import LineAssembly.Proofs.Source.TokenOrder
import LineAssembly.Report.Caret
import LineAssembly.Report.Console
import LineAssembly.Report.Message
import LineAssembly.Report.Page
import LineAssembly.Report.Styled
import LineAssembly.Run.Effect
import LineAssembly.Run.Problem
import LineAssembly.Run.Routine
import LineAssembly.Run.Session
import LineAssembly.Run.Operation
import LineAssembly.Run.Step
import LineAssembly.Run.Trace
import LineAssembly.Source.Item
import LineAssembly.Source.Listing
import LineAssembly.Source.Program
import LineAssembly.Source.Routine
import LineAssembly.Source.Token
import LineAssembly.Source.Word
import LineAssembly.Text.Blank
import LineAssembly.Text.DecimalDigit
import LineAssembly.Text.Document
import LineAssembly.Text.Lines
import LineAssembly.Text.Printable
import LineAssembly.Text.Quoted
import LineAssembly.Text.Ranges
import LineAssembly.Text.Width
import LineAssembly.Proofs.Source.Grouping
import LineAssembly.Proofs.Source.Retention
import LineAssembly.Proofs.Run.Statement
import LineAssembly.Proofs.Run.Congruence
import LineAssembly.Proofs.Run.ControlFlow
import LineAssembly.Proofs.Source.Literals
import LineAssembly.Proofs.Run.Noninterference
import LineAssembly.Proofs.Run.Script
import LineAssembly.Proofs.Run.Outcome
import LineAssembly.Proofs.Run.Watching
import LineAssembly.Proofs.Report.Ledger
import LineAssembly.Proofs.Run.Scope
import LineAssembly.Proofs.Run.Failure
import LineAssembly.Proofs.Run.CallDepth
import LineAssembly.Proofs.Run.Provenance
import LineAssembly.Proofs.Run.Halting
import LineAssembly.Proofs.Json.RoundTrip
import LineAssembly.Proofs.Machine.Snapshot
import LineAssembly.Proofs.Source.Layout
import LineAssembly.Proofs.Run.Layout
import LineAssembly.Proofs.Source.Concatenation
import LineAssembly.Proofs.Run.Relocation
import LineAssembly.Proofs.Run.Reachability
import LineAssembly.Proofs.Run.StackHeight
import LineAssembly.Proofs.Source.Definitions
import LineAssembly.Proofs.Run.DefinitionOrder
import LineAssembly.Proofs.Run.PortCount
import LineAssembly.Proofs.Run.Tracing
import LineAssembly.Proofs.Run.LineEndings
import LineAssembly.Proofs.Source.IdleLines
import LineAssembly.Proofs.Run.IdleLines
import LineAssembly.Proofs.Source.Spelling
import LineAssembly.Proofs.Source.Comments
import LineAssembly.Proofs.Source.Grammar
import LineAssembly.Proofs.Run.Names
import LineAssembly.Proofs.Run.Writable
import LineAssembly.Proofs.Command.Report
import LineAssembly.Proofs.Source.Partition
import LineAssembly.Proofs.Source.Scanning
import LineAssembly.Proofs.Source.OneLine
import LineAssembly.Proofs.Source.Overlong
import LineAssembly.Proofs.Run.Quotation
import LineAssembly.Proofs.Report.Console
import LineAssembly.Proofs.Run.Arithmetic
import LineAssembly.Proofs.Run.Frame
import LineAssembly.Proofs.Source.Spans
import LineAssembly.Proofs.Report.Pointing
import LineAssembly.Proofs.Report.Alignment
import LineAssembly.Proofs.Report.Styles
import LineAssembly.Proofs.Text.Joining
import LineAssembly.Proofs.Source.Numbering
import LineAssembly.Proofs.Run.Labels
import LineAssembly.Proofs.Text.Quoted
import LineAssembly.Proofs.Machine.Table
import LineAssembly.Proofs.Number.Hex
import LineAssembly.Proofs.Source.Munch
