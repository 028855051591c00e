import PromptAudit.Audit.Entry
import PromptAudit.Audit.Run
import PromptAudit.Audit.Unit
import PromptAudit.Audit.Workspace
import PromptAudit.Call.Basic
import PromptAudit.Call.Constant
import PromptAudit.Call.Receiver
import PromptAudit.Call.Region
import PromptAudit.Command.Complaint
import PromptAudit.Command.Help
import PromptAudit.Command.Listing
import PromptAudit.Command.Log
import PromptAudit.Command.Request
import PromptAudit.Command.Run
import PromptAudit.Command.Step
import PromptAudit.Command.Switch
import PromptAudit.Command.Token
import PromptAudit.Discovery
import PromptAudit.Finding
import PromptAudit.Grammar
import PromptAudit.Ignore.Glob
import PromptAudit.Ignore.Pattern
import PromptAudit.Literal.Key
import PromptAudit.Literal.Numeral
import PromptAudit.Main
import PromptAudit.Meter
import PromptAudit.Notice
import PromptAudit.Number.Double
import PromptAudit.Number.Fixed
import PromptAudit.Number.Reading
import PromptAudit.Number.Shortest
import PromptAudit.Policy
import PromptAudit.Problem
import PromptAudit.Proofs.Audit.Alone
import PromptAudit.Proofs.Audit.Files
import PromptAudit.Proofs.Audit.Look
import PromptAudit.Proofs.Audit.Selection
import PromptAudit.Proofs.Audit.Unit
import PromptAudit.Proofs.Call.Binding
import PromptAudit.Proofs.Call.Keyword
import PromptAudit.Proofs.Call.Receiver
import PromptAudit.Proofs.Call.Resolution
import PromptAudit.Proofs.Call.Scope
import PromptAudit.Proofs.List.Sorted
import PromptAudit.Proofs.Literal.Numeral
import PromptAudit.Proofs.Meter.History
import PromptAudit.Proofs.Number.Range
import PromptAudit.Proofs.Rule.Injection
import PromptAudit.Proofs.Rule.Steady
import PromptAudit.Proofs.Rule.Temperature
import PromptAudit.Proofs.Rule.Termination
import PromptAudit.Proofs.Text.Feed
import PromptAudit.Proofs.Text.Occurrence
import PromptAudit.Proofs.Text.Order
import PromptAudit.Proofs.Tree.Body
import PromptAudit.Proofs.Tree.Enclosure
import PromptAudit.Proofs.Tree.Interpolation
import PromptAudit.Proofs.Tree.Line
import PromptAudit.Proofs.Tree.Numbering
import PromptAudit.Proofs.Tree.Pairing
import PromptAudit.Proofs.Tree.Scope
import PromptAudit.Proofs.Tree.Sketch
import PromptAudit.Proofs.Wording.Body
import PromptAudit.Proofs.Wording.Live
import PromptAudit.Proofs.Wording.Merge
import PromptAudit.Proofs.Wording.Opening
import PromptAudit.Report
import PromptAudit.Report.Document
import PromptAudit.Report.Format
import PromptAudit.Report.Plain
import PromptAudit.Rule.Basic
import PromptAudit.Rule.Budget
import PromptAudit.Rule.Heading
import PromptAudit.Rule.Injection
import PromptAudit.Rule.Sections
import PromptAudit.Rule.Selection
import PromptAudit.Rule.Temperature
import PromptAudit.Rule.Termination
import PromptAudit.Setting.Basic
import PromptAudit.Setting.Coerce
import PromptAudit.Setting.EnvFile
import PromptAudit.Setting.Fields
import PromptAudit.Setting.Sources
import PromptAudit.Storage.Disk
import PromptAudit.Storage.Locate
import PromptAudit.Storage.Path
import PromptAudit.Text.Basic
import PromptAudit.Text.Decode
import PromptAudit.Text.Digit
import PromptAudit.Text.HiddenRuns
import PromptAudit.Text.LetterRuns
import PromptAudit.Text.Lines
import PromptAudit.Text.Lower
import PromptAudit.Text.Quoted
import PromptAudit.Text.Word
import PromptAudit.Text.WordRuns
import PromptAudit.Tree.Basic
import PromptAudit.Tree.Definition
import PromptAudit.Tree.Forest
import PromptAudit.Tree.Heredoc
import PromptAudit.Tree.Kind
import PromptAudit.Tree.Position
import PromptAudit.Tree.Rows
import PromptAudit.Value
import PromptAudit.Wording.Basic
import PromptAudit.Wording.Escape
import PromptAudit.Wording.Fragment
import PromptAudit.Wording.Heredoc
import PromptAudit.Wording.Tag
import PromptAudit.Proofs.Rule.Sections
import PromptAudit.Proofs.List.Matching
import PromptAudit.Proofs.Tree.Copy
import PromptAudit.Proofs.Call.Shape
import PromptAudit.Proofs.Rule.Shape
import PromptAudit.Proofs.Call.Tightening
import PromptAudit.Proofs.Rule.Tightening
import PromptAudit.Proofs.Audit.Tightening
import PromptAudit.Proofs.Tree.Alike
import PromptAudit.Proofs.Rule.Alike
import PromptAudit.Proofs.Tree.Placement
import PromptAudit.Proofs.Audit.Placement
import PromptAudit.Proofs.Storage.Entries
import PromptAudit.Proofs.Storage.Locate
import PromptAudit.Proofs.Storage.Settle
import PromptAudit.Proofs.List.Runs
import PromptAudit.Proofs.Discovery.Turn
import PromptAudit.Proofs.Discovery.Walk
import PromptAudit.Proofs.Discovery.Eligible
import PromptAudit.Proofs.Discovery.Containment
import PromptAudit.Proofs.Discovery.Search
import PromptAudit.Proofs.Discovery.Places
import PromptAudit.Proofs.Meter.Sequence
import PromptAudit.Proofs.Number.Decimal
import PromptAudit.Proofs.Setting.Limit
import PromptAudit.Proofs.Call.Lookup
import PromptAudit.Proofs.Wording.Dedent
import PromptAudit.Proofs.Wording.Ink
import PromptAudit.Proofs.Tree.Piece
import PromptAudit.Proofs.Rule.Budget
import PromptAudit.Proofs.Text.Pieces
import PromptAudit.Proofs.Report.Tally
import PromptAudit.Proofs.Report.Plain
import PromptAudit.Proofs.Report.Agreement
import PromptAudit.Proofs.Rule.Middle
import PromptAudit.Proofs.Call.Constant
import PromptAudit.Proofs.Literal.Integer
import PromptAudit.Proofs.Literal.Worth
import PromptAudit.Proofs.Rule.Precision
import PromptAudit.Proofs.Text.Decode
import PromptAudit.Proofs.Tree.DecodedLine
import PromptAudit.Proofs.Text.Pattern
import PromptAudit.Proofs.Wording.Search
import PromptAudit.Proofs.Text.Lines
import PromptAudit.Proofs.Rule.Headed
import PromptAudit.Proofs.Rule.Heading
import PromptAudit.Proofs.Literal.Key
import PromptAudit.Proofs.Discovery.Descent
import PromptAudit.Proofs.Tree.Subtree
import PromptAudit.Proofs.Tree.Preorder
import PromptAudit.Proofs.Tree.Stack
import PromptAudit.Proofs.Text.CommaItems
import PromptAudit.Proofs.Setting.CommaList
import PromptAudit.Proofs.Text.LineFeeds
import PromptAudit.Proofs.Rule.LineFeeds
