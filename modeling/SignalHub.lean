import SignalHub.Archive
import SignalHub.Bulletin
import SignalHub.CommandLine.Arguments
import SignalHub.CommandLine.Session
import SignalHub.Courier
import SignalHub.Decimal.Reading
import SignalHub.Decimal.Shortest
import SignalHub.Feed
import SignalHub.Fields
import SignalHub.Filter
import SignalHub.Http.Events
import SignalHub.Http.Ingest
import SignalHub.Http.Matching
import SignalHub.Http.MediaType
import SignalHub.Http.Message
import SignalHub.Http.Param
import SignalHub.Http.Pattern
import SignalHub.Http.Route
import SignalHub.Http.Service
import SignalHub.Http.Transcript
import SignalHub.Hub
import SignalHub.Hub.View
import SignalHub.Json.Basic
import SignalHub.Json.Codec
import SignalHub.Json.Decode
import SignalHub.Json.Node
import SignalHub.Json.Number
import SignalHub.Json.Parser
import SignalHub.Json.Printer
import SignalHub.Json.Problem
import SignalHub.Json.Tagged
import SignalHub.Main
import SignalHub.Memory
import SignalHub.Net.Address
import SignalHub.Proofs.Absence
import SignalHub.Proofs.Accounts
import SignalHub.Proofs.Acts
import SignalHub.Proofs.Answers
import SignalHub.Proofs.Arithmetic
import SignalHub.Proofs.Asking
import SignalHub.Proofs.Branching
import SignalHub.Proofs.Choosing
import SignalHub.Proofs.Concurrency
import SignalHub.Proofs.Conditions
import SignalHub.Proofs.Conversions
import SignalHub.Proofs.Copies
import SignalHub.Proofs.Coverage
import SignalHub.Proofs.Declarations
import SignalHub.Proofs.Delivery
import SignalHub.Proofs.Diary
import SignalHub.Proofs.Digits
import SignalHub.Proofs.Documents
import SignalHub.Proofs.Doubles
import SignalHub.Proofs.Drafts
import SignalHub.Proofs.Endings
import SignalHub.Proofs.Exchange
import SignalHub.Proofs.Exposition
import SignalHub.Proofs.Finishing
import SignalHub.Proofs.Forms
import SignalHub.Proofs.Index
import SignalHub.Proofs.Intake
import SignalHub.Proofs.Interleaving
import SignalHub.Proofs.Invariant
import SignalHub.Proofs.Isolation
import SignalHub.Proofs.Layering
import SignalHub.Proofs.Layouts
import SignalHub.Proofs.Lexemes
import SignalHub.Proofs.Lives
import SignalHub.Proofs.LowerCase
import SignalHub.Proofs.Mailbox
import SignalHub.Proofs.Mounting
import SignalHub.Proofs.Moves
import SignalHub.Proofs.Naming
import SignalHub.Proofs.Numerals
import SignalHub.Proofs.Parameters
import SignalHub.Proofs.Pings
import SignalHub.Proofs.Precedence
import SignalHub.Proofs.Quotation
import SignalHub.Proofs.Receipts
import SignalHub.Proofs.Registers
import SignalHub.Proofs.Reloading
import SignalHub.Proofs.Reports
import SignalHub.Proofs.Rereading
import SignalHub.Proofs.Retention
import SignalHub.Proofs.Rewording
import SignalHub.Proofs.Roster
import SignalHub.Proofs.Rounding
import SignalHub.Proofs.Rounds
import SignalHub.Proofs.Routing
import SignalHub.Proofs.Running
import SignalHub.Proofs.Scalars
import SignalHub.Proofs.Scaling
import SignalHub.Proofs.Scene
import SignalHub.Proofs.Sections
import SignalHub.Proofs.Serving
import SignalHub.Proofs.Settling
import SignalHub.Proofs.Showing
import SignalHub.Proofs.Shutdown
import SignalHub.Proofs.Sizing
import SignalHub.Proofs.Snapshot
import SignalHub.Proofs.Soundness
import SignalHub.Proofs.Spelling
import SignalHub.Proofs.Stamps
import SignalHub.Proofs.Strides
import SignalHub.Proofs.Switching
import SignalHub.Proofs.Transcription
import SignalHub.Proofs.Turn
import SignalHub.Proofs.Turnover
import SignalHub.Proofs.Twins
import SignalHub.Proofs.Vouching
import SignalHub.Proofs.Without
import SignalHub.Proofs.World
import SignalHub.Record
import SignalHub.Record.Attributes
import SignalHub.Record.LogEntry
import SignalHub.Record.MetricPoint
import SignalHub.Record.Span
import SignalHub.Search
import SignalHub.Settings.Basic
import SignalHub.Settings.Directory
import SignalHub.Settings.Display
import SignalHub.Settings.Exchange
import SignalHub.Settings.Given
import SignalHub.Settings.Layer
import SignalHub.Settings.Load
import SignalHub.Settings.Loose
import SignalHub.Settings.Place
import SignalHub.Settings.Source
import SignalHub.Settings.Validity
import SignalHub.Signal
import SignalHub.Site
import SignalHub.Tally
import SignalHub.Text.Integer
import SignalHub.Text.LowerCase
import SignalHub.Text.Order
import SignalHub.Text.Percent
import SignalHub.Text.Quoted
import SignalHub.Text.Ranges
import SignalHub.Text.Unprintable
import SignalHub.Text.Utf8
import SignalHub.Toml.Moment
import SignalHub.Toml.Number
import SignalHub.Toml.Parser
import SignalHub.Toml.Printer
import SignalHub.Toml.Text
import SignalHub.Toml.Tree
import SignalHub.Toml.Value
import SignalHub.TraceReport
import SignalHub.Version
import SignalHub.Window
import SignalHub.Word
