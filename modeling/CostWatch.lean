import CostWatch.Change.Baselines
import CostWatch.Change.Digest
import CostWatch.Change.Normal
import CostWatch.Change.Significance
import CostWatch.Command.Analyzer
import CostWatch.Command.Line
import CostWatch.Command.Program
import CostWatch.Command.Rehearsal
import CostWatch.Command.Words
import CostWatch.Config
import CostWatch.Cost.Cache
import CostWatch.Cost.History
import CostWatch.Cost.Moment
import CostWatch.Cost.Record
import CostWatch.Cost.Report
import CostWatch.Cost.Store
import CostWatch.Cost.Whitelist
import CostWatch.Disk
import CostWatch.Failure
import CostWatch.Files
import CostWatch.Folder
import CostWatch.Grammar.Reading
import CostWatch.Grammar.Rule
import CostWatch.Grammar.State
import CostWatch.Grammar.Tables
import CostWatch.Grammar.Tree
import CostWatch.Host
import CostWatch.Java.Declarations
import CostWatch.Java.Grammar
import CostWatch.Java.Part
import CostWatch.Java.Terminal
import CostWatch.Java.Token
import CostWatch.Json.Fault
import CostWatch.Json.Printer
import CostWatch.Json.Reader
import CostWatch.Json.Real
import CostWatch.Json.Schema
import CostWatch.Json.Source
import CostWatch.Json.Tagged
import CostWatch.Json.Value
import CostWatch.Ledger.Archive
import CostWatch.Ledger.Basic
import CostWatch.Ledger.Storage
import CostWatch.Main
import CostWatch.NatMap
import CostWatch.Page
import CostWatch.Path
import CostWatch.Proofs.Change.Comparison
import CostWatch.Proofs.Change.Equivalence
import CostWatch.Proofs.Change.Fingerprints
import CostWatch.Proofs.Change.Gaps
import CostWatch.Proofs.Change.Literals
import CostWatch.Proofs.Change.Nesting
import CostWatch.Proofs.Change.Normal
import CostWatch.Proofs.Change.Tokens
import CostWatch.Proofs.Command.Words
import CostWatch.Proofs.Cost.Caches
import CostWatch.Proofs.Cost.Histories
import CostWatch.Proofs.Cost.Items
import CostWatch.Proofs.Cost.Reports
import CostWatch.Proofs.Cost.Whitelist
import CostWatch.Proofs.Files
import CostWatch.Proofs.Grammar.Derivations
import CostWatch.Proofs.Grammar.Readings
import CostWatch.Proofs.Host.Jobs
import CostWatch.Proofs.Host.Lines
import CostWatch.Proofs.Java.Contexts
import CostWatch.Proofs.Java.Extents
import CostWatch.Proofs.Java.Lexing
import CostWatch.Proofs.Java.Stretches
import CostWatch.Proofs.Java.Trees
import CostWatch.Proofs.Json.Reads
import CostWatch.Proofs.Json.Refusals
import CostWatch.Proofs.Json.RoundTrip
import CostWatch.Proofs.Json.Tagged
import CostWatch.Proofs.Json.Values
import CostWatch.Proofs.Ledger.Agreement
import CostWatch.Proofs.Ledger.Persistence
import CostWatch.Proofs.Ledger.Storage
import CostWatch.Proofs.Ledger.Whitelisting
import CostWatch.Proofs.Page
import CostWatch.Proofs.Path
import CostWatch.Proofs.Path.Resolution
import CostWatch.Proofs.Session.Baseline
import CostWatch.Proofs.Session.Cleaning
import CostWatch.Proofs.Session.CleaningFaults
import CostWatch.Proofs.Session.Coherence
import CostWatch.Proofs.Session.Completion
import CostWatch.Proofs.Session.Costs
import CostWatch.Proofs.Session.Display
import CostWatch.Proofs.Session.Documents
import CostWatch.Proofs.Session.Effects
import CostWatch.Proofs.Session.Flight
import CostWatch.Proofs.Session.Loading
import CostWatch.Proofs.Session.Marks
import CostWatch.Proofs.Session.Modes
import CostWatch.Proofs.Session.Outputs
import CostWatch.Proofs.Session.Panels
import CostWatch.Proofs.Session.Progress
import CostWatch.Proofs.Session.Refresh
import CostWatch.Proofs.Session.Rejection
import CostWatch.Proofs.Session.Reloading
import CostWatch.Proofs.Session.Reordering
import CostWatch.Proofs.Session.Reports
import CostWatch.Proofs.Session.Run
import CostWatch.Proofs.Session.Saving
import CostWatch.Proofs.Session.Screen
import CostWatch.Proofs.Session.Sending
import CostWatch.Proofs.Session.Separation
import CostWatch.Proofs.Session.Staleness
import CostWatch.Proofs.Session.Step
import CostWatch.Proofs.Source.Binding
import CostWatch.Proofs.Source.Edits
import CostWatch.Proofs.Source.Pairing
import CostWatch.Proofs.Table
import CostWatch.Proofs.Text.Decimal
import CostWatch.Proofs.Text.Pattern
import CostWatch.Proofs.Text.Utf8
import CostWatch.Proofs.Traversal
import CostWatch.Proofs.Wire
import CostWatch.Session.Analysis
import CostWatch.Session.Basic
import CostWatch.Session.Completion
import CostWatch.Session.Mode
import CostWatch.Session.Request
import CostWatch.Source.Binding
import CostWatch.Source.Declaration
import CostWatch.Source.Range
import CostWatch.Table
import CostWatch.Text.Alphanumeric
import CostWatch.Text.Decimal
import CostWatch.Text.Identifier
import CostWatch.Text.Pattern
import CostWatch.Text.Printable
import CostWatch.Text.Quoted
import CostWatch.Text.Ranges
import CostWatch.Text.Utf8
import CostWatch.Text.WhiteSpace
import CostWatch.Wire.Event
import CostWatch.Wire.Request
