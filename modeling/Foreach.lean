import Foreach.Number.Decimal
import Foreach.Text.Blank
import Foreach.Text.UpperCase
import Foreach.Text.Utf8
import Foreach.Text.Literal
import Foreach.Value.Same
import Foreach.Value.Literal
import Foreach.Json.Printer
import Foreach.Json.Token
import Foreach.Json.Reader
import Foreach.Notice
import Foreach.Template.Render
import Foreach.Request
import Foreach.Options.Arguments
import Foreach.Timestamp.Reader
import Foreach.Iteration
import Foreach.Definition.Manifest
import Foreach.Context.Change
import Foreach.Service
import Foreach.Holdings
import Foreach.Runner.Basic
import Foreach.Batch.Ending
import Foreach.Script.Provider
import Foreach.Script.Runner
import Foreach.Ledger
import Foreach.Batch.Records
import Foreach.Script.Rehearsal
import Foreach.Definition.Archive
import Foreach.Settings.Load
import Foreach.Provider.Catalogue
import Foreach.Provider.Listed
import Foreach.Shell.Evaluate
import Foreach.Runner.Command
import Foreach.Yaml.Document
import Foreach.Cli.Run
import Foreach.Main
import Foreach.Shell.Arithmetic
import Foreach.Shell.Glob
import Foreach.Fault.Form
import Foreach.Proofs.Batch.Deed
import Foreach.Proofs.Batch.Turn
import Foreach.Proofs.Iteration
import Foreach.Proofs.Batch.Course
import Foreach.Proofs.Batch.Run
import Foreach.Proofs.Batch.View
import Foreach.Proofs.Batch.Replay
import Foreach.Proofs.Batch.Restoration
import Foreach.Proofs.Batch.Isolation
import Foreach.Proofs.Batch.Completion
import Foreach.Proofs.Batch.Outcome
import Foreach.Proofs.Files
import Foreach.Proofs.Batch.Keep
import Foreach.Proofs.Batch.Watch
import Foreach.Proofs.Batch.Reach
import Foreach.Proofs.Batch.Cancellation
import Foreach.Proofs.Ledger
import Foreach.Proofs.Batch.Recording
import Foreach.Proofs.Batch.Accounts
import Foreach.Proofs.Batch.Chronicle
import Foreach.Proofs.Cli.Session
import Foreach.Proofs.Definition.Names
import Foreach.Proofs.Definition.History
import Foreach.Proofs.Definition.RoundTrip
import Foreach.Proofs.Cli.Interleaving
import Foreach.Proofs.Template.Grammar
import Foreach.Proofs.Template.Search
import Foreach.Proofs.Batch.Tally
import Foreach.Proofs.Batch.Unrendered
import Foreach.Proofs.Cli.Naming
import Foreach.Proofs.Holdings
import Foreach.Proofs.Definition.Loading
import Foreach.Proofs.Service
import Foreach.Proofs.Cli.Status
import Foreach.Proofs.Template.Joining
import Foreach.Proofs.Template.Failure
import Foreach.Proofs.Options.Parsing
import Foreach.Proofs.Template.Path
import Foreach.Proofs.Definition.Records
import Foreach.Proofs.Refusal
import Foreach.Proofs.Provider.History
import Foreach.Proofs.Cli.Loading
import Foreach.Proofs.Runner
