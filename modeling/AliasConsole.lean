import AliasConsole.Calendar
import AliasConsole.Candidates
import AliasConsole.Completion.Basic
import AliasConsole.Completion.Matching
import AliasConsole.Completion.Narrowing
import AliasConsole.Config.Basic
import AliasConsole.Config.Coercion
import AliasConsole.Config.Path
import AliasConsole.Decimal.Layout
import AliasConsole.Decimal.Reading
import AliasConsole.Decimal.Shortest
import AliasConsole.Duration
import AliasConsole.Escape
import AliasConsole.Fault
import AliasConsole.History
import AliasConsole.Logging.Field
import AliasConsole.Logging.Logger
import AliasConsole.Logging.Message
import AliasConsole.Main
import AliasConsole.Plugins.BuiltIn
import AliasConsole.Plugins.Package
import AliasConsole.Plugins.Variables
import AliasConsole.Program.Startup
import AliasConsole.Proofs.Columns
import AliasConsole.Proofs.Completion.Accepting
import AliasConsole.Proofs.Completion.Attempt
import AliasConsole.Proofs.Completion.Beginnings
import AliasConsole.Proofs.Completion.BestMatch
import AliasConsole.Proofs.Completion.Causality
import AliasConsole.Proofs.Completion.CommonPrefix
import AliasConsole.Proofs.Completion.Evaluations
import AliasConsole.Proofs.Completion.Fixed
import AliasConsole.Proofs.Completion.Idempotence
import AliasConsole.Proofs.Completion.Listing
import AliasConsole.Proofs.Completion.Locked
import AliasConsole.Proofs.Completion.LongerQuery
import AliasConsole.Proofs.Completion.Menu
import AliasConsole.Proofs.Completion.Ordering
import AliasConsole.Proofs.Completion.Reassembly
import AliasConsole.Proofs.Completion.Representatives
import AliasConsole.Proofs.Completion.Retention
import AliasConsole.Proofs.Completion.Runnable
import AliasConsole.Proofs.Completion.Snapshot
import AliasConsole.Proofs.Completion.Survival
import AliasConsole.Proofs.Completion.Unrelated
import AliasConsole.Proofs.Config.Escaping
import AliasConsole.Proofs.Config.Expansion
import AliasConsole.Proofs.Config.Fields
import AliasConsole.Proofs.Config.Leftovers
import AliasConsole.Proofs.Config.Precedence
import AliasConsole.Proofs.Config.Rejections
import AliasConsole.Proofs.Config.Rereading
import AliasConsole.Proofs.Config.Settings
import AliasConsole.Proofs.Duration
import AliasConsole.Proofs.Escape.Stripping
import AliasConsole.Proofs.Escape.Tearing
import AliasConsole.Proofs.Evaluation
import AliasConsole.Proofs.History.Browsing
import AliasConsole.Proofs.Logging
import AliasConsole.Proofs.Plugins.Bindings
import AliasConsole.Proofs.Plugins.BuiltIn
import AliasConsole.Proofs.Plugins.Contributions
import AliasConsole.Proofs.Plugins.Loading
import AliasConsole.Proofs.Plugins.VariableCommands
import AliasConsole.Proofs.Recording
import AliasConsole.Proofs.Registration
import AliasConsole.Proofs.Registration.Appending
import AliasConsole.Proofs.Registration.Runs
import AliasConsole.Proofs.Resolution
import AliasConsole.Proofs.Resolution.Dispatch
import AliasConsole.Proofs.Resolution.Growth
import AliasConsole.Proofs.Resolution.Longest
import AliasConsole.Proofs.Resolution.Reordering
import AliasConsole.Proofs.Resolution.Searching
import AliasConsole.Proofs.Session.Behaving
import AliasConsole.Proofs.Session.Browsing
import AliasConsole.Proofs.Session.Events
import AliasConsole.Proofs.Session.Keeping
import AliasConsole.Proofs.Session.Lasting
import AliasConsole.Proofs.Session.Layers
import AliasConsole.Proofs.Session.Leaving
import AliasConsole.Proofs.Session.Submission
import AliasConsole.Proofs.Session.Taken
import AliasConsole.Proofs.Terminal.Repl
import AliasConsole.Proofs.Text.Ascii
import AliasConsole.Proofs.Text.CurrentToken
import AliasConsole.Proofs.Text.Occurrence
import AliasConsole.Proofs.Text.Pieces
import AliasConsole.Proofs.Text.Words
import AliasConsole.Proofs.Toml.Keys
import AliasConsole.Proofs.Usage
import AliasConsole.Proofs.Value.Digits
import AliasConsole.Registry
import AliasConsole.Script
import AliasConsole.Session.Basic
import AliasConsole.Session.Keys
import AliasConsole.Session.Submit
import AliasConsole.Terminal.Editor
import AliasConsole.Terminal.Repl
import AliasConsole.Text.Basic
import AliasConsole.Text.Casing
import AliasConsole.Text.Printable
import AliasConsole.Text.Utf8
import AliasConsole.Text.WordChar
import AliasConsole.Toml.Document
import AliasConsole.Toml.Number
import AliasConsole.Toml.Quote
import AliasConsole.Toml.Scanner
import AliasConsole.Toml.Table
import AliasConsole.Usage
import AliasConsole.Value
