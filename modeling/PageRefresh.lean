import PageRefresh.Broadcast.Kind
import PageRefresh.Broadcast.Policy
import PageRefresh.Broadcast.Report
import PageRefresh.CommandLine.Grammar
import PageRefresh.CommandLine.Run
import PageRefresh.Config.Basic
import PageRefresh.Config.Json
import PageRefresh.Config.Source
import PageRefresh.Config.Toml
import PageRefresh.Error
import PageRefresh.Event
import PageRefresh.Json.Printer
import PageRefresh.Json.Reader
import PageRefresh.Json.Value
import PageRefresh.Main
import PageRefresh.Poller
import PageRefresh.Proofs.Broadcast.Calls
import PageRefresh.Proofs.Broadcast.Nesting
import PageRefresh.Proofs.Broadcast.Policy
import PageRefresh.Proofs.CommandLine.AllOrNothing
import PageRefresh.Proofs.CommandLine.Outcome
import PageRefresh.Proofs.CommandLine.Run
import PageRefresh.Proofs.Config.Json
import PageRefresh.Proofs.Config.Printed
import PageRefresh.Proofs.Config.Resolution
import PageRefresh.Proofs.Json.Printed
import PageRefresh.Proofs.Script.Broadcast
import PageRefresh.Proofs.Script.BroadcastEntries
import PageRefresh.Proofs.Script.Callbacks
import PageRefresh.Proofs.Script.Cell
import PageRefresh.Proofs.Script.Chronicle
import PageRefresh.Proofs.Script.Current
import PageRefresh.Proofs.Script.Cycles
import PageRefresh.Proofs.Script.Logged
import PageRefresh.Proofs.Script.Mirror
import PageRefresh.Proofs.Script.Past
import PageRefresh.Proofs.Script.Policies
import PageRefresh.Proofs.Script.Recorded
import PageRefresh.Proofs.Script.Roll
import PageRefresh.Proofs.Script.Shape
import PageRefresh.Proofs.Script.Spelling
import PageRefresh.Proofs.Script.Table
import PageRefresh.Proofs.Script.Track
import PageRefresh.Proofs.Script.Visit
import PageRefresh.Proofs.Session.Accounting
import PageRefresh.Proofs.Session.Act
import PageRefresh.Proofs.Session.AtOnce
import PageRefresh.Proofs.Session.Batch
import PageRefresh.Proofs.Session.Bracketed
import PageRefresh.Proofs.Session.Broadcast
import PageRefresh.Proofs.Session.Custody
import PageRefresh.Proofs.Session.Deadline
import PageRefresh.Proofs.Session.History
import PageRefresh.Proofs.Session.Journal
import PageRefresh.Proofs.Session.Known
import PageRefresh.Proofs.Session.Ledger
import PageRefresh.Proofs.Session.Log
import PageRefresh.Proofs.Session.Modal
import PageRefresh.Proofs.Session.Occurrences
import PageRefresh.Proofs.Session.Play
import PageRefresh.Proofs.Session.Registered
import PageRefresh.Proofs.Session.Run
import PageRefresh.Proofs.Session.RunState
import PageRefresh.Proofs.Session.Stage
import PageRefresh.Proofs.Session.Termination
import PageRefresh.Proofs.Session.Tidy
import PageRefresh.Proofs.Text.Blank
import PageRefresh.Proofs.Text.Case
import PageRefresh.Proofs.Text.Digit
import PageRefresh.Proofs.Text.Lines
import PageRefresh.Proofs.Toml.Plain
import PageRefresh.Registry
import PageRefresh.Script.Simulation
import PageRefresh.Script.Step
import PageRefresh.Script.Table
import PageRefresh.Script.Trace
import PageRefresh.Session.Agenda
import PageRefresh.Session.Command
import PageRefresh.Session.View
import PageRefresh.Session.World
import PageRefresh.Shell
import PageRefresh.Text.Blank
import PageRefresh.Text.Digit
import PageRefresh.Text.Lines
import PageRefresh.Text.Lowercase
import PageRefresh.Time
import PageRefresh.Toml.Document
import PageRefresh.Toml.Quoted
import PageRefresh.Toml.Scalar
import PageRefresh.Toml.Syntax
import PageRefresh.Toml.Value
