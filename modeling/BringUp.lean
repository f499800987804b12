import BringUp.Boot.State
import BringUp.Boot.Strategy
import BringUp.Build.Command
import BringUp.Build.Layout
import BringUp.Build.Provider
import BringUp.Build.Request
import BringUp.Build.Worktree
import BringUp.CommandLine.Arguments
import BringUp.CommandLine.Commands
import BringUp.Console.Escape
import BringUp.Console.Pacing
import BringUp.Console.Relay
import BringUp.Console.Stdin
import BringUp.Duration
import BringUp.Environment
import BringUp.Error
import BringUp.Image.Families
import BringUp.Image.Method
import BringUp.Image.Plan
import BringUp.Image.Writer
import BringUp.Lab.Call
import BringUp.Lab.Device
import BringUp.Lab.DeviceFields
import BringUp.Lab.Program
import BringUp.Lab.Run
import BringUp.Main
import BringUp.Number.Binary
import BringUp.Number.Digits
import BringUp.Options.Basic
import BringUp.Options.Fields
import BringUp.Path
import BringUp.Record.Field
import BringUp.Record.Source
import BringUp.Rehearsal.Bench
import BringUp.Rehearsal.EventLog
import BringUp.Rehearsal.FileTree
import BringUp.Rehearsal.Relay
import BringUp.Rehearsal.Script
import BringUp.Rehearsal.Sessions
import BringUp.Rehearsal.Shell
import BringUp.Rehearsal.Workstation
import BringUp.Text.Hidden
import BringUp.Text.Json.Basic
import BringUp.Text.Json.Printer
import BringUp.Text.Json.Reader
import BringUp.Text.Quoted
import BringUp.Text.Search
import BringUp.Text.Table
import BringUp.Text.Utf8
import BringUp.Text.Yaml.Basic
import BringUp.Text.Yaml.Printer
import BringUp.Text.Yaml.Reader
import BringUp.Proofs.Lab.Ensures
import BringUp.Proofs.Boot.Agreement
import BringUp.Proofs.Boot.Card
import BringUp.Proofs.Boot.Ledger
import BringUp.Proofs.Boot.Invariant
import BringUp.Proofs.Boot.Console
import BringUp.Proofs.Lab.Alike
import BringUp.Proofs.Boot.Stepwise
import BringUp.Proofs.Boot.Installation
import BringUp.Proofs.Lab.FailStop
import BringUp.Proofs.Build.FailStop
import BringUp.Proofs.Image.FailStop
import BringUp.Proofs.Boot.FailStop
import BringUp.Proofs.Boot.Lines
import BringUp.Proofs.Build.Health
import BringUp.Proofs.Image.Health
import BringUp.Proofs.Boot.Health
import BringUp.Proofs.Build.Steps
import BringUp.Proofs.Build.Worktrees
import BringUp.Proofs.Build.Paths
import BringUp.Proofs.Console.Escape
import BringUp.Proofs.Console.Transfer
import BringUp.Proofs.Console.Lease
import BringUp.Proofs.Image.Transfers
import BringUp.Proofs.CommandLine.OutputDirectory
import BringUp.Proofs.Build.Leftovers
import BringUp.Proofs.Lab.Agenda
import BringUp.Proofs.Image.Sending
import BringUp.Proofs.Image.Writing
import BringUp.Proofs.Boot.Planning
import BringUp.Proofs.Boot.Interrupt
import BringUp.Proofs.Text.Lines
import BringUp.Proofs.Build.Marker
import BringUp.Proofs.Build.Outcome
import BringUp.Proofs.Build.Patching
import BringUp.Proofs.Boot.Timing
import BringUp.Proofs.Console.Chain
import BringUp.Proofs.Console.Pacing
import BringUp.Proofs.Console.Reading
import BringUp.Proofs.Console.Stale
import BringUp.Proofs.Build.Isolation
import BringUp.Proofs.Console.Forwarding
import BringUp.Proofs.Options.Omission
