import BootSequence.Action
import BootSequence.Command
import BootSequence.CommandLine.Grammar
import BootSequence.CommandLine.Reading
import BootSequence.CommandLine.Skipping
import BootSequence.Config
import BootSequence.Defaults
import BootSequence.Errno
import BootSequence.Fault
import BootSequence.Feed
import BootSequence.Harness
import BootSequence.Invocation
import BootSequence.Journal
import BootSequence.Log
import BootSequence.LogFile
import BootSequence.Machine.Condition
import BootSequence.Machine.Echo
import BootSequence.Machine.Host
import BootSequence.Machine.Image
import BootSequence.Machine.Launcher
import BootSequence.Machine.Printf
import BootSequence.Machine.Process
import BootSequence.Machine.Programs
import BootSequence.Machine.Schedule
import BootSequence.Machine.Shell.Pattern
import BootSequence.Machine.Shell.Run
import BootSequence.Machine.Shell.Scope
import BootSequence.Machine.Shell.Statement
import BootSequence.Machine.Shell.Token
import BootSequence.Machine.Signals
import BootSequence.Machine.State
import BootSequence.Main
import BootSequence.Mount.Entry
import BootSequence.Mount.Escape
import BootSequence.Mount.Flags
import BootSequence.Mount.Kernel
import BootSequence.Mount.Options
import BootSequence.Mount.Point
import BootSequence.Mount.Record
import BootSequence.Mount.Table
import BootSequence.Outcome
import BootSequence.Path
import BootSequence.Program.Init
import BootSequence.Program.MountCommand
import BootSequence.Program.Named
import BootSequence.Program.Result
import BootSequence.Program.TaskRunner
import BootSequence.Program.TestRunner
import BootSequence.Reader
import BootSequence.Rehearsal
import BootSequence.Script
import BootSequence.Source
import BootSequence.Spawn
import BootSequence.Supervisor
import BootSequence.Tasks.Build
import BootSequence.Tasks.Job
import BootSequence.Tasks.RootImage
import BootSequence.Text.Blank
import BootSequence.Text.Digits
import BootSequence.Text.Graphic
import BootSequence.Text.Octets
import BootSequence.Text.Padding
import BootSequence.Text.Pieces
import BootSequence.Text.Place
import BootSequence.Text.Quoted
import BootSequence.Text.Utf8
import BootSequence.Tree.Basic
import BootSequence.Tree.Files
import BootSequence.Tree.OpenFile
import BootSequence.Tree.Walk
import BootSequence.Proofs.Text.Decoding
import BootSequence.Proofs.Text.Lines
import BootSequence.Proofs.Reader
import BootSequence.Proofs.Script.Lines
import BootSequence.Proofs.Script.Requests
import BootSequence.Proofs.Effects
import BootSequence.Proofs.Mount.FirstBad
import BootSequence.Proofs.Supervisor.Order
import BootSequence.Proofs.Tree.Walk
import BootSequence.Proofs.Tree.Directories
import BootSequence.Proofs.Mount.Target
import BootSequence.Proofs.Script.Account
import BootSequence.Proofs.Source
import BootSequence.Proofs.Script.Arrival
import BootSequence.Proofs.Mount.Listing
import BootSequence.Proofs.Mount.Field
import BootSequence.Proofs.Mount.Live
import BootSequence.Proofs.Mount.Writing
import BootSequence.Proofs.Tree.Reading
import BootSequence.Proofs.Script.InFile
import BootSequence.Proofs.Script.Likeness
import BootSequence.Proofs.Script.Service
import BootSequence.Proofs.Steps
import BootSequence.Proofs.Supervisor.Bound
import BootSequence.Proofs.Harness.Cases
import BootSequence.Proofs.Tree.Growth
import BootSequence.Proofs.Supervisor.MountPoints
import BootSequence.Proofs.Mount.Keys
import BootSequence.Proofs.Mount.LongOptions
import BootSequence.Proofs.Script.Composition
import BootSequence.Proofs.LineEndings
import BootSequence.Proofs.Invocation
import BootSequence.Proofs.Command
import BootSequence.Proofs.Limits
import BootSequence.Proofs.Supervisor.Dropped
import BootSequence.Proofs.Mount.Occurrences
import BootSequence.Proofs.Sinks
import BootSequence.Proofs.CommandLine.Letters
import BootSequence.Proofs.CommandLine.Reading
import BootSequence.Proofs.CommandLine.Skipping
import BootSequence.Proofs.Mount.ShortOptions
import BootSequence.Proofs.WaitStatus
import BootSequence.Proofs.CommandLine.Rounds
