import BlockShell.Arguments.Basic
import BlockShell.Arguments.Error
import BlockShell.Arguments.Field
import BlockShell.Change
import BlockShell.Command.Basic
import BlockShell.Command.Word
import BlockShell.Disk.Basic
import BlockShell.Disk.Tree
import BlockShell.Double
import BlockShell.Engine.Basic
import BlockShell.Engine.Recorder
import BlockShell.Engine.Registry
import BlockShell.Invocation
import BlockShell.Journal
import BlockShell.Json.Basic
import BlockShell.Json.Literal
import BlockShell.Json.Number
import BlockShell.Json.Printer
import BlockShell.Json.Reader
import BlockShell.Json.Record
import BlockShell.Json.Token
import BlockShell.Path
import BlockShell.Program
import BlockShell.Proofs.Arguments.Field
import BlockShell.Proofs.Arguments.Writing
import BlockShell.Proofs.Disk.ActsOn
import BlockShell.Proofs.Disk.Faults
import BlockShell.Proofs.Disk.Files
import BlockShell.Proofs.Disk.Follow
import BlockShell.Proofs.Disk.Sound
import BlockShell.Proofs.Engine.Changes
import BlockShell.Proofs.Engine.Commands
import BlockShell.Proofs.Engine.Lockstep
import BlockShell.Proofs.Engine.Overwriting
import BlockShell.Proofs.Engine.Shells
import BlockShell.Proofs.Journal.InStep
import BlockShell.Proofs.Journal.Load
import BlockShell.Proofs.Journal.Opening
import BlockShell.Proofs.Journal.Store
import BlockShell.Proofs.Json.Literal
import BlockShell.Proofs.Json.Number
import BlockShell.Proofs.Json.Record
import BlockShell.Proofs.Json.Text
import BlockShell.Proofs.Path
import BlockShell.Proofs.Registry.Text
import BlockShell.Proofs.Table
import BlockShell.Proofs.Target.Line
import BlockShell.Proofs.Target.OfArguments
import BlockShell.Proofs.Target.Reading
import BlockShell.Proofs.Target.RoundTrip
import BlockShell.Proofs.Target.Writing
import BlockShell.Proofs.Text.Cut
import BlockShell.Proofs.Text.Decimal
import BlockShell.Registry.Basic
import BlockShell.Registry.Text
import BlockShell.Script
import BlockShell.Session
import BlockShell.Settings.Basic
import BlockShell.Settings.Bracket
import BlockShell.Settings.Environment
import BlockShell.Settings.Quoted
import BlockShell.Settings.Variable
import BlockShell.Shell
import BlockShell.Table
import BlockShell.Target.Basic
import BlockShell.Target.Kind
import BlockShell.Target.OfArguments
import BlockShell.Text.Blank
import BlockShell.Text.Decimal
import BlockShell.Text.Hex
import BlockShell.Text.Split
import BlockShell.Main
import BlockShell.Proofs.Registry.Changes
import BlockShell.Proofs.Registry.Sight
import BlockShell.Proofs.Registry.Valid
import BlockShell.Proofs.Engine.History
import BlockShell.Proofs.Engine.Exposure
import BlockShell.Proofs.Engine.Log
import BlockShell.Proofs.Engine.InMemory
import BlockShell.Proofs.Engine.Independence
import BlockShell.Proofs.Engine.Validity
import BlockShell.Proofs.Runs
import BlockShell.Proofs.Session.Fold
import BlockShell.Proofs.Session.Failures
import BlockShell.Proofs.Target.Checks
import BlockShell.Proofs.Session.Calls
import BlockShell.Proofs.Session.Accounting
import BlockShell.Proofs.Journal.RoundTrip
import BlockShell.Proofs.Text.Order
import BlockShell.Proofs.Registry.Listing
import BlockShell.Proofs.Engine.Listing
import BlockShell.Proofs.Session.Steps
import BlockShell.Proofs.Session.Listing
import BlockShell.Proofs.Target.Legs
import BlockShell.Proofs.Arguments.Tokens
import BlockShell.Proofs.Target.Relevance
import BlockShell.Proofs.Session.LineEndings
import BlockShell.Proofs.Target.Parity
import BlockShell.Proofs.Journal.AllOrNothing
import BlockShell.Proofs.Journal.Rewording
import BlockShell.Proofs.Arguments.Numeral
import BlockShell.Proofs.Arguments.NormalForm
import BlockShell.Proofs.Session.Single
import BlockShell.Proofs.Target.Messages
import BlockShell.Proofs.Session.Errors
import BlockShell.Proofs.Session.Console
