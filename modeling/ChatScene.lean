import ChatScene.Text.Blank
import ChatScene.Text.Split
import ChatScene.Text.Digit
import ChatScene.Text.Printable
import ChatScene.Text.Quoted
import ChatScene.Text.Wide
import ChatScene.Decimal.Nearest
import ChatScene.Decimal.Numeral
import ChatScene.Decimal.Shortest
import ChatScene.Json.Value
import ChatScene.Json.Reader
import ChatScene.Json.Writer
import ChatScene.Json.Schema
import ChatScene.Log
import ChatScene.Command.Basic
import ChatScene.Command.Compare
import ChatScene.Command.Read
import ChatScene.Script.Basic
import ChatScene.Script.Compiled
import ChatScene.Machine
import ChatScene.Settings
import ChatScene.Event
import ChatScene.Bus.Basic
import ChatScene.Bus.Handler
import ChatScene.Session.Clock
import ChatScene.Session.Basic
import ChatScene.Session.Journal
import ChatScene.Session.Act
import ChatScene.Session.Stage
import ChatScene.Session.Play
import ChatScene.Session.Host
import ChatScene.Text.Utf8
import ChatScene.Files.Path
import ChatScene.Files.Tree
import ChatScene.Files.Scene
import ChatScene.Pictures
import ChatScene.Console.Prompt
import ChatScene.Console.Basic
import ChatScene.CommandLine.Options
import ChatScene.CommandLine.Request
import ChatScene.CommandLine.Outcome
import ChatScene.CommandLine.Run
import ChatScene.Demo
import ChatScene.Main
import ChatScene.Proofs.Keeping
import ChatScene.Proofs.Labels
import ChatScene.Proofs.Journal
import ChatScene.Proofs.Faithful
import ChatScene.Proofs.Reach
import ChatScene.Proofs.Table
import ChatScene.Proofs.Cursor
import ChatScene.Proofs.Pause
import ChatScene.Proofs.Isolation
import ChatScene.Proofs.NoCallbacks
import ChatScene.Proofs.Winding
import ChatScene.Proofs.Beat
import ChatScene.Proofs.Sequential
import ChatScene.Proofs.Rounds
import ChatScene.Proofs.Refinement
import ChatScene.Proofs.Strides
import ChatScene.Proofs.Subscriptions
import ChatScene.Proofs.Moves
import ChatScene.Proofs.Flights
import ChatScene.Proofs.Forward
import ChatScene.Proofs.Hearing
import ChatScene.Proofs.Endings
import ChatScene.Proofs.EventOrder
import ChatScene.Proofs.Turns
import ChatScene.Proofs.Leftovers
import ChatScene.Proofs.Observers
import ChatScene.Proofs.WithoutHandlers
import ChatScene.Proofs.Orderly
import ChatScene.Proofs.SourceOrder
import ChatScene.Proofs.Reload
import ChatScene.Proofs.Language
import ChatScene.Proofs.RoundTrip
import ChatScene.Proofs.Document
import ChatScene.Proofs.Encoding
import ChatScene.Proofs.Compiling
import ChatScene.Proofs.Sights
import ChatScene.Proofs.Asking
import ChatScene.Proofs.Heralds
import ChatScene.Proofs.Effects
import ChatScene.Proofs.Partition
import ChatScene.Proofs.Numerals
import ChatScene.Proofs.Grammar
import ChatScene.Proofs.Conditions
import ChatScene.Proofs.Joining
import ChatScene.Proofs.LineEnds
import ChatScene.Proofs.Comments
import ChatScene.Proofs.Catalogs
import ChatScene.Proofs.Revisions
import ChatScene.Proofs.FirstDefinitions
import ChatScene.Proofs.Failing
import ChatScene.Proofs.Refusals
import ChatScene.Proofs.Troubles
import ChatScene.Proofs.Checking
import ChatScene.Proofs.Statuses
