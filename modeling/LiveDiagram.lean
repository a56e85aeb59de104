import LiveDiagram.Text.Quoted
import LiveDiagram.Text.Ascii
import LiveDiagram.Decimal.Shortest
import LiveDiagram.Json.Literal
import LiveDiagram.Json.Number
import LiveDiagram.Json.Skip
import LiveDiagram.Json.Record
import LiveDiagram.Json.Writer
import LiveDiagram.Document.Basic
import LiveDiagram.Error
import LiveDiagram.Download.Attachment
import LiveDiagram.Document.EventStream
import LiveDiagram.Files.Preferences
import LiveDiagram.Editor.Instance
import LiveDiagram.Http.Gateway
import LiveDiagram.Editor.Port
import LiveDiagram.Editor.Forward
import LiveDiagram.Editor.Settings
import LiveDiagram.Editor.CommandLine
import LiveDiagram.Editor.Program
import LiveDiagram.Main
import LiveDiagram.Proofs.Document.Entries
import LiveDiagram.Proofs.Document.Listener
import LiveDiagram.Proofs.Document.Interleaving
import LiveDiagram.Proofs.Document.Writes
import LiveDiagram.Proofs.Document.Linearizable
import LiveDiagram.Proofs.Document.Delivery
import LiveDiagram.Proofs.Document.Integrity
import LiveDiagram.Proofs.Document.Viewer
import LiveDiagram.Proofs.Json.ReadBack
import LiveDiagram.Proofs.Document.Wire
import LiveDiagram.Proofs.Stream.Messages
import LiveDiagram.Proofs.Document.Commands
import LiveDiagram.Proofs.Stream.Connection
import LiveDiagram.Proofs.Stream.Serving
import LiveDiagram.Proofs.Stream.Course
import LiveDiagram.Proofs.Http.WriteBody
import LiveDiagram.Proofs.Files.Contents
import LiveDiagram.Proofs.Http.Exchange
import LiveDiagram.Proofs.Http.Run
import LiveDiagram.Proofs.Http.OpenStreams
import LiveDiagram.Proofs.Json.ListForm
import LiveDiagram.Proofs.Http.Routes
import LiveDiagram.Proofs.Files.Paths
import LiveDiagram.Proofs.Editor.StateDirectory
import LiveDiagram.Proofs.Editor.Rivals
import LiveDiagram.Proofs.Editor.Ownership
import LiveDiagram.Proofs.Editor.Leftover
import LiveDiagram.Proofs.Json.Acceptance
import LiveDiagram.Proofs.Json.Numerals
import LiveDiagram.Proofs.Json.Grammar
import LiveDiagram.Proofs.Json.Written
import LiveDiagram.Proofs.Files.Stored
import LiveDiagram.Proofs.Files.StoredNumbers
import LiveDiagram.Proofs.Decimal.Rounding
import LiveDiagram.Proofs.Decimal.Doubles
import LiveDiagram.Proofs.Decimal.Shortest
import LiveDiagram.Proofs.Decimal.InRange
import LiveDiagram.Proofs.Json.Doubles
import LiveDiagram.Proofs.Json.Reread
import LiveDiagram.Proofs.Json.Storable
import LiveDiagram.Proofs.Json.Continuation
import LiveDiagram.Proofs.Json.Truncation
import LiveDiagram.Proofs.Http.Upload
import LiveDiagram.Proofs.Editor.Address
import LiveDiagram.Proofs.Editor.Forwarding
import LiveDiagram.Proofs.Editor.SecondStart
import LiveDiagram.Proofs.Download.Disposition
import LiveDiagram.Proofs.Download.Headers
import LiveDiagram.Proofs.Download.Base64
import LiveDiagram.Proofs.Download.Fields
import LiveDiagram.Proofs.Download.Outcome
import LiveDiagram.Proofs.Download.Spelling
import LiveDiagram.Proofs.Document.Turnover
import LiveDiagram.Proofs.Json.Skipping
import LiveDiagram.Proofs.Json.ObjectForm
import LiveDiagram.Proofs.Document.ObjectBody
import LiveDiagram.Proofs.Files.Trees
import LiveDiagram.Proofs.Files.Making
import LiveDiagram.Proofs.Files.Saving
import LiveDiagram.Proofs.Http.StoredPreferences
import LiveDiagram.Proofs.Editor.PortSearch
import LiveDiagram.Proofs.Editor.Machine
import LiveDiagram.Proofs.Editor.Occupancy
import LiveDiagram.Proofs.Editor.Hosted
import LiveDiagram.Proofs.Editor.Cleanup
