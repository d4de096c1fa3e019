import SplitHello.Main
import SplitHello.Policy.Document
import SplitHello.Splitter
import SplitHello.Transport.Scripted
import SplitHello.Transport.Socket
import SplitHello.Proofs.Transport.Lawful
import SplitHello.Proofs.Fragment.Writing
import SplitHello.Proofs.Splitter.Sending
import SplitHello.Proofs.Splitter.Opening
import SplitHello.Proofs.Splitter.Send
import SplitHello.Proofs.Splitter.Accounting
import SplitHello.Proofs.Fragment.Size
import SplitHello.Proofs.Splitter.Hiding
import SplitHello.Proofs.Splitter.FirstWrite
import SplitHello.Proofs.Cursor
import SplitHello.Proofs.Hello.ServerName
import SplitHello.Proofs.Hello.Extension
import SplitHello.Proofs.Hello.Parse
import SplitHello.Proofs.Source
import SplitHello.Proofs.Record.Front
import SplitHello.Proofs.Record.Message
import SplitHello.Proofs.Record.FlatReader
import SplitHello.Proofs.Record.Reading
import SplitHello.Proofs.Record.Refinement
import SplitHello.Proofs.Record.Carrying
import SplitHello.Proofs.Record.Runs
import SplitHello.Proofs.Record.Decision
import SplitHello.Proofs.Splitter.WriteAll
import SplitHello.Proofs.Record.Shortage
import SplitHello.Proofs.Record.Demand
import SplitHello.Proofs.Splitter.NamePlace
import SplitHello.Proofs.Guarded.Sending
import SplitHello.Hello.InPlace
import SplitHello.Proofs.Hello.ClosedForm
import SplitHello.Proofs.Hello.NameList
import SplitHello.Proofs.Policy.Text
import SplitHello.Proofs.Json.Number
import SplitHello.Proofs.Json.Text
import SplitHello.Proofs.Json.Value
import SplitHello.Proofs.Json.Collection
import SplitHello.Proofs.Json.Faults
import SplitHello.Proofs.Policy.Members
import SplitHello.Proofs.Policy.Reading
import SplitHello.Proofs.Policy.Document
import SplitHello.Proofs.Fragment.Draw
import SplitHello.Proofs.Transport.Accepting
import SplitHello.Proofs.Fragment.Undisturbed
import SplitHello.Proofs.Journal.Writes
import SplitHello.Proofs.Fragment.Row
import SplitHello.Proofs.Splitter.Boundaries
import SplitHello.Proofs.Hello.Tail
import SplitHello.Proofs.Record.Loss
import SplitHello.Proofs.Buffer.Room
import SplitHello.Proofs.Buffer.Runs
import SplitHello.Proofs.Record.Payloads
import SplitHello.Proofs.Feed
import SplitHello.Proofs.Record.OpenEnded
import SplitHello.Proofs.Record.Bounds
import SplitHello.Proofs.Buffer.Filling
import SplitHello.Proofs.Policy.Range
import SplitHello.Proofs.Cursor.Runs
import SplitHello.Proofs.Text.Quoted
