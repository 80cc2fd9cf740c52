import ChatHub.Clock
import ChatHub.CommandLine.Command
import ChatHub.CommandLine.Form
import ChatHub.CommandLine.Help
import ChatHub.CommandLine.Number
import ChatHub.CommandLine.Refusal
import ChatHub.Decimal.Fixed
import ChatHub.Decimal.Reading
import ChatHub.Decimal.Shortest
import ChatHub.Fifo
import ChatHub.Gate.Basic
import ChatHub.Gate.Session
import ChatHub.Gate.Wakeup
import ChatHub.Host.Basic
import ChatHub.Host.Hub
import ChatHub.Host.LoadTest
import ChatHub.Hub.Basic
import ChatHub.Hub.Interleaved
import ChatHub.Hub.Link
import ChatHub.Hub.Session
import ChatHub.Json.Failure
import ChatHub.Json.Number
import ChatHub.Json.Quoted
import ChatHub.Json.Skip
import ChatHub.Json.Tree
import ChatHub.Latency.Bucket
import ChatHub.Latency.Histogram
import ChatHub.Latency.Recorder
import ChatHub.Latency.Session
import ChatHub.Latency.Summary
import ChatHub.Latency.Tally
import ChatHub.Load.Counters
import ChatHub.Load.Generator
import ChatHub.Load.Population
import ChatHub.Load.Remote
import ChatHub.Load.Report
import ChatHub.Load.Schedule
import ChatHub.Load.Script
import ChatHub.Load.Settings
import ChatHub.Load.User
import ChatHub.LogFilter
import ChatHub.Mailbox
import ChatHub.Main
import ChatHub.Message
import ChatHub.Net.Address
import ChatHub.Net.Handshake
import ChatHub.Net.Network
import ChatHub.Net.Service
import ChatHub.Net.Session
import ChatHub.Net.Sha1
import ChatHub.Net.SocketFrame
import ChatHub.Net.Tcp
import ChatHub.Net.TcpLink
import ChatHub.Net.WebSocket
import ChatHub.Number.Binary64
import ChatHub.Program
import ChatHub.Proofs.CommandLine.Balance
import ChatHub.Proofs.CommandLine.LoadTest
import ChatHub.Proofs.CommandLine.Numeral
import ChatHub.Proofs.CommandLine.Pieces
import ChatHub.Proofs.Gate.Releases
import ChatHub.Proofs.Gate.Wakeup
import ChatHub.Proofs.Hub.BoundedReceive
import ChatHub.Proofs.Hub.Chronicle
import ChatHub.Proofs.Hub.Circle
import ChatHub.Proofs.Hub.Direct
import ChatHub.Proofs.Hub.History
import ChatHub.Proofs.Hub.Interleaved
import ChatHub.Proofs.Hub.Ledger
import ChatHub.Proofs.Hub.Lifecycle
import ChatHub.Proofs.Hub.Members
import ChatHub.Proofs.Hub.Mesh
import ChatHub.Proofs.Hub.Operations
import ChatHub.Proofs.Hub.Ownership
import ChatHub.Proofs.Hub.Precedence
import ChatHub.Proofs.Hub.Timeline
import ChatHub.Proofs.Json.Grammar
import ChatHub.Proofs.Json.Numeral
import ChatHub.Proofs.Json.Quoted
import ChatHub.Proofs.Json.Spelling
import ChatHub.Proofs.Latency.Agreement
import ChatHub.Proofs.Latency.Bucket
import ChatHub.Proofs.Latency.Conservation
import ChatHub.Proofs.Latency.Counting
import ChatHub.Proofs.Latency.Percentiles
import ChatHub.Proofs.Load.Accounting
import ChatHub.Proofs.Load.Books
import ChatHub.Proofs.Load.Cancellation
import ChatHub.Proofs.Load.Clock
import ChatHub.Proofs.Load.Exits
import ChatHub.Proofs.Load.History
import ChatHub.Proofs.Load.Lives
import ChatHub.Proofs.Load.Lockstep
import ChatHub.Proofs.Load.LoneUser
import ChatHub.Proofs.Load.Punctual
import ChatHub.Proofs.Load.Samples
import ChatHub.Proofs.Load.Schedule
import ChatHub.Proofs.Load.Settling
import ChatHub.Proofs.Load.Solitary
import ChatHub.Proofs.Load.Stages
import ChatHub.Proofs.Load.Step
import ChatHub.Proofs.Load.Stragglers
import ChatHub.Proofs.Load.TakingTurns
import ChatHub.Proofs.Load.Task
import ChatHub.Proofs.Load.Timetable
import ChatHub.Proofs.Load.Traffic
import ChatHub.Proofs.Load.Undisturbed
import ChatHub.Proofs.Load.Unheard
import ChatHub.Proofs.Load.Walk
import ChatHub.Proofs.Load.Way
import ChatHub.Proofs.Load.WindDown
import ChatHub.Proofs.Load.Wiring
import ChatHub.Proofs.Net.Broadcasts
import ChatHub.Proofs.Net.Cable
import ChatHub.Proofs.Net.Chronicle
import ChatHub.Proofs.Net.Conveyance
import ChatHub.Proofs.Net.Forwarding
import ChatHub.Proofs.Net.FramePublishing
import ChatHub.Proofs.Net.Frames
import ChatHub.Proofs.Net.Moves
import ChatHub.Proofs.Net.Parity
import ChatHub.Proofs.Net.Publishing
import ChatHub.Proofs.Net.Relay
import ChatHub.Proofs.Net.Speech
import ChatHub.Proofs.Net.Steady
import ChatHub.Proofs.Net.Tasks
import ChatHub.Proofs.Net.Turns
import ChatHub.Proofs.Registry
import ChatHub.Proofs.Roster
import ChatHub.Proofs.Text.Utf8
import ChatHub.Proofs.Trace
import ChatHub.Proofs.Wire.Arrival
import ChatHub.Proofs.Wire.Frame
import ChatHub.Proofs.Wire.Grammar
import ChatHub.Proofs.Wire.Line
import ChatHub.Proofs.Wire.Meaning
import ChatHub.Proofs.Wire.Overlong
import ChatHub.Proofs.Wire.Partition
import ChatHub.Proofs.Wire.Reading
import ChatHub.Proofs.Wire.RoundTrip
import ChatHub.Proofs.Wire.Scanning
import ChatHub.Proofs.Wire.Suffix
import ChatHub.Proofs.Wire.Torn
import ChatHub.Registry
import ChatHub.Roster
import ChatHub.Text.Alphanumeric
import ChatHub.Text.Base64
import ChatHub.Text.Blank
import ChatHub.Text.Combining
import ChatHub.Text.Invisible
import ChatHub.Text.Plain
import ChatHub.Text.Shown
import ChatHub.Text.Similarity
import ChatHub.Text.Utf8
import ChatHub.Timestamp
import ChatHub.Wire.Frame
import ChatHub.Wire.Line
import ChatHub.Wire.Reading
import ChatHub.Wire.Record
import ChatHub.Wire.Writing
