import Parley.Admission
import Parley.Backlog
import Parley.Broker
import Parley.Client.Address
import Parley.Client.Display
import Parley.Client.Failure
import Parley.Client.Input
import Parley.Client.Retry
import Parley.Client.Session
import Parley.CommandLine.Client
import Parley.CommandLine.Integer
import Parley.CommandLine.Launch
import Parley.CommandLine.Options
import Parley.CommandLine.Server
import Parley.Connection
import Parley.Departure
import Parley.Dispatch
import Parley.Frame.Batch
import Parley.Frame.Command
import Parley.Frame.Confirmation
import Parley.Hub.Basic
import Parley.Hub.Request
import Parley.Hub.Snapshot
import Parley.Inspection
import Parley.Main
import Parley.Name.Basic
import Parley.Name.Random
import Parley.Outbox
import Parley.Proofs.Alike
import Parley.Proofs.Backlog
import Parley.Proofs.Backlog.Line
import Parley.Proofs.Broker
import Parley.Proofs.Broker.Expiry
import Parley.Proofs.Broker.Run
import Parley.Proofs.Broker.Settle
import Parley.Proofs.Broker.Stopping
import Parley.Proofs.Client.Address
import Parley.Proofs.Client.Input
import Parley.Proofs.Client.Retry
import Parley.Proofs.Connection
import Parley.Proofs.Connection.Account
import Parley.Proofs.Dispatch
import Parley.Proofs.Frame.Command
import Parley.Proofs.Frame.Names
import Parley.Proofs.Hub.Attached
import Parley.Proofs.Hub.Ceilings
import Parley.Proofs.Hub.Confinement
import Parley.Proofs.Hub.Consistency
import Parley.Proofs.Hub.Delivery
import Parley.Proofs.Hub.FanOut
import Parley.Proofs.Hub.Generation
import Parley.Proofs.Hub.Holders
import Parley.Proofs.Hub.Linked
import Parley.Proofs.Hub.Lost
import Parley.Proofs.Hub.Queue
import Parley.Proofs.Hub.Replay
import Parley.Proofs.Hub.Residence
import Parley.Proofs.Hub.Run
import Parley.Proofs.Hub.Settled
import Parley.Proofs.Hub.Snapshot
import Parley.Proofs.Hub.Stocked
import Parley.Proofs.Hub.Stored
import Parley.Proofs.Hub.Takeover
import Parley.Proofs.Name
import Parley.Proofs.Name.Causes
import Parley.Proofs.Outbox
import Parley.Proofs.Roster
import Parley.Proofs.Roster.Attendance
import Parley.Proofs.Server.Advances
import Parley.Proofs.Server.Chronicle
import Parley.Proofs.Server.Coalescing
import Parley.Proofs.Server.Concert
import Parley.Proofs.Server.Confirmations
import Parley.Proofs.Server.Following
import Parley.Proofs.Server.Journal
import Parley.Proofs.Server.Keepalive
import Parley.Proofs.Server.Moves
import Parley.Proofs.Server.Reconnection
import Parley.Proofs.Server.RoomTraffic
import Parley.Proofs.Server.ServeSteps
import Parley.Proofs.Server.SessionSteps
import Parley.Proofs.Server.SoleTransport
import Parley.Proofs.Server.StandingBy
import Parley.Proofs.Server.Stocked
import Parley.Proofs.Server.Teardown
import Parley.Proofs.Server.Threading
import Parley.Proofs.Server.Turns
import Parley.Proofs.Server.Wiring
import Parley.Proofs.Table
import Parley.Proofs.Text
import Parley.Proofs.Text.Number
import Parley.Proofs.Text.Utf8
import Parley.Proofs.Time.Calendar
import Parley.Proofs.Time.Rfc3339
import Parley.Proofs.Time.Stamp
import Parley.Proofs.Transport.Ledger
import Parley.Proofs.Transport.Pace
import Parley.Proofs.Transport.Reader
import Parley.Proofs.Transport.Reading
import Parley.Proofs.Transport.Trial
import Parley.Proofs.Transport.Writer
import Parley.Proofs.Web.Form
import Parley.Proofs.Web.Target
import Parley.Roster
import Parley.Server.Basic
import Parley.Server.Run
import Parley.Settings
import Parley.Simulation.Bench
import Parley.Simulation.Loopback
import Parley.Simulation.ReadTrial
import Parley.Simulation.Wire
import Parley.Simulation.WriteTrial
import Parley.Table
import Parley.Text.Blank
import Parley.Text.ControlSequence
import Parley.Text.Cut
import Parley.Text.Number
import Parley.Text.Utf8
import Parley.Time.Calendar
import Parley.Time.Span
import Parley.Time.Stamp
import Parley.Transport.Message
import Parley.Transport.Reader
import Parley.Transport.Session
import Parley.Transport.Writer
import Parley.Web.Document
import Parley.Web.Form
import Parley.Web.Query
import Parley.Web.Router
import Parley.Web.Target
import Parley.Web.View
