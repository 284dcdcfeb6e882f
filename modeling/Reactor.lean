import Reactor.Bytes
import Reactor.Callback
import Reactor.Change
import Reactor.Config
import Reactor.Context
import Reactor.Control
import Reactor.Descriptor
import Reactor.Duration
import Reactor.Environment
import Reactor.Error.Basic
import Reactor.Error.Io
import Reactor.Event
import Reactor.Executor
import Reactor.Frame.AnyPicker
import Reactor.Frame.Assembler
import Reactor.Frame.Basic
import Reactor.Frame.Counting
import Reactor.Frame.FixedLength
import Reactor.Frame.Marker
import Reactor.Frame.Picker
import Reactor.Frame.Raw
import Reactor.Frame.Source
import Reactor.Handle.Basic
import Reactor.Handle.Map
import Reactor.Host
import Reactor.LocalNet.Endpoint
import Reactor.LocalNet.FileTree
import Reactor.LocalNet.Network
import Reactor.LocalNet.Steps
import Reactor.LocalNet.System
import Reactor.Net.Address
import Reactor.Net.SocketAddress
import Reactor.Operation
import Reactor.Policy.ConstantLimit
import Reactor.Policy.Decision
import Reactor.Policy.Rules
import Reactor.Proofs.Executor.Bound
import Reactor.Proofs.Executor.Clients
import Reactor.Proofs.Executor.Completion
import Reactor.Proofs.Executor.Containment
import Reactor.Proofs.Executor.Deferral
import Reactor.Proofs.Executor.Delivery
import Reactor.Proofs.Executor.Enactment
import Reactor.Proofs.Executor.Enrolment
import Reactor.Proofs.Executor.Failure
import Reactor.Proofs.Executor.Integrity
import Reactor.Proofs.Executor.Lifecycle
import Reactor.Proofs.Executor.Pipes
import Reactor.Proofs.Executor.Places
import Reactor.Proofs.Executor.Precedence
import Reactor.Proofs.Executor.Reachable
import Reactor.Proofs.Executor.Readiness
import Reactor.Proofs.Executor.Reception
import Reactor.Proofs.Executor.Recorder
import Reactor.Proofs.Executor.Retirement
import Reactor.Proofs.Executor.Sample
import Reactor.Proofs.Executor.Stop
import Reactor.Proofs.Executor.Teardown
import Reactor.Proofs.Frame.Assembler
import Reactor.Proofs.Frame.Bounds
import Reactor.Proofs.Frame.ByteOrder
import Reactor.Proofs.Frame.Consumption
import Reactor.Proofs.Frame.Contract
import Reactor.Proofs.Frame.Drain
import Reactor.Proofs.Frame.Feeding
import Reactor.Proofs.Frame.FixedLength
import Reactor.Proofs.Frame.Framing
import Reactor.Proofs.Frame.Marker
import Reactor.Proofs.Frame.OnePass
import Reactor.Proofs.Frame.Pieces
import Reactor.Proofs.Frame.Provenance
import Reactor.Proofs.Frame.Search
import Reactor.Proofs.Frame.Supply
import Reactor.Proofs.Handle.Map
import Reactor.Proofs.Net.Numerals
import Reactor.Proofs.Net.RoundTrip
import Reactor.Proofs.Run.Admission
import Reactor.Proofs.Run.Chain
import Reactor.Proofs.Run.Changes
import Reactor.Proofs.Run.Clients
import Reactor.Proofs.Run.Coherence
import Reactor.Proofs.Run.Congruence
import Reactor.Proofs.Run.Containment
import Reactor.Proofs.Run.Course
import Reactor.Proofs.Run.Decoder
import Reactor.Proofs.Run.Deeds
import Reactor.Proofs.Run.Delivery
import Reactor.Proofs.Run.Dispatch
import Reactor.Proofs.Run.Enactment
import Reactor.Proofs.Run.Enrolment
import Reactor.Proofs.Run.Errands
import Reactor.Proofs.Run.Failing
import Reactor.Proofs.Run.Faring
import Reactor.Proofs.Run.Heeding
import Reactor.Proofs.Run.Instants
import Reactor.Proofs.Run.Integrity
import Reactor.Proofs.Run.Interference
import Reactor.Proofs.Run.LastTick
import Reactor.Proofs.Run.Lifecycle
import Reactor.Proofs.Run.Limit
import Reactor.Proofs.Run.Metered
import Reactor.Proofs.Run.Moves
import Reactor.Proofs.Run.Muting
import Reactor.Proofs.Run.Obedience
import Reactor.Proofs.Run.Onlookers
import Reactor.Proofs.Run.Order
import Reactor.Proofs.Run.OrderedRun
import Reactor.Proofs.Run.Ownership
import Reactor.Proofs.Run.Partings
import Reactor.Proofs.Run.Passage
import Reactor.Proofs.Run.Places
import Reactor.Proofs.Run.Precedence
import Reactor.Proofs.Run.Progress
import Reactor.Proofs.Run.Readiness
import Reactor.Proofs.Run.Reception
import Reactor.Proofs.Run.Replay
import Reactor.Proofs.Run.Requests
import Reactor.Proofs.Run.Retirement
import Reactor.Proofs.Run.Scene
import Reactor.Proofs.Run.Seclusion
import Reactor.Proofs.Run.SelectFailure
import Reactor.Proofs.Run.Services
import Reactor.Proofs.Run.Stopping
import Reactor.Proofs.Run.Ticks
import Reactor.Proofs.Run.Traffic
import Reactor.Proofs.Run.Turns
import Reactor.Proofs.Run.Verdicts
import Reactor.Proofs.Run.Work
import Reactor.Proofs.Select.Mapping
import Reactor.Proofs.Select.Timeout
import Reactor.Proofs.Step
import Reactor.Proofs.Transport.Assembling
import Reactor.Proofs.Transport.Channels
import Reactor.Proofs.Transport.Datagrams
import Reactor.Proofs.Transport.EndOfStream
import Reactor.Proofs.Transport.Memory
import Reactor.Proofs.Transport.Origins
import Reactor.Proofs.Transport.Reconnection
import Reactor.Proofs.Transport.Scripted
import Reactor.Registry
import Reactor.Run.Admission
import Reactor.Run.Chain
import Reactor.Run.Connect
import Reactor.Run.Disconnect
import Reactor.Run.Io
import Reactor.Run.Journal
import Reactor.Run.Selection
import Reactor.Run.Service
import Reactor.Run.State
import Reactor.Run.Tick
import Reactor.Scenario.Fd
import Reactor.Scenario.Hooks
import Reactor.Scenario.Log
import Reactor.Scenario.Policy
import Reactor.Scenario.Selector
import Reactor.Scenario.Socket
import Reactor.Scenario.Sockets
import Reactor.Scenario.Steps
import Reactor.Scenario.World
import Reactor.Select.Interest
import Reactor.Select.Poll
import Reactor.Socket
import Reactor.Step
import Reactor.Text.Blank
import Reactor.Text.CharTable
import Reactor.Text.Describe
import Reactor.Text.Numeral
import Reactor.Text.Quoted
import Reactor.Text.Utf8
import Reactor.Transport.Config
import Reactor.Transport.Datagram
import Reactor.Transport.Listener
import Reactor.Transport.Socket
import Reactor.Transport.Source
import Reactor.Transport.Stream
import Reactor.Transport.System
