import SlaveLink.Bus.Basic
import SlaveLink.Bus.Bench
import SlaveLink.Bytes
import SlaveLink.Bytes.Hex
import SlaveLink.Bytes.Preview
import SlaveLink.Capability.Event
import SlaveLink.Capability.Firmware
import SlaveLink.Capability.Tlv
import SlaveLink.Cli.Arguments
import SlaveLink.Cli.CapabilityReport
import SlaveLink.Cli.Exit
import SlaveLink.Cli.FrameReport
import SlaveLink.Cli.Invocation
import SlaveLink.Cli.Report
import SlaveLink.Cli.SimulationReport
import SlaveLink.Cli.Tool
import SlaveLink.Config.Basic
import SlaveLink.Config.Reader
import SlaveLink.DeviceError
import SlaveLink.Duration
import SlaveLink.Flow
import SlaveLink.Frame.Codec
import SlaveLink.Frame.Config
import SlaveLink.Frame.Error
import SlaveLink.Frame.Header
import SlaveLink.Inspection
import SlaveLink.Interface
import SlaveLink.Json.Magnitude
import SlaveLink.Json.Reader
import SlaveLink.Json.Scan
import SlaveLink.Json.Value
import SlaveLink.Line
import SlaveLink.Link.Application
import SlaveLink.Link.Arming
import SlaveLink.Link.Basic
import SlaveLink.Link.Lifecycle
import SlaveLink.Link.Reception
import SlaveLink.Link.Worker
import SlaveLink.LinkError
import SlaveLink.Main
import SlaveLink.Memory.Basic
import SlaveLink.Memory.Custody
import SlaveLink.Memory.Pool
import SlaveLink.Multiplexer.Basic
import SlaveLink.Multiplexer.Bench
import SlaveLink.Proofs.Capability
import SlaveLink.Proofs.Frame.Corruption
import SlaveLink.Proofs.Frame.HeaderBytes
import SlaveLink.Proofs.Frame.Prefix
import SlaveLink.Proofs.Frame.RoundTrip
import SlaveLink.Proofs.Link.Activation
import SlaveLink.Proofs.Link.Alike
import SlaveLink.Proofs.Link.Application
import SlaveLink.Proofs.Link.Arming
import SlaveLink.Proofs.Link.Attempt
import SlaveLink.Proofs.Link.BlockSize
import SlaveLink.Proofs.Link.Capacity
import SlaveLink.Proofs.Link.Creation
import SlaveLink.Proofs.Link.Handshake
import SlaveLink.Proofs.Link.Inbound
import SlaveLink.Proofs.Link.Legible
import SlaveLink.Proofs.Link.Orderly
import SlaveLink.Proofs.Link.Outbound
import SlaveLink.Proofs.Link.Ownership
import SlaveLink.Proofs.Link.Precedence
import SlaveLink.Proofs.Link.Reception
import SlaveLink.Proofs.Link.SignalState
import SlaveLink.Proofs.Link.Startup
import SlaveLink.Proofs.Link.Tally
import SlaveLink.Proofs.Link.Teardown
import SlaveLink.Proofs.Link.Transfers
import SlaveLink.Proofs.Link.Twins
import SlaveLink.Proofs.Link.Wiring
import SlaveLink.Proofs.Link.Worker
import SlaveLink.Proofs.Memory
import SlaveLink.Proofs.Session.Acting
import SlaveLink.Proofs.Session.Activation
import SlaveLink.Proofs.Session.Capacity
import SlaveLink.Proofs.Session.ChipSelect
import SlaveLink.Proofs.Session.Course
import SlaveLink.Proofs.Session.DataReady
import SlaveLink.Proofs.Session.FirstStart
import SlaveLink.Proofs.Session.Handshake
import SlaveLink.Proofs.Session.History
import SlaveLink.Proofs.Session.InFlight
import SlaveLink.Proofs.Session.Ledger
import SlaveLink.Proofs.Session.Lines
import SlaveLink.Proofs.Session.Ownership
import SlaveLink.Proofs.Session.Precedence
import SlaveLink.Proofs.Session.Reception
import SlaveLink.Proofs.Session.Release
import SlaveLink.Proofs.Session.ShortTransfer
import SlaveLink.Proofs.Session.SignalState
import SlaveLink.Proofs.Session.Signalling
import SlaveLink.Proofs.Session.Sound
import SlaveLink.Proofs.Session.Teardown
import SlaveLink.Proofs.Session.Transmission
import SlaveLink.Proofs.Session.Twins
import SlaveLink.Proofs.Session.Wiring
import SlaveLink.Queue
import SlaveLink.Queue.Bench
import SlaveLink.Session
import SlaveLink.Signal
import SlaveLink.Simulation
import SlaveLink.Stats
import SlaveLink.Text.Blank
import SlaveLink.Text.Decimal
import SlaveLink.Text.Digits
import SlaveLink.Text.Printable
import SlaveLink.Text.Quoted
import SlaveLink.Text.Table
import SlaveLink.Timeout
import SlaveLink.Proofs.Link.Throttling
import SlaveLink.Proofs.Session.Throttling
import SlaveLink.Proofs.Session.Backpressure
import SlaveLink.Proofs.Frame.Rewriting
import SlaveLink.Proofs.Session.Recovery
import SlaveLink.Proofs.Link.Delivery
import SlaveLink.Proofs.Session.Poised
import SlaveLink.Proofs.Simulation.View
import SlaveLink.Proofs.Simulation.Round
import SlaveLink.Proofs.Simulation.Completion
import SlaveLink.Proofs.Queue
import SlaveLink.Proofs.Bus.Announcement
import SlaveLink.Proofs.Memory.Custody
import SlaveLink.Proofs.Memory.Stack
import SlaveLink.Proofs.Frame.Acceptance
import SlaveLink.Proofs.Frame.Rejection
import SlaveLink.Proofs.Frame.Writing
import SlaveLink.Proofs.Link.Refusal
import SlaveLink.Proofs.Session.Refusal
import SlaveLink.Proofs.Capability.Acceptance
import SlaveLink.Proofs.Signal
import SlaveLink.Proofs.Bus.Order
import SlaveLink.Proofs.Session.Aftermath
import SlaveLink.Proofs.Bus.Pools
import SlaveLink.Proofs.Flow
import SlaveLink.Proofs.HexDump
import SlaveLink.Proofs.Capability.Iteration
import SlaveLink.Proofs.Link.Stamping
import SlaveLink.Proofs.Session.Stamping
