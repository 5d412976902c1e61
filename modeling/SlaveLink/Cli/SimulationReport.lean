import SlaveLink.Cli.Exit
import SlaveLink.Cli.Report
import SlaveLink.Config.Reader
import SlaveLink.Simulation
import SlaveLink.Timeout

/-! # Simulation reports
What a simulation is to do by its arguments, and what came of it on both sides of the link. -/

namespace SlaveLink.Cli

namespace SimulateArgs

def apply (a : SimulateArgs) (c : LinkConfig) : LinkConfig :=
  { c with
    frame := { c.frame with checksum := c.frame.checksum && !a.noChecksum }
    handshake := if a.activeLow then .activeLow else c.handshake
    dataReady := if a.activeLow then .activeLow else c.dataReady
    policy := a.policy.getD c.policy }

def plan (a : SimulateArgs) (c : LinkConfig) : Except Failure Plan :=
  match Duration.ofTimeoutText a.timeout with
  | .error e => .error ⟨.usage, e.message⟩
  | .ok limit =>
    if a.payloadSize = 0 ∨ c.frame.maxPayload < a.payloadSize then
      .error ⟨.usage, s!"payload size must be between 1 and {c.frame.maxPayload}"⟩
    else .ok ⟨a.frames, a.hostFrames, a.cycle, a.payloadSize, limit⟩

end SimulateArgs

def simulationFailure : SimulationError → Failure
  | .init e => .ofLink "init failed" e
  | .start e => .ofLink "start failed" e
  | .submit e => .ofLink "submit failed" e
  | .hostFrame e => .withContext "host encode failed" .internal e.message
  | .exchange e => .ofDevice "exchange failed" e

def viewJson (v : HostView) : Json :=
  .object [("exchanges", .number v.exchanges), ("startup_event_first", .bool v.isStartupFirst),
    ("capabilities", .ofOption (v.capabilities.map (·.toJson))),
    ("frames", .object (v.counts.map fun (i, n) => (i.label, .number n))),
    ("dummies", .number v.dummies), ("rejected", .number v.rejected),
    ("throttled_exchanges", .number v.throttled)]

def viewRows (v : HostView) : List (String × String) :=
  [("exchanges", toString v.exchanges), ("startup_event_first", toString v.isStartupFirst)] ++
  (v.counts.map fun (i, n) => ("host_rx." ++ i.label.map Char.toLower, toString n)) ++
  [("host_rx.dummy", toString v.dummies), ("host_rx.rejected", toString v.rejected),
    ("host_rx.throttled", toString v.throttled)]

def statsRows (s : Stats) : List (String × String) :=
  [("tx.control", s.tx.control), ("tx.voice", s.tx.voice), ("tx.bulk", s.tx.bulk),
    ("tx.dummy", s.txDummy), ("tx.queue_full", s.txQueueFull), ("rx.total", s.rx.total),
    ("dropped.checksum", s.droppedChecksum), ("dropped.malformed", s.droppedMalformed),
    ("dropped.overrun", s.droppedOverrun), ("throttle_on", s.throttleOn),
    ("pool_exhausted", s.poolExhausted), ("bus_failures", s.busFailures)].map
      fun (field, n) => (field, toString n)

/-- A report on a finished simulation. The link's application listened for power saving from the
start, so it was told of every such event. -/
def simulationReport (s : Simulation) : Report :=
  let l := s.session.link
  { schema := "hostlink/cli/v1/simulate-report"
    members := [("host", viewJson s.view), ("slave_received", .number s.received),
      ("power_save_events", .number l.stats.powerSaveEvents),
      ("final_state", .text l.phase.name), ("buffers_in_use", .number l.memory.wire.inUse),
      ("stats", l.stats.toJson)]
    rows := viewRows s.view ++ [("slave_rx", toString s.received)] ++ statsRows l.stats ++
      [("power_save_events", toString l.stats.powerSaveEvents), ("final_state", l.phase.name),
        ("buffers_in_use", toString l.memory.wire.inUse)] }

def simulationCode (p : Plan) (s : Simulation) : ExitCode :=
  if s.isComplete p then .success else .failure

end SlaveLink.Cli
