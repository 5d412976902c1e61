import SlaveLink.Inspection
import SlaveLink.Machine
import SlaveLink.Session

/-! # Simulations
A link runs against a host that clocks one full block after another. The slave's frames go round
robin over a list of interfaces; the host sends frames of its own and counts what it reads. The run
ends when both sides have seen everything, or after a bounded number of exchanges. -/

namespace SlaveLink

structure Plan where
  /-- Frames that the slave sends. -/
  frames : Nat
  /-- Frames that the host sends. -/
  hostFrames : Nat
  interfaces : List Interface
  payloadSize : Nat
  /-- How long the host waits for Handshake before each exchange. -/
  limit : Duration
deriving DecidableEq, Repr

namespace Plan

def interfaceAt (p : Plan) (index : Nat) : Interface :=
  p.interfaces.getD (index % p.interfaces.length) .station

def payloadAt (p : Plan) (index : Nat) : Bytes :=
  (List.range p.payloadSize).map fun n => pattern.getD ((index + n) % pattern.length) 0
where
  pattern : Bytes := "hostlink".toUTF8.toList

/-- The number of exchanges after which a run stops. It is computed in a 64-bit word, which wraps. -/
def budget (p : Plan) : Nat := ((p.frames + p.hostFrames + 1) * 4 + 8) % (maxWord64 + 1)

end Plan

structure HostView where
  exchanges : Nat := 0
  /-- The first block held the startup event. -/
  isStartupFirst : Bool := false
  capabilities : Option Capabilities := none
  /-- The interfaces of the frames that arrived, the newest first. -/
  frames : List Interface := []
  dummies : Nat := 0
  rejected : Nat := 0
  /-- Exchanges in which the slave asked the host to hold back. -/
  throttled : Nat := 0
deriving DecidableEq, Repr, Inhabited

namespace HostView

def asksToHoldBack (block : Bytes) : Bool :=
  10 < block.length && Throttle.ofBits (block.byteAt 10) = .on

def record (config : FrameConfig) (block : Bytes) (v : HostView) : HostView :=
  let v := { v with
    exchanges := v.exchanges + 1
    throttled := if asksToHoldBack block then v.throttled + 1 else v.throttled }
  match Inspection.ofBytes config block with
  | .frame h _ capabilities =>
    if Inspection.isEvent h then { v with
      isStartupFirst := v.isStartupFirst || v.exchanges == 1
      capabilities }
    else { v with frames := h.interface :: v.frames }
  | .dummy _ => { v with dummies := v.dummies + 1 }
  | .rejected _ => { v with rejected := v.rejected + 1 }

def framesOf (v : HostView) (i : Interface) : Nat := v.frames.count i

/-- The interfaces of which frames arrived, by label, with how many. -/
def counts (v : HostView) : List (Interface × Nat) :=
  byLabel.filterMap fun i => if v.framesOf i = 0 then none else some (i, v.framesOf i)
where
  byLabel : List Interface := [.accessPoint, .ethernet, .hci, .internal, .serial, .station, .test]

end HostView

/-- Why a simulation was broken off. -/
inductive SimulationError where
  | init (e : LinkError)
  | start (e : LinkError)
  | submit (e : LinkError)
  /-- The host could not write a frame of its own. -/
  | hostFrame (e : FrameError)
  | exchange (e : DeviceError)
deriving DecidableEq, Repr

structure Simulation where
  session : Session
  view : HostView := {}
  /-- Frames that the slave has queued. -/
  submitted : Nat := 0
  /-- Frames that the host has sent. -/
  hostSent : Nat := 0
  /-- Frames that the slave's application has received. -/
  received : Nat := 0
deriving DecidableEq, Repr

namespace Simulation

/-- Builds and starts a link whose application listens for power saving. -/
def begin (machine : Machine) (c : LinkConfig) : Except (Fault SimulationError) Simulation :=
  match Session.createIn c (Session.matchingHost c) machine.memory with
  | .error (.error e) => .error (.error (.init e))
  | .error (.crash why) => .error (.crash why)
  | .ok s =>
    match (s.step (.register 0)).2.step .start with
    | (.refused e, _) => .error (.error (.start e))
    | (_, session) => .ok { session }

/-- Queues up to `n` of the slave's frames, as long as there is room. -/
def submitUpTo (p : Plan) : Nat → Simulation → Except SimulationError Simulation
  | 0, s => .ok s
  | n + 1, s =>
    match s.session.step
      (.submitNext (p.interfaceAt s.submitted) 0 (p.payloadAt s.submitted)) with
    | (.refused (.queueFull _), session) => .ok { s with session }
    | (.refused e, _) => .error (.submit e)
    | (_, session) => submitUpTo p n { s with session, submitted := s.submitted + 1 }

/-- The block that the host sends next: a frame while it has one, else zeros. -/
def hostBlock (p : Plan) (s : Simulation) : Except FrameError Bytes :=
  let config := s.session.link.config.frame
  let blank := Bytes.zeros config.blockSize
  if s.hostSent < p.hostFrames then
    let frame := { Frame.ofPayload .station (p.payloadAt s.hostSent) with
      sequence := UInt16.ofNat s.hostSent }
    match frame.encode config blank with
    | (.ok _, block) => .ok block
    | (.error e, _) => .error e
  else .ok blank

/-- Receives frames while there are any, up to `n` of them. -/
def receiveUpTo : Nat → Session.Step → Simulation → Simulation
  | 0, _, s => s
  | n + 1, request, s =>
    match s.session.step request with
    | (.received (some _), session) =>
      receiveUpTo n request { s with session, received := s.received + 1 }
    | (_, session) => { s with session }

/-- The host's wait for Handshake before the next exchange. -/
def nextWait (machine : Machine) (p : Plan) (s : Simulation) : Wait :=
  ⟨machine.clock s.view.exchanges, p.limit⟩

/-- When the wait is to end is worked out before the host looks at the line. -/
def exchange (machine : Machine) (p : Plan) (block : Bytes) (s : Simulation) :
    Except (Fault SimulationError) Simulation :=
  if (s.nextWait machine p).ends then
    match s.session.step (.exchange block p.limit none false) with
    | (.read bs, session) =>
      .ok { s with session, view := s.view.record session.link.config.frame bs }
    | (.hostFailed e, _) => .error (.error (.exchange e))
    | (_, session) => .ok { s with session }
  else .error (.crash .deadlineOverflow)

/-- Queues what fits, exchanges one block, and receives what arrived. -/
def round (machine : Machine) (p : Plan) (s : Simulation) :
    Except (Fault SimulationError) Simulation :=
  match submitUpTo p (p.frames - s.submitted) s with
  | .error e => .error (.error e)
  | .ok s =>
    match s.hostBlock p with
    | .error e => .error (.error (.hostFrame e))
    | .ok block =>
      let s := { s with hostSent := min (s.hostSent + 1) p.hostFrames }
      match s.exchange machine p block with
      | .error e => .error e
      | .ok s => .ok (receiveUpTo s.session.link.mux.rx.total (.tryReceive false) s)

/-- Everything was sent, and the host has as many frames as the slave was to send. -/
def isDone (p : Plan) (s : Simulation) : Bool :=
  s.submitted == p.frames && s.hostSent == p.hostFrames && p.frames ≤ s.view.frames.length

def rounds (machine : Machine) (p : Plan) :
    Nat → Simulation → Except (Fault SimulationError) Simulation
  | 0, s => .ok s
  | n + 1, s =>
    match s.round machine p with
    | .error fault => .error fault
    | .ok s => if s.isDone p then .ok s else rounds machine p n s

/-- How long the application waits for each frame that is still due. -/
def settleLimit : Duration := .ofMillis 200

/-- Receives what is still due and tears the link down. -/
def finish (s : Simulation) : Simulation :=
  let s := receiveUpTo (s.hostSent - s.received) (.receive (some settleLimit) false) s
  { s with session := (s.session.step .deinit).2 }

/-- The budget is looked at after an exchange, so there is always one. -/
def run (machine : Machine) (c : LinkConfig) (p : Plan) :
    Except (Fault SimulationError) Simulation :=
  match begin machine c with
  | .error fault => .error fault
  | .ok s => (s.rounds machine p (max 1 p.budget)).map finish

/-- The host saw every frame of the slave, nothing else, and the startup event first. -/
def isComplete (p : Plan) (s : Simulation) : Bool :=
  s.view.frames.length == p.frames && s.view.rejected == 0 && s.view.isStartupFirst

end Simulation
end SlaveLink
