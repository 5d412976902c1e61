import SlaveLink.Bus.Basic
import SlaveLink.Flow
import SlaveLink.Multiplexer.Basic
import SlaveLink.Signal
import SlaveLink.Stats

/-! # The link
The slave's end of the link: memory, queues, lines, the bus, and a worker that keeps one transfer
armed. Everything that happens to it is a function from a link to a link, with a result beside it
where there is one. -/

namespace SlaveLink

inductive Phase where
  /-- Frames may be queued but nothing is armed. -/
  | initialized
  | active
  /-- Nothing new is armed; the transfer in flight may complete. -/
  | draining
  | deinit
deriving DecidableEq, Repr, Inhabited

namespace Phase

def name : Phase → String
  | .initialized => "initialized"
  | .active => "active"
  | .draining => "draining"
  | .deinit => "deinit"

def variant : Phase → String
  | .initialized => "Initialized"
  | .active => "Active"
  | .draining => "Draining"
  | .deinit => "Deinit"

/-- Frames may be sent and received. -/
def isOpen : Phase → Bool
  | .initialized | .active => true
  | .draining | .deinit => false

end Phase

/-- What the host says about its power saving. -/
inductive PowerSave where
  | started | stopped
deriving DecidableEq, Repr, Inhabited

def PowerSave.name : PowerSave → String
  | .started => "started"
  | .stopped => "stopped"

/-- Where the worker stands when it cannot go on. -/
inductive Worker where
  /-- Not started, or gone. -/
  | absent
  /-- Waits for a transfer to complete. -/
  | parked
  /-- Holds a completed transfer until chip-select is released. -/
  | waiting (t : Transaction)
deriving DecidableEq, Repr

structure Link where
  config : LinkConfig
  memory : Memory
  mux : Multiplexer
  flow : FlowControl
  signals : Signals
  bus : Bus
  startup : Startup
  stats : Stats := {}
  phase : Phase := .initialized
  worker : Worker := .absent
  /-- The sequence number of the next frame. -/
  sequence : UInt16 := 0
  /-- Transfers handed to the bus that the worker has not taken back. -/
  inFlight : Nat := 0
  /-- Arming failed and is to be tried again. -/
  rearmPending : Bool := false
  /-- How many more transactions the bus driver will refuse. -/
  refusals : Nat := 0
  /-- Who is told about power saving, if anyone. -/
  listener : Option Nat := none
  /-- What listeners were told, oldest first. -/
  notices : List (Nat × PowerSave) := []
deriving DecidableEq, Repr

namespace Link

/-- The pools that a link with these settings needs, and what they leave of the heap. -/
def reserve (c : LinkConfig) (heap : Nat) : Except (Fault DeviceError) (Memory × Nat) :=
  let blocks := wrap64 c.wireBlocks
  let count := wrap64 c.transactionBlocks
  match Memory.createWire "wire" blocks c.frame.blockSize heap with
  | .error fault => .error fault
  | .ok wire =>
    let heap := heap - Memory.wireBytes blocks c.frame.blockSize
    match Memory.createTransactions "transaction" count heap with
    | .error e => .error (.error e)
    | .ok transactions => .ok ({ wire, transactions }, heap - count * Memory.transactionSlot)

/-- Takes memory for the queues in both directions. -/
def claimQueues (c : LinkConfig) (heap : Nat) : Except Crash Nat :=
  match PriorityQueues.claim (Multiplexer.slotBytes .tx) c.txDepths heap with
  | .error why => .error why
  | .ok heap => PriorityQueues.claim (Multiplexer.slotBytes .rx) c.rxDepths heap

/-- A link over given memory: queues empty, both lines inactive. -/
def ofMemory (c : LinkConfig) (memory : Memory) : Link where
  config := c
  memory := memory
  mux := .empty c.txDepths c.rxDepths
  flow := ⟨c.throttleHigh, c.throttleLow, false⟩
  signals := (Signals.ofConfig c).init
  bus := .ofQueueSize c.busQueueSize
  startup := { capabilities := c.slaveCapabilities }

/-- Builds a link with its bus, which takes memory first. Nothing is armed until it is started. -/
def createIn (c : LinkConfig) (heap : Nat) : Except (Fault LinkError) Link :=
  match c.validate with
  | .error e => .error (.error e.toLinkError)
  | .ok () =>
    match Heap.claim (c.busQueueSize * Bus.slotBytes) heap with
    | .error why => .error (.crash why)
    | .ok heap =>
      match reserve c heap with
      | .error (.error e) => .error (.error (.outOfMemory e.message))
      | .error (.crash why) => .error (.crash why)
      | .ok (memory, heap) =>
        match claimQueues c heap with
        | .error why => .error (.crash why)
        | .ok _ => .ok (ofMemory c memory)

/-- Builds a link where there is as much memory as there can be. -/
def create (c : LinkConfig) : Except (Fault LinkError) Link := createIn c Heap.maxRequest

def isOpen (l : Link) : Bool := l.phase.isOpen

def isDraining (l : Link) : Bool := !l.isOpen

def count (c : Counter) (l : Link) : Link := { l with stats := l.stats.bump c }

def giveBack (bs : List Block) (l : Link) : Link := { l with memory := l.memory.releaseAll bs }

def giveBackTransaction (t : Transaction) (l : Link) : Link :=
  { l with memory := l.memory.releaseTransaction t }

def setDataReady (asserted : Bool) (l : Link) : Link :=
  { l with signals := l.signals.setDataReady asserted }

def takeSequence (l : Link) : UInt16 × Link :=
  (l.sequence, { l with sequence := l.sequence + 1 })

/-- Takes the occupancy of the bulk receive queue into account. -/
def updateFlow (l : Link) : Link :=
  let (change, flow) := l.flow.update (l.mux.rx.length .bulk) (l.mux.rx.depths.get .bulk)
  match change with
  | none => { l with flow }
  | some on => { l with flow }.count (.throttleChanged on)

def notify (e : PowerSave) (l : Link) : Link :=
  { l.count .powerSaveEvent with
    notices := l.notices ++ (l.listener.map fun id => (id, e)).toList }

def capabilities (l : Link) : Capabilities := l.startup.capabilities

def summary (l : Link) : String :=
  "SpiTransport \x7b state: " ++ l.phase.variant ++ ", signals: " ++ l.signals.summary ++
    ", mux: " ++ l.mux.summary ++ ", buffers: " ++ l.memory.wire.summary ++ " \x7d"

end Link
end SlaveLink
