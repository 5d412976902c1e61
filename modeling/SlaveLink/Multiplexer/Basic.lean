import SlaveLink.Frame.Codec
import SlaveLink.Memory.Basic
import SlaveLink.Queue

/-! # The multiplexer
Frames of every interface share one set of queues in each direction; the interface of a frame
decides which priority it travels on. -/

namespace SlaveLink

/-- An encoded frame that waits for the bus. -/
structure Outgoing where
  block : Block
  interface : Interface
deriving DecidableEq, Repr

/-- A received frame in the block it arrived in. -/
structure Incoming where
  header : Header
  block : Block
deriving DecidableEq, Repr

namespace Outgoing

def priority (o : Outgoing) : Priority := o.interface.priority

end Outgoing

namespace Incoming

def priority (i : Incoming) : Priority := i.header.interface.priority

def payload (i : Incoming) : Bytes := i.header.payloadOf i.block.bytes

/-- The frame with a payload of its own. -/
def toFrame (i : Incoming) : Frame := .ofHeader i.header i.payload

def summary (i : Incoming) : String :=
  "RxFrame \x7b if_type: " ++ i.header.interface.variant ++ s!", if_num: {i.header.number}" ++
    s!", seq_num: {i.header.sequence}, len: {i.header.length} " ++ "\x7d"

end Incoming

structure Multiplexer where
  tx : PriorityQueues Outgoing
  rx : PriorityQueues Incoming
deriving DecidableEq, Repr

namespace Multiplexer

def empty (tx rx : PerPriority Nat) : Multiplexer := ⟨.empty tx, .empty rx⟩

/-- Bytes of memory behind a slot of a queue, by direction. -/
def slotBytes : Direction → Nat
  | .tx => 40
  | .rx => 48

/-- Queues a frame for the bus; nothing if the queue of its priority is full. -/
def send? (o : Outgoing) (m : Multiplexer) : Option Multiplexer :=
  (m.tx.push? o.priority o).map fun tx => { m with tx }

/-- Takes the frame to send next. -/
def next? (m : Multiplexer) : Option (Outgoing × Multiplexer) :=
  match m.tx.pop? with
  | none => none
  | some (_, o, tx) => some (o, { m with tx })

/-- Queues a received frame; nothing if the queue of its priority is full. -/
def deliver? (i : Incoming) (m : Multiplexer) : Option Multiplexer :=
  (m.rx.push? i.priority i).map fun rx => { m with rx }

/-- Takes the received frame that is due next. -/
def receive? (m : Multiplexer) : Option (Incoming × Multiplexer) :=
  match m.rx.pop? with
  | none => none
  | some (_, i, rx) => some (i, { m with rx })

def total (m : Multiplexer) : Nat := m.tx.total + m.rx.total

/-- The blocks of all waiting frames, those to be sent first. -/
def blocks (m : Multiplexer) : List Block :=
  m.tx.items.map (·.block) ++ m.rx.items.map (·.block)

def clear (m : Multiplexer) : Multiplexer := ⟨m.tx.clear, m.rx.clear⟩

def summary (m : Multiplexer) : String :=
  "Multiplexer \x7b tx: " ++ m.tx.summary .tx ++ ", rx: " ++ m.rx.summary .rx ++ " \x7d"

end Multiplexer
end SlaveLink
