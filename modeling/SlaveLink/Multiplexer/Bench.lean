import SlaveLink.LinkError
import SlaveLink.Multiplexer.Basic

/-! # A multiplexer on the bench
One multiplexer with the memory its frames live in. Each frame is a tag in the first byte of a
block. -/

namespace SlaveLink

structure MultiplexerBench where
  memory : Memory
  mux : Multiplexer
deriving DecidableEq, Repr

namespace MultiplexerBench

def blockSize : Nat := 16

/-- Takes a block, then looks the interface up, then queues the block with the tag. A block that is
not queued goes back. -/
def enqueue (code tag : UInt8) (b : MultiplexerBench) :
    Except LinkError Priority × MultiplexerBench :=
  match b.memory.acquire true with
  | .error e => (.error (.device e), b)
  | .ok (block, memory) =>
    match Interface.ofCode? code with
    | none =>
      (.error (.frame (.unknownInterface code)), { b with memory := memory.release block })
    | some interface =>
      let o : Outgoing := ⟨block.receive [tag], interface⟩
      match b.mux.send? o with
      | none => (.error (.queueFull o.priority), { b with memory := memory.release o.block })
      | some mux => (.ok o.priority, { memory, mux })

/-- Takes the frame that is due next and returns its interface and tag. -/
def dequeue (b : MultiplexerBench) : Option (Interface × UInt8) × MultiplexerBench :=
  match b.mux.next? with
  | none => (none, b)
  | some (o, mux) =>
    (some (o.interface, o.block.bytes.byteAt 0), { memory := b.memory.release o.block, mux })

def receive (b : MultiplexerBench) : Bool × MultiplexerBench :=
  match b.mux.receive? with
  | none => (false, b)
  | some (i, mux) => (true, { memory := b.memory.release i.block, mux })

def clear (b : MultiplexerBench) : Nat × MultiplexerBench :=
  (b.mux.total, { memory := b.memory.releaseAll b.mux.blocks, mux := b.mux.clear })

end MultiplexerBench
end SlaveLink
