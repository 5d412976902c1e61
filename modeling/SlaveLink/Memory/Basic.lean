import SlaveLink.Memory.Pool

/-! # Wire blocks and transactions
A transaction pairs the block that goes out with the block that comes in during one full-duplex
transfer. Both come from pools: a transaction that is released gives its blocks back first, the
outgoing one before the incoming one, and is blank when it is acquired again. -/

namespace SlaveLink

/-- A block of the wire pool: its place in the pool's memory and what it holds. -/
structure Block where
  index : Nat
  bytes : Bytes
deriving DecidableEq, Repr

namespace Block

def zeroed (b : Block) : Block := { b with bytes := Bytes.zeros b.bytes.length }

/-- Writes over the bytes from `start` on, as far as they reach. -/
def write (start : Nat) (data : Bytes) (b : Block) : Block :=
  { b with bytes := b.bytes.take start ++ (b.bytes.drop start |> Bytes.overwrite data) }

def receive (data : Bytes) (b : Block) : Block := { b with bytes := Bytes.overwrite data b.bytes }

end Block

structure Transaction where
  tx : Option Block := none
  rx : Option Block := none
  /-- Bytes clocked in each direction. -/
  length : Nat := 0
  /-- Why the transfer failed at the driver, if it did. -/
  fault : Option String := none
deriving DecidableEq, Repr

namespace Transaction

def blank : Transaction := {}

/-- The blocks that the transaction holds, in the order they are given back. -/
def blocks (t : Transaction) : List Block := t.tx.toList ++ t.rx.toList

def takeTx (t : Transaction) : Option Block × Transaction := (t.tx, { t with tx := none })

def takeRx (t : Transaction) : Option Block × Transaction := (t.rx, { t with rx := none })

def failWith (reason : String) (t : Transaction) : Transaction := { t with fault := some reason }

/-- The bytes that go out in a transfer. -/
def outgoing (t : Transaction) : Bytes :=
  match t.tx with
  | some tx => tx.bytes.take t.length
  | none => []

/-- Stores the host's bytes, no more than the transfer is long. -/
def receive (host : Bytes) (t : Transaction) : Transaction :=
  { t with rx := t.rx.map (·.receive (host.take t.length)) }

end Transaction

structure Memory where
  wire : Pool Block
  transactions : Pool Transaction
deriving DecidableEq, Repr

namespace Memory

/-- Bytes of memory behind a slot of either pool. -/
def blockSlot : Nat := 16
def transactionSlot : Nat := 80

/-- What a pool of blocks takes of the heap: its slots, and the blocks behind them. -/
def wireBytes (blocks size : Nat) : Nat := blocks * (blockSlot + size)

/-- The slots are reserved first. The blocks behind them are not: there is no answer when the heap
has no memory for one. -/
def createWire (name : String) (blocks size heap : Nat) :
    Except (Fault DeviceError) (Pool Block) :=
  if size = 0 then .error (.error (.invalidConfig (name ++ " pool block size must be non-zero")))
  else
    match Pool.create name blocks blockSlot id heap with
    | .error e => .error (.error e)
    | .ok slots =>
      if Heap.maxRequest < size then .error (.crash .capacityOverflow)
      else if heap < wireBytes blocks size then .error (.crash (.outOfMemory size))
      else
        let blank := Bytes.zeros size
        .ok (slots.map fun index => ⟨index, blank⟩)

def createTransactions (name : String) (blocks heap : Nat) :
    Except DeviceError (Pool Transaction) :=
  Pool.create name blocks transactionSlot (fun _ => .blank) heap

/-- Takes a block, as its last holder left it or zeroed. -/
def acquire (zero : Bool) (m : Memory) : Except DeviceError (Block × Memory) :=
  match m.wire.acquire? with
  | none => .error m.wire.exhausted
  | some (b, wire) => .ok (if zero then b.zeroed else b, { m with wire })

def release (b : Block) (m : Memory) : Memory := { m with wire := m.wire.release b }

/-- Gives blocks back in order, so that the last one is acquired next. -/
def releaseAll (bs : List Block) (m : Memory) : Memory := bs.foldl (fun m b => m.release b) m

/-- Gives back what a transaction holds and blanks it. -/
def clear (t : Transaction) (m : Memory) : Transaction × Memory :=
  (.blank, m.releaseAll t.blocks)

def acquireTransaction (zero : Bool) (m : Memory) : Except DeviceError (Transaction × Memory) :=
  match m.transactions.acquire? with
  | none => .error m.transactions.exhausted
  | some (t, transactions) =>
    .ok (if zero then clear t { m with transactions } else (t, { m with transactions }))

/-- Puts two blocks into a transaction; blocks bound before are given back. -/
def bind (tx rx : Block) (length : Nat) (t : Transaction) (m : Memory) : Transaction × Memory :=
  (⟨some tx, some rx, length, none⟩, m.releaseAll t.blocks)

def releaseTransaction (t : Transaction) (m : Memory) : Memory :=
  let m := m.releaseAll t.blocks
  { m with transactions := m.transactions.release .blank }

def releaseTransactions (ts : List Transaction) (m : Memory) : Memory :=
  ts.foldl (fun m t => m.releaseTransaction t) m

end Memory
end SlaveLink
