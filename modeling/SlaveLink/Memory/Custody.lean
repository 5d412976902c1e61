import SlaveLink.Memory.Basic

/-! # Custody
Named holders of blocks and transactions over one pair of pools. Every step moves a block between
the free list, a holder and a transaction, or changes the bytes of a block that is held. -/

namespace SlaveLink

inductive CustodyError where
  /-- The named holder has nothing. -/
  | noSlot
  /-- The named holder has something already. -/
  | slotTaken
  | device (e : DeviceError)
deriving DecidableEq, Repr

structure Custody where
  memory : Memory
  buffers : List (String × Block) := []
  transactions : List (String × Transaction) := []
deriving DecidableEq, Repr

namespace Custody

inductive Step where
  | acquire (slot : String) (zero : Bool)
  | write (slot : String) (start : Nat) (data : Bytes)
  | read (slot : String)
  | release (slot : String)
  | acquireTransaction (slot : String) (zero : Bool)
  | bind (slot tx rx : String) (length : Nat)
  | takeTx (slot target : String)
  | takeRx (slot target : String)
  | receive (slot : String) (data : Bytes)
  | fail (slot reason : String)
  | clear (slot : String)
  | view (slot : String)
  | releaseTransaction (slot : String)
deriving DecidableEq, Repr

inductive Reply where
  | done
  | block (b : Option Block)
  | transaction (t : Transaction)
  | failed (e : CustodyError)
deriving DecidableEq, Repr

/-- Replaces what the holder has. -/
def put {α : Type} (slot : String) (x : α) (held : List (String × α)) : List (String × α) :=
  (slot, x) :: held.filter (·.1 != slot)

def remove {α : Type} (slot : String) (held : List (String × α)) : List (String × α) :=
  held.filter (·.1 != slot)

def withBuffer (c : Custody) (slot : String) (k : Block → Reply × Custody) : Reply × Custody :=
  match c.buffers.lookup slot with
  | none => (.failed .noSlot, c)
  | some b => k b

def withTransaction (c : Custody) (slot : String) (k : Transaction → Reply × Custody) :
    Reply × Custody :=
  match c.transactions.lookup slot with
  | none => (.failed .noSlot, c)
  | some t => k t

/-- Moves a block that was taken out of a transaction to a holder. -/
def keep (c : Custody) (slot target : String) (taken : Option Block × Transaction) :
    Reply × Custody :=
  let c := { c with transactions := put slot taken.2 c.transactions }
  match taken.1 with
  | none => (.block none, c)
  | some b => (.block (some b), { c with buffers := put target b c.buffers })

def step (c : Custody) : Step → Reply × Custody
  | .acquire slot zero =>
    if (c.buffers.lookup slot).isSome then (.failed .slotTaken, c)
    else match c.memory.acquire zero with
      | .error e => (.failed (.device e), c)
      | .ok (b, memory) => (.block (some b), { c with memory, buffers := put slot b c.buffers })
  | .write slot start data => c.withBuffer slot fun b =>
    let b := b.write start data
    (.block (some b), { c with buffers := put slot b c.buffers })
  | .read slot => c.withBuffer slot fun b => (.block (some b), c)
  | .release slot => c.withBuffer slot fun b =>
    (.done, { c with memory := c.memory.release b, buffers := remove slot c.buffers })
  | .acquireTransaction slot zero =>
    if (c.transactions.lookup slot).isSome then (.failed .slotTaken, c)
    else match c.memory.acquireTransaction zero with
      | .error e => (.failed (.device e), c)
      | .ok (t, memory) =>
        (.transaction t, { c with memory, transactions := put slot t c.transactions })
  | .bind slot tx rx length =>
    match c.transactions.lookup slot, c.buffers.lookup tx, c.buffers.lookup rx with
    | some t, some b₁, some b₂ =>
      if tx = rx then (.failed .noSlot, c)
      else
        let (t, memory) := c.memory.bind b₁ b₂ length t
        (.transaction t, { c with
          memory
          buffers := remove tx (remove rx c.buffers)
          transactions := put slot t c.transactions })
    | _, _, _ => (.failed .noSlot, c)
  | .takeTx slot target =>
    if (c.buffers.lookup target).isSome then (.failed .slotTaken, c)
    else c.withTransaction slot fun t => c.keep slot target t.takeTx
  | .takeRx slot target =>
    if (c.buffers.lookup target).isSome then (.failed .slotTaken, c)
    else c.withTransaction slot fun t => c.keep slot target t.takeRx
  | .receive slot data => c.withTransaction slot fun t =>
    let t := { t with rx := t.rx.map (·.receive data) }
    (.block t.rx, { c with transactions := put slot t c.transactions })
  | .fail slot reason => c.withTransaction slot fun t =>
    let t := t.failWith reason
    (.transaction t, { c with transactions := put slot t c.transactions })
  | .clear slot => c.withTransaction slot fun t =>
    let (t, memory) := c.memory.clear t
    (.transaction t, { c with memory, transactions := put slot t c.transactions })
  | .view slot => c.withTransaction slot fun t => (.transaction t, c)
  | .releaseTransaction slot => c.withTransaction slot fun t =>
    (.done, { c with
      memory := c.memory.releaseTransaction t
      transactions := remove slot c.transactions })

def run (c : Custody) (steps : List Step) : Custody := steps.foldl (fun c s => (c.step s).2) c

end Custody

/-- The text of a held block in diagnostics. -/
def Pool.summaryOf (p : Pool Block) (b : Block) : String :=
  "Pooled \x7b pool: " ++ Text.quoteText p.name ++ ", block: [" ++
    ", ".intercalate (b.bytes.map toString) ++ "] \x7d"

end SlaveLink
