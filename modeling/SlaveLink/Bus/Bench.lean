import SlaveLink.Bus.Basic
import SlaveLink.Line

/-! # A bus on the bench
One bus with its pools, its lines and a host. What happens is logged: events of the bus under the
name of the recorder, and edges of chip-select under the name of their handler. -/

namespace SlaveLink

structure BusBench where
  memory : Memory
  bus : Bus
  bank : LineBank Nat := {}
  host : HostLevels := {}
  /-- Who records bus events, if anyone. -/
  recorder : Option Nat := none
deriving Repr

namespace BusBench

inductive Step where
  | setEvents (id : Nat)
  | watch (line : Line) (edge : Edge) (id : Nat)
  | queue (data : Bytes) (length : Option Nat) (zero bare : Bool)
  | clock (data : Bytes)
  | exchange (data : Bytes) (limit : Duration) (fault : Option String)
  | collect (limit : Duration)
  | cancel
  | select
  | deselect
  | set (line : Line) (level : Level)
  | waitReady (limit : Duration)
deriving DecidableEq, Repr

inductive Reply where
  | done
  | read (bs : Bytes)
  | transaction (t : Transaction)
  | cancelled (ts : List Transaction)
  | failed (e : DeviceError)
deriving DecidableEq, Repr

inductive Log where
  | bus (id : Nat) (e : BusEvent)
  | edge (id : Nat) (level : Level)
deriving DecidableEq, Repr

abbrev Outcome := Reply × List Log × BusBench

def logBus (b : BusBench) (events : List BusEvent) : List Log :=
  match b.recorder with
  | none => []
  | some id => events.map (.bus id)

def chipSelect (level : Level) (b : BusBench) : List Log × BusBench :=
  let (fired, bank) := b.bank.drive .chipSelect level
  (fired.map (.edge · level), { b with bank })

/-- Takes a transaction and, unless it stays bare, an outgoing block that starts with `data` and an
incoming block. What was taken goes back if a pool runs out. -/
def prepare (data : Bytes) (length : Option Nat) (zero bare : Bool) (m : Memory) :
    Except DeviceError Transaction × Memory :=
  match m.acquireTransaction true with
  | .error e => (.error e, m)
  | .ok (t, m) =>
    if bare then (.ok t, m)
    else match m.acquire true with
      | .error e => (.error e, m.releaseTransaction t)
      | .ok (tx, m) =>
        let tx := tx.receive data
        match m.acquire zero with
        | .error e => (.error e, (m.release tx).releaseTransaction t)
        | .ok (rx, m) =>
          let (t, m) := m.bind tx rx (length.getD tx.bytes.length) t
          (.ok t, m)

def queue (data : Bytes) (length : Option Nat) (zero bare : Bool) (b : BusBench) : Outcome :=
  match prepare data length zero bare b.memory with
  | (.error e, memory) => (.failed e, [], { b with memory })
  | (.ok t, memory) =>
    match b.bus.submit? t with
    | none => (.failed .busNotReady, [], { b with memory := memory.releaseTransaction t })
    | some (events, bus) => (.done, b.logBus events, { b with memory, bus })

def clock (data : Bytes) (fault : Option String) (b : BusBench) : Outcome :=
  match b.bus.clock? data fault with
  | none => (.failed .busNotReady, [], b)
  | some t =>
    let b' := { b with
      bus := t.bus
      memory := b.memory.releaseTransactions t.lost.toList }
    match t.read with
    | some bs => (.read bs, b.logBus t.events, b')
    | none => (.failed Bus.completionQueueFull, b.logBus t.events, b')

/-- Waits for Handshake, asserts chip-select, clocks once and releases chip-select. -/
def exchange (data : Bytes) (limit : Duration) (fault : Option String) (b : BusBench) : Outcome :=
  match b.host.waitReady limit b.bank.lines with
  | .error e => (.failed e, [], b)
  | .ok () =>
    let (selected, b) := b.chipSelect .low
    let (reply, clocked, b) := b.clock data fault
    let (released, b) := b.chipSelect .high
    (reply, selected ++ clocked ++ released, b)

def step (b : BusBench) : Step → Outcome
  | .setEvents id => (.done, [], { b with recorder := some id })
  | .watch line edge id =>
    match b.bank.watch line edge id with
    | .error e => (.failed e, [], b)
    | .ok bank => (.done, [], { b with bank })
  | .queue data length zero bare => b.queue data length zero bare
  | .clock data => b.clock data none
  | .exchange data limit fault => b.exchange data limit fault
  | .collect limit =>
    match b.bus.collect? with
    | none => (.failed (.timeout limit), [], b)
    | some (t, bus) => (.transaction t, [],
      { b with bus, memory := b.memory.releaseTransaction t })
  | .cancel =>
    let (ts, bus) := b.bus.cancel
    (.cancelled ts, [], { b with bus, memory := b.memory.releaseTransactions ts })
  | .select =>
    let (log, b) := b.chipSelect .low
    (.done, log, b)
  | .deselect =>
    let (log, b) := b.chipSelect .high
    (.done, log, b)
  | .set line level => (.done, [], { b with bank := b.bank.set line level })
  | .waitReady limit =>
    match b.host.waitReady limit b.bank.lines with
    | .error e => (.failed e, [], b)
    | .ok () => (.done, [], b)

/-- The state after a list of steps, and everything logged on the way. -/
def run (b : BusBench) : List Step → List Log × BusBench
  | [] => ([], b)
  | s :: ss =>
    let (_, log, b) := b.step s
    let (rest, b) := b.run ss
    (log ++ rest, b)

theorem run_append (b : BusBench) (before after : List Step) :
    b.run (before ++ after) =
      ((b.run before).1 ++ ((b.run before).2.run after).1, ((b.run before).2.run after).2) := by
  induction before generalizing b with
  | nil => rfl
  | cons step steps ih => simp [run, ih]

end BusBench
end SlaveLink
