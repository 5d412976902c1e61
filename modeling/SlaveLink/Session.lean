import SlaveLink.Link.Application
import SlaveLink.Link.Lifecycle

/-! # A link with a host and an application
What can happen to a link, one step at a time. After each step the worker runs until it cannot go
on, unless the link is draining. Completed transfers can be withheld from the worker, and the
application can hold on to received frames. -/

namespace SlaveLink

structure Session where
  link : Link
  host : HostLevels
  /-- The frames that the application ever kept, and which of them it still holds. -/
  held : List (Option Incoming) := []
  /-- Completed transfers do not reach the worker. -/
  withheld : Bool := false
deriving DecidableEq, Repr

namespace Session

/-- The clock has a reading for the end of every wait; a caller who cannot tell asks it before. -/
inductive Step where
  | start
  /-- Begins the teardown and waits with the rest of it. -/
  | drain
  /-- Goes on with a teardown that waits. -/
  | finishDrain
  | deinit
  | submitNext (interface : Interface) (number : UInt8) (payload : Bytes)
  | submit (f : Frame)
  /-- Submits `n` empty frames, which are refused. -/
  | burn (n : Nat)
  | exchange (data : Bytes) (limit : Duration) (fault : Option String) (hold : Bool)
  | clock (data : Bytes) (hold : Bool)
  /-- Completed transfers reach the worker again. -/
  | deliver
  | select
  | deselect
  | waitReady (limit : Duration)
  /-- The worker wakes up without a completed transfer. -/
  | tick
  /-- The worker is told that a transfer failed. -/
  | busError
  /-- The worker is told that the bus is closed. -/
  | busShutdown
  /-- The bus driver refuses the next `n` transactions. -/
  | refuse (n : Nat)
  | tryReceive (hold : Bool)
  | receive (limit : Option Duration) (hold : Bool)
  | dropHeld (i : Nat)
  | showHeld (i : Nat)
  | register (id : Nat)
deriving DecidableEq, Repr

inductive Reply where
  | done
  | read (bs : Bytes)
  | received (i : Option Incoming)
  /-- A wait without limit goes on. -/
  | waiting
  | dropped (wasHeld : Bool)
  | shown (payload : Option Bytes)
  | refused (e : LinkError)
  /-- The host could not do what it wanted. -/
  | hostFailed (e : DeviceError)
  /-- There is no worker, or it is busy. -/
  | notParked
deriving DecidableEq, Repr

def createIn (c : LinkConfig) (host : HostLevels) (heap : Nat) : Except (Fault LinkError) Session :=
  (Link.createIn c heap).map fun link => { link, host }

/-- There is as much memory as there can be. -/
def create (c : LinkConfig) (host : HostLevels) : Except (Fault LinkError) Session :=
  createIn c host Heap.maxRequest

/-- A host that agrees with the slave about both lines. -/
def matchingHost (c : LinkConfig) : HostLevels := ⟨c.handshake.active, c.dataReady.active⟩

def onLink (f : Link → Link) (s : Session) : Session := { s with link := f s.link }

def onSignals (f : Signals → Signals) (s : Session) : Session :=
  s.onLink fun l => { l with signals := f l.signals }

def lines (s : Session) : Lines := s.link.signals.lines

/-- Runs a request of the application that has no result beside success. -/
def request (f : Link → Except LinkError Unit × Link) (s : Session) : Reply × Session :=
  match f s.link with
  | (.ok (), link) => (.done, { s with link })
  | (.error e, link) => (.refused e, { s with link })

/-- Clocks the loaded transaction, with chip-select as it is. -/
def clock (data : Bytes) (fault : Option String) (s : Session) :
    Except DeviceError Bytes × Session :=
  match s.link.bus.clock? data fault with
  | none => (.error .busNotReady, s)
  | some t =>
    let s := s.onLink fun l => { l with
      bus := t.bus
      memory := l.memory.releaseTransactions t.lost.toList
      signals := l.signals.onBusAll t.events }
    match t.read with
    | some bs => (.ok bs, s)
    | none => (.error Bus.completionQueueFull, s)

/-- Waits for Handshake, asserts chip-select, clocks once and releases chip-select. -/
def exchange (data : Bytes) (limit : Duration) (fault : Option String) (s : Session) :
    Except DeviceError Bytes × Session :=
  match s.host.waitReady limit s.lines with
  | .error e => (.error e, s)
  | .ok () =>
    let (r, s) := (s.onSignals Signals.select).clock data fault
    (r, s.onSignals Signals.deselect)

/-- Answers for a transfer. After one that succeeded, completions may be withheld. -/
def transferred (hold : Bool) : Except DeviceError Bytes × Session → Reply × Session
  | (.ok bs, s) => (.read bs, { s with withheld := s.withheld || hold })
  | (.error e, s) => (.hostFailed e, s)

/-- The application keeps a received frame, or gives its block back. -/
def handOver (hold : Bool) (i : Incoming) (s : Session) : Session :=
  if hold then { s with held := s.held ++ [some i] } else s.onLink (·.giveBack [i.block])

/-- Runs the worker if it is parked. -/
def wakeWorker (f : Link → Link) (s : Session) : Reply × Session :=
  if s.link.worker = .parked then (.done, s.onLink f) else (.notParked, s)

/-- What one step does before the worker runs. -/
def act (step : Step) (s : Session) : Reply × Session :=
  match step with
  | .start => s.request Link.start
  | .drain => (.done, s.onLink Link.beginDrain)
  | .finishDrain => (.done, s.onLink Link.finishDrain)
  | .deinit =>
    if s.link.isOpen then (.done, s.onLink fun l => l.beginDrain.finishDrain) else (.done, s)
  | .submitNext interface number payload => s.request (Link.submitNext interface number payload)
  | .submit f => s.request (Link.submit f)
  | .burn n => (.done, s.onLink (Nat.repeat (fun l => (l.submitNext .station 0 []).2) n))
  | .exchange data limit fault hold => transferred hold (s.exchange data limit fault)
  | .clock data hold => transferred hold (s.clock data none)
  | .deliver => (.done, { s with withheld := false })
  | .select => (.done, s.onSignals Signals.select)
  | .deselect => (.done, s.onSignals Signals.deselect)
  | .waitReady limit =>
    match s.host.waitReady limit s.lines with
    | .error e => (.hostFailed e, s)
    | .ok () => (.done, s)
  | .tick => s.wakeWorker Link.tick
  | .busError => s.wakeWorker Link.leaveIfDrained
  | .busShutdown => s.wakeWorker Link.stopWorker
  | .refuse n => (.done, s.onLink fun l => { l with refusals := n })
  | .tryReceive hold =>
    match s.link.tryReceive with
    | (.error e, link) => (.refused e, { s with link })
    | (.ok none, link) => (.received none, { s with link })
    | (.ok (some i), link) => (.received (some i), { s with link }.handOver hold i)
  | .receive limit hold =>
    match s.link.receive limit with
    | (.found i, link) => (.received (some i), { s with link }.handOver hold i)
    | (.timedOut limit, link) => (.refused (.timeout limit), { s with link })
    | (.closed, link) => (.refused .inactive, { s with link })
    | (.waiting, link) => (.waiting, { s with link })
  | .dropHeld i =>
    match s.held[i]?.join with
    | none => (.dropped false, s)
    | some frame =>
      (.dropped true, { s with held := s.held.set i none }.onLink (·.giveBack [frame.block]))
  | .showHeld i => (.shown (s.held[i]?.join.map (·.payload)), s)
  | .register id => (.done, s.onLink (Link.register id))

/-- Lets the worker run until it cannot go on. -/
def settle (s : Session) : Session :=
  if s.link.phase = .draining then s else s.onLink (Link.settle s.withheld)

/-- Forgets what listeners were told. -/
def quiet (s : Session) : Session := s.onLink fun l => { l with notices := [] }

/-- One step, and the worker after it. `link.notices` then tells what listeners were told by it. -/
def step (step : Step) (s : Session) : Reply × Session :=
  let (r, s) := s.quiet.act step
  (r, s.settle)

def run (s : Session) : List Step → List Reply × Session
  | [] => ([], s)
  | step :: steps =>
    let (r, s) := s.step step
    let (rs, s) := s.run steps
    (r :: rs, s)

theorem run_append (s : Session) (before after : List Step) :
    s.run (before ++ after) =
      ((s.run before).1 ++ ((s.run before).2.run after).1, ((s.run before).2.run after).2) := by
  induction before generalizing s with
  | nil => rfl
  | cons step steps ih => simp [run, ih]

/-- A consumer waits for a frame and the link is torn down. A consumer that got none is told that
the link is inactive. -/
def receiveThenDeinit (s : Session) : Reply × Session :=
  match s.step (.receive none false) with
  | (.waiting, s) => (.refused .inactive, (s.step .deinit).2)
  | (r, s) => (r, (s.step .deinit).2)

end Session
end SlaveLink
