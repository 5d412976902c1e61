import SlaveLink.Link.Worker

/-! # Start and teardown
Starting arms the startup event and brings up the worker. Teardown lets a transfer that has
completed be finished, and takes back everything else. -/

namespace SlaveLink.Link

def start (l : Link) : Except LinkError Unit × Link :=
  match l.phase with
  | .initialized =>
    match { l with phase := .active }.armStartup with
    | (.ok (), l) => (.ok (), { l with worker := .parked })
    | (.error e, l) => (.error e, { l with phase := .initialized })
  | .active => (.error .alreadyStarted, l)
  | .draining | .deinit => (.error .inactive, l)

/-- Stops arming. A link that is draining or torn down stays as it is. -/
def beginDrain (l : Link) : Link := if l.isOpen then { l with phase := .draining } else l

/-- The worker's last act: it finishes the transfer it holds, or one that has completed. -/
def windDown (l : Link) : Link :=
  match l.worker with
  | .absent => l
  | .waiting t => l.finish t
  | .parked =>
    match l.bus.collect? with
    | none => l
    | some (t, bus) => { l with bus, inFlight := l.inFlight - 1 }.finish t

/-- Takes back every transaction and every frame, and drops both lines. -/
def dismantle (l : Link) : Link :=
  let (cancelled, bus) := l.bus.cancel
  let memory := l.memory.releaseTransactions (cancelled ++ bus.completed)
  { l with
    bus := { bus with completed := [] }
    memory := memory.releaseAll l.mux.blocks
    mux := l.mux.clear
    inFlight := 0
    signals := l.signals.deactivate
    phase := .deinit
    worker := .absent }

/-- Lets the worker go and takes the link apart, if it is draining. -/
def finishDrain (l : Link) : Link :=
  match l.phase with
  | .draining => l.windDown.dismantle
  | _ => l

end SlaveLink.Link
