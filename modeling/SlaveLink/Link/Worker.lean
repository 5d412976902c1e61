import SlaveLink.Link.Arming
import SlaveLink.Link.Reception

/-! # The worker
The worker takes completed transfers from the bus. It arms the next transfer before it finishes the
completed one; under the policy `onChipSelect` it first waits until chip-select is released. -/

namespace SlaveLink.Link

/-- Arms the next transfer and finishes the completed one. -/
def turnAround (t : Transaction) (l : Link) : Link :=
  let l := if l.isDraining then l else l.armNext
  l.finish t

/-- Turns around once chip-select has been released; until then the worker holds the transfer. -/
def awaitRelease (t : Transaction) (l : Link) : Link :=
  let (released, signals) := l.signals.takeRelease
  if released then { l with signals, worker := .parked }.turnAround t
  else { l with signals, worker := .waiting t }

def complete (t : Transaction) (l : Link) : Link :=
  let l := { l with inFlight := l.inFlight - 1 }
  match l.config.policy with
  | .onTransactionEnd => l.turnAround t
  | .onChipSelect => l.awaitRelease t

/-- Takes over up to `n` completed transfers while the worker is parked. -/
def collect : Nat → Link → Link
  | 0, l => l
  | n + 1, l =>
    if l.worker ≠ .parked then l
    else match l.bus.collect? with
      | none => l
      | some (t, bus) => collect n ({ l with bus }.complete t)

/-- Lets the worker look at chip-select again. -/
def resume (l : Link) : Link :=
  match l.worker with
  | .waiting t => l.awaitRelease t
  | _ => l

/-- Runs the worker until it cannot go on. Completions that are withheld do not reach it. -/
def settle (withheld : Bool) (l : Link) : Link :=
  let l := l.resume
  if withheld then l else l.collect l.bus.completed.length

/-- A draining worker goes when nothing is in flight or it may not wait any longer. -/
def leaveIfDrained (l : Link) : Link :=
  if l.isDraining ∧ (l.inFlight = 0 ∨ l.config.drainTimeout = 0) then { l with worker := .absent }
  else l

/-- The parked worker wakes up without a completed transfer and tries again to arm. -/
def tick (l : Link) : Link :=
  if ¬ l.isDraining ∧ l.rearmPending then { l with rearmPending := false }.armNext
  else l.leaveIfDrained

/-- The worker stops because the bus is closed. -/
def stopWorker (l : Link) : Link := { l with worker := .absent }

end SlaveLink.Link
