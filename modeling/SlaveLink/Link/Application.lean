import SlaveLink.Link.Basic

/-! # The application's side
Frames are handed in with or without a sequence number of their own, and received control first.
The throttle field always tells what the link asks of the host at that moment. -/

namespace SlaveLink.Link

/-- Writes a frame into a block and queues it. A block that is not queued is given back. -/
def enqueue (h : Header) (payload : Bytes) (l : Link) : Except LinkError Unit × Link :=
  match l.memory.acquire false with
  | .error e => (.error (.device e), l.count .poolExhausted)
  | .ok (b, memory) =>
    let l := { l with memory }
    match encodeFrame l.config.frame { h with throttle := l.flow.throttle } payload b.bytes with
    | (.error e, _) => (.error (.frame e), l.giveBack [b])
    | (.ok _, bytes) =>
      let o : Outgoing := ⟨{ b with bytes }, h.interface⟩
      match l.mux.send? o with
      | none => (.error (.queueFull o.priority), (l.giveBack [o.block]).count .txQueueFull)
      | some mux => (.ok (), { l with mux }.setDataReady true)

def submitHeader (h : Header) (payload : Bytes) (l : Link) : Except LinkError Unit × Link :=
  if ¬ l.isOpen then (.error .inactive, l)
  else if payload.isEmpty then (.error .emptyPayload, l)
  else l.enqueue h payload

def submit (f : Frame) (l : Link) : Except LinkError Unit × Link :=
  l.submitHeader f.header f.payload

/-- Queues a frame with the next sequence number, which is used up even if the frame is refused. -/
def submitNext (interface : Interface) (number : UInt8) (payload : Bytes) (l : Link) :
    Except LinkError Unit × Link :=
  let (sequence, l) := l.takeSequence
  l.submitHeader { Header.blank interface number with sequence } payload

def tryReceive (l : Link) : Except LinkError (Option Incoming) × Link :=
  if ¬ l.isOpen then (.error .inactive, l)
  else
    match l.mux.receive? with
    | none => (.ok none, l)
    | some (i, mux) => (.ok (some i), { l with mux }.updateFlow)

/-- The clock is taken to have a reading for the end of the wait. -/
def receive (limit : Option Duration) (l : Link) : WaitOutcome Incoming × Link :=
  if ¬ l.isOpen then (.closed, l)
  else
    match l.mux.rx.popWithin limit false with
    | (.found (_, i), rx) => (.found i, { l with mux := { l.mux with rx } }.updateFlow)
    | (.timedOut limit, _) => (.timedOut limit, l)
    | (.closed, _) => (.closed, l)
    | (.waiting, _) => (.waiting, l)

/-- Names the one who is told about power saving from now on. -/
def register (id : Nat) (l : Link) : Link := { l with listener := some id }

end SlaveLink.Link
