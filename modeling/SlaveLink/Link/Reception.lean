import SlaveLink.Link.Basic

/-! # Finishing a transfer
What went out is counted and given back first. Then the block that came in is looked at: its flags
tell about power saving whether or not it holds a frame, and a frame goes to the queue of its
priority or, if that is full, is dropped. -/

namespace SlaveLink.Link

/-- What the flags of a received block say about power saving. -/
def powerSave? (flags : Flags) : Option PowerSave :=
  if flags.contains .powerSaveStarted then some .started
  else if flags.contains .powerSaveStopped then some .stopped
  else none

def deliver (i : Incoming) (l : Link) : Link :=
  let l := match l.mux.deliver? i with
    | some mux => { l with mux }.count (.frameReceived i.priority)
    | none => (l.giveBack [i.block]).count (.dropped .overrun)
  l.updateFlow

/-- How a received block without a frame in it is counted. -/
def rejection : FrameError → Counter
  | .dummyFrame => .dummyReceived
  | .checksumMismatch _ _ => .dropped .checksum
  | _ => .dropped .malformed

def process (rx : Block) (l : Link) : Link :=
  let l := match powerSave? (peekFlags rx.bytes) with
    | some e => l.notify e
    | none => l
  match decodeHeader l.config.frame rx.bytes with
  | .ok header => l.deliver ⟨header, rx⟩
  | .error e => (l.count (rejection e)).giveBack [rx]

/-- How a block that went out is counted. -/
def transmission (tx : Block) : Counter :=
  match Header.parse tx.bytes with
  | .ok h => if h.isDummy then .dummySent else .frameSent h.interface.priority
  | .error _ => .dummySent

/-- Takes a completed transfer apart. -/
def finish (t : Transaction) (l : Link) : Link :=
  match t.fault with
  | some _ => (l.giveBackTransaction t).count .busFailure
  | none =>
    let l := match t.tx with
      | some tx => l.count (transmission tx)
      | none => l
    let l := l.giveBackTransaction { t with rx := none }
    match t.rx with
    | some rx => l.process rx
    | none => l

end SlaveLink.Link
