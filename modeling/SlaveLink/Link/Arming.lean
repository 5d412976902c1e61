import SlaveLink.Link.Basic

/-! # Arming
A transfer is armed with a block to fill, a transaction and a block to send. The first two are taken
before a frame leaves its queue, so a shortage of memory never strands a frame. A dummy goes out
when no frame waits. -/

namespace SlaveLink.Link

/-- Takes the block to send next: the frame that is due, or a dummy, for which DataReady drops. -/
def takeOutgoing (l : Link) : Except DeviceError Block × Link :=
  match l.mux.next? with
  | some (o, mux) => (.ok o.block, { l with mux })
  | none =>
    match l.memory.acquire true with
    | .error e => (.error e, l)
    | .ok (b, memory) =>
      (.ok (b.receive (Header.dummy l.flow.throttle).encode),
        { l with memory }.setDataReady false)

/-- Hands a transaction to the bus. One that is refused is given back. -/
def load (t : Transaction) (l : Link) : Except DeviceError Unit × Link :=
  if l.refusals ≠ 0 then
    (.error .busNotReady, { l with refusals := l.refusals - 1 }.giveBackTransaction t)
  else
    match l.bus.submit? t with
    | none => (.error .busNotReady, l.giveBackTransaction t)
    | some (events, bus) =>
      (.ok (), { l with
        bus
        inFlight := l.inFlight + 1
        signals := l.signals.onBusAll events })

/-- Binds a block to send and a block to fill into a transaction and loads it. -/
def bindAndLoad (tx rx : Block) (t : Transaction) (l : Link) : Except DeviceError Unit × Link :=
  let (t, memory) := l.memory.bind tx rx l.config.frame.blockSize t
  { l with memory }.load t

/-- Arms one transfer. A preset block is sent in place of a queued frame; on an error it is given
back with everything else that was taken. -/
def arm (preset : Option Block) (l : Link) : Except DeviceError Unit × Link :=
  match l.memory.acquire false with
  | .error e => (.error e, l.giveBack preset.toList)
  | .ok (rx, memory) =>
    match memory.acquireTransaction true with
    | .error e => (.error e, { l with memory }.giveBack (rx :: preset.toList))
    | .ok (t, memory) =>
      let l := { l with memory }
      match preset with
      | some tx => l.bindAndLoad tx rx t
      | none =>
        match l.takeOutgoing with
        | (.error e, l) => (.error e, (l.giveBackTransaction t).giveBack [rx])
        | (.ok tx, l) => l.bindAndLoad tx rx t

/-- How a failed attempt to arm is counted. -/
def armFailure : DeviceError → Counter
  | .poolExhausted _ => .poolExhausted
  | _ => .busFailure

/-- Arms the next transfer; after a failure it is to be tried again. -/
def armNext (l : Link) : Link :=
  match l.arm none with
  | (.ok (), l) => l
  | (.error e, l) => { l with rearmPending := true }.count (armFailure e)

/-- Arms the startup event, unless it was handed out before. -/
def armStartup (l : Link) : Except LinkError Unit × Link :=
  let (sequence, l) := l.takeSequence
  let (frame, startup) := l.startup.takeFrame sequence
  let l := { l with startup }
  match frame with
  | none => (.ok (), l)
  | some frame =>
    match l.memory.acquire true with
    | .error e => (.error (.device e), l)
    | .ok (b, memory) =>
      match frame.encode l.config.frame b.bytes with
      | (.error e, _) => (.error (.frame e), { l with memory }.giveBack [b])
      | (.ok _, bytes) =>
        match { l with memory }.arm (some { b with bytes }) with
        | (.error e, l) => (.error (.device e), l)
        | (.ok (), l) => (.ok (), l.setDataReady true)

end SlaveLink.Link
