import SlaveLink.Json.Value
import SlaveLink.Queue

/-! # Statistics
One counter for each thing that can happen on the link. -/

namespace SlaveLink

/-- Why a received frame was not delivered. -/
inductive DropReason where
  | checksum | malformed | overrun
deriving DecidableEq, Repr

inductive Counter where
  | frameSent (p : Priority)
  | dummySent
  | txQueueFull
  | frameReceived (p : Priority)
  | dummyReceived
  | dropped (why : DropReason)
  | throttleChanged (on : Bool)
  | poolExhausted
  | busFailure
  | powerSaveEvent
deriving DecidableEq, Repr

structure Stats where
  tx : PerPriority Nat := .fill 0
  txDummy : Nat := 0
  txQueueFull : Nat := 0
  rx : PerPriority Nat := .fill 0
  rxDummy : Nat := 0
  droppedChecksum : Nat := 0
  droppedMalformed : Nat := 0
  droppedOverrun : Nat := 0
  throttleOn : Nat := 0
  throttleOff : Nat := 0
  poolExhausted : Nat := 0
  busFailures : Nat := 0
  powerSaveEvents : Nat := 0
deriving DecidableEq, Repr, Inhabited

namespace Stats

def bump (c : Counter) (s : Stats) : Stats :=
  match c with
  | .frameSent p => { s with tx := s.tx.set p (s.tx.get p + 1) }
  | .dummySent => { s with txDummy := s.txDummy + 1 }
  | .txQueueFull => { s with txQueueFull := s.txQueueFull + 1 }
  | .frameReceived p => { s with rx := s.rx.set p (s.rx.get p + 1) }
  | .dummyReceived => { s with rxDummy := s.rxDummy + 1 }
  | .dropped .checksum => { s with droppedChecksum := s.droppedChecksum + 1 }
  | .dropped .malformed => { s with droppedMalformed := s.droppedMalformed + 1 }
  | .dropped .overrun => { s with droppedOverrun := s.droppedOverrun + 1 }
  | .throttleChanged true => { s with throttleOn := s.throttleOn + 1 }
  | .throttleChanged false => { s with throttleOff := s.throttleOff + 1 }
  | .poolExhausted => { s with poolExhausted := s.poolExhausted + 1 }
  | .busFailure => { s with busFailures := s.busFailures + 1 }
  | .powerSaveEvent => { s with powerSaveEvents := s.powerSaveEvents + 1 }

/-- Every counter, in report order. -/
def counters (s : Stats) : List Nat :=
  s.tx.toList ++ [s.txDummy, s.txQueueFull] ++ s.rx.toList ++
    [s.rxDummy, s.droppedChecksum, s.droppedMalformed, s.droppedOverrun, s.throttleOn,
      s.throttleOff, s.poolExhausted, s.busFailures, s.powerSaveEvents]

def toJson (s : Stats) : Json :=
  .object [
    ("tx", perPriority s.tx),
    ("tx_dummy", .number s.txDummy),
    ("tx_queue_full", .number s.txQueueFull),
    ("rx", perPriority s.rx),
    ("rx_dummy", .number s.rxDummy),
    ("dropped", .object [
      ("checksum", .number s.droppedChecksum),
      ("malformed", .number s.droppedMalformed),
      ("overrun", .number s.droppedOverrun)]),
    ("throttle_on", .number s.throttleOn),
    ("throttle_off", .number s.throttleOff),
    ("pool_exhausted", .number s.poolExhausted),
    ("bus_failures", .number s.busFailures),
    ("power_save_events", .number s.powerSaveEvents)]
where
  perPriority (v : PerPriority Nat) : Json :=
    .object (Priority.all.map fun p => (p.name, .number (v.get p)))

end Stats
end SlaveLink
