import SlaveLink.Capability.Firmware
import SlaveLink.Capability.Tlv
import SlaveLink.Frame.Codec

/-! # The startup event
The slave's first frame tells the host what it can do. Its payload is an event type, a length and
that many bytes of tagged entries; unknown tags are skipped and the last entry of a tag counts. -/

namespace SlaveLink

/-- What the slave tells the host at startup. -/
structure Capabilities where
  chipId : UInt8
  /-- Union of the bits in `Capabilities.features`. -/
  bits : UInt8
  /-- Sent only when present. -/
  extended : Option UInt32
  rawThroughput : UInt8
  rxQueueSize : UInt8
  txQueueSize : UInt8
  firmware : FirmwareVersion
deriving DecidableEq, Repr, Inhabited

inductive EventError where
  | headerTruncated
  | notInit (got : UInt8)
  | lengthExceeds (length : UInt8) (available : Nat)
  | wrongLength (tag : UInt8) (expected got : Nat)
  | entryTruncated (trailing : Nat)
deriving DecidableEq, Repr

def eventPacketType : UInt8 := 0x33

def initEvent : UInt8 := 0x22

namespace EventError

def message : EventError → String
  | .headerTruncated => "event header truncated"
  | .notInit got =>
    "expected INIT event " ++ Text.hexLiteral 2 initEvent.toNat ++ ", got " ++
      Text.hexLiteral 2 got.toNat
  | .lengthExceeds length available => s!"event_len {length} exceeds {available} payload bytes"
  | .wrongLength tag expected got =>
    "tag " ++ Text.hexLiteral 2 tag.toNat ++ s!": expected {expected} bytes, got {got}"
  | .entryTruncated trailing => s!"truncated TLV ({trailing} trailing bytes)"

def toFrameError (e : EventError) : FrameError := .badEvent e.message

end EventError

namespace Tag

def capability : UInt8 := 0x11
def chipId : UInt8 := 0x12
def rawThroughput : UInt8 := 0x13
def rxQueueSize : UInt8 := 0x14
def txQueueSize : UInt8 := 0x15
def extended : UInt8 := 0x16
def firmware : UInt8 := 0x17

end Tag

namespace Capabilities

/-- The capability bits, lowest first, with their names. -/
def features : List (UInt8 × String) :=
  [(0x01, "wlan_sdio"), (0x02, "bt_uart"), (0x04, "bt_sdio"), (0x08, "ble_only"),
    (0x10, "br_edr_only"), (0x20, "wlan_spi"), (0x40, "bt_spi"), (0x80, "checksum")]

def wlanSpi : UInt8 := 0x20
def bluetoothSpi : UInt8 := 0x40
def checksumEnabled : UInt8 := 0x80

def none : Capabilities := ⟨0, 0, Option.none, 0, 0, 0, ⟨0, 0, 0⟩⟩

/-- Every given bit is set. -/
def has (c : Capabilities) (bit : UInt8) : Bool := c.bits &&& bit == bit

def featureNames (c : Capabilities) : List String :=
  (features.filter fun f => c.has f.1).map (·.2)

/-- The entries of the startup event, in the order they are sent. -/
def entries (c : Capabilities) : List Tlv :=
  [⟨Tag.chipId, [c.chipId]⟩, ⟨Tag.capability, [c.bits]⟩,
    ⟨Tag.rawThroughput, [c.rawThroughput]⟩, ⟨Tag.rxQueueSize, [c.rxQueueSize]⟩,
    ⟨Tag.txQueueSize, [c.txQueueSize]⟩] ++
  (c.extended.map fun word => ⟨Tag.extended, Bytes.ofWord32 word⟩).toList ++
  [⟨Tag.firmware, Bytes.ofWord32 c.firmware.packed⟩]

def toEvent (c : Capabilities) : Bytes :=
  let body := c.entries.flatMap Tlv.encode
  initEvent :: UInt8.ofNat body.length :: body

def toFrame (c : Capabilities) : Frame :=
  { Frame.ofPayload .internal c.toEvent with packetType := eventPacketType }

/-- The value of an entry that must hold one byte. -/
def byteOf (t : Tlv) : Except EventError UInt8 :=
  match t.value with
  | [b] => .ok b
  | value => .error (.wrongLength t.tag 1 value.length)

def wordOf (t : Tlv) : Except EventError UInt32 :=
  match t.value with
  | [b₀, b₁, b₂, b₃] => .ok (Bytes.word32 b₀ b₁ b₂ b₃)
  | value => .error (.wrongLength t.tag 4 value.length)

/-- Takes over one entry; an unknown tag changes nothing. -/
def put (c : Capabilities) (t : Tlv) : Except EventError Capabilities :=
  if t.tag = Tag.chipId then (byteOf t).map fun b => { c with chipId := b }
  else if t.tag = Tag.capability then (byteOf t).map fun b => { c with bits := b }
  else if t.tag = Tag.rawThroughput then (byteOf t).map fun b => { c with rawThroughput := b }
  else if t.tag = Tag.rxQueueSize then (byteOf t).map fun b => { c with rxQueueSize := b }
  else if t.tag = Tag.txQueueSize then (byteOf t).map fun b => { c with txQueueSize := b }
  else if t.tag = Tag.extended then (wordOf t).map fun w => { c with extended := some w }
  else if t.tag = Tag.firmware then
    (wordOf t).map fun w => { c with firmware := .ofPacked w }
  else .ok c

/-- Takes over entries in order; the first bad one ends it. -/
def putAll (c : Capabilities) : List Tlv → Except EventError Capabilities
  | [] => .ok c
  | t :: ts =>
    match c.put t with
    | .error e => .error e
    | .ok c => c.putAll ts

def ofEvent : Bytes → Except EventError Capabilities
  | type :: length :: rest =>
    if type ≠ initEvent then .error (.notInit type)
    else if rest.length < length.toNat then .error (.lengthExceeds length rest.length)
    else
      let (entries, tail) := Tlv.split (rest.take length.toNat)
      match putAll none entries with
      | .error e => .error e
      | .ok c => if tail.isEmpty then .ok c else .error (.entryTruncated tail.length)
  | _ => .error .headerTruncated

end Capabilities

/-- The startup event, which is handed out once. -/
structure Startup where
  capabilities : Capabilities
  isSent : Bool := false
deriving DecidableEq, Repr, Inhabited

namespace Startup

/-- The event's frame on the first call, nothing later. -/
def takeFrame (s : Startup) (sequence : UInt16) : Option Frame × Startup :=
  if s.isSent then (none, s)
  else (some { s.capabilities.toFrame with sequence }, { s with isSent := true })

end Startup
end SlaveLink
