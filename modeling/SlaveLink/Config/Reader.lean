import SlaveLink.Config.Basic
import SlaveLink.Json.Reader
import SlaveLink.Json.Value

/-! # Settings as JSON
Reading takes every missing field from the defaults; only the three parts of a firmware version must
all be given. -/

namespace SlaveLink

open Json (Reader Member)

namespace FrameConfig

def fields : List (Member FrameConfig) :=
  [.of "buffer_size" (.natural maxWord64) fun n c => { c with bufferSize := n },
    .of "dma_alignment" (.natural maxWord64) fun n c => { c with alignment := n },
    .of "checksum" .boolean fun b c => { c with checksum := b }]

def reader : Reader FrameConfig := .record fields {}

def ofJson (text : String) : Except Json.ReadError FrameConfig := Json.read reader text

def toJson (c : FrameConfig) : Json :=
  .object [("buffer_size", .number c.bufferSize), ("dma_alignment", .number c.alignment),
    ("checksum", .bool c.checksum)]

end FrameConfig

namespace FirmwareVersion

def fields : List (Member FirmwareVersion) :=
  [(Member.of "major" (.natural maxWord8) fun n v => { v with major := UInt8.ofNat n }).required,
    (Member.of "minor" (.natural maxWord8) fun n v => { v with minor := UInt8.ofNat n }).required,
    (Member.of "patch" (.natural maxWord8) fun n v => { v with patch := UInt8.ofNat n }).required]

def reader : Reader FirmwareVersion := .record fields ⟨0, 0, 0⟩

def toJson (v : FirmwareVersion) : Json :=
  .object [("major", .number v.major.toNat), ("minor", .number v.minor.toNat),
    ("patch", .number v.patch.toNat)]

end FirmwareVersion

namespace PerPriority

def depthFields : List (Member (PerPriority Nat)) :=
  Priority.all.map fun p => .of p.name (.natural maxWord64) fun n v => v.set p n

def depthReader : Reader (PerPriority Nat) := .record depthFields (.fill 20)

def toJson (v : PerPriority Nat) : Json :=
  .object (Priority.all.map fun p => (p.name, .number (v.get p)))

end PerPriority

namespace Polarity

def all : List Polarity := [.activeHigh, .activeLow]

/-- A polarity stands in a record of its own. -/
def lineReader : Reader Polarity :=
  .record [.of "polarity" (.choice (all.map fun p => (p.name, p))) fun p _ => p] .activeHigh

def toJson (p : Polarity) : Json := .object [("polarity", .text p.name)]

end Polarity

def DeassertPolicy.all : List DeassertPolicy := [.onTransactionEnd, .onChipSelect]

def DeassertPolicy.reader : Reader DeassertPolicy := .choice (all.map fun p => (p.name, p))

namespace CapabilityConfig

def fields : List (Member CapabilityConfig) :=
  [.of "chip_id" (.natural maxWord8) fun n c => { c with chipId := UInt8.ofNat n },
    .of "wlan" .boolean fun b c => { c with wlan := b },
    .of "bluetooth" .boolean fun b c => { c with bluetooth := b },
    .of "raw_tp_test" (.natural maxWord8) fun n c => { c with rawThroughput := UInt8.ofNat n },
    .of "extended_capabilities" (.optional (.natural maxWord32)) fun n c =>
      { c with extended := n.map UInt32.ofNat },
    .of "firmware_version" FirmwareVersion.reader fun v c => { c with firmware := v }]

def reader : Reader CapabilityConfig := .record fields {}

def toJson (c : CapabilityConfig) : Json :=
  .object [("chip_id", .number c.chipId.toNat), ("wlan", .bool c.wlan),
    ("bluetooth", .bool c.bluetooth), ("raw_tp_test", .number c.rawThroughput.toNat),
    ("extended_capabilities", .ofOption (c.extended.map fun w => .number w.toNat)),
    ("firmware_version", c.firmware.toJson)]

end CapabilityConfig

def Capabilities.members (c : Capabilities) : List (String × Json) :=
  [("chip_id", .number c.chipId.toNat), ("capabilities", .number c.bits.toNat),
    ("extended_capabilities", .ofOption (c.extended.map fun w => .number w.toNat)),
    ("raw_tp_test", .number c.rawThroughput.toNat),
    ("rx_queue_size", .number c.rxQueueSize.toNat),
    ("tx_queue_size", .number c.txQueueSize.toNat), ("firmware_version", c.firmware.toJson)]

def Capabilities.toJson (c : Capabilities) : Json := .object c.members

namespace LinkConfig

def fields : List (Member LinkConfig) :=
  [.of "frame" FrameConfig.reader fun f c => { c with frame := f },
    .of "tx_queues" PerPriority.depthReader fun d c => { c with txDepths := d },
    .of "rx_queues" PerPriority.depthReader fun d c => { c with rxDepths := d },
    .of "bus_queue_size" (.natural maxWord64) fun n c => { c with busQueueSize := n },
    .of "throttle_high_percent" (.natural maxWord8) fun n c =>
      { c with throttleHigh := UInt8.ofNat n },
    .of "throttle_low_percent" (.natural maxWord8) fun n c =>
      { c with throttleLow := UInt8.ofNat n },
    .of "handshake" Polarity.lineReader fun p c => { c with handshake := p },
    .of "data_ready" Polarity.lineReader fun p c => { c with dataReady := p },
    .of "deassert_policy" DeassertPolicy.reader fun p c => { c with policy := p },
    .of "tx_block_timeout_ms" (.natural maxWord64) fun n c => { c with txBlockTimeout := n },
    .of "rx_block_timeout_ms" (.natural maxWord64) fun n c => { c with rxBlockTimeout := n },
    .of "poll_interval_ms" (.natural maxWord64) fun n c => { c with pollInterval := n },
    .of "drain_timeout_ms" (.natural maxWord64) fun n c => { c with drainTimeout := n },
    .of "capabilities" CapabilityConfig.reader fun k c => { c with capabilities := k }]

def reader : Reader LinkConfig := .record fields {}

def ofJson (text : String) : Except LinkError LinkConfig :=
  match Json.read reader text with
  | .error e => .error (.json e)
  | .ok c =>
    match c.validate with
    | .error e => .error e.toLinkError
    | .ok () => .ok c

def toJson (c : LinkConfig) : Json :=
  .object [("frame", c.frame.toJson), ("tx_queues", c.txDepths.toJson),
    ("rx_queues", c.rxDepths.toJson), ("bus_queue_size", .number c.busQueueSize),
    ("throttle_high_percent", .number c.throttleHigh.toNat),
    ("throttle_low_percent", .number c.throttleLow.toNat), ("handshake", c.handshake.toJson),
    ("data_ready", c.dataReady.toJson), ("deassert_policy", .text c.policy.name),
    ("tx_block_timeout_ms", .number c.txBlockTimeout),
    ("rx_block_timeout_ms", .number c.rxBlockTimeout),
    ("poll_interval_ms", .number c.pollInterval), ("drain_timeout_ms", .number c.drainTimeout),
    ("capabilities", c.capabilities.toJson)]

end LinkConfig
end SlaveLink
