import SlaveLink.Capability.Event
import SlaveLink.Line
import SlaveLink.LinkError
import SlaveLink.Queue

/-! # Link settings
Everything about a link that is chosen when it is built, and when a choice is refused. -/

namespace SlaveLink

/-- When Handshake drops after a transfer: at once, or when chip-select is released. -/
inductive DeassertPolicy where
  | onTransactionEnd | onChipSelect
deriving DecidableEq, Repr, Inhabited

namespace DeassertPolicy

def name : DeassertPolicy → String
  | .onTransactionEnd => "on_transaction_end"
  | .onChipSelect => "on_chip_select"

def variant : DeassertPolicy → String
  | .onTransactionEnd => "OnTransactionEnd"
  | .onChipSelect => "OnChipSelect"

end DeassertPolicy

/-- What the startup event advertises beside what follows from the other settings. -/
structure CapabilityConfig where
  chipId : UInt8 := 0
  wlan : Bool := true
  bluetooth : Bool := true
  rawThroughput : UInt8 := 0
  extended : Option UInt32 := none
  firmware : FirmwareVersion := ⟨0, 1, 0⟩
deriving DecidableEq, Repr, Inhabited

structure LinkConfig where
  frame : FrameConfig := {}
  txDepths : PerPriority Nat := .fill 20
  rxDepths : PerPriority Nat := .fill 20
  /-- Transactions that the bus can hold. Sizes the pools. -/
  busQueueSize : Nat := 3
  /-- Percentage of the bulk receive queue above which throttling starts; 0 disables it. -/
  throttleHigh : UInt8 := 80
  /-- Percentage below which throttling stops. -/
  throttleLow : UInt8 := 60
  handshake : Polarity := .activeHigh
  dataReady : Polarity := .activeHigh
  policy : DeassertPolicy := .onTransactionEnd
  /-- How long a producer may wait on a full bulk queue, in milliseconds. -/
  txBlockTimeout : Nat := 0
  /-- How long the worker may wait on a full bulk queue before it drops a frame. -/
  rxBlockTimeout : Nat := 100
  /-- How often the worker wakes up to retry. -/
  pollInterval : Nat := 50
  /-- How long teardown waits for the transaction in flight. -/
  drainTimeout : Nat := 500
  capabilities : CapabilityConfig := {}
deriving DecidableEq, Repr, Inhabited

inductive ConfigError where
  | frame (e : FrameConfigError)
  | zeroDepth (d : Direction) (p : Priority)
  | zeroBusQueue
  | highAboveHundred (got : UInt8)
  | lowNotBelowHigh (low high : UInt8)
  | zeroPollInterval
deriving DecidableEq, Repr

namespace ConfigError

def message : ConfigError → String
  | .frame e => e.message
  | .zeroDepth d p => d.name ++ " " ++ p.name ++ " queue depth must be non-zero"
  | .zeroBusQueue => "bus_queue_size must be non-zero"
  | .highAboveHundred got => s!"throttle_high_percent must be at most 100 (got {got})"
  | .lowNotBelowHigh low high =>
    s!"throttle_low_percent ({low}) must be below throttle_high_percent ({high})"
  | .zeroPollInterval => "poll_interval_ms must be non-zero"

def toLinkError (e : ConfigError) : LinkError := .invalidConfig e.message

end ConfigError

namespace LinkConfig

def depths (c : LinkConfig) : Direction → PerPriority Nat
  | .tx => c.txDepths
  | .rx => c.rxDepths

/-- The first queue without room, the transmit side first. -/
def emptyQueue? (c : LinkConfig) : Option (Direction × Priority) :=
  ([Direction.tx, .rx].flatMap fun d => Priority.all.map fun p => (d, p)).find?
    fun (d, p) => (c.depths d).get p == 0

def validate (c : LinkConfig) : Except ConfigError Unit :=
  match c.frame.validate with
  | .error e => .error (.frame e)
  | .ok () =>
    match c.emptyQueue? with
    | some (d, p) => .error (.zeroDepth d p)
    | none =>
      if c.busQueueSize = 0 then .error .zeroBusQueue
      else if 100 < c.throttleHigh.toNat then .error (.highAboveHundred c.throttleHigh)
      else if c.throttleHigh ≠ 0 ∧ c.throttleHigh.toNat ≤ c.throttleLow.toNat then
        .error (.lowNotBelowHigh c.throttleLow c.throttleHigh)
      else if c.pollInterval = 0 then .error .zeroPollInterval
      else .ok ()

/-- Blocks of the wire pool: one for each queue slot in both directions, two for each transaction
that the bus can hold, and a spare. -/
def wireBlocks (c : LinkConfig) : Nat :=
  c.txDepths.total + c.rxDepths.total + c.busQueueSize * 2 + 1

def transactionBlocks (c : LinkConfig) : Nat := c.busQueueSize + 1

/-- A queue depth as it fits one byte. -/
def saturate (depth : Nat) : UInt8 := UInt8.ofNat (min depth 255)

def slaveCapabilities (c : LinkConfig) : Capabilities where
  chipId := c.capabilities.chipId
  bits := (if c.capabilities.wlan then Capabilities.wlanSpi else 0) |||
    (if c.capabilities.bluetooth then Capabilities.bluetoothSpi else 0) |||
    (if c.frame.checksum then Capabilities.checksumEnabled else 0)
  extended := c.capabilities.extended
  rawThroughput := c.capabilities.rawThroughput
  rxQueueSize := saturate c.rxDepths.bulk
  txQueueSize := saturate c.txDepths.bulk
  firmware := c.capabilities.firmware

end LinkConfig
end SlaveLink
