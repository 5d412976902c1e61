import SlaveLink.Bus.Basic
import SlaveLink.Config.Basic

/-! # Handshake and DataReady
Handshake tells the host that a transaction is armed. It rises when the bus reports a transaction
loaded, falls as soon as chip-select is asserted, and falls after a transfer as the policy says.
DataReady tells the host that real frames wait; it is latched, so its line is written on a change
only. -/

namespace SlaveLink

/-- Handshake as the slave means it. -/
inductive SignalState where
  /-- Handshake is not asserted; nothing is armed. -/
  | inactive
  /-- Handshake is asserted; a transaction is armed. -/
  | ready
  /-- The host is clocking the armed transaction. -/
  | transacting
deriving DecidableEq, Repr, Inhabited

def SignalState.variant : SignalState → String
  | .inactive => "Inactive"
  | .ready => "Ready"
  | .transacting => "Transacting"

structure Signals where
  handshake : Polarity
  dataReady : Polarity
  policy : DeassertPolicy
  lines : Lines := {}
  state : SignalState := .inactive
  /-- What DataReady was last set to. -/
  isDataReady : Bool := false
  /-- A release of chip-select that nobody has waited for yet. -/
  releaseSeen : Bool := false
  /-- How often the handler for chip-select was installed. -/
  watchers : Nat := 0
deriving DecidableEq, Repr

namespace Signals

def ofConfig (c : LinkConfig) : Signals :=
  { handshake := c.handshake, dataReady := c.dataReady, policy := c.policy }

def setHandshake (asserted : Bool) (s : Signals) : Signals :=
  { s with lines := s.lines.set .handshake (s.handshake.level asserted) }

def enter (state : SignalState) (s : Signals) : Signals := { s with state }

/-- Drives DataReady if the latched value differs. -/
def setDataReady (asserted : Bool) (s : Signals) : Signals :=
  if s.isDataReady = asserted then s
  else { s with
    isDataReady := asserted
    lines := s.lines.set .dataReady (s.dataReady.level asserted) }

/-- Drives both lines inactive and watches chip-select. -/
def init (s : Signals) : Signals :=
  let s := s.setHandshake false
  { s with
    lines := s.lines.set .dataReady s.dataReady.inactive
    isDataReady := false
    state := .inactive
    releaseSeen := false
    watchers := s.watchers + 1 }

/-- Drops both lines for teardown. -/
def deactivate (s : Signals) : Signals :=
  ((s.setHandshake false).enter .inactive).setDataReady false

def handshakeAsserted (s : Signals) : Bool := s.lines.handshake.level == s.handshake.active

/-- What one installed handler does on an edge of chip-select. -/
def onChipSelect (level : Level) (s : Signals) : Signals :=
  match level with
  | .low => (s.setHandshake false).enter .transacting
  | .high =>
    if s.policy = .onChipSelect then
      let s := if s.state = .transacting then s.enter .inactive else s
      { s with releaseSeen := true }
    else s

/-- Drives a line from the host's side; every handler runs on an edge of chip-select. -/
def drive (line : Line) (level : Level) (s : Signals) : Signals :=
  let isEdge := line = .chipSelect ∧ s.lines.level line ≠ level
  let s := { s with lines := s.lines.drive line level }
  if isEdge then Nat.repeat (onChipSelect level) s.watchers s else s

def select (s : Signals) : Signals := s.drive .chipSelect .low

def deselect (s : Signals) : Signals := s.drive .chipSelect .high

/-- What the bus reports. -/
def onBus (e : BusEvent) (s : Signals) : Signals :=
  match e with
  | .ready => (s.setHandshake true).enter .ready
  | .done =>
    match s.policy with
    | .onTransactionEnd => (s.setHandshake false).enter .inactive
    | .onChipSelect => s.enter .transacting

def onBusAll (events : List BusEvent) (s : Signals) : Signals :=
  events.foldl (fun s e => s.onBus e) s

/-- Takes a release of chip-select, if one was seen. It counts unless chip-select has been asserted
again since. -/
def takeRelease (s : Signals) : Bool × Signals :=
  (s.releaseSeen && s.lines.chipSelect.level == .high, { s with releaseSeen := false })

def summary (s : Signals) : String :=
  "Signals \x7b state: " ++ s.state.variant ++ ", policy: " ++ s.policy.variant ++
    s!", data_ready: {s.isDataReady} " ++ "\x7d"

end Signals

/-- What can happen to the signals of a link, apart from the link itself. -/
inductive SignalStep where
  | init
  | bus (e : BusEvent)
  | drive (line : Line) (level : Level)
  | dataReady (asserted : Bool)
  | takeRelease
  | deactivate
deriving DecidableEq, Repr

namespace Signals

/-- Runs one step; only a wait for a release has a result of interest. -/
def step (s : Signals) : SignalStep → Bool × Signals
  | .init => (true, s.init)
  | .bus e => (true, s.onBus e)
  | .drive line level => (true, s.drive line level)
  | .dataReady asserted => (true, s.setDataReady asserted)
  | .takeRelease => s.takeRelease
  | .deactivate => (true, s.deactivate)

end Signals
end SlaveLink
