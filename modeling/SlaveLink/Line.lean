import SlaveLink.DeviceError

/-! # Lines
The three lines beside the bus: Handshake and DataReady, driven by the slave, and chip-select,
driven by the host and active low. Outputs start low and chip-select idles high. -/

namespace SlaveLink

inductive Level where
  | low | high
deriving DecidableEq, Repr, Inhabited

inductive Line where
  | handshake | dataReady | chipSelect
deriving DecidableEq, Repr, Inhabited

inductive Edge where
  | rising | falling | any
deriving DecidableEq, Repr, Inhabited

/-- Which level means "asserted". -/
inductive Polarity where
  | activeHigh | activeLow
deriving DecidableEq, Repr, Inhabited

def Level.name : Level → String
  | .low => "low"
  | .high => "high"

def Line.variant : Line → String
  | .handshake => "Handshake"
  | .dataReady => "DataReady"
  | .chipSelect => "ChipSelect"

def Edge.matches : Edge → Level → Level → Bool
  | .rising, .low, .high => true
  | .falling, .high, .low => true
  | .any, before, after => before != after
  | _, _, _ => false

namespace Polarity

def active : Polarity → Level
  | .activeHigh => .high
  | .activeLow => .low

def inactive : Polarity → Level
  | .activeHigh => .low
  | .activeLow => .high

def level (p : Polarity) (asserted : Bool) : Level := if asserted then p.active else p.inactive

def name : Polarity → String
  | .activeHigh => "active_high"
  | .activeLow => "active_low"

theorem level_beq_active (p : Polarity) (asserted : Bool) :
    (p.level asserted == p.active) = asserted := by
  cases p <;> cases asserted <;> rfl

end Polarity

/-- One line: its level, and how often the slave's side changed it. -/
structure LineState where
  level : Level
  transitions : Nat := 0
deriving DecidableEq, Repr, Inhabited

structure Lines where
  handshake : LineState := ⟨.low, 0⟩
  dataReady : LineState := ⟨.low, 0⟩
  chipSelect : LineState := ⟨.high, 0⟩
deriving DecidableEq, Repr, Inhabited

namespace Lines

def get (ls : Lines) : Line → LineState
  | .handshake => ls.handshake
  | .dataReady => ls.dataReady
  | .chipSelect => ls.chipSelect

def put (line : Line) (s : LineState) (ls : Lines) : Lines :=
  match line with
  | .handshake => { ls with handshake := s }
  | .dataReady => { ls with dataReady := s }
  | .chipSelect => { ls with chipSelect := s }

def level (ls : Lines) (line : Line) : Level := (ls.get line).level

/-- Sets a line from the slave's side; only a change counts as a transition. -/
def set (line : Line) (level : Level) (ls : Lines) : Lines :=
  let s := ls.get line
  ls.put line ⟨level, if s.level = level then s.transitions else s.transitions + 1⟩

def drive (line : Line) (level : Level) (ls : Lines) : Lines :=
  ls.put line { ls.get line with level }

@[simp] theorem level_set (ls : Lines) (line : Line) (level : Level) :
    (ls.set line level).level line = level := by
  cases line <;> rfl

theorem level_set_of_ne (ls : Lines) {line other : Line} (level : Level) (h : other ≠ line) :
    (ls.set line level).level other = ls.level other := by
  cases line <;> cases other <;> first | rfl | exact absurd rfl h

theorem set_set (ls : Lines) (line : Line) (level : Level) :
    (ls.set line level).set line level = ls.set line level := by
  cases line <;> simp [set, get, put]

theorem level_drive (ls : Lines) (line : Line) (level : Level) :
    (ls.drive line level).level line = level := by
  cases line <;> rfl

theorem level_drive_of_ne (ls : Lines) {line other : Line} (level : Level) (h : other ≠ line) :
    (ls.drive line level).level other = ls.level other := by
  cases line <;> cases other <;> first | rfl | exact absurd rfl h

end Lines

/-- Lines with handlers for edges on chip-select, in the order they were installed. -/
structure LineBank (Handler : Type) where
  lines : Lines := {}
  handlers : List (Edge × Handler) := []
deriving Repr

namespace LineBank

variable {Handler : Type}

/-- Only an input line can be watched. -/
def watch (line : Line) (edge : Edge) (handler : Handler) (b : LineBank Handler) :
    Except DeviceError (LineBank Handler) :=
  if line = .chipSelect then .ok { b with handlers := b.handlers ++ [(edge, handler)] }
  else .error (.invalidConfig (line.variant ++
    " is an output line; interrupts are only available on chip-select"))

/-- Sets a line from the host's side and names the handlers to run. -/
def drive (line : Line) (level : Level) (b : LineBank Handler) :
    List Handler × LineBank Handler :=
  let before := b.lines.level line
  let fired := b.handlers.filterMap fun (edge, handler) =>
    if line = .chipSelect ∧ edge.matches before level then some handler else none
  (fired, { b with lines := b.lines.drive line level })

def set (line : Line) (level : Level) (b : LineBank Handler) : LineBank Handler :=
  { b with lines := b.lines.set line level }

end LineBank

/-- The host's idea of which levels mean "asserted". -/
structure HostLevels where
  handshake : Level := .high
  dataReady : Level := .high
deriving DecidableEq, Repr, Inhabited

namespace HostLevels

def seesHandshake (h : HostLevels) (ls : Lines) : Bool := ls.handshake.level == h.handshake

def seesDataReady (h : HostLevels) (ls : Lines) : Bool := ls.dataReady.level == h.dataReady

/-- Nothing changes while the host waits, so a line that is not asserted stays so. The clock is
taken to have a reading for the end of the wait. -/
def waitReady (h : HostLevels) (limit : Duration) (ls : Lines) : Except DeviceError Unit :=
  if h.seesHandshake ls then .ok () else .error (.timeout limit)

end HostLevels
end SlaveLink
