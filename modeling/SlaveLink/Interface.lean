import SlaveLink.Bytes

/-! # Interfaces
The logical channels that share the link, and the priority each of them travels on. -/

namespace SlaveLink

/-- The channel a frame belongs to. `invalid` and `filler` never carry data. -/
inductive Interface where
  | invalid | station | accessPoint | serial | hci | internal | test | ethernet | filler
deriving DecidableEq, Repr, Inhabited

/-- Service order: control before voice before bulk. -/
inductive Priority where
  | control | voice | bulk
deriving DecidableEq, Repr, Inhabited

namespace Priority

def all : List Priority := [.control, .voice, .bulk]

def index : Priority → Nat
  | .control => 0
  | .voice => 1
  | .bulk => 2

def name : Priority → String
  | .control => "control"
  | .voice => "voice"
  | .bulk => "bulk"

end Priority

namespace Interface

def all : List Interface :=
  [.station, .accessPoint, .serial, .hci, .internal, .test, .ethernet, .invalid, .filler]

/-- The wire value, which fits four bits. -/
def code : Interface → UInt8
  | .invalid => 0
  | .station => 1
  | .accessPoint => 2
  | .serial => 3
  | .hci => 4
  | .internal => 5
  | .test => 6
  | .ethernet => 7
  | .filler => 8

def ofCode? (code : UInt8) : Option Interface := all.find? (·.code == code)

/-- Serial and internal traffic is control, HCI is voice, everything else is bulk. -/
def priority : Interface → Priority
  | .serial | .internal => .control
  | .hci => .voice
  | _ => .bulk

def carriesData : Interface → Bool
  | .invalid | .filler => false
  | _ => true

def label : Interface → String
  | .invalid => "INVALID"
  | .station => "STA"
  | .accessPoint => "AP"
  | .serial => "SERIAL"
  | .hci => "HCI"
  | .internal => "PRIV"
  | .test => "TEST"
  | .ethernet => "ETH"
  | .filler => "DUMMY"

/-- The identifier used in reports. -/
def name : Interface → String
  | .invalid => "invalid"
  | .station => "station"
  | .accessPoint => "access_point"
  | .serial => "serial"
  | .hci => "hci"
  | .internal => "private"
  | .test => "test"
  | .ethernet => "ethernet"
  | .filler => "max"

/-- The variant's name in diagnostic texts. -/
def variant : Interface → String
  | .invalid => "Invalid"
  | .station => "Station"
  | .accessPoint => "AccessPoint"
  | .serial => "Serial"
  | .hci => "Hci"
  | .internal => "Private"
  | .test => "Test"
  | .ethernet => "Ethernet"
  | .filler => "Max"

def ofLabel? (text : String) : Option Interface :=
  all.find? (·.label == text.map Char.toUpper)

@[simp] theorem ofCode?_code (i : Interface) : ofCode? i.code = some i := by
  cases i <;> rfl

theorem code_lt (i : Interface) : i.code.toNat < 9 := by
  cases i <;> decide

end Interface
end SlaveLink
