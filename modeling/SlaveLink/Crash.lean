/-! # Crashes
A failure that nobody is told of breaks the program off. -/

namespace SlaveLink

inductive Crash where
  /-- One request asked for more memory than any may ask for. -/
  | capacityOverflow
  /-- No memory was left for a request of so many bytes. -/
  | outOfMemory (bytes : Nat)
  /-- The clock has no reading as late as the end of a wait. -/
  | deadlineOverflow
deriving DecidableEq, Repr

namespace Crash

def message : Crash → String
  | .capacityOverflow => "capacity overflow"
  | .outOfMemory bytes => s!"memory allocation of {bytes} bytes failed"
  | .deadlineOverflow => "overflow when adding duration to instant"

/-- What the program's caller sees of it. -/
def exitCode : Crash → Nat
  | .capacityOverflow | .deadlineOverflow => 101
  | .outOfMemory _ => 134

end Crash

/-- An error that is reported, or a crash. -/
inductive Fault (ε : Type) where
  | error (e : ε)
  | crash (why : Crash)
deriving DecidableEq, Repr

end SlaveLink
