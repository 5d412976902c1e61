import SlaveLink.Duration

/-! # The clock
A steady clock counts on from some moment. A reading counts whole seconds in a signed 64-bit word,
and a wait that would end at a later reading has no end. -/

namespace SlaveLink

/-- The largest number of whole seconds in a reading of the clock. -/
def Duration.maxSecs : Nat := 9223372036854775807

/-- A wait with a limit. -/
structure Wait where
  /-- What the clock reads when the wait begins. -/
  start : Duration
  limit : Duration
deriving DecidableEq, Repr

/-- The clock has a reading for the end of the wait. -/
def Wait.ends (w : Wait) : Bool :=
  decide (Duration.secs ⟨w.start.nanos + w.limit.nanos⟩ ≤ Duration.maxSecs)

end SlaveLink
