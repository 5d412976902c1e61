import Mathlib.Data.List.Chain
import Mathlib.Data.List.Induction
import Mathlib.Data.List.ReduceOption
import SlaveLink.Flow

/-! # Flow control over a history of occupancies
An occupancy between the marks says nothing, so what flow control has decided is what the last
occupancy outside of the band asked for, however long ago that was and whatever the capacity has
been since. A change is reported when it happens and at no other time. All of this is so as long as
the products that are compared are words: one that wraps may ask for the opposite. -/

namespace SlaveLink

structure Filling where
  occupied : Nat
  capacity : Nat
deriving DecidableEq, Repr

namespace FlowControl

/-- What a decisive occupancy asks for. Being above the high mark is looked at first, so the marks
need not be in order. -/
inductive Asks (high low : UInt8) (u : Filling) : Bool → Prop
  | on (enabled : high ≠ 0) (room : u.capacity ≠ 0)
      (above : high.toNat * u.capacity < u.occupied * 100) : Asks high low u true
  | off (enabled : high ≠ 0) (room : u.capacity ≠ 0)
      (notAbove : ¬ high.toNat * u.capacity < u.occupied * 100)
      (below : u.occupied * 100 < low.toNat * u.capacity) : Asks high low u false

def updateAll (f : FlowControl) : List Filling → List (Option Bool) × FlowControl
  | [] => ([], f)
  | u :: us =>
    let (reply, f') := f.update u.occupied u.capacity
    let (replies, last) := f'.updateAll us
    (reply :: replies, last)

variable {f : FlowControl} {high low : UInt8} {u : Filling} {us : List Filling} {on other : Bool}

theorem Asks.unique (h : Asks high low u on) (h' : Asks high low u other) : on = other := by
  cases h <;> cases h' <;> first | rfl | contradiction

@[simp] theorem updateAll_nil : f.updateAll [] = ([], f) := rfl

/-- On both marks the state is held, in either direction and with another capacity each time. -/
example :
    ((⟨80, 20, false⟩ : FlowControl).updateAll
      [⟨16, 20⟩, ⟨17, 20⟩, ⟨8, 10⟩, ⟨2, 10⟩, ⟨0, 0⟩, ⟨3, 20⟩]).1 =
      [none, some true, none, none, none, some false] := by decide

end FlowControl
end SlaveLink
