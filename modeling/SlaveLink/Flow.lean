import SlaveLink.Frame.Header

/-! # Flow control
Throttling starts when a queue is filled above the high mark and stops when it is filled below the
low mark. Between the marks it stays as it is. -/

namespace SlaveLink

structure FlowControl where
  /-- Percentage above which throttling starts; 0 disables flow control. -/
  high : UInt8
  /-- Percentage below which throttling stops. -/
  low : UInt8
  isThrottling : Bool := false
deriving DecidableEq, Repr, Inhabited

namespace FlowControl

def disabled : FlowControl := ⟨0, 0, false⟩

def isEnabled (f : FlowControl) : Bool := f.high != 0

def throttle (f : FlowControl) : Throttle := .ofBool f.isThrottling

/-- What an occupancy asks for, if it lies outside the band between the marks. The products that are
compared are 64-bit words. -/
def decide? (f : FlowControl) (occupied capacity : Nat) : Option Bool :=
  let scaled := wrap64 (occupied * 100)
  if ¬ f.isEnabled ∨ capacity = 0 then none
  else if wrap64 (f.high.toNat * capacity) < scaled then some true
  else if scaled < wrap64 (f.low.toNat * capacity) then some false
  else none

/-- Takes an occupancy into account and reports a change. -/
def update (f : FlowControl) (occupied capacity : Nat) : Option Bool × FlowControl :=
  match f.decide? occupied capacity with
  | none => (none, f)
  | some on => (if f.isThrottling = on then none else some on, { f with isThrottling := on })

variable {f : FlowControl} {occupied capacity : Nat}

theorem decide?_of_idle (h : ¬ f.isEnabled ∨ capacity = 0) : f.decide? occupied capacity = none :=
  if_pos h

/-- On words, what is compared are the products themselves. Above the high mark the other product is
not looked at. -/
theorem decide?_of_words (hidle : ¬ (¬ f.isEnabled ∨ capacity = 0))
    (hscaled : occupied * 100 ≤ maxWord64) (hhigh : f.high.toNat * capacity ≤ maxWord64)
    (hlow : ¬ f.high.toNat * capacity < occupied * 100 → f.low.toNat * capacity ≤ maxWord64) :
    f.decide? occupied capacity =
      if f.high.toNat * capacity < occupied * 100 then some true
      else if occupied * 100 < f.low.toNat * capacity then some false else none := by
  simp only [decide?, if_neg hidle, wrap64_of_le hscaled, wrap64_of_le hhigh]
  split
  · rfl
  · next habove => rw [wrap64_of_le (hlow habove)]

end FlowControl
end SlaveLink
