import SlaveLink.Bytes
import SlaveLink.Clock
import SlaveLink.Memory.Heap

/-! # The machine
What the program gets from the machine it runs on. -/

namespace SlaveLink

structure Machine where
  /-- Bytes of memory that a link and its bus may take. -/
  memory : Nat := Heap.maxRequest
  /-- What the clock reads when the host begins to wait, by the number of its exchanges so far. -/
  clock : Nat → Duration := fun _ => ⟨0⟩
  memory_le : memory ≤ Heap.maxRequest := by decide
  /-- No clock reads so late that a wait of milliseconds in a word has no end. -/
  punctual : ∀ k, (⟨clock k, .ofMillis maxWord64⟩ : Wait).ends = true := by intro; rfl

end SlaveLink
