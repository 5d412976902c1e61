import SlaveLink.DeviceError
import SlaveLink.Bytes
import SlaveLink.Memory.Heap
import SlaveLink.Text.Quoted

/-! # Pools
A fixed number of slots handed out from a stack: the slot released last is acquired first, and keeps
what its last holder left in it. -/

namespace SlaveLink

structure Pool (α : Type) where
  name : String
  capacity : Nat
  /-- The slots at hand, the next one first. -/
  free : List α
  inUse : Nat := 0
deriving DecidableEq, Repr

namespace Pool

variable {α : Type}

/-- A pool of `blocks` slots of `slotBytes` bytes of memory each, all free. The slots are reserved
at once, and a heap that has no memory for them says so. -/
def create (name : String) (blocks slotBytes : Nat) (make : Nat → α)
    (heap : Nat) : Except DeviceError (Pool α) :=
  if blocks = 0 then .error (.invalidConfig (name ++ " pool needs at least one block"))
  else if heap < blocks * slotBytes then .error (.allocationFailed name blocks)
  else .ok { name, capacity := blocks, free := (List.range blocks).map make }

/-- Puts something into each slot at hand. -/
def map {β : Type} (f : α → β) (p : Pool α) : Pool β :=
  { name := p.name, capacity := p.capacity, free := p.free.map f, inUse := p.inUse }

def available (p : Pool α) : Nat := p.free.length

/-- Takes the slot released last; nothing when every slot is handed out. -/
def acquire? (p : Pool α) : Option (α × Pool α) :=
  match p.free with
  | [] => none
  | slot :: free => some (slot, { p with free, inUse := p.inUse + 1 })

def release (slot : α) (p : Pool α) : Pool α :=
  { p with free := slot :: p.free, inUse := p.inUse - 1 }

def exhausted (p : Pool α) : DeviceError := .poolExhausted p.name

def summary (p : Pool α) : String :=
  "Pool \x7b name: " ++ Text.quoteText p.name ++
    s!", capacity: {p.capacity}, in_use: {p.inUse} " ++ "\x7d"

theorem acquire?_release (slot : α) (p : Pool α) :
    (p.release slot).acquire? = some (slot, { p with inUse := p.inUse - 1 + 1 }) := rfl

theorem acquire?_eq_none_iff (p : Pool α) : p.acquire? = none ↔ p.available = 0 := by
  unfold acquire? available
  split <;> simp_all

/-- Acquiring moves one slot from free to in use. -/
theorem available_acquire? {p q : Pool α} {slot : α} (h : p.acquire? = some (slot, q)) :
    q.available + 1 = p.available ∧ q.inUse = p.inUse + 1 := by
  unfold acquire? at h
  split at h
  · simp at h
  · next free hf =>
    simp only [Option.some.injEq, Prod.mk.injEq] at h
    obtain ⟨_, rfl⟩ := h
    simp [available, hf]

end Pool
end SlaveLink
