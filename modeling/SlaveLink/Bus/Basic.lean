import SlaveLink.Memory.Basic

/-! # The bus
The slave's side of the bus holds one loaded transaction and a queue behind it. The host clocks the
loaded one; it then waits in a completion list of the same size until it is collected. -/

namespace SlaveLink

/-- What the bus tells the slave: a transaction became loaded, or the loaded one was clocked. -/
inductive BusEvent where
  | ready | done
deriving DecidableEq, Repr

structure Bus where
  /-- How many transactions may be outstanding, and how many completed. -/
  queueSize : Nat
  loaded : Option Transaction := none
  queued : List Transaction := []
  completed : List Transaction := []
  /-- Transfers clocked so far. -/
  clocked : Nat := 0
deriving DecidableEq, Repr

namespace Bus

/-- Bytes of memory behind a slot of the completion list. -/
def slotBytes : Nat := 96

/-- A bus always has room for one transaction. -/
def ofQueueSize (n : Nat) : Bus := { queueSize := max n 1 }

/-- Transactions that the host has not clocked yet, the loaded one first. -/
def pending (b : Bus) : List Transaction := b.loaded.toList ++ b.queued

def outstanding (b : Bus) : Nat := b.pending.length

/-- Hands a transaction to the bus; a full bus refuses it. -/
def submit? (t : Transaction) (b : Bus) : Option (List BusEvent × Bus) :=
  if b.queueSize ≤ b.outstanding then none
  else match b.loaded with
    | none => some ([.ready], { b with loaded := some t })
    | some _ => some ([], { b with queued := b.queued ++ [t] })

/-- An accepted transaction is loaded if none was, and waits behind the others otherwise. -/
theorem submit?_eq_some {b b' : Bus} {t : Transaction} {events : List BusEvent}
    (h : b.submit? t = some (events, b')) : b.outstanding < b.queueSize ∧
      (b.loaded = none ∧ events = [.ready] ∧ b' = { b with loaded := some t } ∨
        b.loaded.isSome = true ∧ events = [] ∧ b' = { b with queued := b.queued ++ [t] }) := by
  simp only [submit?, Option.ite_none_left_eq_some, Nat.not_le] at h
  refine ⟨h.1, ?_⟩
  cases hloaded : b.loaded with
  | none =>
    simp only [hloaded, Option.some.injEq, Prod.mk.injEq] at h
    obtain ⟨_, rfl, rfl⟩ := h
    exact .inl ⟨rfl, rfl, rfl⟩
  | some u =>
    simp only [hloaded, Option.some.injEq, Prod.mk.injEq] at h
    obtain ⟨_, rfl, rfl⟩ := h
    exact .inr ⟨rfl, rfl, rfl⟩

/-- What one clocked transfer did. -/
structure Transfer where
  bus : Bus
  events : List BusEvent
  /-- The bytes the host read, or nothing if the completion list was full. -/
  read : Option Bytes
  /-- The transaction that was lost because the completion list was full. -/
  lost : Option Transaction
deriving DecidableEq, Repr

/-- Exchanges bytes with the loaded transaction, if there is one. -/
def clock? (host : Bytes) (fault : Option String) (b : Bus) : Option Transfer :=
  match b.loaded with
  | none => none
  | some t =>
    let filled := t.receive host
    let completed := match fault with
      | some reason => filled.failWith reason
      | none => filled
    let next := { b with
      loaded := b.queued.head?
      queued := b.queued.tail
      clocked := b.clocked + 1 }
    if b.queueSize ≤ b.completed.length then
      some ⟨next, [.done], none, some completed⟩
    else
      let ready := if next.loaded.isSome then [.ready] else []
      some ⟨{ next with completed := b.completed ++ [completed] }, .done :: ready,
        some t.outgoing, none⟩

/-- The error of a transfer that lost its transaction. -/
def completionQueueFull : DeviceError := .transferFailed "completion queue full"

def collect? (b : Bus) : Option (Transaction × Bus) :=
  match b.completed with
  | [] => none
  | t :: completed => some (t, { b with completed })

/-- Pulls back every transaction that the host has not clocked. -/
def cancel (b : Bus) : List Transaction × Bus :=
  (b.pending, { b with loaded := none, queued := [] })

def summary (b : Bus) : String :=
  "SimBus \x7b " ++ s!"queue_size: {b.queueSize}, outstanding: {b.outstanding} " ++ "\x7d"

end Bus
end SlaveLink
