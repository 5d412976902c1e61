import SlaveLink.Bus.Bench
import SlaveLink.Proofs.Memory

/-! # Order on the bus
A transaction waits behind those handed to the bus before it, is clocked when it is the first, and
then waits in the completion list. So transactions leave the bus in the order in which it accepted
them, and are collected in that order but for those that were pulled back or lost. All that the
pools have lent to a bus on the bench is in one of its three places. -/

namespace SlaveLink

def Transaction.clocked (host : Bytes) (fault : Option String) (t : Transaction) : Transaction :=
  match fault with
  | some reason => (t.receive host).failWith reason
  | none => t.receive host

namespace Transaction

theorem index_blocks_clocked (t : Transaction) (data : Bytes) (fault : Option String) :
    (t.clocked data fault).blocks.map (·.index) = t.blocks.map (·.index) := by
  obtain ⟨tx, rx, length, _⟩ := t
  cases fault <;> cases tx <;> cases rx <;> rfl

/-- What the host reads of a transaction: its outgoing block, as far as the transfer goes. -/
structure Sends (t : Transaction) (read : Bytes) : Prop where
  block : ∀ tx, t.tx = some tx → read = tx.bytes.take (min t.length tx.bytes.length)
  bare : t.tx = none → read = []

/-- What the host leaves in a transaction: its bytes in front of the incoming block, as many as it
sent, the block has and the transfer is long, and nothing else but the fault. -/
structure Receives (t : Transaction) (host : Bytes) (fault : Option String) (u : Transaction) :
    Prop where
  rx : u.rx = t.rx.map fun rx =>
    let n := min host.length (min rx.bytes.length t.length)
    { rx with bytes := host.take n ++ rx.bytes.drop n }
  tx : u.tx = t.tx
  length : u.length = t.length
  fault : u.fault = fault.or t.fault

theorem sends_outgoing (t : Transaction) : t.Sends t.outgoing := by
  refine ⟨?_, ?_⟩
  · intro tx htx
    rw [outgoing, htx]
    exact List.take_eq_take_min
  · intro hbare
    rw [outgoing, hbare]

theorem overwrite_take (host bs : Bytes) (length : Nat) :
    Bytes.overwrite (host.take length) bs =
      host.take (min host.length (min bs.length length)) ++
        bs.drop (min host.length (min bs.length length)) := by
  rw [Bytes.overwrite, List.take_take, List.length_take]
  congr 1
  · rw [List.take_eq_take_min, Nat.min_comm]
  · by_cases hlong : bs.length ≤ min length host.length
    · rw [List.drop_of_length_le hlong, List.drop_of_length_le (by omega)]
    · have hsame : min length host.length = min host.length (min bs.length length) := by omega
      rw [hsame]

theorem receives_clocked (t : Transaction) (host : Bytes) (fault : Option String) :
    t.Receives host fault (t.clocked host fault) := by
  have hrx : (t.receive host).rx = t.rx.map fun rx =>
      { rx with bytes := host.take (min host.length (min rx.bytes.length t.length)) ++
        rx.bytes.drop (min host.length (min rx.bytes.length t.length)) } := by
    simp only [receive, Block.receive, overwrite_take]
  cases fault with
  | none => exact ⟨hrx, rfl, rfl, rfl⟩
  | some reason => exact ⟨hrx, rfl, rfl, rfl⟩

end Transaction

namespace Bus

inductive Call where
  | submit (t : Transaction)
  | clock (host : Bytes) (fault : Option String)
  | collect
  | cancel
deriving DecidableEq, Repr

inductive Fate where
  | cancelled
  /-- It was clocked and is, or was, there to be collected. -/
  | completed (host : Bytes) (fault : Option String)
  /-- It was clocked, and the completion list was full. -/
  | lost
deriving DecidableEq, Repr

structure Departure where
  transaction : Transaction
  fate : Fate
deriving DecidableEq, Repr

def Departure.completion? (d : Departure) : Option Transaction :=
  match d.fate with
  | .completed host fault => some (d.transaction.clocked host fault)
  | .cancelled | .lost => none

/-- A bus with the books on what went through it, all in the order of time. -/
structure Ledger where
  bus : Bus
  accepted : List Transaction := []
  departed : List Departure := []
  collected : List Transaction := []
deriving DecidableEq, Repr

namespace Ledger

def step (l : Ledger) : Call → Ledger
  | .submit t =>
    match l.bus.submit? t with
    | none => l
    | some (_, bus) => { l with bus, accepted := l.accepted ++ [t] }
  | .clock host fault =>
    match l.bus.clock? host fault with
    | none => l
    | some transfer =>
      let fate := if transfer.lost.isSome then .lost else .completed host fault
      { l with
        bus := transfer.bus
        departed := l.departed ++ l.bus.loaded.toList.map (⟨·, fate⟩) }
  | .collect =>
    match l.bus.collect? with
    | none => l
    | some (t, bus) => { l with bus, collected := l.collected ++ [t] }
  | .cancel =>
    { l with
      bus := l.bus.cancel.2
      departed := l.departed ++ l.bus.cancel.1.map (⟨·, .cancelled⟩) }

def run (l : Ledger) (calls : List Call) : Ledger := calls.foldl step l

/-- What went in came out in the same order, or is still there; and what was kept for collection was
collected in that order, or is still there. -/
structure InOrder (size : Nat) (l : Ledger) : Prop where
  capacity : l.bus.queueSize = size
  outstanding : l.bus.outstanding ≤ size
  completed : l.bus.completed.length ≤ size
  idle : l.bus.loaded = none → l.bus.queued = []
  accepted : l.accepted = l.departed.map (·.transaction) ++ l.bus.pending
  collected : l.collected ++ l.bus.completed = l.departed.filterMap Departure.completion?

end Ledger

/-- A transfer of the loaded transaction. It is kept for collection if the completion list has room,
and lost otherwise. -/
structure Exchanges (b : Bus) (t : Transaction) (host : Bytes) (fault : Option String)
    (transfer : Transfer) : Prop where
  pending : transfer.bus.pending = b.queued
  receives : t.Receives host fault (t.clocked host fault)
  kept : b.completed.length < b.queueSize →
    (∃ read, transfer.read = some read ∧ t.Sends read) ∧ transfer.lost = none ∧
      transfer.bus.completed = b.completed ++ [t.clocked host fault]
  lost : b.completed.length = b.queueSize →
    transfer.read = none ∧ transfer.lost = some (t.clocked host fault) ∧
      transfer.bus.completed = b.completed

structure Answers (b : Bus) : Prop where
  submitted : ∀ t, (b.submit? t).isSome = true ↔ b.outstanding < b.queueSize
  idle : b.loaded = none → ∀ host fault, b.clock? host fault = none
  clocked : ∀ t, b.loaded = some t → ∀ host fault, ∃ transfer,
    b.clock? host fault = some transfer ∧ b.Exchanges t host fault transfer

variable {b b' : Bus} {t : Transaction} {events : List BusEvent} {size : Nat} {l : Ledger}

theorem isSome_submit? (t : Transaction) (b : Bus) :
    (b.submit? t).isSome = true ↔ b.outstanding < b.queueSize := by
  unfold submit?
  split
  · next hfull => simp [hfull]
  · next hroom =>
    cases b.loaded <;> simpa using hroom

/-- An accepted transaction is the last of those that are pending. -/
theorem of_submit? (hidle : b.loaded = none → b.queued = [])
    (h : b.submit? t = some (events, b')) :
    b'.pending = b.pending ++ [t] ∧ b'.loaded.isSome = true ∧ b'.completed = b.completed ∧
      b'.queueSize = b.queueSize := by
  obtain ⟨_, ⟨hnone, _, rfl⟩ | ⟨hloaded, _, rfl⟩⟩ := submit?_eq_some h
  · simp [pending, hnone, hidle hnone]
  · exact ⟨(List.append_assoc _ _ _).symm, hloaded, rfl, rfl⟩

def shifted (b : Bus) : Bus :=
  { b with loaded := b.queued.head?, queued := b.queued.tail, clocked := b.clocked + 1 }

theorem pending_shifted (b : Bus) : b.shifted.pending = b.queued := by
  cases hqueued : b.queued <;> simp [shifted, pending, hqueued]

theorem clock?_of_full (hloaded : b.loaded = some t) (hfull : b.queueSize ≤ b.completed.length)
    (host : Bytes) (fault : Option String) : b.clock? host fault =
      some ⟨b.shifted, [.done], none, some (t.clocked host fault)⟩ := by
  cases fault <;> simp [clock?, hloaded, hfull, shifted, Transaction.clocked]

theorem clock?_of_room (hloaded : b.loaded = some t) (hroom : b.completed.length < b.queueSize)
    (host : Bytes) (fault : Option String) : ∃ events, b.clock? host fault =
      some ⟨{ b.shifted with completed := b.completed ++ [t.clocked host fault] }, events,
        some t.outgoing, none⟩ := by
  have hnot : ¬ b.queueSize ≤ b.completed.length := Nat.not_le.mpr hroom
  cases fault <;> simp [clock?, hloaded, hnot, shifted, Transaction.clocked]

theorem exchanges_of_loaded (hloaded : b.loaded = some t) (host : Bytes) (fault : Option String) :
    ∃ transfer, b.clock? host fault = some transfer ∧ b.Exchanges t host fault transfer := by
  by_cases hroom : b.completed.length < b.queueSize
  · obtain ⟨events, hclock⟩ := clock?_of_room hloaded hroom host fault
    exact ⟨_, hclock,
      { pending := pending_shifted b
        receives := t.receives_clocked host fault
        kept := fun _ => ⟨⟨_, rfl, t.sends_outgoing⟩, rfl, rfl⟩
        lost := fun hfull => absurd hfull (Nat.ne_of_lt hroom) }⟩
  · exact ⟨_, clock?_of_full hloaded (Nat.le_of_not_lt hroom) host fault,
      { pending := pending_shifted b
        receives := t.receives_clocked host fault
        kept := fun h => absurd h hroom
        lost := fun _ => ⟨rfl, rfl, rfl⟩ }⟩

theorem answers (b : Bus) : b.Answers where
  submitted t := isSome_submit? t b
  idle hloaded host fault := by rw [clock?, hloaded]
  clocked _ hloaded host fault := exchanges_of_loaded hloaded host fault

namespace Ledger

theorem inOrder_new (n : Nat) : InOrder (max n 1) { bus := .ofQueueSize n } :=
  ⟨rfl, Nat.zero_le _, Nat.zero_le _, fun _ => rfl, rfl, rfl⟩

theorem inOrder_submit (h : l.InOrder size) (t : Transaction) :
    (l.step (.submit t)).InOrder size := by
  simp only [step]
  cases hsubmit : l.bus.submit? t with
  | none => exact h
  | some accepted =>
    obtain ⟨events, bus⟩ := accepted
    have hroom := (submit?_eq_some hsubmit).1
    obtain ⟨hpending, hloaded, hcompleted, hsize⟩ := of_submit? h.idle hsubmit
    refine ⟨hsize.trans h.capacity, ?_, ?_, ?_, ?_, ?_⟩
    · rw [outstanding, hpending, List.length_append, ← h.capacity]
      exact hroom
    · rw [hcompleted]
      exact h.completed
    · intro hnone
      cases hloaded.symm.trans (congrArg Option.isSome hnone)
    · rw [hpending, h.accepted, List.append_assoc]
    · rw [hcompleted]
      exact h.collected

/-- The loaded transaction departs; it is the first of those that are pending. -/
theorem InOrder.departs (h : l.InOrder size) (hloaded : l.bus.loaded = some t) {fate : Fate}
    {completed : List Transaction} (hlength : completed.length ≤ size)
    (hkept : completed = l.bus.completed ++ (Departure.completion? ⟨t, fate⟩).toList) :
    InOrder size { l with
      bus := { l.bus.shifted with completed }, departed := l.departed ++ [⟨t, fate⟩] } := by
  have hpending : l.bus.pending = t :: l.bus.queued := by simp [pending, hloaded]
  have hshifted : { l.bus.shifted with completed }.pending = l.bus.queued :=
    pending_shifted l.bus
  refine ⟨h.capacity, ?_, hlength, ?_, ?_, ?_⟩
  · have houtstanding := h.outstanding
    rw [Bus.outstanding, hpending] at houtstanding
    rw [Bus.outstanding, hshifted]
    exact Nat.le_of_succ_le houtstanding
  · intro hnone
    have hempty : l.bus.queued = [] := List.head?_eq_none_iff.mp hnone
    simp [shifted, hempty]
  · rw [hshifted, h.accepted, hpending]
    simp
  · rw [hkept, ← List.append_assoc, h.collected]
    cases hcompletion : Departure.completion? ⟨t, fate⟩ <;> simp [hcompletion]

theorem inOrder_clock (h : l.InOrder size) (host : Bytes) (fault : Option String) :
    (l.step (.clock host fault)).InOrder size := by
  cases hloaded : l.bus.loaded with
  | none =>
    have hsame : l.step (.clock host fault) = l := by
      simp only [step, (answers l.bus).idle hloaded]
    rwa [hsame]
  | some t =>
    by_cases hroom : l.bus.completed.length < l.bus.queueSize
    · obtain ⟨events, hclock⟩ := clock?_of_room hloaded hroom host fault
      have hlength : (l.bus.completed ++ [t.clocked host fault]).length ≤ size := by
        rw [List.length_append, ← h.capacity]
        exact hroom
      have hdeparted : InOrder size { l with
          bus := { l.bus.shifted with
            completed := l.bus.completed ++ [t.clocked host fault] }
          departed := l.departed ++ [⟨t, .completed host fault⟩] } :=
        h.departs hloaded hlength rfl
      simpa [step, hclock, hloaded] using hdeparted
    · have hclock := clock?_of_full hloaded (Nat.le_of_not_lt hroom) host fault
      have hdeparted : InOrder size { l with
          bus := l.bus.shifted, departed := l.departed ++ [⟨t, .lost⟩] } :=
        h.departs hloaded h.completed (List.append_nil _).symm
      simpa [step, hclock, hloaded] using hdeparted

theorem inOrder_collect (h : l.InOrder size) : (l.step .collect).InOrder size := by
  simp only [step, collect?]
  cases hcompleted : l.bus.completed with
  | nil => exact h
  | cons t rest =>
    have hlength := h.completed
    have hcollected := h.collected
    rw [hcompleted] at hlength hcollected
    refine ⟨h.capacity, h.outstanding, Nat.le_of_succ_le hlength, h.idle, h.accepted, ?_⟩
    rw [← hcollected, List.append_assoc]
    rfl

theorem inOrder_cancel (h : l.InOrder size) : (l.step .cancel).InOrder size := by
  refine ⟨h.capacity, Nat.zero_le _, h.completed, fun _ => rfl, ?_, ?_⟩
  · simp [step, cancel, pending, h.accepted, Function.comp_def]
  · have hnothing : (l.bus.pending.map fun t => Departure.mk t .cancelled).filterMap
        Departure.completion? = [] := by
      simp [List.filterMap_map, Function.comp_def, Departure.completion?]
    simp only [step, cancel, List.filterMap_append, hnothing, List.append_nil]
    exact h.collected

theorem inOrder_step (h : l.InOrder size) (call : Call) : (l.step call).InOrder size := by
  cases call with
  | submit t => exact inOrder_submit h t
  | clock host fault => exact inOrder_clock h host fault
  | collect => exact inOrder_collect h
  | cancel => exact inOrder_cancel h

theorem inOrder_run (h : l.InOrder size) (calls : List Call) : (l.run calls).InOrder size := by
  induction calls generalizing l with
  | nil => exact h
  | cons call calls ih => exact ih (inOrder_step h call)

end Ledger
end Bus
end SlaveLink
