import SlaveLink.Proofs.Bus.Order

/-! # What a bus on the bench has of the pools
A transaction is taken from the pools to be handed to the bus. It goes back when the bus refuses it
or loses it, and when the slave collects it or pulls it back, so the pools have lent what waits on
the bus and nothing else. -/

namespace SlaveLink.BusBench

variable {b : BusBench} {m : Memory} {l : Bus.Ledger} {size : Nat} {ts us : List Transaction}

def callsIn (b : BusBench) : Step → List Bus.Call
  | .queue data length zero bare =>
    match (prepare data length zero bare b.memory).1 with
    | .ok t => [.submit t]
    | .error _ => []
  | .clock data => [.clock data none]
  | .exchange data limit fault =>
    match b.host.waitReady limit b.bank.lines with
    | .ok _ => [.clock data fault]
    | .error _ => []
  | .collect _ => [.collect]
  | .cancel => [.cancel]
  | _ => []

def calls (b : BusBench) : List Step → List Bus.Call
  | [] => []
  | step :: steps => b.callsIn step ++ (b.step step).2.2.calls steps

def places (ts : List Transaction) : List Nat := (ts.flatMap (·.blocks)).map (·.index)

theorem places_cons (t : Transaction) (ts : List Transaction) :
    places (t :: ts) = t.blocks.map (·.index) ++ places ts := by
  simp [places]

def HasLent (size : Nat) (ts : List Transaction) (m : Memory) : Prop :=
  m.Lends size (places ts) ts.length

theorem HasLent.perm (h : HasLent size ts m) (hperm : ts.Perm us) : HasLent size us m := by
  have hplaces : (places us).Perm (places ts) := (hperm.symm.flatMap_right _).map _
  rw [HasLent, ← hperm.length_eq]
  exact Memory.Lends.perm h hplaces

theorem HasLent.released {t : Transaction} (h : HasLent size (t :: ts) m) :
    HasLent size ts (m.releaseTransaction t) := by
  rw [HasLent, places_cons] at h
  exact Memory.Lends.releaseTransaction h

/-- Transactions go back to the pools with their blocks. -/
theorem HasLent.returned (h : HasLent size (ts ++ us) m) :
    HasLent size us (m.releaseTransactions ts) := by
  have hlent : m.Lends size ((ts.flatMap (·.blocks)).map (·.index) ++ places us)
      (us.length + ts.length) := by
    simpa [HasLent, places, Nat.add_comm] using h
  exact hlent.releaseTransactions

/-- A transaction is taken with its blocks, or nothing is. -/
theorem prepare_cases (h : HasLent size ts m) (data : Bytes) (length : Option Nat)
    (zero bare : Bool) :
    (∃ t m', prepare data length zero bare m = (.ok t, m') ∧ HasLent size (t :: ts) m') ∨
      ∃ e m', prepare data length zero bare m = (.error e, m') ∧ HasLent size ts m' := by
  unfold prepare
  cases hblank : m.acquireTransaction true with
  | error e => exact .inr ⟨e, m, rfl, h⟩
  | ok taken =>
    obtain ⟨t, m₁⟩ := taken
    obtain ⟨rfl, h₁⟩ := Memory.Lends.acquireTransaction h hblank
    simp only
    cases bare with
    | true => exact .inl ⟨.blank, m₁, rfl, h₁⟩
    | false =>
      simp only [Bool.false_eq_true, if_false]
      cases hout : m₁.acquire true with
      | error e => exact .inr ⟨e, _, rfl, h₁.releaseTransaction⟩
      | ok taken =>
        obtain ⟨tx, m₂⟩ := taken
        have h₂ := h₁.acquire hout
        simp only
        cases hin : m₂.acquire zero with
        | error e =>
          have hback : (m₂.release (tx.receive data)).Lends size (places ts) (ts.length + 1) :=
            Memory.Lends.release (b := tx.receive data) h₂
          exact .inr ⟨e, _, rfl, hback.releaseTransaction⟩
        | ok taken =>
          obtain ⟨rx, m₃⟩ := taken
          have hboth := h₂.acquire hin
          exact .inl ⟨_, _, rfl, hboth.perm (List.Perm.swap _ _ _)⟩

def Lends (size : Nat) (b : BusBench) : Prop :=
  HasLent size (b.bus.pending ++ b.bus.completed) b.memory

theorem clock_of_none {data : Bytes} {fault : Option String}
    (h : b.bus.clock? data fault = none) : b.clock data fault = (.failed .busNotReady, [], b) := by
  rw [clock, h]

/-- A transfer leaves the bus as it says; what it lost goes back to the pools. -/
theorem clock_of_some {data : Bytes} {fault : Option String} {transfer : Bus.Transfer}
    (h : b.bus.clock? data fault = some transfer) : (b.clock data fault).2.2 =
      { b with
        bus := transfer.bus
        memory := b.memory.releaseTransactions transfer.lost.toList } := by
  rw [clock, h]
  dsimp only
  cases transfer.read <;> rfl

theorem bus_clock (hbus : l.bus = b.bus) (data : Bytes) (fault : Option String) :
    (l.step (.clock data fault)).bus = (b.clock data fault).2.2.bus := by
  cases hclock : b.bus.clock? data fault with
  | none => simp only [Bus.Ledger.step, hbus, hclock, clock_of_none hclock]
  | some transfer => simp only [Bus.Ledger.step, hbus, hclock, clock_of_some hclock]

theorem bus_queue (hbus : l.bus = b.bus) (data : Bytes) (length : Option Nat) (zero bare : Bool) :
    (l.run (b.callsIn (.queue data length zero bare))).bus =
      (b.queue data length zero bare).2.2.bus := by
  simp only [callsIn, queue]
  generalize prepare data length zero bare b.memory = prepared
  obtain ⟨e | t, memory⟩ := prepared
  · exact hbus
  · simp only [Bus.Ledger.run, List.foldl_cons, List.foldl_nil, Bus.Ledger.step, hbus]
    cases b.bus.submit? t with
    | none => exact hbus
    | some accepted => rfl

theorem bus_exchange (hbus : l.bus = b.bus) (data : Bytes) (limit : Duration)
    (fault : Option String) : (l.run (b.callsIn (.exchange data limit fault))).bus =
      (b.exchange data limit fault).2.2.bus := by
  simp only [callsIn, exchange]
  cases b.host.waitReady limit b.bank.lines with
  | error e => exact hbus
  | ok _ => exact bus_clock (b := (b.chipSelect .low).2) hbus data fault

/-- What a step does to the bus it does by what it asks of it. -/
theorem bus_step (hbus : l.bus = b.bus) (step : Step) :
    (l.run (b.callsIn step)).bus = (b.step step).2.2.bus := by
  cases step with
  | queue data length zero bare => exact bus_queue hbus data length zero bare
  | clock data => exact bus_clock hbus data none
  | exchange data limit fault => exact bus_exchange hbus data limit fault
  | collect limit =>
    simp only [callsIn, Bus.Ledger.run, List.foldl_cons, List.foldl_nil, Bus.Ledger.step,
      BusBench.step, hbus]
    cases b.bus.collect? with
    | none => exact hbus
    | some taken => rfl
  | cancel =>
    simp only [callsIn, Bus.Ledger.run, List.foldl_cons, List.foldl_nil, Bus.Ledger.step,
      BusBench.step, hbus]
  | watch line edge id =>
    simp only [BusBench.step]
    cases b.bank.watch line edge id <;> exact hbus
  | waitReady limit =>
    simp only [BusBench.step]
    cases b.host.waitReady limit b.bank.lines <;> exact hbus
  | setEvents | select | deselect | set => exact hbus

theorem lends_clock (h : b.Lends size) (data : Bytes) (fault : Option String) :
    (b.clock data fault).2.2.Lends size := by
  cases hloaded : b.bus.loaded with
  | none =>
    rw [clock_of_none (b.bus.answers.idle hloaded data fault)]
    exact h
  | some t =>
    have hpending : b.bus.pending = t :: b.bus.queued := by simp [Bus.pending, hloaded]
    -- The transfer changes what is in the blocks, but not which blocks they are.
    have hclocked : HasLent size
        (t.clocked data fault :: (b.bus.queued ++ b.bus.completed)) b.memory := by
      rw [Lends, hpending, List.cons_append, HasLent, places_cons] at h
      rw [HasLent, places_cons, t.index_blocks_clocked]
      exact h
    by_cases hroom : b.bus.completed.length < b.bus.queueSize
    · obtain ⟨events, hclock⟩ := Bus.clock?_of_room hloaded hroom data fault
      have hkept := hclocked.perm (List.perm_append_singleton _ _).symm
      rw [List.append_assoc, ← b.bus.pending_shifted] at hkept
      rw [clock_of_some hclock]
      exact hkept
    · have hclock := Bus.clock?_of_full hloaded (Nat.le_of_not_lt hroom) data fault
      have hlost := hclocked.released
      rw [← b.bus.pending_shifted] at hlost
      rw [clock_of_some hclock]
      exact hlost

theorem lends_queue (hidle : b.bus.loaded = none → b.bus.queued = []) (h : b.Lends size)
    (data : Bytes) (length : Option Nat) (zero bare : Bool) :
    (b.queue data length zero bare).2.2.Lends size := by
  rcases prepare_cases h data length zero bare with
    ⟨t, memory, hprepare, htaken⟩ | ⟨e, memory, hprepare, hback⟩
  · simp only [queue, hprepare]
    cases hsubmit : b.bus.submit? t with
    | none => exact htaken.released
    | some accepted =>
      obtain ⟨events, bus⟩ := accepted
      obtain ⟨hpending, _, hcompleted, _⟩ := Bus.of_submit? hidle hsubmit
      have hlast : (t :: (b.bus.pending ++ b.bus.completed)).Perm
          (b.bus.pending ++ [t] ++ b.bus.completed) := by
        rw [List.append_assoc]
        exact List.perm_middle.symm
      rw [Lends, hpending, hcompleted]
      exact htaken.perm hlast
  · simp only [queue, hprepare]
    exact hback

theorem lends_step (hidle : b.bus.loaded = none → b.bus.queued = []) (h : b.Lends size)
    (step : Step) : (b.step step).2.2.Lends size := by
  cases step with
  | queue data length zero bare => exact lends_queue hidle h data length zero bare
  | clock data => exact lends_clock h data none
  | exchange data limit fault =>
    simp only [BusBench.step, exchange]
    cases b.host.waitReady limit b.bank.lines with
    | error e => exact h
    | ok _ => exact lends_clock (b := (b.chipSelect .low).2) h data fault
  | collect limit =>
    simp only [BusBench.step, Bus.collect?]
    cases hcompleted : b.bus.completed with
    | nil => exact h
    | cons t rest =>
      rw [Lends, hcompleted] at h
      exact (h.perm List.perm_middle).released
  | cancel => exact HasLent.returned h
  | watch line edge id =>
    simp only [BusBench.step]
    cases b.bank.watch line edge id <;> exact h
  | waitReady limit =>
    simp only [BusBench.step]
    cases b.host.waitReady limit b.bank.lines <;> exact h
  | setEvents | select | deselect | set => exact h

theorem lends_run {capacity : Nat} (h : b.Lends size) (hbus : l.bus = b.bus)
    (horder : l.InOrder capacity) (steps : List Step) :
    (b.run steps).2.bus = (l.run (b.calls steps)).bus ∧ (b.run steps).2.Lends size := by
  induction steps generalizing b l with
  | nil => exact ⟨hbus.symm, h⟩
  | cons step steps ih =>
    have hidle : b.bus.loaded = none → b.bus.queued = [] := hbus ▸ horder.idle
    have hrest := ih (lends_step hidle h step) (bus_step hbus step)
      (Bus.Ledger.inOrder_run horder _)
    have hcalls : l.run (b.calls (step :: steps)) =
        (l.run (b.callsIn step)).run ((b.step step).2.2.calls steps) := List.foldl_append
    rw [hcalls]
    exact hrest

/-- What is in use of the pools waits on the bus, and a transfer without a transaction changes
nothing. -/
structure Accounted (b : BusBench) : Prop where
  transactions : b.memory.transactions.inUse = b.bus.outstanding + b.bus.completed.length
  blocks : b.memory.wire.inUse = ((b.bus.pending ++ b.bus.completed).flatMap (·.blocks)).length
  idle : b.bus.loaded = none → ∀ data fault,
    b.clock data fault = (.failed .busNotReady, [], b)

theorem accounted_of_lends (h : b.Lends size) : b.Accounted where
  transactions := h.transactions.trans List.length_append
  blocks := h.blocks.trans (List.length_map _)
  idle hloaded data fault := clock_of_none (b.bus.answers.idle hloaded data fault)

/-- Whatever is asked of a bus, in whatever order, at most as many transactions as it has room for
are outstanding and at most as many are completed. Accepted transactions leave it in the order of
their acceptance, and those that are neither pulled back nor lost to a full completion list are
collected in that order. On the bench, where what is refused, lost, collected or pulled back is
given back, what is in use of the pools is what waits on the bus. -/
theorem transactions_keep_order {name title : String} {count width heap rest : Nat}
    {wire : Pool Block} {transactions : Pool Transaction}
    (hwire : Memory.createWire name size width heap = .ok wire)
    (htransactions : Memory.createTransactions title count rest = .ok transactions)
    (queueSize : Nat) (bank : LineBank Nat) (host : HostLevels) (recorder : Option Nat) :
    (∀ calls : List Bus.Call,
      (Bus.Ledger.run { bus := .ofQueueSize queueSize } calls).InOrder (max queueSize 1) ∧
        (Bus.Ledger.run { bus := .ofQueueSize queueSize } calls).bus.Answers) ∧
      ∀ steps : List Step,
        let b : BusBench := ⟨⟨wire, transactions⟩, .ofQueueSize queueSize, bank, host, recorder⟩
        (b.run steps).2.bus = (Bus.Ledger.run { bus := b.bus } (b.calls steps)).bus ∧
          (b.run steps).2.Accounted := by
  refine ⟨?_, ?_⟩
  · intro calls
    exact ⟨Bus.Ledger.inOrder_run (Bus.Ledger.inOrder_new queueSize) calls, Bus.answers _⟩
  · intro steps b
    have hlends : b.Lends size := Memory.lends_new hwire htransactions
    obtain ⟨hbus, hrun⟩ := lends_run hlends rfl (Bus.Ledger.inOrder_new queueSize) steps
    exact ⟨hbus, accounted_of_lends hrun⟩

/-- Of three transactions one has completed, one was lost and one is loaded. -/
theorem transactions_keep_order_small :
    ∃ wire transactions, Memory.createWire "wire" 16 8 Heap.maxRequest = .ok wire ∧
      Memory.createTransactions "transaction" 8 Heap.maxRequest = .ok transactions ∧
      let b : BusBench := { memory := ⟨wire, transactions⟩, bus := .ofQueueSize 1 }
      let steps : List Step := [.queue [1] none false false, .clock [],
        .queue [2] none false false, .clock [], .queue [3] none false false]
      (b.run steps).2.Accounted ∧ (b.run steps).2.memory.transactions.inUse = 2 :=
  ⟨_, _, rfl, rfl,
    ((transactions_keep_order (show Memory.createWire "wire" 16 8 Heap.maxRequest = .ok _ from rfl)
      (show Memory.createTransactions "transaction" 8 Heap.maxRequest = .ok _ from rfl)
      1 {} {} none).2 _).2,
    by decide +kernel⟩

end SlaveLink.BusBench
