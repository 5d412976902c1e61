import SlaveLink.Link.Basic
import SlaveLink.Proofs.Link.Orderly

/-! # A new link
Validated settings leave room for a header and a word for the length, and every pool starts full. -/

namespace SlaveLink

theorem FrameConfig.bounds_of_validate {c : FrameConfig} (h : c.validate = .ok ()) :
    headerSize < c.bufferSize ∧ c.bufferSize ≤ 65535 := by
  unfold validate at h
  split at h
  · simp at h
  · split at h
    · simp at h
    · split at h
      · simp at h
      · omega

theorem LinkConfig.bounds_of_validate {c : LinkConfig} (h : c.validate = .ok ()) :
    c.frame.validate = .ok () ∧ 0 < c.busQueueSize := by
  unfold validate at h
  split at h
  · simp at h
  · next hframe =>
    split at h
    · simp at h
    · split at h
      · simp at h
      · exact ⟨hframe, by omega⟩

theorem LinkConfig.blockSize_ne_zero {c : LinkConfig} (h : c.validate = .ok ()) :
    c.frame.blockSize ≠ 0 := by
  obtain ⟨hheader, -⟩ := FrameConfig.bounds_of_validate (bounds_of_validate h).1
  exact Nat.ne_of_gt (Nat.lt_of_lt_of_le (Nat.zero_lt_of_lt hheader) (le_alignUp ..))

/-- Every queue has room for a frame. -/
theorem LinkConfig.depth_of_validate {c : LinkConfig} (h : c.validate = .ok ()) (d : Direction)
    (p : Priority) : 0 < (c.depths d).get p := by
  unfold validate at h
  split at h
  · simp at h
  · split at h
    · simp at h
    · next hnone =>
      have hmem : (d, p) ∈ [Direction.tx, .rx].flatMap fun d =>
          Priority.all.map fun p => (d, p) := by
        cases d <;> cases p <;> decide
      have hroom := List.find?_eq_none.mp hnone (d, p) hmem
      simp only [beq_iff_eq] at hroom
      exact Nat.pos_of_ne_zero hroom

/-- Unless throttling is disabled, its marks lie apart and within the queue. -/
theorem LinkConfig.marks_of_validate {c : LinkConfig} (h : c.validate = .ok ())
    (henabled : c.throttleHigh ≠ 0) :
    c.throttleLow < c.throttleHigh ∧ c.throttleHigh.toNat ≤ 100 := by
  simp only [UInt8.lt_iff_toNat_lt]
  unfold validate at h
  split at h
  · simp at h
  · split at h
    · simp at h
    · split at h
      · simp at h
      · split at h
        · simp at h
        · split at h
          · simp at h
          · next hhigh hlow => exact ⟨Nat.lt_of_not_le fun hle => hlow ⟨henabled, hle⟩, by omega⟩

namespace LinkConfig

def busBytes (c : LinkConfig) : Nat := c.busQueueSize * Bus.slotBytes

def poolBytes (c : LinkConfig) : Nat :=
  Memory.wireBytes c.wireBlocks c.frame.blockSize + c.transactionBlocks * Memory.transactionSlot

def queueBytes (c : LinkConfig) : Nat :=
  c.txDepths.total * Multiplexer.slotBytes .tx + c.rxDepths.total * Multiplexer.slotBytes .rx

/-- Bytes of memory that a link with these settings and its bus take. -/
def footprint (c : LinkConfig) : Nat := c.busBytes + c.poolBytes + c.queueBytes

def pools (c : LinkConfig) : Memory where
  wire :=
    { name := "wire"
      capacity := c.wireBlocks
      free := (List.range c.wireBlocks).map (⟨·, Bytes.zeros c.frame.blockSize⟩) }
  transactions :=
    { name := "transaction"
      capacity := c.transactionBlocks
      free := (List.range c.transactionBlocks).map fun _ => .blank }

/-- The numbers of slots fit words if the bus and the queues fit the memory. -/
theorem slots_le_maxWord64 {c : LinkConfig} (hbus : c.busBytes ≤ Heap.maxRequest)
    (hqueues : c.queueBytes ≤ Heap.maxRequest) :
    c.wireBlocks ≤ maxWord64 ∧ c.transactionBlocks ≤ maxWord64 := by
  simp only [busBytes, queueBytes, Bus.slotBytes, Multiplexer.slotBytes, Heap.maxRequest]
    at hbus hqueues
  simp only [wireBlocks, transactionBlocks, maxWord64]
  omega

end LinkConfig

theorem PriorityQueues.claim_eq_ok_iff {slotBytes heap rest : Nat} {depths : PerPriority Nat}
    (hheap : heap ≤ Heap.maxRequest) : claim slotBytes depths heap = .ok rest ↔
      heap = depths.total * slotBytes + rest := by
  have hsum : (depths.toList.map (· * slotBytes)).foldr (· + ·) 0 = depths.total * slotBytes := by
    simp only [PerPriority.toList, PerPriority.total, List.map_cons, List.map_nil,
      List.foldr_cons, List.foldr_nil, Nat.add_mul]
    omega
  rw [claim, Heap.claimAll_eq_ok_iff hheap, hsum]

namespace Link

variable {c : LinkConfig} {m : Memory} {l : Link} {heap rest : Nat}

theorem claimQueues_eq_ok_iff (hheap : heap ≤ Heap.maxRequest) :
    claimQueues c heap = .ok rest ↔ heap = c.queueBytes + rest := by
  unfold claimQueues LinkConfig.queueBytes
  cases htx : PriorityQueues.claim (Multiplexer.slotBytes .tx) c.txDepths heap with
  | error why =>
    simp only [reduceCtorEq, false_iff]
    intro heq
    rw [Nat.add_assoc] at heq
    exact nomatch htx.symm.trans ((PriorityQueues.claim_eq_ok_iff hheap).mpr heq)
  | ok left =>
    have hleft := (PriorityQueues.claim_eq_ok_iff hheap).mp htx
    simp only
    rw [PriorityQueues.claim_eq_ok_iff (by omega)]
    omega

/-- Where the numbers of slots are words, the pools are what the settings ask for. -/
theorem reserve_eq_ok_iff (hheap : heap ≤ Heap.maxRequest) (hsize : c.frame.blockSize ≠ 0)
    (hblocks : c.wireBlocks ≤ maxWord64) (hcount : c.transactionBlocks ≤ maxWord64) :
    reserve c heap = .ok (m, rest) ↔ heap = c.poolBytes + rest ∧ m = c.pools := by
  have hblock : c.frame.blockSize ≤ Memory.wireBytes c.wireBlocks c.frame.blockSize :=
    Nat.le_trans (Nat.le_add_left ..) (Nat.le_mul_of_pos_left _ (Nat.succ_pos _))
  unfold reserve LinkConfig.poolBytes
  rw [wrap64_of_le hblocks, wrap64_of_le hcount]
  constructor
  · intro h
    simp only at h
    split at h
    · simp at h
    · next wire hwire =>
      obtain ⟨-, -, -, hroom, rfl⟩ := Memory.createWire_eq_ok_iff.mp hwire
      split at h
      · simp at h
      · next transactions htransactions =>
        obtain ⟨-, hleft, rfl⟩ := Pool.create_eq_ok_iff.mp htransactions
        obtain ⟨rfl, rfl⟩ := Prod.mk.inj (Except.ok.inj h)
        exact ⟨by omega, rfl⟩
  · rintro ⟨hroom, rfl⟩
    have hwire : Memory.createWire "wire" c.wireBlocks c.frame.blockSize heap =
        .ok c.pools.wire :=
      Memory.createWire_eq_ok_iff.mpr ⟨hsize, Nat.succ_ne_zero _, by omega, by omega, rfl⟩
    have htransactions : Memory.createTransactions "transaction" c.transactionBlocks
        (heap - Memory.wireBytes c.wireBlocks c.frame.blockSize) = .ok c.pools.transactions :=
      Pool.create_eq_ok_iff.mpr ⟨Nat.succ_ne_zero _, by omega, rfl⟩
    simp only [hwire, htransactions, Except.ok.injEq, Prod.mk.injEq]
    exact ⟨trivial, by omega⟩

theorem le_of_reserve (h : reserve c heap = .ok (m, rest)) : rest ≤ heap := by
  unfold reserve at h
  simp only at h
  split at h
  · simp at h
  · split at h
    · simp at h
    · obtain ⟨-, rfl⟩ := Prod.mk.inj (Except.ok.inj h)
      omega

/-- A link that was built has its pools full and nothing in its queues. -/
theorem of_createIn (hheap : heap ≤ Heap.maxRequest) (h : createIn c heap = .ok l) :
    c.validate = .ok () ∧ c.footprint ≤ heap ∧ l = ofMemory c c.pools := by
  unfold createIn at h
  split at h
  · simp at h
  next hvalid =>
  split at h
  · simp at h
  next left hbus =>
  have hleft := (Heap.claim_eq_ok_iff hheap).mp hbus
  split at h
  · simp at h
  · simp at h
  next m queued hreserve =>
  have hqueued := le_of_reserve hreserve
  split at h
  · simp at h
  next rest hqueues =>
  have hrest := (claimQueues_eq_ok_iff (by omega)).mp hqueues
  have hbytes : c.busBytes ≤ Heap.maxRequest ∧ c.queueBytes ≤ Heap.maxRequest := by
    unfold LinkConfig.busBytes
    omega
  obtain ⟨hblocks, hcount⟩ := LinkConfig.slots_le_maxWord64 hbytes.1 hbytes.2
  obtain ⟨hpools, rfl⟩ := (reserve_eq_ok_iff (by omega) (LinkConfig.blockSize_ne_zero hvalid)
    hblocks hcount).mp hreserve
  unfold LinkConfig.footprint LinkConfig.busBytes
  exact ⟨hvalid, by omega, (Except.ok.inj h).symm⟩

theorem create_eq_ok (h : create c = .ok l) : c.validate = .ok () ∧ l = ofMemory c c.pools := by
  obtain ⟨hvalid, -, hl⟩ := of_createIn (Nat.le_refl _) h
  exact ⟨hvalid, hl⟩

/-- No queue is so deep that a percentage of it is not a word. -/
theorem words_of_create (h : create c = .ok l) : c.rxDepths.bulk * 100 ≤ maxWord64 := by
  obtain ⟨hvalid, hroom, -⟩ := of_createIn (Nat.le_refl _) h
  obtain ⟨hheader, -⟩ :=
    FrameConfig.bounds_of_validate (LinkConfig.bounds_of_validate hvalid).1
  have hsize : headerSize < c.frame.blockSize := Nat.lt_of_lt_of_le hheader (le_alignUp ..)
  have hdepth : c.rxDepths.bulk ≤ c.rxDepths.total := Nat.le_add_left ..
  have hblocks : c.rxDepths.bulk * 29 ≤ Memory.wireBytes c.wireBlocks c.frame.blockSize :=
    Nat.mul_le_mul (by simp only [LinkConfig.wireBlocks]; omega)
      (by simp only [Memory.blockSlot, headerSize] at hsize ⊢; omega)
  simp only [LinkConfig.footprint, LinkConfig.poolBytes, LinkConfig.queueBytes,
    Multiplexer.slotBytes, Heap.maxRequest] at hroom
  simp only [maxWord64]
  omega

theorem config_create (h : create c = .ok l) : l.config = c := by
  obtain ⟨_, rfl⟩ := create_eq_ok h
  rfl

theorem orderly_create (h : create c = .ok l) : l.Orderly [] := by
  obtain ⟨hvalid, rfl⟩ := create_eq_ok h
  obtain ⟨hframe, hdepth⟩ := LinkConfig.bounds_of_validate hvalid
  obtain ⟨hheader, hword⟩ := FrameConfig.bounds_of_validate hframe
  have hidle : (ofMemory c c.pools).Idle := ⟨rfl, rfl, rfl⟩
  exact
    { isOpen := rfl
      willing := rfl
      header := hheader
      word := hword
      depth := hdepth
      room := Nat.lt_of_lt_of_le Nat.one_pos (Nat.le_max_right ..)
      queued := rfl
      single := by simp [traffic, ofMemory, Bus.ofQueueSize, Traffic.unfinished, Worker.held]
      counted := rfl
      retry := fun _ => hidle
      dormant := fun _ => ⟨hidle, rfl, rfl⟩
      blank := by
        intro t ht
        obtain ⟨_, _, rfl⟩ := List.mem_map.mp ht
        rfl
      conserved := by
        simp [traffic, ofMemory, Bus.ofQueueSize, Traffic.unfinished, Worker.held,
          LinkConfig.pools, LinkConfig.transactionBlocks]
      shaped := by simp [traffic, ofMemory, Bus.ofQueueSize, Traffic.unfinished, Worker.held]
      intact := by simp [traffic, ofMemory, Bus.ofQueueSize] }

end Link
end SlaveLink
