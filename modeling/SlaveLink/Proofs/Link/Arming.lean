import SlaveLink.Link.Arming
import SlaveLink.Proofs.Memory

/-! # What arming does
With nothing on the bus, an attempt to arm ends in one of three ways: the frame that is due is
loaded, a dummy is loaded because no frame waits, or the wire pool is short and the link is as it
was. A driver that refuses makes it fail in a fourth: everything goes back to the pools, the frame
that was due included. -/

namespace SlaveLink.Link

variable {l : Link}

/-- The bus is empty, and a transaction is at hand. -/
structure Vacant (l : Link) : Prop where
  empty : l.bus.pending = []
  room : 0 < l.bus.queueSize
  blank : ∃ ts, l.memory.transactions.free = .blank :: ts

structure CanArm (l : Link) : Prop extends l.Vacant where
  willing : l.refusals = 0

def carrier (tx rx : Block) (l : Link) : Transaction :=
  ⟨some tx, some rx, l.config.frame.blockSize, none⟩

def loading (tx rx : Block) (l : Link) : Link :=
  { l with
    memory := l.memory.transactionTaken
    bus := { l.bus with loaded := some (l.carrier tx rx) }
    inFlight := l.inFlight + 1
    signals := l.signals.onBus .ready }

def withoutBlock (l : Link) : Link := { l with memory := l.memory.blockTaken }

/-- The block that goes out when no frame waits. -/
def dummyIn (b : Block) (l : Link) : Block :=
  b.zeroed.receive (Header.dummy l.flow.throttle).encode

inductive Loaded (l : Link) : Link → Prop
  /-- The frame that is due goes out. -/
  | frame {rx : Block} {rest : List Block} {p : Priority} {o : Outgoing}
      {tx : PriorityQueues Outgoing} (free : l.memory.wire.free = rx :: rest)
      (due : l.mux.tx.pop? = some (p, o, tx)) :
      Loaded l ({ l.withoutBlock with mux := { l.mux with tx } }.loading o.block rx)
  /-- No frame waits, so a dummy goes out and DataReady drops. -/
  | dummy {rx b : Block} {rest : List Block} (free : l.memory.wire.free = rx :: b :: rest)
      (idle : l.mux.tx.pop? = none) :
      Loaded l ((l.withoutBlock.withoutBlock.setDataReady false).loading (l.dummyIn b) rx)

inductive Arming (l : Link) : Except DeviceError Unit × Link → Prop
  | loaded {l' : Link} (loaded : l.Loaded l') : Arming l (.ok (), l')
  /-- There is no block to fill, or none for a dummy. -/
  | short : Arming l (.error l.memory.wire.exhausted, l)

theorem submit?_of_empty {b : Bus} (t : Transaction) (hempty : b.pending = [])
    (hroom : 0 < b.queueSize) : b.submit? t = some ([.ready], { b with loaded := some t }) := by
  have hloaded : b.loaded = none := by
    simp only [Bus.pending, List.append_eq_nil_iff, Option.toList_eq_nil_iff] at hempty
    exact hempty.1
  have hout : ¬ b.queueSize ≤ b.outstanding := by
    simp only [Bus.outstanding, hempty, List.length_nil]
    omega
  simp [Bus.submit?, if_neg hout, hloaded]

theorem bindAndLoad_of_empty (tx rx : Block) (hwilling : l.refusals = 0)
    (hempty : l.bus.pending = []) (hroom : 0 < l.bus.queueSize) :
    l.bindAndLoad tx rx .blank = (.ok (), { l with
      bus := { l.bus with loaded := some (l.carrier tx rx) }
      inFlight := l.inFlight + 1
      signals := l.signals.onBus .ready }) := by
  simp only [bindAndLoad, Memory.bind_blank, load, hwilling, ne_eq, not_true_eq_false, if_false,
    submit?_of_empty _ hempty hroom]
  rfl

theorem giveBackTransaction_blank {ts : List Transaction}
    (h : l.memory.transactions.free = .blank :: ts) :
    { l with memory := l.memory.transactionTaken }.giveBackTransaction .blank = l := by
  have hback := Pool.release_popped h
  simp [giveBackTransaction, Memory.releaseTransaction, Memory.transactionTaken,
    Transaction.blocks, Transaction.blank, Memory.releaseAll] at hback ⊢
  rw [hback]

theorem giveBack_withoutBlock {b : Block} {rest : List Block}
    (h : l.memory.wire.free = b :: rest) : l.withoutBlock.giveBack [b] = l := by
  have hback := Pool.release_popped h
  simp [giveBack, withoutBlock, Memory.blockTaken, Memory.releaseAll, Memory.release, hback]

/-- A block that goes back at once leaves its new bytes on top of the stack. -/
theorem giveBack_rewritten (b : Block) (l : Link) :
    l.withoutBlock.giveBack [b] =
      { l with memory := { l.memory with wire := l.memory.wire.refilled b } } := by
  simp only [giveBack, withoutBlock, Memory.blockTaken, Memory.releaseAll, Memory.release,
    List.foldl_cons, List.foldl_nil, Pool.release_popped_eq]

theorem arm_of_nil (preset : Option Block) (hfree : l.memory.wire.free = []) :
    l.arm preset = (.error l.memory.wire.exhausted, l.giveBack preset.toList) := by
  simp [arm, Memory.acquire_of_nil false hfree]

theorem arm_of_cons {rx : Block} {rest : List Block} (preset : Option Block) (h : l.Vacant)
    (hfree : l.memory.wire.free = rx :: rest) : l.arm preset =
      let l' := { l with memory := l.memory.blockTaken.transactionTaken }
      match preset with
      | some tx => l'.bindAndLoad tx rx .blank
      | none =>
        match l'.takeOutgoing with
        | (.error e, l) => (.error e, (l.giveBackTransaction .blank).giveBack [rx])
        | (.ok tx, l) => l.bindAndLoad tx rx .blank := by
  obtain ⟨ts, hblank⟩ := h.blank
  have hblank' : l.memory.blockTaken.transactions.free = .blank :: ts := hblank
  simp only [arm, Memory.acquire_of_cons false hfree, Memory.acquireTransaction_of_blank hblank']
  rfl

theorem arm_of_due {rx : Block} {rest : List Block} {p : Priority} {o : Outgoing}
    {tx : PriorityQueues Outgoing} (h : l.CanArm) (hfree : l.memory.wire.free = rx :: rest)
    (hdue : l.mux.tx.pop? = some (p, o, tx)) : l.arm none =
      (.ok (), { l.withoutBlock with mux := { l.mux with tx } }.loading o.block rx) := by
  simp only [arm_of_cons none h.toVacant hfree, takeOutgoing, Multiplexer.next?, hdue]
  rw [bindAndLoad_of_empty _ _ (by exact h.willing) (by exact h.empty) (by exact h.room)]
  rfl

theorem arm_of_idle {rx b : Block} {rest : List Block} (h : l.CanArm)
    (hfree : l.memory.wire.free = rx :: b :: rest) (hidle : l.mux.tx.pop? = none) : l.arm none =
      (.ok (), (l.withoutBlock.withoutBlock.setDataReady false).loading (l.dummyIn b) rx) := by
  have hnext : l.memory.blockTaken.transactionTaken.wire.free = b :: rest := by
    simp [Memory.transactionTaken, Memory.blockTaken, Pool.popped, hfree]
  simp only [arm_of_cons none h.toVacant hfree, takeOutgoing, Multiplexer.next?, hidle,
    Memory.acquire_of_cons true hnext, setDataReady]
  rw [bindAndLoad_of_empty _ _ (by exact h.willing) (by exact h.empty) (by exact h.room)]
  rfl

/-- With one block left and no frame waiting, everything that was taken goes back. -/
theorem arm_of_last {rx : Block} (h : l.Vacant) (hfree : l.memory.wire.free = [rx])
    (hidle : l.mux.tx.pop? = none) : l.arm none = (.error l.memory.wire.exhausted, l) := by
  obtain ⟨ts, hblank⟩ := h.blank
  have hnext : l.memory.blockTaken.transactionTaken.wire.free = [] := by
    simp [Memory.transactionTaken, Memory.blockTaken, Pool.popped, hfree]
  have hback : { l with memory := l.memory.blockTaken.transactionTaken }.giveBackTransaction
      .blank = l.withoutBlock := giveBackTransaction_blank (l := l.withoutBlock) hblank
  simp only [arm_of_cons none h hfree, takeOutgoing, Multiplexer.next?, hidle,
    Memory.acquire_of_nil true hnext, hback, giveBack_withoutBlock hfree]
  rfl

theorem bindAndLoad_of_unwilling {ts : List Transaction} (tx rx : Block)
    (hunwilling : l.refusals ≠ 0) (h : l.memory.transactions.free = .blank :: ts) :
    { l with memory := l.memory.transactionTaken }.bindAndLoad tx rx .blank =
      (.error .busNotReady, { l with
        memory := { l.memory with wire := (l.memory.releaseAll [tx, rx]).wire }
        refusals := l.refusals - 1 }) := by
  have hback := Pool.release_popped h
  simp only [bindAndLoad, Memory.bind_blank, load, if_pos hunwilling, giveBackTransaction,
    Memory.releaseTransaction_eq, Memory.transactionTaken, hback]
  rfl

/-- A driver that refuses gives back the frame that was due, and the block it was to fill. -/
theorem arm_of_refused_due {rx : Block} {rest : List Block} {p : Priority} {o : Outgoing}
    {tx : PriorityQueues Outgoing} (h : l.Vacant) (hunwilling : l.refusals ≠ 0)
    (hfree : l.memory.wire.free = rx :: rest) (hdue : l.mux.tx.pop? = some (p, o, tx)) :
    l.arm none = (.error .busNotReady, { l with
      memory := { l.memory with wire := (l.withoutBlock.memory.releaseAll [o.block, rx]).wire }
      mux := { l.mux with tx }
      refusals := l.refusals - 1 }) := by
  obtain ⟨ts, hblank⟩ := h.blank
  have hrefused := bindAndLoad_of_unwilling (l := { l.withoutBlock with mux := { l.mux with tx } })
    o.block rx hunwilling hblank
  simp only [arm_of_cons none h hfree, takeOutgoing, Multiplexer.next?, hdue]
  exact hrefused

/-- The dummy it refuses leaves DataReady low all the same. -/
theorem arm_of_refused_idle {rx b : Block} {rest : List Block} (h : l.Vacant)
    (hunwilling : l.refusals ≠ 0) (hfree : l.memory.wire.free = rx :: b :: rest)
    (hidle : l.mux.tx.pop? = none) : l.arm none = (.error .busNotReady, { l.setDataReady false with
      memory := { l.memory with
        wire := (l.withoutBlock.withoutBlock.memory.releaseAll [l.dummyIn b, rx]).wire }
      refusals := l.refusals - 1 }) := by
  obtain ⟨ts, hblank⟩ := h.blank
  have hnext : l.memory.blockTaken.transactionTaken.wire.free = b :: rest := by
    simp [Memory.transactionTaken, Memory.blockTaken, Pool.popped, hfree]
  have hunwilling' : (l.withoutBlock.withoutBlock.setDataReady false).refusals ≠ 0 := hunwilling
  have hrefused := bindAndLoad_of_unwilling (l.dummyIn b) rx hunwilling' hblank
  simp only [arm_of_cons none h hfree, takeOutgoing, Multiplexer.next?, hidle,
    Memory.acquire_of_cons true hnext, setDataReady]
  exact hrefused

/-- What a driver that refuses leaves of an attempt to arm. -/
structure TurnedAway (l l' : Link) : Prop where
  frame : ∃ wire tx signals refusals, l' = { l with
    memory := { l.memory with wire }, mux := { l.mux with tx }, signals, refusals }
  /-- Every free block has the size of one that was free before, or was to go out. -/
  free : ∀ b ∈ l'.memory.wire.free, (∃ x ∈ l.memory.wire.free, b.bytes.length = x.bytes.length) ∨
    ∃ p, ∃ o ∈ l.mux.tx.get p, b = o.block
  tx : ∀ p, ∀ o ∈ l'.mux.tx.get p, o ∈ l.mux.tx.get p

theorem length_dummyIn (b : Block) (l : Link) : (l.dummyIn b).bytes.length = b.bytes.length := by
  simp [dummyIn, Block.receive, Block.zeroed]

theorem turnedAway_of_due {rx : Block} {rest : List Block} {p : Priority} {o : Outgoing}
    {tx : PriorityQueues Outgoing} (h : l.Vacant) (hunwilling : l.refusals ≠ 0)
    (hfree : l.memory.wire.free = rx :: rest) (hdue : l.mux.tx.pop? = some (p, o, tx)) :
    ∃ l', l.arm none = (.error .busNotReady, l') ∧ l.TurnedAway l' := by
  obtain ⟨ho, hsub⟩ := PriorityQueues.mem_of_pop? hdue
  refine ⟨_, arm_of_refused_due h hunwilling hfree hdue, ⟨⟨_, _, _, _, rfl⟩, ?_, hsub⟩⟩
  intro b hb
  simp only [Memory.free_releaseAll, List.reverse_cons, List.reverse_nil, List.nil_append,
    List.cons_append, List.mem_cons] at hb
  rcases hb with rfl | rfl | hb
  · exact .inl ⟨b, by simp [hfree], rfl⟩
  · exact .inr ⟨p, o, ho, rfl⟩
  · exact .inl ⟨b, List.mem_of_mem_tail hb, rfl⟩

theorem turnedAway_of_idle {rx b : Block} {rest : List Block} (h : l.Vacant)
    (hunwilling : l.refusals ≠ 0) (hfree : l.memory.wire.free = rx :: b :: rest)
    (hidle : l.mux.tx.pop? = none) :
    ∃ l', l.arm none = (.error .busNotReady, l') ∧ l.TurnedAway l' := by
  refine ⟨_, arm_of_refused_idle h hunwilling hfree hidle,
    ⟨⟨_, _, _, _, rfl⟩, ?_, fun _ _ ho => ho⟩⟩
  intro x hx
  simp only [Memory.free_releaseAll, List.reverse_cons, List.reverse_nil, List.nil_append,
    List.cons_append, List.mem_cons] at hx
  rcases hx with rfl | rfl | hx
  · exact .inl ⟨x, by simp [hfree], rfl⟩
  · exact .inl ⟨b, by simp [hfree], length_dummyIn b l⟩
  · exact .inl ⟨x, List.mem_of_mem_tail (List.mem_of_mem_tail hx), rfl⟩

theorem turnedAway_refl (l : Link) : l.TurnedAway l :=
  ⟨⟨_, _, _, _, rfl⟩, fun b hb => .inl ⟨b, hb, rfl⟩, fun _ _ ho => ho⟩

theorem turnedAway_arm (h : l.Vacant) (hunwilling : l.refusals ≠ 0) :
    ∃ e l', l.arm none = (.error e, l') ∧ l.TurnedAway l' := by
  cases hfree : l.memory.wire.free with
  | nil => exact ⟨_, _, arm_of_nil none hfree, turnedAway_refl l⟩
  | cons rx rest =>
    cases hpop : l.mux.tx.pop? with
    | some due =>
      obtain ⟨p, o, tx⟩ := due
      exact ⟨_, turnedAway_of_due h hunwilling hfree hpop⟩
    | none =>
      cases rest with
      | nil => exact ⟨_, _, arm_of_last h hfree hpop, turnedAway_refl l⟩
      | cons b rest => exact ⟨_, turnedAway_of_idle h hunwilling hfree hpop⟩

theorem arming (h : l.CanArm) : l.Arming (l.arm none) := by
  cases hfree : l.memory.wire.free with
  | nil =>
    rw [arm_of_nil none hfree]
    exact .short
  | cons rx rest =>
    cases hpop : l.mux.tx.pop? with
    | some due =>
      obtain ⟨p, o, tx⟩ := due
      rw [arm_of_due h hfree hpop]
      exact .loaded (.frame hfree hpop)
    | none =>
      cases rest with
      | nil =>
        rw [arm_of_last h.toVacant hfree hpop]
        exact .short
      | cons b rest =>
        rw [arm_of_idle h hfree hpop]
        exact .loaded (.dummy hfree hpop)

/-- What neither arming nor finishing a transfer changes is the same in both links. -/
structure Unmoved (l l' : Link) : Prop where
  config : l'.config = l.config
  phase : l'.phase = l.phase
  startup : l'.startup = l.startup
  worker : l'.worker = l.worker
  completed : l'.bus.completed = l.bus.completed

theorem unmoved_refl (l : Link) : l.Unmoved l := ⟨rfl, rfl, rfl, rfl, rfl⟩

theorem Unmoved.trans {l₁ l₂ l₃ : Link} (h₁ : l₁.Unmoved l₂) (h₂ : l₂.Unmoved l₃) :
    l₁.Unmoved l₃ where
  config := h₂.config.trans h₁.config
  phase := h₂.phase.trans h₁.phase
  startup := h₂.startup.trans h₁.startup
  worker := h₂.worker.trans h₁.worker
  completed := h₂.completed.trans h₁.completed

def starved (l : Link) : Link := { l with rearmPending := true }.count .poolExhausted

theorem armNext_loaded_or_starved (h : l.CanArm) : l.Loaded l.armNext ∨ l.armNext = l.starved := by
  have harming := arming h
  unfold armNext
  generalize l.arm none = ended at harming ⊢
  cases harming with
  | loaded hloaded => exact .inl hloaded
  | short => exact .inr rfl

theorem armNext_of_unwilling (h : l.Vacant) (hunwilling : l.refusals ≠ 0) :
    ∃ l' stats, l.armNext = { l' with rearmPending := true, stats } ∧ l.TurnedAway l' ∧
      stats ∈ [l.stats.bump .poolExhausted, l.stats.bump .busFailure] := by
  obtain ⟨e, l', harm, hturned⟩ := turnedAway_arm h hunwilling
  obtain ⟨_, _, _, _, hframe⟩ := hturned.frame
  have hstats : l'.stats = l.stats := by rw [hframe]
  refine ⟨l', l'.stats.bump (armFailure e), ?_, hturned, ?_⟩
  · rw [armNext, harm]
    rfl
  · rw [hstats]
    cases e <;> simp [armFailure]

/-- Arming touches neither the received side nor what was clocked before. -/
theorem armNext_frame (h : l.Vacant) :
    ∃ memory tx signals loaded inFlight rearmPending stats refusals, l.armNext = { l with
      memory, mux := { l.mux with tx }, signals, bus := { l.bus with loaded }, inFlight,
      rearmPending, stats, refusals } ∧
      stats ∈ [l.stats, l.stats.bump .poolExhausted, l.stats.bump .busFailure] := by
  by_cases hwilling : l.refusals = 0
  · rcases armNext_loaded_or_starved ⟨h, hwilling⟩ with hloaded | hstarved
    · generalize l.armNext = l' at hloaded ⊢
      cases hloaded <;> exact ⟨_, _, _, _, _, _, _, _, rfl, List.mem_cons_self ..⟩
    · exact ⟨_, _, _, _, _, _, _, _, hstarved, by simp⟩
  · obtain ⟨l', stats, harmed, hturned, hstats⟩ := armNext_of_unwilling h hwilling
    obtain ⟨_, _, _, _, hframe⟩ := hturned.frame
    rw [hframe] at harmed
    exact ⟨_, _, _, _, _, _, _, _, harmed, List.mem_cons_of_mem _ hstats⟩

theorem unmoved_armNext (h : l.Vacant) : l.Unmoved l.armNext := by
  obtain ⟨_, _, _, _, _, _, _, _, hframe, _⟩ := armNext_frame h
  rw [hframe]
  exact ⟨rfl, rfl, rfl, rfl, rfl⟩

theorem rx_armNext (h : l.Vacant) : l.armNext.mux.rx = l.mux.rx := by
  obtain ⟨_, _, _, _, _, _, _, _, hframe, _⟩ := armNext_frame h
  rw [hframe]

theorem stats_armNext (h : l.Vacant) :
    l.armNext.stats ∈ [l.stats, l.stats.bump .poolExhausted, l.stats.bump .busFailure] := by
  obtain ⟨_, _, _, _, _, _, _, _, hframe, hstats⟩ := armNext_frame h
  rw [hframe]
  exact hstats

theorem droppedOverrun_armNext (h : l.Vacant) :
    l.armNext.stats.droppedOverrun = l.stats.droppedOverrun := by
  have hstats := stats_armNext h
  simp only [List.mem_cons, List.not_mem_nil, or_false] at hstats
  rcases hstats with hsame | hsame | hsame <;> rw [hsame] <;> rfl

end SlaveLink.Link
