import SlaveLink.Link.Reception
import SlaveLink.Proofs.Link.Application

/-! # What finishing a transfer does
The transaction goes back, and the received side is judged by its bytes alone: a block without a
frame is counted and given back, a frame is queued or dropped for want of room. -/

namespace SlaveLink.Link

variable {l : Link}

/-- The parts of a link that finishing a transfer may change. -/
structure Finished (t : Transaction) (l l' : Link) : Prop where
  frame : ∃ wire rx stats flow notices, l' = { l with
    memory := { l.memory with wire, transactions := l.memory.transactions.release .blank }
    mux := { l.mux with rx }, stats, flow, notices }
  /-- Every free block was free before or belonged to the transaction. -/
  wire : ∀ b ∈ l'.memory.wire.free, b ∈ l.memory.wire.free ∨ b ∈ t.blocks
  /-- Every waiting frame waited before or is in the block that was filled. -/
  rx : ∀ p, ∀ i ∈ l'.mux.rx.get p, i ∈ l.mux.rx.get p ∨ i.block ∈ t.blocks

structure Processed (b : Block) (l l' : Link) : Prop where
  frame : ∃ wire rx stats flow notices, l' = { l with
    memory := { l.memory with wire }, mux := { l.mux with rx }, stats, flow, notices }
  wire : ∀ x ∈ l'.memory.wire.free, x ∈ l.memory.wire.free ∨ x = b
  rx : ∀ p, ∀ i ∈ l'.mux.rx.get p, i ∈ l.mux.rx.get p ∨ i.block = b

theorem deliver_of_room {i : Incoming} {mux : Multiplexer} (h : l.mux.deliver? i = some mux) :
    l.deliver i = ({ l with mux }.count (.frameReceived i.priority)).updateFlow := by
  simp [deliver, h]

theorem deliver_of_full {i : Incoming} (h : l.mux.deliver? i = none) :
    l.deliver i = ((l.giveBack [i.block]).count (.dropped .overrun)).updateFlow := by
  simp [deliver, h]

theorem deliver?_eq_some {i : Incoming} {m mux : Multiplexer} (h : m.deliver? i = some mux) :
    ∃ rx, m.rx.push? i.priority i = some rx ∧ mux = { m with rx } := by
  obtain ⟨rx, hpush, rfl⟩ := Option.map_eq_some_iff.mp h
  exact ⟨rx, hpush, rfl⟩

theorem deliver_processed (i : Incoming) (l : Link) : l.Processed i.block (l.deliver i) := by
  cases h : l.mux.deliver? i with
  | some mux =>
    obtain ⟨rx, hpush, rfl⟩ := deliver?_eq_some h
    obtain ⟨flow, stats, heq, _⟩ := updateFlow_eq
      ({ l with mux := { l.mux with rx } }.count (.frameReceived i.priority))
    rw [deliver_of_room h, heq]
    refine ⟨⟨_, _, _, _, _, rfl⟩, fun x hx => .inl hx, ?_⟩
    intro p j hj
    simp only [count, PriorityQueues.get_push? hpush] at hj
    split at hj
    · next hp =>
      subst hp
      rcases List.mem_append.mp hj with hj | hj
      · exact .inl hj
      · simp only [List.mem_singleton] at hj
        exact .inr (congrArg _ hj)
    · exact .inl hj
  | none =>
    obtain ⟨flow, stats, heq, _⟩ := updateFlow_eq
      ((l.giveBack [i.block]).count (.dropped .overrun))
    rw [deliver_of_full h, heq]
    refine ⟨⟨_, _, _, _, _, rfl⟩, ?_, fun p j hj => .inl hj⟩
    intro x hx
    simp only [count, giveBack, Memory.free_releaseAll, List.reverse_cons, List.reverse_nil,
      List.nil_append, List.cons_append, List.mem_cons] at hx
    exact hx.symm

def heard (bytes : Bytes) (l : Link) : Link :=
  match powerSave? (peekFlags bytes) with
  | some e => l.notify e
  | none => l

theorem heard_eq (bytes : Bytes) (l : Link) :
    ∃ stats notices, l.heard bytes = { l with stats, notices } ∧
      stats ∈ [l.stats, l.stats.bump .powerSaveEvent] := by
  unfold heard
  split
  · exact ⟨_, _, rfl, by simp [count]⟩
  · exact ⟨_, _, rfl, List.mem_cons_self ..⟩

theorem config_heard (bytes : Bytes) (l : Link) : (l.heard bytes).config = l.config := by
  obtain ⟨_, _, heq, _⟩ := heard_eq bytes l
  rw [heq]

theorem process_eq (b : Block) (l : Link) : l.process b =
    match decodeHeader (l.heard b.bytes).config.frame b.bytes with
    | .ok header => (l.heard b.bytes).deliver ⟨header, b⟩
    | .error e => ((l.heard b.bytes).count (rejection e)).giveBack [b] := rfl

theorem process_of_frame {b : Block} {h : Header}
    (hok : decodeHeader l.config.frame b.bytes = .ok h) :
    l.process b = (l.heard b.bytes).deliver ⟨h, b⟩ := by
  rw [process_eq, config_heard, hok]

theorem process_of_rejected {b : Block} {e : FrameError}
    (herror : decodeHeader l.config.frame b.bytes = .error e) :
    l.process b = ((l.heard b.bytes).count (rejection e)).giveBack [b] := by
  rw [process_eq, config_heard, herror]

theorem process_processed (b : Block) (l : Link) : l.Processed b (l.process b) := by
  obtain ⟨stats, notices, heq, _⟩ := heard_eq b.bytes l
  cases hdecode : decodeHeader l.config.frame b.bytes with
  | ok h =>
    rw [process_of_frame hdecode, heq]
    obtain ⟨⟨wire, rx, stats', flow, notices', hframe⟩, hwire, hrx⟩ :=
      deliver_processed ⟨h, b⟩ { l with stats, notices }
    exact ⟨⟨wire, rx, stats', flow, notices', hframe⟩, hwire, hrx⟩
  | error e =>
    rw [process_of_rejected hdecode, heq]
    refine ⟨⟨_, _, _, _, _, rfl⟩, ?_, fun p j hj => .inl hj⟩
    intro x hx
    simp only [count, giveBack, Memory.free_releaseAll, List.reverse_cons, List.reverse_nil,
      List.nil_append, List.cons_append, List.mem_cons] at hx
    exact hx.symm

theorem finish_of_fault {t : Transaction} {reason : String} (h : t.fault = some reason) :
    l.finish t = (l.giveBackTransaction t).count .busFailure := by
  simp [finish, h]

theorem finish_of_success {t : Transaction} {tx rx : Block} (hfault : t.fault = none)
    (htx : t.tx = some tx) (hrx : t.rx = some rx) :
    l.finish t =
      ((l.count (transmission tx)).giveBackTransaction { t with rx := none }).process rx := by
  simp [finish, hfault, htx, hrx]

theorem finish_finished {t : Transaction} {tx rx : Block} (htx : t.tx = some tx)
    (hrx : t.rx = some rx) (l : Link) : l.Finished t (l.finish t) := by
  cases hfault : t.fault with
  | some reason =>
    rw [finish_of_fault hfault, giveBackTransaction, Memory.releaseTransaction_eq]
    refine ⟨⟨_, _, _, _, _, rfl⟩, ?_, fun p i hi => .inl hi⟩
    intro b hb
    exact (Memory.mem_free_releaseAll.mp hb).symm
  | none =>
    rw [finish_of_success hfault htx hrx, giveBackTransaction, Memory.releaseTransaction_eq]
    have hblocks : t.blocks = [tx, rx] := by simp [Transaction.blocks, htx, hrx]
    have hkept : { t with rx := none }.blocks = [tx] := by simp [Transaction.blocks, htx]
    obtain ⟨⟨wire, q, stats, flow, notices, hframe⟩, hwire, hq⟩ :=
      process_processed rx { l.count (transmission tx) with
        memory := ⟨(l.memory.releaseAll [tx]).wire, l.memory.transactions.release .blank⟩ }
    rw [hkept]
    refine ⟨⟨wire, q, stats, flow, notices, hframe⟩, ?_, ?_⟩
    · intro b hb
      rw [hblocks]
      rcases hwire b hb with hb | rfl
      · rcases Memory.mem_free_releaseAll.mp hb with hb | hb
        · exact .inr (List.mem_cons.mpr (.inl (List.mem_singleton.mp hb)))
        · exact .inl hb
      · exact .inr (by simp)
    · intro p i hi
      rw [hblocks]
      rcases hq p i hi with hi | hi
      · exact .inl hi
      · exact .inr (by simp [hi])

end SlaveLink.Link
