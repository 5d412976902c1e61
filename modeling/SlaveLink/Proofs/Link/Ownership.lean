import SlaveLink.Proofs.Link.Teardown

/-! # Whose the blocks and the transactions are
What the pools have lent is in a waiting frame, in a transfer or in hand. Every operation moves
blocks from one owner to another, on its error paths too, so the pools get back exactly what they
gave. -/

namespace SlaveLink

namespace PriorityQueues

variable {α : Type} {p : Priority} {x : α} {q r : PriorityQueues α}

theorem length_items (q : PriorityQueues α) : q.items.length = q.total := by
  simp [items, total, lengths, PerPriority.total, PerPriority.map, PerPriority.toList,
    Nat.add_assoc]

theorem items_push? (h : q.push? p x = some r) : r.items.Perm (x :: q.items) := by
  simp only [push?, Option.ite_none_right_eq_some, Option.some.injEq] at h
  obtain ⟨_, rfl⟩ := h
  cases p with
  | control => simp [items, PerPriority.toList, PerPriority.set, get, PerPriority.get]
  | voice =>
    have hmiddle : (q.queues.control ++ q.queues.voice ++ x :: q.queues.bulk).Perm
        (x :: (q.queues.control ++ q.queues.voice ++ q.queues.bulk)) := List.perm_middle
    simpa [items, PerPriority.toList, PerPriority.set, get, PerPriority.get] using hmiddle
  | bulk =>
    have hlast := List.perm_append_singleton x
      (q.queues.control ++ (q.queues.voice ++ q.queues.bulk))
    simpa [items, PerPriority.toList, PerPriority.set, get, PerPriority.get] using hlast

theorem items_pop? (h : q.pop? = some (p, x, r)) : q.items = x :: r.items := by
  unfold pop? at h
  split at h <;> simp only [Option.some.injEq, Prod.mk.injEq, reduceCtorEq] at h
  all_goals
    obtain ⟨rfl, rfl, rfl⟩ := h
    simp_all [items, PerPriority.toList, PerPriority.set]

theorem total_push? (h : q.push? p x = some r) : r.total = q.total + 1 := by
  rw [← length_items, ← length_items, (items_push? h).length_eq, List.length_cons]

theorem total_pop? (h : q.pop? = some (p, x, r)) : q.total = r.total + 1 := by
  rw [← length_items, ← length_items, items_pop? h, List.length_cons]

end PriorityQueues

namespace Multiplexer

variable {m m' : Multiplexer}

theorem blocks_send? {o : Outgoing} (h : m.send? o = some m') :
    m'.blocks.Perm (o.block :: m.blocks) := by
  obtain ⟨tx, hpush, rfl⟩ := Option.map_eq_some_iff.mp h
  exact ((PriorityQueues.items_push? hpush).map _).append_right _

theorem blocks_deliver? {i : Incoming} (h : m.deliver? i = some m') :
    m'.blocks.Perm (i.block :: m.blocks) := by
  obtain ⟨rx, hpush, rfl⟩ := Option.map_eq_some_iff.mp h
  have hrx : (rx.items.map (·.block)).Perm (i.block :: m.rx.items.map (·.block)) :=
    (PriorityQueues.items_push? hpush).map _
  exact (hrx.append_left _).trans List.perm_middle

theorem blocks_of_sent {p : Priority} {o : Outgoing} {tx : PriorityQueues Outgoing}
    (h : m.tx.pop? = some (p, o, tx)) : m.blocks.Perm (o.block :: { m with tx }.blocks) := by
  simp [blocks, PriorityQueues.items_pop? h]

theorem blocks_of_received {p : Priority} {i : Incoming} {rx : PriorityQueues Incoming}
    (h : m.rx.pop? = some (p, i, rx)) : m.blocks.Perm (i.block :: { m with rx }.blocks) := by
  simp [blocks, PriorityQueues.items_pop? h]

end Multiplexer

/-- An accepted transaction is behind those that were pending before. -/
theorem Bus.pending_submit? {b b' : Bus} {t : Transaction} {events : List BusEvent}
    (h : b.submit? t = some (events, b')) :
    b'.pending.Perm (t :: b.pending) ∧ b'.completed = b.completed := by
  obtain ⟨_, ⟨hnone, _, rfl⟩ | ⟨_, _, rfl⟩⟩ := submit?_eq_some h
  · simp [pending, hnone]
  · refine ⟨?_, rfl⟩
    rw [pending, ← List.append_assoc]
    exact List.perm_append_singleton t b.pending

theorem Transaction.Shaped.length_blocks {size : Nat} {t : Transaction} (h : t.Shaped size) :
    t.blocks.length = 2 := by
  obtain ⟨tx, htx⟩ := h.tx
  obtain ⟨rx, hrx⟩ := h.rx
  simp [blocks, htx, hrx]

theorem length_flatMap_blocks {size : Nat} {ts : List Transaction}
    (h : ∀ t ∈ ts, t.Shaped size) : (ts.flatMap (·.blocks)).length = 2 * ts.length := by
  induction ts with
  | nil => rfl
  | cons t ts ih =>
    have ht := (h t (List.mem_cons_self ..)).length_blocks
    have hts := ih fun u hu => h u (List.mem_cons_of_mem _ hu)
    simp only [List.flatMap_cons, List.length_append, List.length_cons]
    omega

namespace Link

variable {l l' : Link} {t : Transaction} {c : LinkConfig} {hand : List Nat} {n : Nat}

def transfers (l : Link) : List Transaction := l.bus.pending ++ l.unfinished

theorem transfers_of_steady {taken : List Transaction} (h : l.Steady taken) :
    l.transfers = l.bus.loaded.toList ++ l.unfinished := by
  have hqueued : l.bus.queued = [] := h.queued
  rw [transfers, Bus.pending, hqueued, List.append_nil]

theorem transfers_of_idle {taken : List Transaction} (h : l.Steady taken) (hidle : l.Idle) :
    l.transfers = [] := by
  have hloaded : l.bus.loaded = none := hidle.loaded
  have hunfinished : l.unfinished = [] := Traffic.Idle.unfinished hidle
  rw [transfers_of_steady h, hloaded, hunfinished]
  rfl

def occupied (l : Link) : List Nat :=
  (l.mux.blocks ++ l.transfers.flatMap (·.blocks)).map (·.index)

/-- What the pools have lent is with the link, or one of the blocks and transactions in hand. -/
def Balanced (hand : List Nat) (n : Nat) (l : Link) : Prop :=
  l.memory.Lends l.config.wireBlocks (hand ++ l.occupied) (n + l.transfers.length)

theorem Balanced.acquire {b : Block} {m : Memory} {zero : Bool} (h : l.Balanced hand n)
    (hacquire : l.memory.acquire zero = .ok (b, m)) :
    { l with memory := m }.Balanced (b.index :: hand) n :=
  Memory.Lends.acquire h hacquire

theorem Balanced.withoutBlock {b : Block} {rest : List Block} (h : l.Balanced hand n)
    (hfree : l.memory.wire.free = b :: rest) : l.withoutBlock.Balanced (b.index :: hand) n :=
  h.acquire (Memory.acquire_of_cons false hfree)

theorem Balanced.acquireTransaction {m : Memory} (h : l.Balanced hand n)
    (hacquire : l.memory.acquireTransaction true = .ok (t, m)) :
    t = .blank ∧ { l with memory := m }.Balanced hand (n + 1) := by
  have htaken := Memory.Lends.acquireTransaction h hacquire
  rw [Nat.add_right_comm] at htaken
  exact htaken

theorem Balanced.giveBack (bs : List Block) (h : l.Balanced (bs.map (·.index) ++ hand) n) :
    (l.giveBack bs).Balanced hand n := by
  apply Memory.Lends.releaseAll
  rw [← List.append_assoc]
  exact h

theorem Balanced.giveBackTransaction (h : l.Balanced (t.blocks.map (·.index) ++ hand) (n + 1)) :
    (l.giveBackTransaction t).Balanced hand n := by
  apply Memory.Lends.releaseTransaction
  rw [← List.append_assoc, Nat.add_right_comm]
  exact h

/-- Blocks in hand are counted in any order. -/
theorem Balanced.perm {other : List Nat} (h : l.Balanced hand n) (hperm : other.Perm hand) :
    l.Balanced other n :=
  Memory.Lends.perm h (hperm.append_right _)

/-- A block in hand goes into a queue. -/
theorem Balanced.enqueued {b : Block} {mux : Multiplexer} (h : l.Balanced (b.index :: hand) n)
    (hblocks : mux.blocks.Perm (b :: l.mux.blocks)) : { l with mux }.Balanced hand n := by
  have hoccupied : { l with mux }.occupied.Perm (b.index :: l.occupied) :=
    (hblocks.append_right (l.transfers.flatMap Transaction.blocks)).map Block.index
  exact Memory.Lends.perm h ((hoccupied.append_left hand).trans List.perm_middle)

/-- A block goes out of a queue into the hand. -/
theorem Balanced.dequeued {b : Block} {mux : Multiplexer} (h : l.Balanced hand n)
    (hblocks : l.mux.blocks.Perm (b :: mux.blocks)) :
    { l with mux }.Balanced (b.index :: hand) n := by
  have hoccupied : l.occupied.Perm (b.index :: { l with mux }.occupied) :=
    (hblocks.append_right (l.transfers.flatMap Transaction.blocks)).map Block.index
  exact Memory.Lends.perm h (List.perm_middle.symm.trans (hoccupied.symm.append_left hand))

theorem occupied_of_transfers (hmux : l'.mux = l.mux)
    (htransfers : l.transfers.Perm (t :: l'.transfers)) :
    l.occupied.Perm (t.blocks.map (·.index) ++ l'.occupied) := by
  have hblocks : (l.transfers.flatMap (·.blocks)).Perm
      (t.blocks ++ l'.transfers.flatMap (·.blocks)) := htransfers.flatMap_right _
  have hall := (hblocks.append_left l.mux.blocks).trans (List.perm_append_comm_assoc ..)
  simpa [occupied, hmux] using hall.map (·.index)

/-- The worker takes a transfer in hand. -/
theorem Balanced.taken (h : l.Balanced hand n) (hmemory : l'.memory = l.memory)
    (hconfig : l'.config = l.config) (hmux : l'.mux = l.mux)
    (htransfers : l.transfers.Perm (t :: l'.transfers)) :
    l'.Balanced (t.blocks.map (·.index) ++ hand) (n + 1) := by
  have hcount := htransfers.length_eq
  rw [List.length_cons] at hcount
  unfold Balanced at h ⊢
  rw [hmemory, hconfig, Nat.add_right_comm, Nat.add_assoc, ← hcount, List.append_assoc]
  apply h.perm
  refine (List.perm_append_comm_assoc ..).trans ?_
  exact (occupied_of_transfers hmux htransfers).symm.append_left hand

/-- A transaction in hand goes to the bus. -/
theorem Balanced.handedIn (h : l.Balanced (t.blocks.map (·.index) ++ hand) (n + 1))
    (hmemory : l'.memory = l.memory) (hconfig : l'.config = l.config) (hmux : l'.mux = l.mux)
    (htransfers : l'.transfers.Perm (t :: l.transfers)) : l'.Balanced hand n := by
  have hcount := htransfers.length_eq
  rw [List.length_cons] at hcount
  unfold Balanced at h ⊢
  rw [hmemory, hconfig, hcount, Nat.add_comm l.transfers.length, ← Nat.add_assoc]
  apply h.perm
  rw [List.append_assoc]
  exact ((occupied_of_transfers hmux.symm htransfers).append_left hand).trans
    (List.perm_append_comm_assoc ..)

theorem balanced_load (h : l.Balanced (t.blocks.map (·.index) ++ hand) (n + 1)) :
    (l.load t).2.Balanced hand n := by
  unfold load
  split
  · exact Balanced.giveBackTransaction (l := { l with refusals := l.refusals - 1 }) h
  · cases hsubmit : l.bus.submit? t with
    | none => exact h.giveBackTransaction
    | some accepted =>
      obtain ⟨events, bus⟩ := accepted
      obtain ⟨hpending, hcompleted⟩ := Bus.pending_submit? hsubmit
      have hunfinished : l.worker.held ++ bus.completed = l.unfinished :=
        congrArg (l.worker.held ++ ·) hcompleted
      refine Balanced.handedIn h rfl rfl rfl ?_
      show (bus.pending ++ (l.worker.held ++ bus.completed)).Perm _
      rw [hunfinished]
      exact hpending.append_right l.unfinished

theorem balanced_bindAndLoad {tx rx : Block}
    (h : l.Balanced (tx.index :: rx.index :: hand) (n + 1)) :
    (l.bindAndLoad tx rx .blank).2.Balanced hand n := by
  unfold bindAndLoad
  rw [Memory.bind_blank]
  exact balanced_load h

/-- The block that goes out is taken from a queue or from the pool. -/
theorem balanced_takeOutgoing (h : l.Balanced hand n) :
    match l.takeOutgoing with
    | (.ok b, l') => l'.Balanced (b.index :: hand) n
    | (.error _, l') => l'.Balanced hand n := by
  unfold takeOutgoing Multiplexer.next?
  cases hpop : l.mux.tx.pop? with
  | some due =>
    obtain ⟨p, o, tx⟩ := due
    exact h.dequeued (Multiplexer.blocks_of_sent hpop)
  | none =>
    cases hacquire : l.memory.acquire true with
    | error e => exact h
    | ok taken =>
      obtain ⟨b, m⟩ := taken
      have htaken := h.acquire hacquire
      exact htaken

theorem balanced_arm (preset : Option Block)
    (h : l.Balanced (preset.toList.map (·.index) ++ hand) n) :
    (l.arm preset).2.Balanced hand n := by
  unfold arm
  cases hacquire : l.memory.acquire false with
  | error e => exact h.giveBack preset.toList
  | ok taken =>
    obtain ⟨rx, m₁⟩ := taken
    have hrx := h.acquire hacquire
    cases htransaction : m₁.acquireTransaction true with
    | error e =>
      simp only [htransaction]
      exact hrx.giveBack (rx :: preset.toList)
    | ok taken =>
      obtain ⟨t, m₂⟩ := taken
      obtain ⟨rfl, hboth⟩ := hrx.acquireTransaction htransaction
      simp only [htransaction] at hboth ⊢
      cases preset with
      | some tx => exact balanced_bindAndLoad (hboth.perm (List.Perm.swap ..))
      | none =>
        have hout := balanced_takeOutgoing hboth
        simp only
        generalize takeOutgoing _ = outgoing at hout ⊢
        obtain ⟨_ | tx, l'⟩ := outgoing
        · exact Balanced.giveBack [rx] (Balanced.giveBackTransaction (t := .blank) hout)
        · exact balanced_bindAndLoad hout

theorem balanced_armNext (h : l.Balanced hand n) : l.armNext.Balanced hand n := by
  have harmed := balanced_arm none h
  unfold armNext
  generalize l.arm none = ended at harmed ⊢
  obtain ⟨_ | _, l'⟩ := ended <;> exact harmed

theorem balanced_readied (h : l.Balanced hand n) : l.readied.Balanced hand n := by
  unfold readied
  split
  · exact h
  · exact balanced_armNext h

theorem balanced_armStartup (h : l.Balanced hand n) : l.armStartup.2.Balanced hand n := by
  cases hsent : l.startup.isSent with
  | true =>
    simp only [armStartup, takeSequence, Startup.takeFrame, hsent, if_true]
    exact h
  | false =>
    rw [armStartup_of_unsent hsent]
    cases hacquire : l.memory.acquire true with
    | error e => exact h
    | ok taken =>
      obtain ⟨b, m⟩ := taken
      have htaken : { l.eventTaken with memory := m }.Balanced (b.index :: hand) n :=
        h.acquire hacquire
      simp only
      split
      · exact htaken.giveBack [b]
      · next bytes _ =>
        have harmed := balanced_arm (some { b with bytes }) htaken
        generalize arm _ _ = ended at harmed ⊢
        obtain ⟨_ | _, l'⟩ := ended <;> exact harmed

theorem balanced_deliver {i : Incoming} (h : l.Balanced (i.block.index :: hand) n) :
    (l.deliver i).Balanced hand n := by
  cases hroom : l.mux.deliver? i with
  | some mux =>
    have hqueued := h.enqueued (Multiplexer.blocks_deliver? hroom)
    obtain ⟨flow, stats, heq, _⟩ := updateFlow_eq
      ({ l with mux }.count (.frameReceived i.priority))
    rw [deliver_of_room hroom, heq]
    exact hqueued
  | none =>
    have hback := h.giveBack [i.block]
    obtain ⟨flow, stats, heq, _⟩ := updateFlow_eq
      ((l.giveBack [i.block]).count (.dropped .overrun))
    rw [deliver_of_full hroom, heq]
    exact hback

theorem balanced_process {b : Block} (h : l.Balanced (b.index :: hand) n) :
    (l.process b).Balanced hand n := by
  obtain ⟨stats, notices, heq, _⟩ := heard_eq b.bytes l
  have hheard : (l.heard b.bytes).Balanced (b.index :: hand) n := by
    rw [heq]
    exact h
  cases hdecode : decodeHeader l.config.frame b.bytes with
  | ok header =>
    rw [process_of_frame hdecode]
    exact balanced_deliver (i := ⟨header, b⟩) hheard
  | error e =>
    rw [process_of_rejected hdecode]
    exact Balanced.giveBack (l := (l.heard b.bytes).count (rejection e)) [b] hheard

/-- A finished transfer gives back its blocks, but one that a received frame is in. -/
theorem balanced_finish (h : l.Balanced (t.blocks.map (·.index) ++ hand) (n + 1)) :
    (l.finish t).Balanced hand n := by
  obtain ⟨tx, rx, length, fault⟩ := t
  cases fault with
  | some reason => exact h.giveBackTransaction
  | none =>
    have hback (k : Link)
        (hk : k.Balanced ((⟨tx, rx, length, none⟩ : Transaction).blocks.map (·.index) ++ hand)
          (n + 1)) : (k.giveBackTransaction ⟨tx, none, length, none⟩).Balanced
            (rx.toList.map (·.index) ++ hand) n := by
      apply Balanced.giveBackTransaction
      simpa [Transaction.blocks] using hk
    cases rx with
    | none => cases tx <;> exact hback _ h
    | some rx => cases tx <;> exact balanced_process (hback _ h)

theorem Balanced.setWorker {w : Worker} (h : l.Balanced hand n) (hheld : l.worker.held = [])
    (hw : w.held = []) : { l with worker := w }.Balanced hand n := by
  have hsame : { l with worker := w }.transfers = l.transfers :=
    congrArg (l.bus.pending ++ ·) (unfinished_setWorker hheld hw)
  unfold Balanced occupied
  rw [hsame]
  exact h

theorem transfers_of_taken {signals : Signals} {inFlight : Nat} (hone : l.unfinished = [t]) :
    l.transfers.Perm (t :: transfers { l with
      bus := { l.bus with completed := [] }, inFlight, signals, worker := .parked }) := by
  show (l.bus.pending ++ l.unfinished).Perm (t :: (l.bus.pending ++ []))
  rw [hone]
  exact List.perm_middle

/-- The worker has the transfer in hand that it is about to turn around. -/
theorem balanced_of_turn? {withheld : Bool} (h : l.Balanced hand n) (hsteady : l.Steady [])
    (hturn : l.turn? withheld = some (t, l')) :
    l'.Balanced (t.blocks.map (·.index) ++ hand) (n + 1) := by
  obtain ⟨hone, signals, rfl⟩ := turn?_eq_some hsteady.unfinished_le_one hturn
  exact h.taken rfl rfl rfl (transfers_of_taken hone)

/-- The worker comes to rest with nothing in hand. -/
theorem balanced_settle (h : l.Balanced hand n) (hsteady : l.Steady []) (withheld : Bool) :
    (l.settle withheld).Balanced hand n := by
  have hsettling := settling hsteady withheld
  generalize l.settle withheld = l' at hsettling ⊢
  cases hsettling with
  | rest => exact h
  | wait => exact h
  | @hold t _ parked completed =>
    have hsame : l.bus.completed = [t] := completed
    have hunfinished : l.unfinished = [t] := by
      rw [unfinished_eq, parked, hsame]
      rfl
    have htransfers : l.transfers = l.bus.pending ++ [t] :=
      congrArg (l.bus.pending ++ ·) hunfinished
    unfold Balanced occupied at h
    rw [htransfers] at h
    exact h
  | turn hturn => exact balanced_finish (balanced_readied (balanced_of_turn? h hsteady hturn))

theorem balanced_start (h : l.Balanced hand n) (hsteady : l.Steady []) :
    l.start.2.Balanced hand n := by
  unfold start
  cases hphase : l.phase with
  | initialized =>
    obtain ⟨hidle, _, _⟩ := hsteady.dormant hphase
    obtain ⟨hempty, hroom, hblank⟩ := hsteady.vacant hidle (Nat.zero_le _)
    have hvacant : { l with phase := .active }.Vacant := ⟨hempty, hroom, hblank⟩
    have hannounced := announcing hvacant
    have harmed := balanced_armStartup (l := { l with phase := .active }) h
    simp only
    generalize armStartup _ = ended at hannounced harmed ⊢
    obtain ⟨_ | _, l'⟩ := ended
    · exact harmed
    · have hheld : l'.worker.held = [] :=
        (congrArg Worker.held (announcing_frame hannounced).1).trans hidle.held
      exact harmed.setWorker hheld rfl
  | active | draining | deinit => exact h

theorem balanced_submission {header : Header} {payload : Bytes} {r : Except LinkError Unit}
    (h : l.Balanced hand n) (hsubmission : l.Submission header payload (r, l')) :
    l'.Balanced hand n := by
  cases hsubmission with
  | @queued b rest _ out mux _ free _ room =>
    have htaken : l.withoutBlock.Balanced (b.index :: hand) n := h.withoutBlock free
    exact Balanced.enqueued (l := l.withoutBlock) (b := { b with bytes := out }) htaken
      (Multiplexer.blocks_send? room)
  | refused e scribbled => exact Memory.Lends.scribbled h scribbled

theorem balanced_parted (h : l.Balanced hand n) (hsteady : l.Steady []) :
    l.parted.Balanced hand n := by
  unfold parted
  cases hlast : l.lastTurn? with
  | none => exact h
  | some last =>
    obtain ⟨t, l'⟩ := last
    obtain ⟨hone, rfl⟩ := lastTurn?_eq_some hsteady.unfinished_le_one hlast
    apply balanced_finish
    exact h.taken rfl rfl rfl (transfers_of_taken hone)

/-- A link that is taken apart keeps nothing. -/
theorem balanced_dismantle (h : l.Balanced hand n) (hheld : l.worker.held = []) :
    l.dismantle.Balanced hand n := by
  have htransfers : l.transfers = l.bus.pending ++ l.bus.completed := by
    rw [transfers, unfinished_eq, hheld, List.nil_append]
  have hplaces : ((l.transfers.flatMap Transaction.blocks).map Block.index ++
      (l.mux.blocks.map Block.index ++ hand)).Perm (hand ++ l.occupied) := by
    rw [occupied, List.map_append, ← List.append_assoc]
    exact (List.perm_append_comm.append_right hand).trans List.perm_append_comm
  have hall := Memory.Lends.perm h hplaces
  rw [htransfers] at hall
  have hback := hall.releaseTransactions.releaseAll
  have hnone : l.dismantle.occupied = [] := rfl
  have hempty : l.dismantle.transfers = [] := rfl
  unfold Balanced
  rw [hnone, hempty, List.append_nil]
  exact hback

theorem balanced_create (h : create c = .ok l) : l.Balanced [] 0 := by
  obtain ⟨_, rfl⟩ := create_eq_ok h
  refine ⟨rfl, rfl, ?_, ?_⟩
  · have hnone : (ofMemory c c.pools).occupied = [] := rfl
    rw [hnone]
    simp [ofMemory, LinkConfig.pools, Function.comp_def]
  · intro t ht
    obtain ⟨_, _, rfl⟩ := List.mem_map.mp ht
    rfl

end Link
end SlaveLink
