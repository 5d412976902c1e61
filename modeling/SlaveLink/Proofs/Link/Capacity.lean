import SlaveLink.Proofs.Link.Activation
import SlaveLink.Proofs.Link.Inbound
import SlaveLink.Proofs.Link.Ownership

/-! # How much a link needs
No queue is ever longer than its depth. With a block to fill, and one more for a dummy if no frame
waits, arming succeeds unless the driver refuses, and nothing else asks a pool for more than it has.
-/

namespace SlaveLink

namespace PriorityQueues

variable {α : Type} {q r : PriorityQueues α} {p : Priority} {x : α}

def Bounded (q : PriorityQueues α) : Prop := ∀ p, q.length p ≤ q.depths.get p

theorem bounded_push? (h : q.push? p x = some r) (hq : q.Bounded) : r.Bounded := by
  intro s
  have hget := get_push? h s
  rw [depths_push? h, length, hget]
  split
  · next hs =>
    subst hs
    simp only [push?, Option.ite_none_right_eq_some] at h
    simp only [List.length_append, List.length_singleton]
    exact h.1
  · exact hq s

theorem bounded_pop? (h : q.pop? = some (p, x, r)) (hq : q.Bounded) : r.Bounded := by
  intro s
  obtain ⟨hhead, hothers, _⟩ := get_pop? h
  have hbound := hq s
  rw [depths_pop? h]
  by_cases hs : s = p
  · subst hs
    simp only [length, hhead, List.length_cons] at hbound
    exact Nat.le_of_succ_le hbound
  · simp only [length, hothers s hs]
    exact hbound

theorem bounded_empty (depths : PerPriority Nat) : (empty depths : PriorityQueues α).Bounded := by
  intro p
  rw [length_empty]
  exact Nat.zero_le _

theorem total_le_of_bounded (h : q.Bounded) : q.total ≤ q.depths.total := by
  have hcontrol := h .control
  have hvoice := h .voice
  have hbulk := h .bulk
  simp only [length, get, PerPriority.get] at hcontrol hvoice hbulk
  simp only [total, lengths, PerPriority.total, PerPriority.map]
  omega

theorem total_of_idle (h : q.pop? = none) : q.total = 0 := by
  have hget := (pop?_eq_none_iff q).mp h
  have hcontrol : q.queues.control = [] := hget .control
  have hvoice : q.queues.voice = [] := hget .voice
  have hbulk : q.queues.bulk = [] := hget .bulk
  simp [total, lengths, PerPriority.total, PerPriority.map, hcontrol, hvoice, hbulk]

end PriorityQueues

namespace Multiplexer

variable {c : LinkConfig} {m m' : Multiplexer} {p : Priority}

structure Within (c : LinkConfig) (m : Multiplexer) : Prop where
  sendingDepths : m.tx.depths = c.txDepths
  receivedDepths : m.rx.depths = c.rxDepths
  sending : m.tx.Bounded
  received : m.rx.Bounded

theorem Within.send? {o : Outgoing} (h : m.Within c) (hsend : m.send? o = some m') :
    m'.Within c := by
  obtain ⟨tx, hpush, rfl⟩ := Option.map_eq_some_iff.mp hsend
  exact { h with
    sendingDepths := (PriorityQueues.depths_push? hpush).trans h.sendingDepths
    sending := PriorityQueues.bounded_push? hpush h.sending }

theorem Within.deliver? {i : Incoming} (h : m.Within c) (hdeliver : m.deliver? i = some m') :
    m'.Within c := by
  obtain ⟨rx, hpush, rfl⟩ := Option.map_eq_some_iff.mp hdeliver
  exact { h with
    receivedDepths := (PriorityQueues.depths_push? hpush).trans h.receivedDepths
    received := PriorityQueues.bounded_push? hpush h.received }

theorem Within.sent {o : Outgoing} {tx : PriorityQueues Outgoing} (h : m.Within c)
    (hpop : m.tx.pop? = some (p, o, tx)) : { m with tx }.Within c :=
  { h with
    sendingDepths := (PriorityQueues.depths_pop? hpop).trans h.sendingDepths
    sending := PriorityQueues.bounded_pop? hpop h.sending }

theorem Within.taken {i : Incoming} {rx : PriorityQueues Incoming} (h : m.Within c)
    (hpop : m.rx.pop? = some (p, i, rx)) : { m with rx }.Within c :=
  { h with
    receivedDepths := (PriorityQueues.depths_pop? hpop).trans h.receivedDepths
    received := PriorityQueues.bounded_pop? hpop h.received }

theorem Within.clear (h : m.Within c) : m.clear.Within c :=
  ⟨h.sendingDepths, h.receivedDepths, PriorityQueues.bounded_empty _,
    PriorityQueues.bounded_empty _⟩

end Multiplexer

theorem Stats.poolExhausted_bump {counter : Counter} (s : Stats)
    (h : counter ≠ .poolExhausted) : (s.bump counter).poolExhausted = s.poolExhausted := by
  cases counter with
  | poolExhausted => exact absurd rfl h
  | dropped why => cases why <;> rfl
  | throttleChanged on => cases on <;> rfl
  | _ => rfl

namespace Link

variable {l l' : Link} {c : LinkConfig} {t : Transaction} {hand : List Nat} {n : Nat}

/-- No queue is too long, and no pool ever ran dry. -/
structure Ample (c : LinkConfig) (l : Link) : Prop where
  within : l.mux.Within c
  counter : l.stats.poolExhausted = 0

theorem Ample.count {counter : Counter} (h : l.Ample c) (hcounter : counter ≠ .poolExhausted) :
    (l.count counter).Ample c :=
  ⟨h.within, (Stats.poolExhausted_bump _ hcounter).trans h.counter⟩

theorem ample_updateFlow (h : l.Ample c) : l.updateFlow.Ample c := by
  obtain ⟨flow, stats, heq, hstats⟩ := updateFlow_eq l
  rw [heq]
  simp only [List.mem_cons, List.not_mem_nil, or_false] at hstats
  rcases hstats with rfl | rfl | rfl
  · exact ⟨h.within, h.counter⟩
  · exact ⟨h.within, h.counter⟩
  · exact ⟨h.within, h.counter⟩

theorem ample_deliver (i : Incoming) (h : l.Ample c) : (l.deliver i).Ample c := by
  cases hroom : l.mux.deliver? i with
  | some mux =>
    rw [deliver_of_room hroom]
    have hqueued : { l with mux }.Ample c := ⟨h.within.deliver? hroom, h.counter⟩
    exact ample_updateFlow (hqueued.count nofun)
  | none =>
    rw [deliver_of_full hroom]
    have hback : (l.giveBack [i.block]).Ample c := ⟨h.within, h.counter⟩
    exact ample_updateFlow (hback.count nofun)

theorem rejection_ne_poolExhausted (e : FrameError) : rejection e ≠ .poolExhausted := by
  cases e <;> nofun

theorem ample_process (b : Block) (h : l.Ample c) : (l.process b).Ample c := by
  have hheard : (l.heard b.bytes).Ample c := by
    obtain ⟨stats, notices, heq, hstats⟩ := heard_eq b.bytes l
    rw [heq]
    simp only [List.mem_cons, List.not_mem_nil, or_false] at hstats
    rcases hstats with rfl | rfl
    · exact ⟨h.within, h.counter⟩
    · exact ⟨h.within, h.counter⟩
  cases hdecode : decodeHeader l.config.frame b.bytes with
  | ok header =>
    rw [process_of_frame hdecode]
    exact ample_deliver _ hheard
  | error e =>
    rw [process_of_rejected hdecode]
    obtain ⟨hwithin, hcounter⟩ := hheard.count (rejection_ne_poolExhausted e)
    exact ⟨hwithin, hcounter⟩

theorem transmission_ne_poolExhausted (tx : Block) : transmission tx ≠ .poolExhausted := by
  unfold transmission
  split
  · split <;> nofun
  · nofun

theorem ample_finish {size : Nat} (hshaped : t.Shaped size) (h : l.Ample c) :
    (l.finish t).Ample c := by
  obtain ⟨⟨tx, htx⟩, ⟨rx, hrx⟩, _⟩ := hshaped
  cases hfault : t.fault with
  | some reason =>
    rw [finish_of_fault hfault]
    exact Ample.count (l := l.giveBackTransaction t) ⟨h.within, h.counter⟩ nofun
  | none =>
    rw [finish_of_success hfault htx hrx]
    obtain ⟨hwithin, hcounter⟩ := h.count (transmission_ne_poolExhausted tx)
    exact ample_process rx ⟨hwithin, hcounter⟩

theorem ample_load (t : Transaction) (h : l.Ample c) : (l.load t).2.Ample c := by
  unfold load
  split
  · exact ⟨h.within, h.counter⟩
  · split <;> exact ⟨h.within, h.counter⟩

theorem ample_bindAndLoad (tx rx : Block) (t : Transaction) (h : l.Ample c) :
    (l.bindAndLoad tx rx t).2.Ample c := by
  unfold bindAndLoad
  exact ample_load _ ⟨h.within, h.counter⟩

theorem ample_takeOutgoing (h : l.Ample c) : l.takeOutgoing.2.Ample c := by
  unfold takeOutgoing Multiplexer.next?
  cases hpop : l.mux.tx.pop? with
  | some due =>
    obtain ⟨p, o, tx⟩ := due
    exact ⟨h.within.sent hpop, h.counter⟩
  | none =>
    cases l.memory.acquire true with
    | error e => exact h
    | ok taken => exact ⟨h.within, h.counter⟩

theorem ample_arm (preset : Option Block) (h : l.Ample c) : (l.arm preset).2.Ample c := by
  unfold arm
  split
  · exact ⟨h.within, h.counter⟩
  · split
    · exact ⟨h.within, h.counter⟩
    · next t memory _ =>
      have htaken : { l with memory }.Ample c := ⟨h.within, h.counter⟩
      cases preset with
      | some tx => exact ample_bindAndLoad _ _ _ htaken
      | none =>
        have hout := ample_takeOutgoing htaken
        simp only
        generalize takeOutgoing _ = outgoing at hout ⊢
        obtain ⟨_ | tx, l'⟩ := outgoing
        · exact ⟨hout.within, hout.counter⟩
        · exact ample_bindAndLoad _ _ _ hout

/-- The bus is empty, and there is all it takes to arm: a block to fill, and one for a dummy if no
frame waits. -/
structure Supplied (l : Link) : Prop extends l.Vacant where
  block : 1 ≤ l.memory.wire.available
  dummy : l.mux.tx.pop? = none → 2 ≤ l.memory.wire.available

theorem free_of_available {l : Link} (h : 1 ≤ l.memory.wire.available) :
    ∃ b rest, l.memory.wire.free = b :: rest :=
  List.exists_cons_of_length_pos h

/-- Arming does not fail for want of memory; only a driver that refuses is in its way. -/
theorem arm_of_supplied (h : l.Supplied) :
    (l.arm none).1 = if l.refusals = 0 then .ok () else .error .busNotReady := by
  obtain ⟨rx, rest, hfree⟩ := free_of_available h.block
  cases hpop : l.mux.tx.pop? with
  | some due =>
    obtain ⟨p, o, tx⟩ := due
    split
    · next hwilling => rw [arm_of_due ⟨h.toVacant, hwilling⟩ hfree hpop]
    · next hunwilling => rw [arm_of_refused_due h.toVacant hunwilling hfree hpop]
  | none =>
    have htwo : 2 ≤ l.memory.wire.free.length := h.dummy hpop
    rw [hfree, List.length_cons] at htwo
    obtain ⟨b, rest, rfl⟩ := List.exists_cons_of_length_pos (l := rest) (by omega)
    split
    · next hwilling => rw [arm_of_idle ⟨h.toVacant, hwilling⟩ hfree hpop]
    · next hunwilling => rw [arm_of_refused_idle h.toVacant hunwilling hfree hpop]

/-- A willing driver is then handed a transfer. -/
theorem loaded_of_supplied (h : l.Supplied) (hwilling : l.refusals = 0) : l.Loaded l.armNext := by
  have hresult := arm_of_supplied h
  rw [if_pos hwilling] at hresult
  have harming := arming ⟨h.toVacant, hwilling⟩
  unfold armNext
  generalize l.arm none = ended at hresult harming ⊢
  cases harming with
  | loaded loaded => exact loaded
  | short => cases hresult

/-- Without that, arming takes nothing that it does not give back. -/
theorem arm_of_unsupplied (h : l.Vacant) (hshort : ¬ l.Supplied) :
    l.arm none = (.error l.memory.wire.exhausted, l) := by
  cases hfree : l.memory.wire.free with
  | nil => exact arm_of_nil none hfree
  | cons rx rest =>
    have hblock : 1 ≤ l.memory.wire.available := by simp [Pool.available, hfree]
    have hdummy : ¬ (l.mux.tx.pop? = none → 2 ≤ l.memory.wire.available) :=
      fun hdummy => hshort ⟨h, hblock, hdummy⟩
    obtain ⟨hidle, hlast⟩ := Classical.not_imp.mp hdummy
    have hrest : rest = [] := by
      simp only [Pool.available, hfree, List.length_cons] at hlast
      exact List.length_eq_zero_iff.mp (by omega)
    rw [hrest] at hfree
    exact arm_of_last h hfree hidle

/-- So an attempt that fails for want of a block leaves no trace but in the counters. -/
theorem armNext_of_exhausted {name : String} (h : l.Vacant)
    (hshort : (l.arm none).1 = .error (.poolExhausted name)) : l.armNext = l.starved := by
  have hunsupplied : ¬ l.Supplied := by
    intro hsupplied
    rw [arm_of_supplied hsupplied] at hshort
    split at hshort <;> cases hshort
  rw [armNext, arm_of_unsupplied h hunsupplied]
  rfl

theorem ample_armNext (hsupplied : l.Supplied) (h : l.Ample c) : l.armNext.Ample c := by
  have hresult := arm_of_supplied hsupplied
  have harmed := ample_arm none h
  unfold armNext
  generalize l.arm none = ended at hresult harmed ⊢
  obtain ⟨e | _, l'⟩ := ended
  · obtain rfl : e = .busNotReady := by
      simp only at hresult
      split at hresult
      · cases hresult
      · exact Except.error.inj hresult
    exact Ample.count (l := { l' with rearmPending := true }) ⟨harmed.within, harmed.counter⟩ nofun
  · exact harmed

theorem ample_turnAround {size : Nat} (hshaped : t.Shaped size) (hsupplied : l.Supplied)
    (h : l.Ample c) : (l.turnAround t).Ample c := by
  rw [turnAround_eq]
  apply ample_finish hshaped
  unfold readied
  split
  · exact h
  · exact ample_armNext hsupplied h

theorem ample_parted (hsteady : l.Steady []) (h : l.Ample c) : l.parted.Ample c := by
  unfold parted
  cases hlast : l.lastTurn? with
  | none => exact h
  | some last =>
    obtain ⟨t, l'⟩ := last
    obtain ⟨_, _, hshaped⟩ := steady_of_lastTurn? hsteady hlast
    obtain ⟨_, rfl⟩ := lastTurn?_eq_some hsteady.unfinished_le_one hlast
    exact ample_finish hshaped ⟨h.within, h.counter⟩

theorem ample_dismantle (h : l.Ample c) : l.dismantle.Ample c := ⟨h.within.clear, h.counter⟩

theorem enqueue_of_cons {b : Block} {rest : List Block} (h : Header) (payload : Bytes)
    (hfree : l.memory.wire.free = b :: rest) : l.enqueue h payload =
      match encodeFrame l.config.frame { h with throttle := l.flow.throttle } payload b.bytes with
      | (.error e, _) => (.error (.frame e), l.withoutBlock.giveBack [b])
      | (.ok _, bytes) =>
        match l.mux.send? ⟨{ b with bytes }, h.interface⟩ with
        | none => (.error (.queueFull h.interface.priority),
          (l.withoutBlock.giveBack [{ b with bytes }]).count .txQueueFull)
        | some mux => (.ok (), { l.withoutBlock with mux }.setDataReady true) := by
  unfold enqueue
  rw [Memory.acquire_of_cons false hfree]
  rfl

/-- With a block at hand, a frame that cannot be queued is refused for a reason of its own. -/
theorem enqueue_of_available (h : Header) (payload : Bytes) (hample : l.Ample c)
    (havailable : 1 ≤ l.memory.wire.available) :
    (l.enqueue h payload).2.Ample c ∧ ∀ e, (l.enqueue h payload).1 ≠ .error (.device e) := by
  obtain ⟨b, rest, hfree⟩ := free_of_available havailable
  rw [enqueue_of_cons h payload hfree]
  split
  · exact ⟨⟨hample.within, hample.counter⟩, nofun⟩
  · next bytes _ =>
    split
    · refine ⟨?_, nofun⟩
      exact Ample.count (l := l.withoutBlock.giveBack [{ b with bytes }])
        ⟨hample.within, hample.counter⟩ nofun
    · next hroom => exact ⟨⟨hample.within.send? hroom, hample.counter⟩, nofun⟩

theorem submitHeader_of_available (h : Header) (payload : Bytes) (hample : l.Ample c)
    (havailable : 1 ≤ l.memory.wire.available) : (l.submitHeader h payload).2.Ample c ∧
      ∀ e, (l.submitHeader h payload).1 ≠ .error (.device e) := by
  unfold submitHeader
  split
  · exact ⟨hample, nofun⟩
  · split
    · exact ⟨hample, nofun⟩
    · exact enqueue_of_available h payload hample havailable

/-- A payload that the link can carry, on an interface that carries data. -/
structure Legal (c : LinkConfig) (interface : Interface) (payload : Bytes) : Prop where
  nonempty : payload ≠ []
  data : interface.carriesData = true
  fit : headerSize + payload.length ≤ c.frame.bufferSize

/-- A frame that the link can carry is refused only if the queue of its own priority is full. -/
theorem submitHeader_of_legal {h : Header} {payload : Bytes} (hopen : l.isOpen = true)
    (hsized : ∀ b ∈ l.memory.wire.free, b.bytes.length = l.config.frame.blockSize)
    (havailable : 1 ≤ l.memory.wire.available) (hlegal : Legal l.config h.interface payload) :
    (l.submitHeader h payload).1 =
      if l.mux.tx.length h.interface.priority < l.mux.tx.depths.get h.interface.priority then
        .ok () else .error (.queueFull h.interface.priority) := by
  obtain ⟨b, rest, hfree⟩ := free_of_available havailable
  obtain ⟨out, hwritten⟩ := encodeFrame_of_fit (h := { h with throttle := l.flow.throttle })
    hlegal.nonempty hlegal.data hlegal.fit (hsized b (by simp [hfree]))
  have hpayload : ¬ payload.isEmpty = true := by simpa using hlegal.nonempty
  rw [submitHeader, if_neg (by simp [hopen]), if_neg hpayload, enqueue_of_cons h payload hfree,
    hwritten]
  by_cases hroom : l.mux.tx.length h.interface.priority < l.mux.tx.depths.get h.interface.priority
  · simp [Multiplexer.send?, PriorityQueues.push?, Outgoing.priority, hroom]
  · simp [Multiplexer.send?, PriorityQueues.push?, Outgoing.priority, hroom]

theorem arm_preset_of_available (tx : Block) (h : l.Vacant)
    (havailable : 1 ≤ l.memory.wire.available) :
    (l.arm (some tx)).1 = if l.refusals = 0 then .ok () else .error .busNotReady := by
  obtain ⟨rx, rest, hfree⟩ := free_of_available havailable
  split
  · next hwilling => rw [arm_preset tx ⟨h, hwilling⟩ hfree]
  · next hunwilling =>
    obtain ⟨ts, hblank⟩ := h.blank
    have harm := bindAndLoad_of_unwilling (l := l.withoutBlock) tx rx hunwilling hblank
    simp only [withoutBlock] at harm
    simp only [arm_of_cons (some tx) h hfree, harm]

/-- The startup event is armed unless it does not fit or the driver refuses. -/
theorem device_armStartup {e : DeviceError} (h : l.Vacant)
    (havailable : 2 ≤ l.memory.wire.available) (herror : l.armStartup.1 = .error (.device e)) :
    e = .busNotReady ∧ l.refusals ≠ 0 := by
  obtain ⟨b, rest, hfree⟩ := free_of_available (l := l) (by omega)
  have hrest : 1 ≤ l.eventTaken.withoutBlock.memory.wire.available := by
    have hlength : l.memory.wire.free.length = rest.length + 1 := by rw [hfree]; rfl
    have htail : l.eventTaken.withoutBlock.memory.wire.available = rest.length := by
      simp [Pool.available, eventTaken, withoutBlock, Memory.blockTaken, Pool.popped, hfree]
    have htwo : 2 ≤ l.memory.wire.free.length := havailable
    omega
  obtain ⟨hunsent, _⟩ := error_of_armStartup herror
  have hvacant : l.eventTaken.withoutBlock.Vacant := ⟨h.empty, h.room, h.blank⟩
  rw [armStartup_of_unsent hunsent, Memory.acquire_of_cons true hfree] at herror
  simp only [if_true] at herror
  split at herror
  · cases herror
  · next out _ =>
    have hresult : (arm (some { b.zeroed with bytes := out })
        { l.eventTaken with memory := l.memory.blockTaken }).1 =
          if l.refusals = 0 then .ok () else .error .busNotReady :=
      arm_preset_of_available (l := l.eventTaken.withoutBlock) _ hvacant hrest
    split at herror
    · next cause _ harm =>
      obtain rfl : cause = e := by simpa using herror
      rw [harm] at hresult
      split at hresult
      · cases hresult
      · next hunwilling => exact ⟨Except.error.inj hresult, hunwilling⟩
    · cases herror

theorem device_start {e : DeviceError} (h : l.Steady []) (havailable : l.phase = .initialized →
    2 ≤ l.memory.wire.available) (herror : l.start.1 = .error (.device e)) :
    e = .busNotReady ∧ l.refusals ≠ 0 := by
  cases hphase : l.phase with
  | initialized =>
    obtain ⟨hempty, hroom, hblank⟩ := h.vacant (h.dormant hphase).1 (Nat.zero_le _)
    have hvacant : { l with phase := .active }.Vacant := ⟨hempty, hroom, hblank⟩
    rw [start_of_early hphase] at herror
    exact device_armStartup (l := { l with phase := .active }) hvacant (havailable hphase) herror
  | active | draining | deinit => simp [start, hphase] at herror

theorem kept_announcing {r : Except LinkError Unit} (h : l.Announcing (r, l')) :
    l'.mux = l.mux ∧ l'.stats = l.stats := by
  cases h <;> exact ⟨rfl, rfl⟩

theorem ample_start (h : l.Steady []) (hample : l.Ample c) : l.start.2.Ample c := by
  have hstarting := starting fun hphase => h.vacant (h.dormant hphase).1 (Nat.zero_le _)
  generalize l.start = ended at hstarting ⊢
  obtain ⟨r, l'⟩ := ended
  cases hstarting with
  | refused => exact hample
  | up _ announced | failed _ _ announced =>
    obtain ⟨hmux, hstats⟩ := kept_announcing announced
    exact ⟨by simp only [hmux]; exact hample.within, by simp only [hstats]; exact hample.counter⟩

/-- The blocks of the pool: at hand, in hand, in waiting frames and in transfers. -/
theorem Balanced.blocks_eq {size : Nat} (h : l.Balanced hand n)
    (hshaped : ∀ t ∈ l.transfers, t.Shaped size) :
    l.memory.wire.available + hand.length + l.mux.tx.total + l.mux.rx.total +
      2 * l.transfers.length = l.config.wireBlocks := by
  have havailable := h.available
  simp only [occupied, Multiplexer.blocks, List.length_append, List.length_map,
    PriorityQueues.length_items, length_flatMap_blocks hshaped] at havailable
  omega

/-- With nothing on the bus or at the worker, two blocks in hand for each transaction that the bus
could hold leave enough to arm. -/
theorem supplied_of_balanced (hvacant : l.Vacant) (h : l.Balanced hand n)
    (hwithin : l.mux.Within l.config) (hnone : l.transfers = [])
    (hdepth : 0 < l.config.txDepths.total) (hhand : hand.length ≤ l.config.busQueueSize * 2) :
    l.Supplied := by
  have hshaped : ∀ t ∈ l.transfers, t.Shaped 0 := by simp [hnone]
  have hblocks := h.blocks_eq hshaped
  have hsending := PriorityQueues.total_le_of_bounded hwithin.sending
  have hreceived := PriorityQueues.total_le_of_bounded hwithin.received
  rw [hwithin.sendingDepths] at hsending
  rw [hwithin.receivedDepths] at hreceived
  rw [hnone, List.length_nil, LinkConfig.wireBlocks] at hblocks
  refine ⟨hvacant, by omega, ?_⟩
  intro hidle
  -- The whole room for frames to send is free then, and that is one block at least.
  have hempty := PriorityQueues.total_of_idle hidle
  omega

end Link
end SlaveLink
