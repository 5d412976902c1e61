import SlaveLink.Proofs.Frame.Writing
import SlaveLink.Proofs.Link.Attempt
import SlaveLink.Proofs.Link.Capacity

/-! # What a refused frame leaves behind
A frame is written into a block before it is known whether there is room for it. If it is refused
then the block goes back to where it was taken from, and no more is left of the attempt than the
bytes in that block and a counter. -/

namespace SlaveLink.Link

variable {l l' : Link} {c : LinkConfig} {h : Header} {payload : Bytes} {e : LinkError}

/-- The conditions for a frame to be queued, in the order in which they are looked at. -/
def submitChecks (h : Header) (payload : Bytes) (l : Link) : List (Check LinkError) :=
  [⟨l.isOpen, .inactive⟩,
    ⟨!payload.isEmpty, .emptyPayload⟩,
    ⟨!l.memory.wire.free.isEmpty, .device l.memory.wire.exhausted⟩,
    ⟨h.interface.carriesData, .frame (.unknownInterface h.interface.code)⟩,
    ⟨decide (headerSize + payload.length ≤ l.config.frame.bufferSize),
      .frame (.payloadTooLarge payload.length l.config.frame.maxPayload)⟩,
    ⟨decide (l.mux.tx.length h.interface.priority < l.mux.tx.depths.get h.interface.priority),
      .queueFull h.interface.priority⟩]

def refusalStats (e : LinkError) (stats : Stats) : Stats :=
  match e with
  | .device _ => stats.bump .poolExhausted
  | .queueFull _ => stats.bump .txQueueFull
  | _ => stats

/-- Everything is as it was, except for the counters, the sequence number and what is in the next
free block. -/
structure Spared (l l' : Link) : Prop where
  frame : ∃ free stats sequence, l' = { l with
    memory := { l.memory with wire := { l.memory.wire with free } }, stats, sequence }
  order : l'.memory.wire.free.map (·.index) = l.memory.wire.free.map (·.index)
  sizes : l'.memory.wire.free.map (·.bytes.length) = l.memory.wire.free.map (·.bytes.length)
  behind : l'.memory.wire.free.tail = l.memory.wire.free.tail

/-- How a frame is refused: for the first condition that does not hold, and without a trace but for
one counter at most. A full queue is one that holds its full depth. -/
structure Refused (c : LinkConfig) (h : Header) (payload : Bytes) (e : LinkError) (l l' : Link) :
    Prop extends Spared l l' where
  reason : firstFault? (l.submitChecks h payload) = some e
  counted : l'.stats = refusalStats e l.stats
  full : ∀ p, e = .queueFull p → p = h.interface.priority ∧ l.mux.tx.length p = c.txDepths.get p

theorem Spared.of_scribbled {memory : Memory} {stats : Stats} {sequence : UInt16}
    (hscribbled : l.memory.Scribbled memory) :
    l.Spared { l with memory, stats, sequence } := by
  rcases hscribbled with rfl | ⟨b, rest, bytes, hfree, hlength, rfl⟩
  · exact ⟨⟨l.memory.wire.free, stats, sequence, rfl⟩, rfl, rfl, rfl⟩
  · exact ⟨⟨_, stats, sequence, rfl⟩, by simp [Pool.refilled, hfree],
      by simp [Pool.refilled, hfree, hlength], by simp [Pool.refilled, hfree]⟩

theorem encodeFrame_of_dataless {config : FrameConfig} (dst : Bytes) (hpayload : payload ≠ [])
    (hdata : h.interface.carriesData = false) :
    encodeFrame config h payload dst = (.error (.unknownInterface h.interface.code), dst) := by
  apply encodeFrame_of_firstFault
  rw [writeChecks, firstFault?_of_passed (by simpa using hpayload), firstFault?_of_failed hdata]

/-- A frame that cannot be written gives its block back as it was. -/
theorem enqueue_of_unwritten {b : Block} {rest : List Block} {fault : FrameError}
    (hfree : l.memory.wire.free = b :: rest)
    (hwrite : encodeFrame l.config.frame { h with throttle := l.flow.throttle } payload b.bytes =
      (.error fault, b.bytes)) :
    l.enqueue h payload = (.error (.frame fault), l) := by
  rw [enqueue_of_cons h payload hfree, hwrite]
  simp only [giveBack_withoutBlock hfree]

theorem enqueue_of_full {b : Block} {rest : List Block} {n : Nat} {bytes : Bytes}
    (hfree : l.memory.wire.free = b :: rest)
    (hwrite : encodeFrame l.config.frame { h with throttle := l.flow.throttle } payload b.bytes =
      (.ok n, bytes))
    (hfull : ¬ l.mux.tx.length h.interface.priority < l.mux.tx.depths.get h.interface.priority) :
    l.enqueue h payload = (.error (.queueFull h.interface.priority), { l with
      memory := { l.memory with wire := l.memory.wire.refilled { b with bytes } }
      stats := l.stats.bump .txQueueFull }) := by
  have hsend : l.mux.send? ⟨{ b with bytes }, h.interface⟩ = none := by
    simp [Multiplexer.send?, PriorityQueues.push?, Outgoing.priority, hfull]
  rw [enqueue_of_cons h payload hfree, hwrite]
  simp only [hsend, giveBack_rewritten]
  rfl

theorem submitHeader_of_firstFault
    (hsized : ∀ b ∈ l.memory.wire.free, b.bytes.length = l.config.frame.blockSize)
    (hfault : firstFault? (l.submitChecks h payload) = some e) :
    ∃ memory, l.memory.Scribbled memory ∧
      l.submitHeader h payload = (.error e, { l with memory, stats := refusalStats e l.stats }) := by
  unfold submitChecks at hfault
  unfold submitHeader
  obtain ⟨hclosed, rfl⟩ | ⟨hopen, hfault⟩ := firstFault?_cons_eq_some.mp hfault
  · exact ⟨_, .inl rfl, if_pos (by simpa using hclosed)⟩
  rw [if_neg (by simpa using hopen)]
  obtain ⟨hempty, rfl⟩ | ⟨hnonempty, hfault⟩ := firstFault?_cons_eq_some.mp hfault
  · exact ⟨_, .inl rfl, if_pos (by simpa using hempty)⟩
  have hpayload : payload ≠ [] := by simpa using hnonempty
  rw [if_neg (by simpa using hpayload)]
  obtain ⟨hshort, rfl⟩ | ⟨hblock, hfault⟩ := firstFault?_cons_eq_some.mp hfault
  · have hnil : l.memory.wire.free = [] := by simpa using hshort
    refine ⟨_, .inl rfl, ?_⟩
    rw [enqueue, Memory.acquire_of_nil false hnil]
    rfl
  obtain ⟨b, rest, hfree⟩ : ∃ b rest, l.memory.wire.free = b :: rest :=
    List.exists_cons_of_ne_nil (by simpa using hblock)
  obtain ⟨hdata, rfl⟩ | ⟨hdata, hfault⟩ := firstFault?_cons_eq_some.mp hfault
  · exact ⟨_, .inl rfl,
      enqueue_of_unwritten hfree (encodeFrame_of_dataless b.bytes hpayload hdata)⟩
  obtain ⟨hunfit, rfl⟩ | ⟨hfits, hfault⟩ := firstFault?_cons_eq_some.mp hfault
  · have hlong : l.config.frame.bufferSize < headerSize + payload.length := by simpa using hunfit
    exact ⟨_, .inl rfl,
      enqueue_of_unwritten hfree (encodeFrame_of_unfit b.bytes hpayload hdata hlong)⟩
  obtain ⟨hfull, rfl⟩ | ⟨-, hnone⟩ := firstFault?_cons_eq_some.mp hfault
  · obtain ⟨bytes, hwrite⟩ := encodeFrame_of_fit (h := { h with throttle := l.flow.throttle })
      hpayload hdata (by simpa using hfits) (hsized b (by simp [hfree]))
    exact ⟨_, .inr ⟨b, rest, bytes, hfree, length_of_encodeFrame_ok hwrite, rfl⟩,
      enqueue_of_full hfree hwrite (by simpa using hfull)⟩
  · cases hnone

/-- There is no other reason to refuse a frame. -/
theorem submitHeader_of_faultless
    (hsized : ∀ b ∈ l.memory.wire.free, b.bytes.length = l.config.frame.blockSize)
    (hnone : firstFault? (l.submitChecks h payload) = none) :
    (l.submitHeader h payload).1 = .ok () := by
  simp only [firstFault?_eq_none_iff, submitChecks, List.forall_mem_cons, decide_eq_true_eq,
    Bool.not_eq_true', List.isEmpty_eq_false_iff] at hnone
  obtain ⟨hopen, hnonempty, hblock, hdata, hfits, hroom, -⟩ := hnone
  rw [submitHeader_of_legal hopen hsized (List.length_pos_iff.mpr hblock)
    ⟨hnonempty, hdata, hfits⟩, if_pos hroom]

/-! ## The queues of frames to send -/

structure Limited (c : LinkConfig) (l : Link) : Prop where
  depths : l.mux.tx.depths = c.txDepths
  bounded : l.mux.tx.Bounded

theorem Limited.of_eq (h : l.Limited c) (htx : l'.mux.tx = l.mux.tx) : l'.Limited c := by
  obtain ⟨hdepths, hbounded⟩ := h
  rw [← htx] at hdepths hbounded
  exact ⟨hdepths, hbounded⟩

theorem Limited.of_pop? {p : Priority} {o : Outgoing} (h : l.Limited c)
    (hpop : l.mux.tx.pop? = some (p, o, l'.mux.tx)) : l'.Limited c :=
  ⟨(PriorityQueues.depths_pop? hpop).trans h.depths, PriorityQueues.bounded_pop? hpop h.bounded⟩

theorem limited_create (hcreate : create c = .ok l) : l.Limited c := by
  obtain ⟨-, rfl⟩ := create_eq_ok hcreate
  exact ⟨rfl, PriorityQueues.bounded_empty _⟩

theorem limited_loaded (h : l.Limited c) (hloaded : l.Loaded l') : l'.Limited c := by
  cases hloaded with
  | frame _ due => exact h.of_pop? due
  | dummy => exact h.of_eq rfl

theorem limited_armNext (h : l.Limited c) (hvacant : l.Vacant) : l.armNext.Limited c := by
  have hattempt := attempt hvacant
  generalize l.armNext = l' at hattempt ⊢
  cases hattempt with
  | loaded _ loaded => exact limited_loaded h loaded
  | starved => exact h.of_eq rfl
  | refusedFrame _ _ due => exact h.of_pop? due
  | refusedDummy => exact h.of_eq rfl

theorem limited_finish {t : Transaction} {size : Nat} (h : l.Limited c) (hshaped : t.Shaped size) :
    (l.finish t).Limited c := by
  obtain ⟨_, _, _, _, _, hframe⟩ := finish_frame hshaped l
  rw [hframe]
  exact h.of_eq rfl

theorem limited_settle (h : l.Limited c) (hsteady : l.Steady []) (withheld : Bool) :
    (l.settle withheld).Limited c := by
  have hsettling := settling hsteady withheld
  generalize l.settle withheld = l' at hsettling ⊢
  cases hsettling with
  | rest | wait | hold => exact h.of_eq rfl
  | turn hturn =>
    obtain ⟨hsteady₁, hidle, hshaped⟩ := steady_of_turn? hsteady hturn
    obtain ⟨_, signals, rfl⟩ := turn?_eq_some hsteady.unfinished_le_one hturn
    rw [turnAround_eq]
    refine limited_finish ?_ hshaped
    unfold readied
    split
    · exact h.of_eq rfl
    · exact limited_armNext (h.of_eq rfl) (hsteady₁.vacant hidle (Nat.le_refl _))

theorem limited_starting {r : Except LinkError Unit} (h : l.Limited c)
    (hstarting : l.Starting (r, l')) : l'.Limited c := by
  cases hstarting with
  | refused => exact h
  | up _ announced | failed _ _ announced =>
    exact h.of_eq (congrArg Multiplexer.tx (kept_announcing announced).1)

theorem limited_submission {r : Except LinkError Unit} (h : l.Limited c) {header : Header}
    (hsubmission : l.Submission header payload (r, l')) : l'.Limited c := by
  cases hsubmission with
  | queued _ _ _ room =>
    obtain ⟨tx, hpush, rfl⟩ := Option.map_eq_some_iff.mp room
    exact ⟨(PriorityQueues.depths_push? hpush).trans h.depths,
      PriorityQueues.bounded_push? hpush h.bounded⟩
  | refused => exact h.of_eq rfl

theorem limited_dismantle (h : l.Limited c) (hsteady : l.Steady []) :
    l.windDown.dismantle.Limited c := by
  have hparted : l.parted.Limited c := by
    unfold parted
    cases hlast : l.lastTurn? with
    | none => exact h
    | some last =>
      obtain ⟨t, l₁⟩ := last
      obtain ⟨_, _, hshaped⟩ := steady_of_lastTurn? hsteady hlast
      obtain ⟨_, rfl⟩ := lastTurn?_eq_some hsteady.unfinished_le_one hlast
      exact limited_finish (h.of_eq rfl) hshaped
  rw [dismantle_windDown]
  exact ⟨hparted.depths, PriorityQueues.bounded_empty _⟩

/-- A sequence number that is used up beforehand makes no difference. -/
theorem Refused.of_sequence {sequence : UInt16}
    (hrefused : { l with sequence }.Refused c h payload e l') : l.Refused c h payload e l' := by
  obtain ⟨free, stats, sequence', hframe⟩ := hrefused.frame
  exact ⟨⟨⟨free, stats, sequence', hframe⟩, hrefused.order, hrefused.sizes, hrefused.behind⟩,
    hrefused.reason, hrefused.counted, hrefused.full⟩

/-- A queue that is full holds its full depth, whatever the other queues hold. -/
theorem full_of_queueFull {p : Priority} (hlimited : l.Limited c)
    (hfault : firstFault? (l.submitChecks h payload) = some (.queueFull p)) :
    p = h.interface.priority ∧ l.mux.tx.length p = c.txDepths.get p := by
  obtain ⟨k, hk, hfailed, herror⟩ := exists_of_firstFault? hfault
  simp only [submitChecks, List.mem_cons, List.not_mem_nil, or_false] at hk
  rcases hk with rfl | rfl | rfl | rfl | rfl | rfl
  all_goals cases herror
  have hfull := of_decide_eq_false hfailed
  have hbound := hlimited.bounded h.interface.priority
  rw [hlimited.depths] at hfull hbound
  exact ⟨rfl, by omega⟩

theorem refused_of_error
    (hsized : ∀ b ∈ l.memory.wire.free, b.bytes.length = l.config.frame.blockSize)
    (hlimited : l.Limited c) (herror : l.submitHeader h payload = (.error e, l')) :
    l.Refused c h payload e l' ∧ l'.sequence = l.sequence := by
  have hreason : firstFault? (l.submitChecks h payload) = some e := by
    refine (error_iff_of_firstFault? (fun hnone => ?_) fun e hfault => ?_).mp
      (congrArg Prod.fst herror)
    · exact ⟨(), submitHeader_of_faultless hsized hnone⟩
    · obtain ⟨_, -, hrefused⟩ := submitHeader_of_firstFault hsized hfault
      rw [hrefused]
  obtain ⟨memory, hscribbled, hrefused⟩ := submitHeader_of_firstFault hsized hreason
  rw [herror] at hrefused
  obtain rfl := (Prod.mk.inj hrefused).2
  have hspared : l.Spared { l with memory, stats := refusalStats e l.stats } :=
    .of_scribbled hscribbled
  refine ⟨{ hspared with reason := hreason, counted := rfl, full := ?_ }, rfl⟩
  rintro p rfl
  exact full_of_queueFull hlimited hreason

end SlaveLink.Link
