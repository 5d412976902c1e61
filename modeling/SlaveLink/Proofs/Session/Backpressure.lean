import SlaveLink.Proofs.Session.Reception
import SlaveLink.Proofs.Session.Throttling

/-! # The ends of the band
The marks may lie at 0 and at 100 percent, and an occupancy must pass a mark to count. No queue
holds fewer frames than none or more than all, so the one mark does not stop throttling and the
other does not start it. With any other marks an empty queue ends the backpressure, and a full one
has begun it before a frame is dropped. -/

namespace SlaveLink

variable {c : LinkConfig} {rs : List Reading} {g : Gauge}

theorem above_of_lastAsked (hheeds : ∀ r ∈ rs, c.Heeds r) (h : lastAsked c rs = true) :
    ∃ r ∈ rs, c.throttleHigh.toNat * c.rxDepths.bulk < r.occupancy * 100 := by
  obtain ⟨r, hlast, hon⟩ := (Option.any_eq_true _ _).mp h
  obtain ⟨hr, houtside⟩ := List.mem_filter.mp (List.mem_of_getLast? hlast)
  refine ⟨r, hr, ?_⟩
  simp only [LinkConfig.isOutside, Bool.or_eq_true, decide_eq_true_eq] at houtside
  refine houtside.resolve_right fun hbelow => ?_
  simp [(hheeds r hr).below hbelow] at hon

/-- A lower mark of 0 is never undercut, so throttling does not stop once it has started. -/
theorem lastAsked_of_above (hlow : c.throttleLow = 0) (hheeds : ∀ r ∈ rs, c.Heeds r) {r : Reading}
    (hr : r ∈ rs) (habove : c.throttleHigh.toNat * c.rxDepths.bulk < r.occupancy * 100) :
    lastAsked c rs = true := by
  have hmem : r ∈ rs.filter fun r => c.isOutside r.occupancy :=
    List.mem_filter.mpr ⟨hr, by simp [LinkConfig.isOutside, habove]⟩
  cases hlast : (rs.filter fun r => c.isOutside r.occupancy).getLast? with
  | none =>
    rw [List.getLast?_eq_none_iff.mp hlast] at hmem
    cases hmem
  | some last =>
    obtain ⟨hmem, houtside⟩ := List.mem_filter.mp (List.mem_of_getLast? hlast)
    simp only [LinkConfig.isOutside, hlow, Bool.or_eq_true, decide_eq_true_eq] at houtside
    have hon := (hheeds last hmem).above (houtside.resolve_right (by simp))
    simp [lastAsked, hlast, hon]

/-- A full queue exceeds every higher mark but 100. -/
theorem Gauge.Follows.unthrottled_iff (h : g.Follows c rs) (hhigh : c.throttleHigh.toNat ≤ 100)
    (hroom : 0 < c.rxDepths.bulk) (hfull : g.occupancy = c.rxDepths.bulk) :
    g.flow.isThrottling = false ↔ c.throttleHigh = 100 := by
  constructor
  · intro hoff
    refine UInt8.toNat_inj.mp (Nat.le_antisymm hhigh (Nat.le_of_not_lt fun hlt => ?_))
    have habove : c.throttleHigh.toNat * c.rxDepths.bulk < g.occupancy * 100 := by
      rw [hfull, Nat.mul_comm _ 100]
      exact Nat.mul_lt_mul_of_pos_right hlt hroom
    have hon : g.flow.isThrottling = true := h.heeds_now.above habove
    simp [hoff] at hon
  · intro hmark
    have hnever : lastAsked c rs = false := by
      refine Bool.eq_false_iff.mpr fun hasked => ?_
      obtain ⟨r, hr, habove⟩ := above_of_lastAsked h.heeds hasked
      have hwithin := (h.heeds r hr).within
      rw [hmark, show (100 : UInt8).toNat = 100 from rfl] at habove
      omega
    rw [h.flow]
    exact hnever

namespace Session

variable {s m : Session} {host : HostLevels} {step : Step} {r : Reply} {l l' : Link}

/-- With the bulk receive queue empty, the host is still asked to hold back exactly if the lower
mark is 0 and the higher one was exceeded at some time. -/
theorem throttling_empty_iff (hcreate : create c host = .ok s) (henabled : c.throttleHigh ≠ 0)
    (steps : List Step) (hstanding : (s.run steps).2.link.phase ≠ .deinit)
    (hempty : (s.run steps).2.link.mux.rx.length .bulk = 0) :
    (s.run steps).2.link.flow.isThrottling = true ↔ c.throttleLow = 0 ∧
      ∃ r ∈ s.readings steps, c.throttleHigh.toNat * c.rxDepths.bulk < r.occupancy * 100 := by
  have hfollows := follows_run hcreate henabled hstanding
  have hasked : (s.run steps).2.link.flow.isThrottling = lastAsked c (s.readings steps) :=
    congrArg FlowControl.isThrottling hfollows.flow
  constructor
  · intro hon
    refine ⟨?_, above_of_lastAsked hfollows.heeds (hasked.symm.trans hon)⟩
    refine UInt8.toNat_inj.mp (Nat.eq_zero_of_not_pos fun hpos => ?_)
    have hbelow : (s.run steps).2.link.mux.rx.length .bulk * 100 <
        c.throttleLow.toNat * c.rxDepths.bulk := by
      rw [hempty, Nat.zero_mul]
      exact Nat.mul_pos hpos (room_of_create hcreate)
    have hoff : (s.run steps).2.link.flow.isThrottling = false := hfollows.heeds_now.below hbelow
    simp [hoff] at hon
  · rintro ⟨hlow, r, hr, habove⟩
    exact hasked.trans (lastAsked_of_above hlow hfollows.heeds hr habove)

def endlessConfig : LinkConfig := { smallConfig with throttleHigh := 50, throttleLow := 0 }

theorem throttling_empty_iff_endless :
    ∃ s, create endlessConfig (matchingHost endlessConfig) = .ok s ∧
      endlessConfig.throttleLow = 0 ∧ ∃ r ∈ s.readings [.start, sendBulk, .tryReceive false],
        endlessConfig.throttleHigh.toNat * endlessConfig.rxDepths.bulk < r.occupancy * 100 :=
  ⟨_, rfl, (throttling_empty_iff (c := endlessConfig) rfl (by decide)
    [.start, sendBulk, .tryReceive false] (by decide +kernel) (by decide +kernel)).mp
    (by decide +kernel)⟩

/-- The only frame is received, and the host is asked to hold back from then on. -/
theorem drained_queue_throttles :
    ∃ s, create endlessConfig (matchingHost endlessConfig) = .ok s ∧
      endlessConfig.throttleHigh ≠ 0 ∧
      (s.run [.start, sendBulk, .tryReceive false]).2.link.phase = .active ∧
      (s.run [.start, sendBulk, .tryReceive false]).2.link.mux.rx.length .bulk = 0 ∧
      (s.run [.start, sendBulk, .tryReceive false]).2.link.flow.isThrottling = true :=
  ⟨_, rfl, by decide +kernel⟩

def dropsBulk (step : Step) (s : Session) : Bool :=
  decide (s.link.stats.droppedOverrun < (s.step step).2.link.stats.droppedOverrun) &&
    (finishing step s).any fun t => t.rx.any fun b =>
      s.link.config.frame.priorityIn? b.bytes == some .bulk

/-- The received side between two moments at which no transfer is finished: frames may have been
received, and none was dropped. -/
structure Drained (l l' : Link) : Prop where
  depths : l'.mux.rx.depths = l.mux.rx.depths
  shrunk : l'.mux.rx.length .bulk ≤ l.mux.rx.length .bulk
  dropped : l'.stats.droppedOverrun = l.stats.droppedOverrun

theorem drained_of_same (hrx : l'.mux.rx = l.mux.rx)
    (hdropped : l'.stats.droppedOverrun = l.stats.droppedOverrun) : Drained l l' :=
  ⟨by rw [hrx], by rw [hrx], hdropped⟩

theorem drained_armNext (h : l.Vacant) : Drained l l.armNext :=
  drained_of_same (Link.rx_armNext h) (Link.droppedOverrun_armNext h)

theorem drained_readied (h : l.Vacant) : Drained l l.readied :=
  drained_of_same (Link.rx_readied h) (Link.droppedOverrun_readied h)

theorem drained_acting (h : s.link.Steady []) (hacting : s.Acting step (r, m)) :
    Drained s.link m.link := by
  cases hacting with
  | aside | stopped | clocked | dropped => exact drained_of_same rfl rfl
  | started starting =>
    obtain ⟨hrx, hstats, _⟩ := inbound_starting h starting
    exact drained_of_same hrx (by rw [hstats])
  | submitted offer submission =>
    cases submission with
    | queued _ _ _ room =>
      obtain ⟨tx, _, rfl⟩ := Option.map_eq_some_iff.mp room
      exact drained_of_same rfl rfl
    | refused e scribbled counted =>
      simp only [List.mem_cons, List.not_mem_nil, or_false] at counted
      rcases counted with rfl | rfl | rfl <;> exact drained_of_same rfl rfl
  | retried parked pending =>
    obtain ⟨hsteady, hidle⟩ := steady_retry h pending
    have harmed := drained_armNext (hsteady.vacant hidle (Nat.zero_le _))
    exact ⟨harmed.depths, harmed.shrunk, harmed.dropped⟩
  | @received _ p _ _ _ _ _ _ due counted kept =>
    refine ⟨PriorityQueues.depths_pop? due, ?_, ?_⟩
    · obtain ⟨hhead, hothers, _⟩ := PriorityQueues.get_pop? due
      by_cases hp : .bulk = p
      · simp [PriorityQueues.length, hp, hhead]
      · simp [PriorityQueues.length, hothers _ hp]
    · simp only [List.mem_cons, List.not_mem_nil, or_false] at counted
      rcases counted with rfl | rfl | rfl <;> rfl

theorem drained_act (h : s.link.Steady []) (hstays : ¬ s.Dismantles step) :
    Drained s.link (s.act step).2.link := by
  have hcases := acting_or_ending h step
  generalize s.act step = out at hcases ⊢
  obtain ⟨r, m⟩ := out
  rcases hcases with hacting | hending
  · exact drained_acting h hacting
  · cases hending with
    | closing | left | refusing => exact drained_of_same rfl rfl
    | dismantled final => exact absurd final hstays

theorem finishing_of_dismantles (h : s.quiet.Dismantles step) : finishing step s = [] := by
  have hnone : (s.quiet.act step).2.link.unfinished = [] := by
    rw [act_of_dismantles h]
    rfl
  simp [finishing, hnone]

/-- A frame that is dropped for want of room found the queue of its priority full. -/
theorem full_of_turnAround {t : Transaction} {b : Block} {size : Nat} {p : Priority}
    (hvacant : l.Vacant) (hshaped : t.Shaped size) (hrx : t.rx = some b)
    (hpriority : l.config.frame.priorityIn? b.bytes = some p)
    (hgrown : l.stats.droppedOverrun < (l.turnAround t).stats.droppedOverrun) :
    l.mux.rx.depths.get p ≤ l.mux.rx.length p := by
  obtain ⟨tx, htx⟩ := hshaped.tx
  obtain ⟨rx, dropped, hbrought, hinbox⟩ := Link.brought_finish htx hrx l.readied
  have hdropped := (drained_readied hvacant).dropped
  rw [Link.turnAround_eq, hinbox.dropped] at hgrown
  cases hbrought with
  | faulted | rejected | queued => omega
  | overrun clean decode full =>
    rw [(Link.unmoved_readied hvacant).config] at decode
    rw [Link.rx_readied hvacant, PriorityQueues.push?_eq_none_iff] at full
    rw [FrameConfig.priorityIn?_of_ok decode, Option.some.injEq] at hpriority
    rwa [hpriority] at full

/-- A bulk frame is dropped only if the bulk queue was full before the step already. -/
theorem full_of_dropsBulk (hsteady : s.Steady) (hdrops : s.dropsBulk step = true) :
    s.link.mux.rx.depths.get .bulk ≤ s.link.mux.rx.length .bulk := by
  simp only [dropsBulk, Bool.and_eq_true, decide_eq_true_eq, List.any_eq_true,
    Option.any_eq_true, beq_iff_eq] at hdrops
  obtain ⟨hgrown, t, ht, b, hrx, hpriority⟩ := hdrops
  have hquiet := steady_quiet hsteady
  have hacted := steady_act step hquiet
  have hstays : ¬ s.quiet.Dismantles step := by
    intro hfinal
    simp [finishing_of_dismantles hfinal] at ht
  have hdrained := drained_act hquiet.traffic hstays
  -- The overrun belongs to the one transfer that is finished: nothing is dropped before.
  rcases idled_or_turned hacted.traffic with hidled | ⟨u, l, hturn, hsettle⟩
  · simp [finishing_of_idled hidled] at ht
  · obtain ⟨hone, hnone⟩ := unfinished_of_turned hacted.traffic hturn hsettle
    rw [finishing_of_turned hone hnone, List.mem_singleton] at ht
    subst ht
    obtain ⟨hturned, hidle, hshaped⟩ := Link.steady_of_turn? hacted.traffic hturn
    have hpriority' : (s.quiet.act step).2.link.config.frame.priorityIn? b.bytes = some .bulk := by
      rw [config_act step hquiet.traffic]
      exact hpriority
    have hgrown' : (s.quiet.act step).2.link.stats.droppedOverrun <
        (l.turnAround t).stats.droppedOverrun := by
      rw [hdrained.dropped, ← hsettle]
      exact hgrown
    have hvacant := hturned.vacant hidle (Nat.le_refl _)
    obtain ⟨_, signals, rfl⟩ := Link.turn?_eq_some hacted.traffic.unfinished_le_one hturn
    have hfull := full_of_turnAround hvacant hshaped hrx hpriority' hgrown'
    calc s.link.mux.rx.depths.get .bulk
        = (s.quiet.act step).2.link.mux.rx.depths.get .bulk := by rw [hdrained.depths]; rfl
      _ ≤ (s.quiet.act step).2.link.mux.rx.length .bulk := hfull
      _ ≤ s.link.mux.rx.length .bulk := hdrained.shrunk

/-- With the bulk receive queue full, the host is not asked to hold back exactly if the higher mark
is 100, and a bulk frame is dropped for want of room in such a state only. -/
theorem full_unthrottled_iff (hcreate : create c host = .ok s) (henabled : c.throttleHigh ≠ 0)
    (steps : List Step) (hstanding : (s.run steps).2.link.phase ≠ .deinit) :
    ((s.run steps).2.link.mux.rx.length .bulk = c.rxDepths.bulk →
      ((s.run steps).2.link.flow.isThrottling = false ↔ c.throttleHigh = 100)) ∧
    ∀ step, (s.run steps).2.dropsBulk step = true →
      (s.run steps).2.link.mux.rx.length .bulk = c.rxDepths.bulk ∧
        ((s.run steps).2.link.flow.isThrottling = false ↔ c.throttleHigh = 100) := by
  have hhigh := (LinkConfig.marks_of_validate (validate_of_create hcreate) henabled).2
  have hfollows := follows_run hcreate henabled hstanding
  have hiff := hfollows.unthrottled_iff hhigh (room_of_create hcreate)
  refine ⟨hiff, ?_⟩
  intro step hdrops
  have hfull := full_of_dropsBulk (steady_run hcreate steps).1 hdrops
  rw [show (s.run steps).2.link.mux.rx.depths.get .bulk = c.rxDepths.bulk from hfollows.depth]
    at hfull
  have hequal := Nat.le_antisymm hfollows.heeds_now.within hfull
  exact ⟨hequal, hiff hequal⟩

theorem full_unthrottled_iff_small :
    ∃ s, create smallConfig (matchingHost smallConfig) = .ok s ∧
      (s.run [.start, sendBulk]).2.dropsBulk sendBulk = true ∧
      ((s.run [.start, sendBulk]).2.link.flow.isThrottling = false ↔
        smallConfig.throttleHigh = 100) :=
  ⟨_, rfl, by decide +kernel, ((full_unthrottled_iff (c := smallConfig) rfl (by decide)
    [.start, sendBulk] (by decide +kernel)).2 sendBulk (by decide +kernel)).2⟩

def brimConfig : LinkConfig := { smallConfig with throttleHigh := 100 }

/-- The queue is full and the next frame is dropped, and the host is not asked to hold back. -/
theorem full_queue_unthrottled :
    ∃ s, create brimConfig (matchingHost brimConfig) = .ok s ∧ brimConfig.throttleHigh ≠ 0 ∧
      (s.run [.start, sendBulk]).2.link.phase = .active ∧
      (s.run [.start, sendBulk]).2.link.mux.rx.length .bulk = brimConfig.rxDepths.bulk ∧
      (s.run [.start, sendBulk]).2.link.flow.isThrottling = false ∧
      (s.run [.start, sendBulk]).2.dropsBulk sendBulk = true :=
  ⟨_, rfl, by decide +kernel⟩

end Session
end SlaveLink
