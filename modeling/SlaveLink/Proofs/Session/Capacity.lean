import Mathlib.Data.List.Induction
import SlaveLink.Proofs.Link.Capacity
import SlaveLink.Proofs.Session.Ownership

/-! # Memory suffices
The bus may hold more transactions than the one that is ever under way. As long as the application
holds no more received frames than the blocks of the others, no pool runs dry, and a frame is
refused only if the queue of its own priority is full. Steps do not overlap here: no frame is being
written while the worker arms. -/

namespace SlaveLink

/-- How many received frames the application may hold: two for each transaction that the bus could
hold beside the one under way. -/
def LinkConfig.holdLimit (c : LinkConfig) : Nat := 2 * (c.busQueueSize - 1)

namespace Session

variable {s m : Session} {c : LinkConfig} {host : HostLevels} {step : Step} {r : Reply} {n : Nat}
  {before after steps : List Step}

def HoldsAtMost (n : Nat) (s : Session) (steps : List Step) : Prop :=
  ∀ k ≤ steps.length, (s.run (steps.take k)).2.kept.length ≤ n

instance : Decidable (s.HoldsAtMost n steps) :=
  inferInstanceAs (Decidable (∀ k ≤ steps.length, (s.run (steps.take k)).2.kept.length ≤ n))

theorem HoldsAtMost.of_append (h : s.HoldsAtMost n (before ++ after)) : s.HoldsAtMost n before := by
  intro k hk
  have hall := h k (by simp only [List.length_append]; omega)
  rwa [List.take_append_of_le_length hk] at hall

theorem HoldsAtMost.last (h : s.HoldsAtMost n steps) : (s.run steps).2.kept.length ≤ n := by
  have hall := h steps.length (Nat.le_refl _)
  rwa [List.take_length] at hall

/-- What the pools have lent is with the link or the application, no queue is too long, no pool ever
ran dry, and the application holds no more frames than it may. -/
structure Stocked (c : LinkConfig) (s : Session) : Prop extends s.Steady where
  config : s.link.config = c
  balanced : s.Balanced
  ample : s.link.Ample c
  depth : 0 < c.txDepths.total
  limit : s.kept.length ≤ c.holdLimit

theorem Stocked.within (h : s.Stocked c) : s.link.mux.Within s.link.config := by
  rw [h.config]
  exact h.ample.within

theorem stocked_create (hcreate : create c host = .ok s) : s.Stocked c := by
  obtain ⟨hlink, hs⟩ := create_eq_ok hcreate
  obtain ⟨hvalid, hl⟩ := Link.create_eq_ok hlink
  have hdepth : 0 < c.txDepths.control := LinkConfig.depth_of_validate hvalid .tx .control
  have hnone : s.kept = [] := by
    rw [hs]
    rfl
  refine ⟨(sound_create hcreate).toSteady, Link.config_create hlink, balanced_create hcreate, ?_,
    ?_, ?_⟩
  · rw [hl]
    exact ⟨⟨rfl, rfl, PriorityQueues.bounded_empty _, PriorityQueues.bounded_empty _⟩, rfl⟩
  · simp only [PerPriority.total]
    omega
  · simp [hnone]

theorem stocked_quiet (h : s.Stocked c) : s.quiet.Stocked c :=
  ⟨steady_quiet h.toSteady, h.config, h.balanced, ⟨h.ample.within, h.ample.counter⟩, h.depth,
    h.limit⟩

/-- Beside what the application holds, two blocks of those for the bus are always left. -/
theorem Stocked.spare (h : s.Stocked c) :
    s.places.length + 2 ≤ s.link.config.busQueueSize * 2 := by
  have hroom : 0 < s.link.config.busQueueSize := h.traffic.depth
  have hlimit := h.limit
  rw [← h.config, LinkConfig.holdLimit] at hlimit
  rw [places, List.length_map]
  omega

/-- Three blocks are free, less two for each transfer under way. -/
theorem three_blocks (h : s.Stocked c) :
    3 ≤ s.link.memory.wire.available + 2 * s.link.transfers.length := by
  have hshaped : ∀ t ∈ s.link.transfers, t.Shaped s.link.config.frame.blockSize := by
    rw [Link.transfers_of_steady h.traffic]
    exact h.traffic.shaped
  have hblocks := Link.Balanced.blocks_eq h.balanced hshaped
  have hsending := PriorityQueues.total_le_of_bounded h.within.sending
  have hreceived := PriorityQueues.total_le_of_bounded h.within.received
  have hspare := h.spare
  rw [h.within.sendingDepths] at hsending
  rw [h.within.receivedDepths] at hreceived
  rw [LinkConfig.wireBlocks] at hblocks
  -- Full queues take no more than their depths, so what is left is for the bus, and the spare one.
  omega

/-- With one transfer under way at most, a block and a transaction are free. -/
theorem available_of_stocked (h : s.Stocked c) :
    1 ≤ s.link.memory.wire.available ∧ 1 ≤ s.link.memory.transactions.available := by
  have hthree := three_blocks h
  rw [Link.transfers_of_steady h.traffic, List.length_append] at hthree
  have hroom : 0 < s.link.config.busQueueSize := h.traffic.depth
  have hsingle : s.link.bus.loaded.toList.length + s.link.unfinished.length ≤ 1 := h.traffic.single
  have hblanks : s.link.memory.transactions.available + s.link.bus.loaded.toList.length +
      s.link.unfinished.length = s.link.config.busQueueSize + 1 := h.traffic.conserved
  omega

/-- Before a retry there is all it takes to arm. -/
theorem supplied_retry (h : s.Stocked c) (hpending : s.link.rearmPending = true) :
    { s.link with rearmPending := false }.Supplied := by
  obtain ⟨hsteady, hidle⟩ := steady_retry h.traffic hpending
  have hhand : s.places.length ≤ s.link.config.busQueueSize * 2 :=
    Nat.le_trans (Nat.le_add_right ..) h.spare
  have hdepth := h.depth
  rw [← h.config] at hdepth
  exact Link.supplied_of_balanced (l := { s.link with rearmPending := false })
    (hsteady.vacant hidle (Nat.zero_le _)) h.balanced h.within
    (Link.transfers_of_idle hsteady hidle) hdepth hhand

/-- So there is when the worker turns a transfer around, with two blocks still in hand. -/
theorem supplied_of_turn? {withheld : Bool} {t : Transaction} {l : Link} (h : s.Stocked c)
    (hturn : s.link.turn? withheld = some (t, l)) : l.Supplied ∧ l.Ample c := by
  obtain ⟨hsteady, hidle, hshaped⟩ := Link.steady_of_turn? h.traffic hturn
  have hbalanced := Link.balanced_of_turn? h.balanced h.traffic hturn
  obtain ⟨_, signals, rfl⟩ := Link.turn?_eq_some h.traffic.unfinished_le_one hturn
  have hspare := h.spare
  have hdepth := h.depth
  rw [← h.config] at hdepth
  refine ⟨?_, h.ample.within, h.ample.counter⟩
  apply Link.supplied_of_balanced (hsteady.vacant hidle (Nat.le_refl _)) hbalanced h.within
    (Link.transfers_of_idle hsteady hidle) hdepth
  simp only [List.length_append, List.length_map, hshaped.length_blocks]
  omega

theorem request_eq (f : Link → Except LinkError Unit × Link) (s : Session) :
    s.request f = (answer (f s.link).1, { s with link := (f s.link).2 }) := by
  unfold request
  rcases f s.link with ⟨_ | _, l⟩ <;> rfl

theorem act_of_offer {f : Frame} (hoffer : step.offer? s.link.sequence = some f) :
    ∃ sequence, s.act step = s.request fun l =>
      { l with sequence }.submitHeader f.header f.payload := by
  cases step with
  | submitNext interface number payload =>
    obtain rfl := Option.some.inj hoffer
    exact ⟨s.link.sequence + 1, rfl⟩
  | submit g =>
    obtain rfl := Option.some.inj hoffer
    exact ⟨s.link.sequence, rfl⟩
  | _ => cases hoffer

theorem ample_acting (h : s.Stocked c) (hstart : step ≠ .start)
    (hoffer : step.offer? s.link.sequence = none) (hacting : s.Acting step (r, m)) :
    m.link.Ample c := by
  cases hacting with
  | aside | stopped | clocked | dropped => exact ⟨h.ample.within, h.ample.counter⟩
  | started => exact absurd rfl hstart
  | submitted offer => exact absurd (hoffer.symm.trans offer) nofun
  | retried parked pending =>
    exact Link.ample_armNext (supplied_retry h pending) ⟨h.ample.within, h.ample.counter⟩
  | received due counted =>
    refine ⟨h.ample.within.taken due, ?_⟩
    simp only [List.mem_cons, List.not_mem_nil, or_false] at counted
    rcases counted with rfl | rfl | rfl <;> exact h.ample.counter

theorem ample_ending (h : s.Stocked c) (hending : s.Ending step (r, m)) : m.link.Ample c := by
  cases hending with
  | closing | left | refusing => exact ⟨h.ample.within, h.ample.counter⟩
  | dismantled =>
    have hdraining : { s.link with phase := .draining }.Steady [] := h.traffic.setPhase nofun
    simp only [onLink]
    rw [Link.dismantle_windDown]
    exact Link.ample_dismantle (Link.ample_parted hdraining ⟨h.ample.within, h.ample.counter⟩)

theorem ample_act (step : Step) (h : s.Stocked c) : (s.act step).2.link.Ample c := by
  by_cases hstart : step = .start
  · subst hstart
    rw [act_start]
    exact Link.ample_start h.traffic h.ample
  · cases hoffer : step.offer? s.link.sequence with
    | some f =>
      obtain ⟨sequence, hact⟩ := act_of_offer hoffer
      rw [hact, request_eq]
      exact (Link.submitHeader_of_available (l := { s.link with sequence }) f.header f.payload
        ⟨h.ample.within, h.ample.counter⟩ (available_of_stocked h).1).1
    | none =>
      rcases acting_or_ending h.traffic step with hacting | hending
      · exact ample_acting h hstart hoffer hacting
      · exact ample_ending h hending

theorem ample_rest (h : s.Stocked c) : s.settle.link.Ample c := by
  unfold settle
  split
  · exact h.ample
  · have hsettling := Link.settling h.traffic s.withheld
    simp only [onLink]
    generalize s.link.settle s.withheld = l at hsettling ⊢
    cases hsettling with
    | rest => exact h.ample
    | wait | hold => exact ⟨h.ample.within, h.ample.counter⟩
    | turn turn =>
      obtain ⟨_, _, hshaped⟩ := Link.steady_of_turn? h.traffic turn
      obtain ⟨hsupplied, hample⟩ := supplied_of_turn? h turn
      exact Link.ample_turnAround hshaped hsupplied hample

theorem kept_rest (s : Session) : s.settle.kept = s.kept := by
  rw [kept, held_rest, kept]

theorem stocked_act (step : Step) (hlimit : (s.step step).2.kept.length ≤ c.holdLimit)
    (h : s.Stocked c) : (s.quiet.act step).2.Stocked c := by
  have hquiet := stocked_quiet h
  exact
    { steady_act step hquiet.toSteady with
      config := (config_act step hquiet.traffic).trans hquiet.config
      balanced := balanced_act step hquiet.traffic hquiet.balanced
      ample := ample_act step hquiet
      depth := h.depth
      limit := by
        have hsame := kept_rest (s.quiet.act step).2
        rwa [← hsame] }

theorem stocked_step (step : Step) (hlimit : (s.step step).2.kept.length ≤ c.holdLimit)
    (h : s.Stocked c) : (s.step step).2.Stocked c := by
  have hacted := stocked_act step hlimit h
  exact
    { steady_step step h.toSteady with
      config := (config_step step h.toSteady).trans h.config
      balanced := balanced_step step h.toSteady h.balanced
      ample := ample_rest hacted
      depth := h.depth
      limit := hlimit }

theorem stocked_run (hcreate : create c host = .ok s) (hheld : s.HoldsAtMost c.holdLimit steps) :
    (s.run steps).2.Stocked c := by
  induction steps using List.reverseRecOn with
  | nil => exact stocked_create hcreate
  | append_singleton before step ih =>
    have hlimit := hheld.last
    rw [run_concat] at hlimit ⊢
    exact stocked_step step hlimit (ih hheld.of_append)

theorem error_of_answer {result : Except LinkError Unit} {e : LinkError}
    (h : answer result = .refused e) : result = .error e := by
  cases result with
  | ok _ => cases h
  | error e' => exact congrArg Except.error (Reply.refused.inj h)

theorem transferred_ne_refused {hold : Bool} {ended : Except DeviceError Bytes × Session}
    {e : LinkError} : (transferred hold ended).1 ≠ .refused e := by
  obtain ⟨_ | _, _⟩ := ended <;> nofun

theorem wakeWorker_ne_refused {f : Link → Link} {e : LinkError} :
    (s.wakeWorker f).1 ≠ .refused e := by
  unfold wakeWorker
  split <;> nofun

theorem device_of_start {e : DeviceError} (h : s.Stocked c)
    (hreply : (s.act .start).1 = .refused (.device e)) :
    e = .busNotReady ∧ s.link.refusals ≠ 0 := by
  rw [act_start] at hreply
  refine Link.device_start h.traffic ?_ (error_of_answer hreply)
  intro hphase
  have hidle := (h.traffic.dormant hphase).1
  have hthree := three_blocks h
  rw [Link.transfers_of_idle h.traffic hidle, List.length_nil] at hthree
  omega

theorem not_device_of_offer {f : Frame} {e : DeviceError} (h : s.Stocked c)
    (hoffer : step.offer? s.link.sequence = some f) : (s.act step).1 ≠ .refused (.device e) := by
  obtain ⟨sequence, hact⟩ := act_of_offer hoffer
  rw [hact, request_eq]
  intro hreply
  exact (Link.submitHeader_of_available (l := { s.link with sequence }) f.header f.payload
    ⟨h.ample.within, h.ample.counter⟩ (available_of_stocked h).1).2 e (error_of_answer hreply)

theorem not_device_of_receives {hold : Bool} (e : DeviceError)
    (hstep : step = .tryReceive hold ∨ ∃ limit, step = .receive limit hold) :
    (s.act step).1 ≠ .refused (.device e) := by
  rcases act_of_receives hstep with ⟨r, _, hother, hact⟩ | ⟨p, i, rx, _, hact⟩
  · rw [hact]
    exact hother e
  · simp [hact]

/-- Of the pools and the driver, only a driver that refuses ever fails a request. -/
theorem device_act {e : DeviceError} (step : Step) (h : s.Stocked c)
    (hreply : (s.act step).1 = .refused (.device e)) :
    e = .busNotReady ∧ s.link.refusals ≠ 0 := by
  cases step with
  | start => exact device_of_start h hreply
  | submitNext | submit => exact absurd hreply (not_device_of_offer h rfl)
  | tryReceive hold => exact absurd hreply (not_device_of_receives e (.inl rfl))
  | receive limit hold => exact absurd hreply (not_device_of_receives e (.inr ⟨limit, rfl⟩))
  | exchange | clock => exact absurd hreply transferred_ne_refused
  | tick | busError | busShutdown => exact absurd hreply wakeWorker_ne_refused
  | waitReady | deinit | dropHeld =>
    simp only [act] at hreply
    split at hreply <;> cases hreply
  | drain | finishDrain | burn | deliver | select | deselect | refuse | showHeld | register =>
    cases hreply

theorem willing_of_mem_armings (h : s.Steady) (hrefuse : ∀ n, step ≠ .refuse n)
    (hwilling : s.link.refusals = 0) : ∀ l ∈ s.armings step, l.refusals = 0 := by
  refine forall_mem_armings (fun _ => hwilling) (fun t l hturn => ?_)
  have hone := (steady_act step (steady_quiet h)).traffic.unfinished_le_one
  obtain ⟨_, signals, rfl⟩ := Link.turn?_eq_some hone hturn
  exact willing_act (s := s.quiet) h.traffic hrefuse hwilling

theorem supplied_of_mem_armings (h : s.Stocked c)
    (hlimit : (s.step step).2.kept.length ≤ c.holdLimit) : ∀ l ∈ s.armings step, l.Supplied :=
  forall_mem_armings (fun hpending => supplied_retry (stocked_quiet h) hpending)
    (fun _ _ hturn => (supplied_of_turn? (stocked_act step hlimit h) hturn).1)

/-- Both pools have something left, and an open link refuses a frame that it can carry only if the
queue of the frame's priority is full. -/
structure Provided (c : LinkConfig) (s : Session) : Prop where
  block : 1 ≤ s.link.memory.wire.available
  transaction : 1 ≤ s.link.memory.transactions.available
  counter : s.link.stats.poolExhausted = 0
  submits : s.link.isOpen = true → ∀ step f, step.offer? s.link.sequence = some f →
    Link.Legal c f.interface f.payload → (s.step step).1 =
      if s.link.mux.tx.length f.interface.priority = c.txDepths.get f.interface.priority then
        .refused (.queueFull f.interface.priority) else .done

/-- Nothing in the run fails for want of memory. Only a driver that was told to refuse fails a
request, or an attempt to arm. -/
structure Suffices (c : LinkConfig) (s : Session) (steps : List Step) : Prop extends
    (s.run steps).2.Provided c where
  replies : ∀ e, .refused (.device e) ∈ (s.run steps).1 →
    e = .busNotReady ∧ ∃ n, .refuse n ∈ steps
  arms : ∀ before step after, before ++ step :: after = steps →
    ∀ l ∈ (s.run before).2.armings step, (l.arm none).1 = .ok () ∨
      (l.arm none).1 = .error .busNotReady ∧ ∃ n, .refuse n ∈ steps

theorem submit_of_stocked {f : Frame} (h : s.Stocked c) (hopen : s.link.isOpen = true)
    (hoffer : step.offer? s.link.sequence = some f)
    (hlegal : Link.Legal c f.interface f.payload) : (s.step step).1 =
      if s.link.mux.tx.length f.interface.priority = c.txDepths.get f.interface.priority then
        .refused (.queueFull f.interface.priority) else .done := by
  obtain ⟨sequence, hact⟩ := act_of_offer (s := s.quiet) hoffer
  rw [← h.config] at hlegal
  have hanswer := Link.submitHeader_of_legal (l := { s.quiet.link with sequence })
    (h := f.header) hopen h.sized.free (available_of_stocked h).1 hlegal
  have hdepths : s.link.mux.tx.depths = c.txDepths := h.ample.within.sendingDepths
  have hbound := h.ample.within.sending f.interface.priority
  have hstep : (s.step step).1 = (s.quiet.act step).1 := rfl
  rw [hdepths] at hbound
  rw [hstep, hact, request_eq, hanswer]
  show answer (if s.link.mux.tx.length f.interface.priority <
    s.link.mux.tx.depths.get f.interface.priority then _ else _) = _
  rw [hdepths]
  by_cases hfull : s.link.mux.tx.length f.interface.priority =
      c.txDepths.get f.interface.priority
  · rw [if_pos hfull, if_neg (by omega)]
    rfl
  · rw [if_neg hfull, if_pos (by omega)]
    rfl

theorem provided (h : s.Stocked c) : s.Provided c where
  block := (available_of_stocked h).1
  transaction := (available_of_stocked h).2
  counter := h.ample.counter
  submits := fun hopen _ _ hoffer hlegal => submit_of_stocked h hopen hoffer hlegal

/-- The driver refuses nothing until it is told to. -/
theorem refused_of_unwilling (hcreate : create c host = .ok s)
    (hunwilling : (s.run before).2.link.refusals ≠ 0) : ∃ n, .refuse n ∈ before := by
  by_contra hnone
  have hsound := sound_create hcreate
  exact hunwilling (willing_run hsound.toSteady hsound.willing (not_exists.mp hnone))

theorem reply_of_stocked {e : DeviceError} (hcreate : create c host = .ok s)
    (hheld : s.HoldsAtMost c.holdLimit steps) (hreply : .refused (.device e) ∈ (s.run steps).1) :
    e = .busNotReady ∧ ∃ n, .refuse n ∈ steps := by
  obtain ⟨before, step, after, rfl, hanswer⟩ := exists_of_mem_replies hreply
  have hbefore := stocked_run hcreate hheld.of_append
  obtain ⟨he, hunwilling⟩ := device_act step (stocked_quiet hbefore) hanswer
  obtain ⟨n, hmem⟩ := refused_of_unwilling hcreate hunwilling
  exact ⟨he, n, List.mem_append_left _ hmem⟩

theorem arms_of_stocked {l : Link} (hcreate : create c host = .ok s)
    (hheld : s.HoldsAtMost c.holdLimit (before ++ step :: after))
    (hl : l ∈ (s.run before).2.armings step) : (l.arm none).1 = .ok () ∨
      (l.arm none).1 = .error .busNotReady ∧ ∃ n, .refuse n ∈ before ++ step :: after := by
  have hbefore := stocked_run hcreate hheld.of_append
  have hlimit : ((s.run before).2.step step).2.kept.length ≤ c.holdLimit := by
    rw [← run_concat]
    rw [List.append_cons] at hheld
    exact hheld.of_append.last
  have harm := Link.arm_of_supplied (supplied_of_mem_armings hbefore hlimit l hl)
  by_cases hwilling : l.refusals = 0
  · exact .inl (harm.trans (if_pos hwilling))
  · refine .inr ⟨harm.trans (if_neg hwilling), ?_⟩
    by_contra hnone
    have hrefuse : ∀ n, step ≠ .refuse n := by
      rintro n rfl
      exact hnone ⟨n, by simp⟩
    have hfirst : (s.run before).2.link.refusals = 0 := by
      by_contra hunwilling
      obtain ⟨n, hmem⟩ := refused_of_unwilling hcreate hunwilling
      exact hnone ⟨n, List.mem_append_left _ hmem⟩
    exact hwilling (willing_of_mem_armings hbefore.toSteady hrefuse hfirst l hl)

/-- As long as the application holds no more received frames than it may, no pool runs dry. -/
theorem pools_suffice (hcreate : create c host = .ok s)
    (hheld : s.HoldsAtMost c.holdLimit steps) : s.Suffices c steps where
  toProvided := provided (stocked_run hcreate hheld)
  replies := fun _ hreply => reply_of_stocked hcreate hheld hreply
  arms := by
    rintro before step after rfl l hl
    exact arms_of_stocked hcreate hheld hl

def spareConfig : LinkConfig := { smallConfig with busQueueSize := 2 }

/-- The host sends two frames, which the application holds, and two more, of which one has no room;
then the application submits a frame, and another one, for which there is no room either. -/
def crowding : List Step :=
  let frame := ((Frame.ofPayload .serial [7]).encode spareConfig.frame (Bytes.zeros 64)).2
  [.start, .clock frame false, .tryReceive true, .clock frame false, .tryReceive true,
    .clock frame false, .clock frame false, .submitNext .serial 0 [7], .submitNext .serial 0 [7]]

theorem pools_suffice_small : ∃ s, create spareConfig (matchingHost spareConfig) = .ok s ∧
    (s.run crowding).2.kept.length = spareConfig.holdLimit ∧ s.Suffices spareConfig crowding :=
  ⟨_, rfl, by decide +kernel, pools_suffice (c := spareConfig) rfl (by decide +kernel)⟩

end Session
end SlaveLink
