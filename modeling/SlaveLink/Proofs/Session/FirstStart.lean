import SlaveLink.Proofs.Link.Capacity
import SlaveLink.Proofs.Session.Activation
import SlaveLink.Proofs.Session.Handshake
import SlaveLink.Proofs.Session.Ownership

/-! # The first start
Frames that were submitted before leave enough blocks for the startup event and for what comes in
with it, so the first start succeeds whenever the event fits the buffer. A buffer may be valid and
yet too small for that; then the start is refused. -/

namespace SlaveLink

namespace Session

variable {s m : Session} {c : LinkConfig} {host : HostLevels} {step : Step} {r : Reply}

structure Untouched (c : LinkConfig) (s : Session) : Prop where
  startup : s.link.startup = { capabilities := c.slaveCapabilities }
  depths : s.link.mux.tx.depths = c.txDepths
  waiting : s.link.mux.tx.Bounded
  received : s.link.mux.rx.items = []
  kept : s.kept = []

theorem untouched_acting (h : s.link.Orderly []) (hinitialized : s.link.phase = .initialized)
    (hstep : step ≠ .start) (huntouched : s.Untouched c) (hacting : s.Acting step (r, m)) :
    m.Untouched c := by
  obtain ⟨hstartup, hdepths, hwaiting, hreceived, hkept⟩ := huntouched
  obtain ⟨hidle, _, hretry⟩ := h.dormant hinitialized
  cases hacting with
  | aside | stopped => exact ⟨hstartup, hdepths, hwaiting, hreceived, hkept⟩
  | started => exact absurd rfl hstep
  | submitted _ submission =>
    cases submission with
    | queued _ _ _ room =>
      obtain ⟨tx, hpush, rfl⟩ := Option.map_eq_some_iff.mp room
      exact ⟨hstartup, (PriorityQueues.depths_push? hpush).trans hdepths,
        PriorityQueues.bounded_push? hpush hwaiting, hreceived, hkept⟩
    | refused => exact ⟨hstartup, hdepths, hwaiting, hreceived, hkept⟩
  | clocked _ loaded =>
    have hnone : s.link.bus.loaded = none := hidle.loaded
    simp [hnone] at loaded
  | retried _ pending =>
    have hnone : s.link.rearmPending = false := hretry
    simp [hnone] at pending
  | received due =>
    have hitems := PriorityQueues.items_pop? due
    simp [hreceived] at hitems
  | dropped held =>
    have hnone : s.held.filterMap id = [] := hkept
    have hlength := (filterMap_set_none held).length_eq
    rw [hnone] at hlength
    cases hlength

/-- Nothing but the application's and the host's doings so far, and every block has its owner. -/
structure Unopened (c : LinkConfig) (s : Session) : Prop extends s.Sound where
  unstarted : Unstarted s.link
  untouched : s.Untouched c
  balanced : s.Balanced
  shows : s.link.Shows .high
  config : s.link.config = c

def Step.isPreparing (step : Step) : Bool :=
  step.isLive && step.exchangesOnly && step != .start

theorem untouched_step (step : Step) (hlive : step.isLive = true) (hstep : step ≠ .start)
    (h : s.Unopened c) : (s.step step).2.Untouched c := by
  have hquiet : s.quiet.link.Orderly [] := h.orderly
  have hinitialized : s.quiet.link.phase = .initialized := h.unstarted.initialized
  have hacting := acting hquiet hlive
  have huntouched : s.quiet.Untouched c := ⟨h.untouched.startup, h.untouched.depths,
    h.untouched.waiting, h.untouched.received, h.untouched.kept⟩
  have hacted : (s.quiet.act step).2.Untouched c :=
    untouched_acting hquiet hinitialized hstep huntouched hacting
  have horderly : (s.quiet.act step).2.link.Orderly [] := orderly_acting hquiet hacting
  have hunstarted : Unstarted (s.quiet.act step).2.link :=
    unstarted_acting hquiet hstep ⟨hinitialized, h.unstarted.unsent⟩ hacting
  have hidle : (s.quiet.act step).2.link.Idle := (horderly.dormant hunstarted.initialized).1
  simp only [Session.step]
  rwa [settle_of_finished horderly.steady hidle.unfinished]

theorem unopened_step (step : Step) (hstep : step.isPreparing = true) (h : s.Unopened c) :
    (s.step step).2.Unopened c := by
  simp only [Step.isPreparing, Bool.and_eq_true, bne_iff_ne] at hstep
  obtain ⟨⟨hlive, hexchanges⟩, hother⟩ := hstep
  obtain ⟨hsound, hunstarted⟩ := unstarted_step step ⟨hlive, hother⟩ ⟨h.toSound, h.unstarted⟩
  exact
    { hsound with
      unstarted := hunstarted
      untouched := untouched_step step hlive hother h
      balanced := balanced_step step h.toSteady h.balanced
      shows := shows_step step hexchanges h.toSteady h.shows
      config := (config_step step h.toSteady).trans h.config }

theorem unopened_create (hcreate : create c host = .ok s) : s.Unopened c := by
  obtain ⟨hlink, hs⟩ := create_eq_ok hcreate
  obtain ⟨_, hl⟩ := Link.create_eq_ok hlink
  refine ⟨sound_create hcreate, ?_, ?_, balanced_create hcreate, Link.shows_create hlink,
    Link.config_create hlink⟩
  · rw [hl]
    exact ⟨rfl, rfl⟩
  · rw [hs, hl]
    exact ⟨rfl, rfl, fun p => by cases p <;> exact Nat.zero_le _, rfl, rfl⟩

/-- The frames that wait leave a block for the event and one for what comes in with it. -/
theorem two_free (h : s.Unopened c) :
    ∃ b rx rest, s.link.memory.wire.free = b :: rx :: rest := by
  have hidle : s.link.Idle := (h.orderly.dormant h.unstarted.initialized).1
  have hqueued : s.link.bus.queued = [] := h.traffic.queued
  have hloaded : s.link.bus.loaded = none := hidle.loaded
  have hbus : 0 < s.link.config.busQueueSize := h.traffic.depth
  have hfinished : s.link.unfinished = [] := hidle.unfinished
  have hnone : s.link.transfers = [] := by
    simp [Link.transfers, Bus.pending, hloaded, hqueued, hfinished]
  have hplaces : s.places = [] := congrArg (List.map _) h.untouched.kept
  have havailable := h.balanced.available
  have htotal := PriorityQueues.total_le_of_bounded h.untouched.waiting
  rw [h.untouched.depths] at htotal
  rw [h.config] at havailable hbus
  simp only [hplaces, Link.occupied, hnone, Multiplexer.blocks, h.untouched.received,
    List.flatMap_nil, List.append_nil, List.nil_append, List.map_nil, List.length_map,
    PriorityQueues.length_items, LinkConfig.wireBlocks] at havailable
  -- The pool has room for every queue and for two blocks a transaction; only frames to send wait.
  have htwo : 2 ≤ s.link.memory.wire.free.length := by
    have hlength : s.link.memory.wire.available = s.link.memory.wire.free.length := rfl
    omega
  obtain ⟨b, rest, hfree⟩ := Link.free_of_available (l := s.link) (Nat.le_of_succ_le htwo)
  rw [hfree, List.length_cons] at htwo
  obtain ⟨rx, rest, rfl⟩ := List.exists_cons_of_length_pos (l := rest) (by omega)
  exact ⟨b, rx, rest, hfree⟩

def startupSize (c : LinkConfig) : Nat := headerSize + c.slaveCapabilities.toEvent.length

theorem startupSize_eq (c : LinkConfig) :
    startupSize c = if c.capabilities.extended.isSome then 41 else 35 := by
  rw [startupSize, Capabilities.length_toEvent, headerSize]
  show 12 + (if c.capabilities.extended.isSome then 29 else 23) = _
  split <;> rfl

theorem canArm_of_unopened (h : s.Unopened c) :
    Link.CanArm { s.quiet.link with phase := .active } := by
  have hidle : s.link.Idle := (h.orderly.dormant h.unstarted.initialized).1
  obtain ⟨⟨hempty, hroom, hblank⟩, hwilling⟩ := h.orderly.canArm hidle (Nat.zero_le _)
  exact ⟨⟨hempty, hroom, hblank⟩, hwilling⟩

theorem capabilities_of_unopened (h : s.Unopened c) :
    s.link.capabilities = c.slaveCapabilities := by
  rw [Link.capabilities, h.untouched.startup]

theorem eventSize_of_unopened (h : s.Unopened c) :
    headerSize + s.link.capabilities.toEvent.length = startupSize c := by
  rw [capabilities_of_unopened h, startupSize]

theorem start_of_fit (h : s.Unopened c) (hfit : startupSize c ≤ c.frame.bufferSize) :
    s.quiet.link.start.1 = .ok () := by
  obtain ⟨b, rx, rest, hfree⟩ := two_free h
  rw [← eventSize_of_unopened h, ← h.config] at hfit
  rw [Link.start_of_early (l := s.quiet.link) h.unstarted.initialized]
  exact Link.armStartup_of_fit (canArm_of_unopened h) h.unstarted.unsent hfree
    (h.sized.free b (by simp [hfree])) hfit

theorem start_of_unfit (h : s.Unopened c) (hunfit : c.frame.bufferSize < startupSize c) :
    s.quiet.link.start.1 = .error (.frame (.payloadTooLarge c.slaveCapabilities.toEvent.length
      c.frame.maxPayload)) := by
  obtain ⟨b, rx, rest, hfree⟩ := two_free h
  rw [← eventSize_of_unopened h, ← h.config] at hunfit
  rw [Link.start_of_early (l := s.quiet.link) h.unstarted.initialized,
    ← capabilities_of_unopened h, ← h.config]
  exact Link.armStartup_of_unfit (l := { s.quiet.link with phase := .active }) h.unstarted.unsent
    hfree hunfit

theorem capabilities_start (h : s.Steady) : (s.step .start).2.link.capabilities =
    s.link.capabilities := by
  have hquiet := steady_quiet h
  have hstarting : s.quiet.link.Starting s.quiet.link.start := Link.starting fun hphase =>
    hquiet.traffic.vacant (hquiet.traffic.dormant hphase).1 (Nat.zero_le _)
  have hacted := (steady_act .start hquiet).traffic
  have hrest := (phase_rest hacted).2
  simp only [Session.step, Link.capabilities, act_start] at hrest ⊢
  rw [hrest]
  generalize s.quiet.link.start = ended at hstarting ⊢
  obtain ⟨r, l⟩ := ended
  cases hstarting with
  | refused => rfl
  | up _ announced => cases announced <;> rfl
  | failed _ _ announced => cases announced <;> rfl

structure Announced (c : LinkConfig) (s : Session) : Prop where
  link : s.link.Announces
  config : s.link.config = c
  capabilities : s.link.capabilities = c.slaveCapabilities
  handshake : (matchingHost c).seesHandshake s.lines = true
  dataReady : (matchingHost c).seesDataReady s.lines = true

theorem loaded_of_announces (h : s.Steady) (hannounces : s.link.Announces) :
    ∃ t, s.link.bus.loaded = some t := by
  obtain ⟨t, _, hpending, _⟩ := hannounces.event
  have hqueued : s.link.bus.queued = [] := h.traffic.queued
  rw [Bus.pending, hqueued, List.append_nil] at hpending
  exact ⟨t, Option.toList_eq_singleton_iff.mp hpending⟩

theorem announced_start (h : s.Unopened c) (hannounces : (s.step .start).2.link.Announces) :
    Announced c (s.step .start).2 := by
  have hconfig := (config_step .start h.toSteady).trans h.config
  have hshows := shows_step .start rfl h.toSteady h.shows
  have hcapabilities := (capabilities_start h.toSteady).trans (capabilities_of_unopened h)
  obtain ⟨t, ht⟩ := loaded_of_announces (steady_step .start h.toSteady) hannounces
  have hloaded : (s.step .start).2.link.bus.loaded.isSome = true := by rw [ht]; rfl
  exact ⟨hannounces, hconfig, hcapabilities,
    (seesHandshake_of_shows hshows hconfig).trans hloaded,
    (seesDataReady_of_shows hshows hconfig).trans hannounces.dataReady⟩

/-- What the first start comes to: the event is armed if it fits the buffer, and otherwise the start
is refused with nothing armed. -/
structure StartsIfFit (c : LinkConfig) (s : Session) : Prop where
  fit : startupSize c ≤ c.frame.bufferSize →
    (s.step .start).1 = .done ∧ Announced c (s.step .start).2
  unfit : c.frame.bufferSize < startupSize c →
    (s.step .start).1 = .refused (.frame (.payloadTooLarge c.slaveCapabilities.toEvent.length
      c.frame.maxPayload)) ∧ (s.step .start).2.link.Spent

theorem startsIfFit (h : s.Unopened c) : s.StartsIfFit c := by
  have hearly := h.unstarted.initialized
  obtain ⟨result, l, heq, hactivating, hstart⟩ := step_start h.toSteady hearly
  have hreply : (s.step .start).1 = answer s.quiet.link.start.1 := by rw [hstart, heq]
  have hbegan : s.Began false := ⟨h.toSteady, fun _ => h.unstarted.unsent⟩
  have honce := startsOnce hbegan
  refine ⟨?_, ?_⟩
  · intro hfit
    have hdone : (s.step .start).1 = .done := by rw [hreply, start_of_fit h hfit]; rfl
    exact ⟨hdone, announced_start h (honce.announces hdone rfl)⟩
  · intro hunfit
    have hrefused := hreply
    rw [start_of_unfit h hunfit] at hrefused
    have hfailed : (s.step .start).1.startFailed = true := by rw [hrefused]; rfl
    exact ⟨hrefused, (honce.failed hfailed).1⟩

/-- Whatever was submitted before, the first start arms the startup event if that fits the buffer.
If not, the start is refused. -/
theorem first_start_announces (hcreate : create c host = .ok s) {before : List Step}
    (hbefore : ∀ step ∈ before, step.isPreparing = true) :
    startupSize c = (if c.capabilities.extended.isSome then 41 else 35) ∧
      (s.run before).2.StartsIfFit c := by
  refine ⟨startupSize_eq c, startsIfFit ?_⟩
  exact run_induction (P := fun s => s.Unopened c)
    (fun _ step hstep h => unopened_step step hstep h) hbefore (unopened_create hcreate)

theorem first_start_announces_small : ∃ s, create smallConfig (matchingHost smallConfig) = .ok s ∧
    ((s.run [.submitNext .station 1 [7]]).2.step .start).1 = .done ∧
    Announced smallConfig ((s.run [.submitNext .station 1 [7]]).2.step .start).2 :=
  ⟨_, rfl, (first_start_announces (c := smallConfig) rfl (by decide)).2.fit (by decide)⟩

/-- Settings that are valid, with a buffer that has room for four bytes behind a header. -/
def tinyConfig : LinkConfig := { smallConfig with frame := { bufferSize := 16 } }

/-- The startup event does not fit every valid buffer. -/
theorem tiny_start_refused : ∃ s, create tinyConfig (matchingHost tinyConfig) = .ok s ∧
    (s.step .start).1 = .refused (.frame (.payloadTooLarge 23 4)) ∧
    (s.step .start).2.link.bus.loaded = none :=
  ⟨_, rfl, by decide +kernel⟩

end Session
end SlaveLink
