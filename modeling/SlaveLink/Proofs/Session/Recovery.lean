import SlaveLink.Proofs.Link.Attempt
import SlaveLink.Proofs.Link.Capacity
import SlaveLink.Proofs.Session.Activation

/-! # Recovery from a shortage
A link that cannot arm for want of a block stays as it is, and means to try again. It does so for as
long as it is up, whatever else happens to it: as soon as there are blocks enough when the worker
wakes up, the next transfer is armed. -/

namespace SlaveLink

namespace Link

variable {l l' : Link}

/-- There is a block to fill and one to send, be it that of a frame that waits. -/
def HasBlocks (l : Link) : Prop :=
  2 ≤ l.memory.wire.available ∨ 1 ≤ l.memory.wire.available ∧ ∃ p, 0 < l.mux.tx.length p

theorem supplied_iff (h : l.Vacant) : l.Supplied ↔ l.HasBlocks := by
  cases hpop : l.mux.tx.pop? with
  | none =>
    have hempty : ∀ p, l.mux.tx.length p = 0 := fun p =>
      congrArg List.length ((PriorityQueues.pop?_eq_none_iff _).mp hpop p)
    constructor
    · exact fun hsupplied => .inl (hsupplied.dummy hpop)
    · rintro (htwo | ⟨_, p, hwaits⟩)
      · exact ⟨h, Nat.le_of_succ_le htwo, fun _ => htwo⟩
      · exact absurd (hempty p) (Nat.ne_of_gt hwaits)
  | some due =>
    obtain ⟨p, o, tx⟩ := due
    have hwaits : 0 < l.mux.tx.length p :=
      List.length_pos_of_mem (PriorityQueues.mem_of_pop? hpop).1
    have hdue : ¬ l.mux.tx.pop? = none := by simp [hpop]
    constructor
    · exact fun hsupplied => .inr ⟨hsupplied.block, p, hwaits⟩
    · rintro (htwo | ⟨hone, _⟩)
      · exact ⟨h, Nat.le_of_succ_le htwo, fun hnone => absurd hnone hdue⟩
      · exact ⟨h, hone, fun hnone => absurd hnone hdue⟩

/-- Unless something was loaded, arming is to be tried again. -/
theorem Attempt.retries (h : l.Attempt l') (hidle : l'.Idle) : l'.rearmPending = true := by
  have hnone : l'.bus.loaded = none := hidle.loaded
  cases h with
  | loaded _ loaded => cases loaded <;> cases hnone
  | starved | refusedFrame | refusedDummy => rfl

structure Resolved (l : Link) : Prop where
  started : l.phase ≠ .initialized
  retries : l.phase = .active → l.Idle → l.rearmPending = true

theorem Attempt.resolved (h : l.Attempt l') (hphase : l'.phase = l.phase)
    (hstarted : l.phase ≠ .initialized) : l'.Resolved :=
  ⟨hphase ▸ hstarted, fun _ => h.retries⟩

theorem not_active_of_draining (h : l.isDraining = true) : l.phase ≠ .active := by
  intro hactive
  simp [isDraining, isOpen, hactive, Phase.isOpen] at h

theorem resolved_turnAround {t : Transaction} (h : l.Steady [t]) (hidle : l.Idle)
    (hshaped : t.Shaped l.config.frame.blockSize) (hstarted : l.phase ≠ .initialized) :
    (l.turnAround t).Resolved := by
  have hvacant := h.vacant hidle (Nat.le_refl _)
  have hreadied : l.readied.Resolved := by
    unfold readied
    split
    · next hdraining =>
      exact ⟨hstarted, fun hactive => absurd hactive (not_active_of_draining hdraining)⟩
    · exact (attempt hvacant).resolved (unmoved_armNext hvacant).phase hstarted
  obtain ⟨_, _, _, _, _, hfinished⟩ := finish_frame hshaped l.readied
  rw [turnAround_eq, hfinished]
  exact ⟨hreadied.started, hreadied.retries⟩

def Attended (l : Link) : Prop := l.phase = .active → l.worker ≠ .absent

end Link

namespace Session

variable {s m : Session} {c : LinkConfig} {host : HostLevels} {step : Step} {r : Reply}

theorem resolved_acting (h : s.link.Steady []) (hresolved : s.link.Resolved)
    (hacting : s.Acting step (r, m)) : m.link.Resolved := by
  obtain ⟨hstarted, hretries⟩ := hresolved
  cases hacting with
  | aside | received | dropped => exact ⟨hstarted, hretries⟩
  | stopped parked =>
    have hheld : s.link.worker.held = [] := congrArg Worker.held parked
    exact ⟨hstarted, fun hactive hidle => hretries hactive ⟨hidle.loaded, hheld, hidle.completed⟩⟩
  | started starting =>
    cases starting with
    | refused => exact ⟨hstarted, hretries⟩
    | up early | failed _ early => exact absurd early hstarted
  | submitted _ submission => cases submission <;> exact ⟨hstarted, hretries⟩
  | clocked => exact ⟨hstarted, fun _ hidle => absurd hidle.completed nofun⟩
  | retried parked pending =>
    obtain ⟨hsteady, hidle⟩ := steady_retry h pending
    have hvacant := hsteady.vacant hidle (Nat.zero_le _)
    exact (Link.attempt hvacant).resolved (Link.unmoved_armNext hvacant).phase hstarted

theorem resolved_ending (hresolved : s.link.Resolved) (hending : s.Ending step (r, m)) :
    m.link.Resolved := by
  obtain ⟨hstarted, hretries⟩ := hresolved
  cases hending with
  | closing | dismantled => exact ⟨nofun, nofun⟩
  | left _ draining =>
    exact ⟨hstarted, fun hactive => absurd hactive (Link.not_active_of_draining draining)⟩
  | refusing => exact ⟨hstarted, hretries⟩

theorem resolved_rest (h : s.link.Steady []) (hresolved : s.link.Resolved) :
    s.settle.link.Resolved := by
  unfold settle
  split
  · exact hresolved
  · have hsettling := Link.settling h s.withheld
    simp only [onLink]
    generalize s.link.settle s.withheld = l at hsettling ⊢
    obtain ⟨hstarted, hretries⟩ := hresolved
    cases hsettling with
    | rest | wait => exact ⟨hstarted, hretries⟩
    | hold => exact ⟨hstarted, fun _ hidle => absurd hidle.held (List.cons_ne_nil _ _)⟩
    | turn hturn =>
      obtain ⟨hsteady, hidle, hshaped⟩ := Link.steady_of_turn? h hturn
      obtain ⟨_, signals, rfl⟩ := Link.turn?_eq_some h.unfinished_le_one hturn
      exact Link.resolved_turnAround hsteady hidle hshaped hstarted

theorem resolved_step (s : Session) (step : Step) (h : s.Steady ∧ s.link.Resolved) :
    (s.step step).2.Steady ∧ (s.step step).2.link.Resolved := by
  have hquiet := steady_quiet h.1
  have hresolved : s.quiet.link.Resolved := ⟨h.2.started, h.2.retries⟩
  have hacted : (s.quiet.act step).2.link.Resolved := by
    rcases acting_or_ending hquiet.traffic step with hacting | hending
    · exact resolved_acting hquiet.traffic hresolved hacting
    · exact resolved_ending hresolved hending
  exact ⟨steady_step step h.1, resolved_rest (steady_act step hquiet).traffic hacted⟩

theorem attended_acting (h : s.link.Steady []) (hopen : step ≠ .busShutdown)
    (hattended : s.link.Attended) (hacting : s.Acting step (r, m)) : m.link.Attended := by
  cases hacting with
  | aside | clocked | received | dropped => exact hattended
  | stopped => exact absurd rfl hopen
  | started starting =>
    cases starting with
    | refused => exact hattended
    | up => exact fun _ => nofun
    | failed => exact nofun
  | submitted _ submission => cases submission <;> exact hattended
  | retried parked pending =>
    obtain ⟨hsteady, hidle⟩ := steady_retry h pending
    have hunmoved := Link.unmoved_armNext (hsteady.vacant hidle (Nat.zero_le _))
    have hparked := hunmoved.worker.trans parked
    exact fun _ habsent => absurd (hparked.symm.trans habsent) nofun

theorem attended_ending (hattended : s.link.Attended) (hending : s.Ending step (r, m)) :
    m.link.Attended := by
  cases hending with
  | closing | dismantled => exact nofun
  | left _ draining =>
    exact fun hactive => absurd hactive (Link.not_active_of_draining draining)
  | refusing => exact hattended

theorem attended_rest (h : s.link.Steady []) (hattended : s.link.Attended) :
    s.settle.link.Attended := by
  unfold settle
  split
  · exact hattended
  · have hsettling := Link.settling h s.withheld
    simp only [onLink]
    generalize s.link.settle s.withheld = l at hsettling ⊢
    cases hsettling with
    | rest | wait => exact hattended
    | hold => exact fun _ => by simp
    | turn hturn =>
      obtain ⟨hsteady, hidle, hshaped⟩ := Link.steady_of_turn? h hturn
      obtain ⟨_, signals, rfl⟩ := Link.turn?_eq_some h.unfinished_le_one hturn
      have hunmoved := Link.unmoved_turnAround hsteady hidle hshaped
      exact fun _ => by simp [hunmoved.worker]

theorem attended_step (s : Session) (step : Step) (hopen : step ≠ .busShutdown)
    (h : s.Steady ∧ s.link.Attended) :
    (s.step step).2.Steady ∧ (s.step step).2.link.Attended := by
  have hquiet := steady_quiet h.1
  have hattended : s.quiet.link.Attended := h.2
  have hacted : (s.quiet.act step).2.link.Attended := by
    rcases acting_or_ending hquiet.traffic step with hacting | hending
    · exact attended_acting hquiet.traffic hopen hattended hacting
    · exact attended_ending hattended hending
  exact ⟨steady_step step h.1, attended_rest (steady_act step hquiet).traffic hacted⟩

theorem attended_create (hcreate : create c host = .ok s) : s.link.Attended := by
  obtain ⟨_, hl⟩ := Link.create_eq_ok (create_eq_ok hcreate).1
  rw [hl]
  exact nofun

/-- Unless the bus was closed, the worker of an active link is parked when nothing is left to do. -/
theorem parked_of_attended (hattended : s.link.Attended) (hactive : s.link.phase = .active)
    (hnone : s.link.unfinished = []) : s.link.worker = .parked := by
  have hheld : s.link.worker.held = [] := (List.append_eq_nil_iff.mp hnone).1
  cases hworker : s.link.worker with
  | absent => exact absurd hworker (hattended hactive)
  | parked => rfl
  | waiting t => simp [hworker, Worker.held] at hheld

theorem vacant_of_mem_armings (h : s.Steady) : ∀ l ∈ s.armings step, l.Vacant := by
  have hquiet := steady_quiet h
  refine forall_mem_armings (fun hpending => ?_) (fun t l hturn => ?_)
  · obtain ⟨hsteady, hidle⟩ := steady_retry hquiet.traffic hpending
    exact hsteady.vacant hidle (Nat.zero_le _)
  · obtain ⟨hsteady, hidle, _⟩ := Link.steady_of_turn? (steady_act step hquiet).traffic hturn
    exact hsteady.vacant hidle (Nat.le_refl _)

/-- What becomes of an idle link when its worker wakes up: with blocks enough a transfer is loaded,
and otherwise nothing changes but a counter. -/
structure Recovers (s : Session) : Prop where
  pending : s.link.rearmPending = true
  loads : s.link.HasBlocks → ∃ t, (s.step .tick).2.link.bus.loaded = some t ∧
    (s.step .tick).2.link.rearmPending = false
  waits : ¬ s.link.HasBlocks → (s.step .tick).2 = s.quiet.onLink (·.count .poolExhausted)

/-- A wake-up in which a retry is due is nothing but that retry. -/
theorem step_tick_of_retry (h : s.Steady) (hactive : s.link.phase = .active)
    (hparked : s.link.worker = .parked) (hpending : s.link.rearmPending = true) :
    s.step .tick =
      (.done, s.quiet.onLink fun l => { l with rearmPending := false }.armNext) := by
  have hquiet := steady_quiet h
  obtain ⟨hsteady, hidle⟩ := steady_retry hquiet.traffic hpending
  have hvacant := hsteady.vacant hidle (Nat.zero_le _)
  have hretry : ¬ s.quiet.link.isDraining ∧ s.quiet.link.rearmPending :=
    ⟨fun hdraining => Link.not_active_of_draining hdraining hactive, hpending⟩
  have htick : s.quiet.link.tick = { s.quiet.link with rearmPending := false }.armNext :=
    if_pos hretry
  have hact : s.quiet.act .tick =
      (.done, s.quiet.onLink fun l => { l with rearmPending := false }.armNext) := by
    have hwoken : s.quiet.act .tick = (.done, s.quiet.onLink Link.tick) := if_pos hparked
    rw [hwoken, onLink, htick]
    rfl
  have hacted := (steady_act .tick hquiet).traffic
  rw [hact] at hacted
  have hnone := (Link.unmoved_armNext hvacant).unfinished.trans hidle.unfinished
  simp only [step, hact]
  rw [settle_of_finished hacted hnone]

theorem recovers (h : s.Steady) (hresolved : s.link.Resolved) (hactive : s.link.phase = .active)
    (hloaded : s.link.bus.loaded = none) (hnone : s.link.unfinished = [])
    (hparked : s.link.worker = .parked) (hwilling : s.link.refusals = 0) : s.Recovers := by
  obtain ⟨hheld, hcompleted⟩ := List.append_eq_nil_iff.mp hnone
  have hpending := hresolved.retries hactive ⟨hloaded, hheld, hcompleted⟩
  obtain ⟨hsteady, hidle⟩ := steady_retry (steady_quiet h).traffic hpending
  have hvacant := hsteady.vacant hidle (Nat.zero_le _)
  refine ⟨hpending, fun hblocks => ?_, fun hshort => ?_⟩
  · rw [step_tick_of_retry h hactive hparked hpending]
    have harmed := Link.loaded_of_supplied ((Link.supplied_iff hvacant).mpr hblocks) hwilling
    simp only [onLink]
    generalize Link.armNext _ = l at harmed
    cases harmed <;> exact ⟨_, rfl, rfl⟩
  · have hunsupplied := fun hsupplied => hshort ((Link.supplied_iff hvacant).mp hsupplied)
    have hstarved := Link.armNext_of_error (Link.arm_of_unsupplied hvacant hunsupplied)
    have hsame : { s.quiet.link with rearmPending := true } = s.quiet.link :=
      congrArg (fun pending => { s.quiet.link with rearmPending := pending }) hpending.symm
    rw [step_tick_of_retry h hactive hparked hpending, onLink, hstarved]
    exact congrArg (fun l => { s.quiet with link := l.count .poolExhausted }) hsame

/-- Once the first start has succeeded, an attempt to arm that finds too few blocks changes a counter
and the wish to try again, and nothing else. Whenever the link is up and idle it has that wish, and
its worker, which is there unless the bus was closed, arms the next transfer as soon as there are
blocks enough. -/
theorem shortage_recovers (hcreate : create c host = .ok s) (before after : List Step)
    (hfirst : Step.start ∉ before) (hdone : ((s.run before).2.step .start).1 = .done) :
    let m := (s.run (before ++ .start :: after)).2
    (∀ step, ∀ l ∈ m.armings step, ∀ name, (l.arm none).1 = .error (.poolExhausted name) →
      l.armNext = { l with stats := l.stats.bump .poolExhausted, rearmPending := true }) ∧
    (m.link.phase = .active → m.link.unfinished = [] → .busShutdown ∉ before ++ after →
      m.link.worker = .parked) ∧
    ((∀ n, .refuse n ∉ before ++ after) → m.link.refusals = 0) ∧
    (m.link.phase = .active → m.link.bus.loaded = none → m.link.unfinished = [] →
      m.link.worker = .parked → m.link.refusals = 0 → m.Recovers) := by
  intro m
  have hbegan := run_induction (P := fun s => s.Began false)
    (fun _ _ hstep h => began_of_kept hstep h) (fun step hmem heq => hfirst (heq ▸ hmem))
    (began_create hcreate)
  have hannounces := (startsOnce hbegan).announces hdone rfl
  have hstarted := steady_step .start hbegan.toSteady
  have hresolved : ((s.run before).2.step .start).2.link.Resolved := by
    refine ⟨?_, fun _ hidle => ?_⟩
    · rw [hannounces.active]
      nofun
    · obtain ⟨t, _, hpending, _⟩ := hannounces.event
      have hempty := (hstarted.traffic.vacant hidle (Nat.zero_le _)).empty
      simp [hempty] at hpending
  obtain ⟨hsteady, hresolved⟩ := run_keeps resolved_step ⟨hstarted, hresolved⟩ after
  have hrun : (((s.run before).2.step .start).2.run after).2 = m := by
    simp only [m, run_append]
    rfl
  rw [hrun] at hsteady hresolved
  have hsteps {bad : Step} (hnone : bad ∉ before ++ after) (hbad : bad ≠ .start) :
      bad ∉ before ++ .start :: after := by
    simp only [List.mem_append, List.mem_cons, not_or] at hnone ⊢
    exact ⟨hnone.1, hbad, hnone.2⟩
  have hsound := sound_create hcreate
  refine ⟨?_, ?_, ?_, ?_⟩
  · intro step l hl name hshort
    exact Link.armNext_of_exhausted (vacant_of_mem_armings hsteady l hl) hshort
  · intro hactive hnone hopen
    have hallowed : ∀ step ∈ before ++ .start :: after, step ≠ .busShutdown := by
      rintro step hmem rfl
      exact hsteps hopen nofun hmem
    have hattended := run_induction (P := fun s => s.Steady ∧ s.link.Attended) attended_step
      hallowed ⟨hsound.toSteady, attended_create hcreate⟩
    exact parked_of_attended hattended.2 hactive hnone
  · exact fun hrefuse => willing_run hsound.toSteady hsound.willing
      fun n => hsteps (hrefuse n) nofun
  · exact fun hactive hloaded hnone => recovers hsteady hresolved hactive hloaded hnone

/-- The application keeps all frames it receives until no block is left, and then submits one. -/
def starving : List Step :=
  let frame : Bytes := [1, 0, 1, 0, 12, 0, 14, 0, 0, 0, 0, 0, 0]
  (List.replicate 7 [.clock frame false, .tryReceive true]).flatten ++
    [.tick, .clock frame false, .tryReceive true, .tick, .submitNext .serial 0 [7], .tick]

/-- With no block left, the frame waits, and one block that comes back is enough for it. -/
theorem shortage_recovers_small :
    ∃ s, create smallConfig (matchingHost smallConfig) = .ok s ∧
      (s.run ([] ++ .start :: starving)).2.link.memory.wire.available = 0 ∧
      (s.run ([] ++ .start :: starving)).2.Recovers ∧
      (s.run ([] ++ .start :: (starving ++ [.dropHeld 0]))).2.Recovers ∧
      (s.run ([] ++ .start :: (starving ++ [.dropHeld 0]))).2.link.HasBlocks := by
  have hcreate : create smallConfig (matchingHost smallConfig) = .ok _ := rfl
  refine ⟨_, hcreate, by decide +kernel, ?_, ?_,
    .inr ⟨by decide +kernel, .control, by decide +kernel⟩⟩
  · exact (shortage_recovers hcreate [] starving nofun (by decide +kernel)).2.2.2
      (by decide +kernel) (by decide +kernel) (by decide +kernel) (by decide +kernel)
      (by decide +kernel)
  · exact (shortage_recovers hcreate [] (starving ++ [.dropHeld 0]) nofun
      (by decide +kernel)).2.2.2 (by decide +kernel) (by decide +kernel) (by decide +kernel)
      (by decide +kernel) (by decide +kernel)

end Session
end SlaveLink
