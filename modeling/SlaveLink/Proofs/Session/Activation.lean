import SlaveLink.Proofs.Link.Activation
import SlaveLink.Proofs.Session.InFlight

/-! # Starts and retries
A start that fails leaves the link as if it was never started, but for the startup event. So the
first start that succeeds arms the event if none has failed before; after a failure it arms nothing,
and nothing is loaded from then on. -/

namespace SlaveLink.Session

variable {s m : Session} {c : LinkConfig} {host : HostLevels} {step : Step} {r : Reply}
  {stumbled : Bool}

/-- A start failed, though the link was neither up nor torn down. -/
def Reply.startFailed : Reply → Bool
  | .refused .alreadyStarted | .refused .inactive => false
  | .refused _ => true
  | _ => false

theorem phase_acting (h : s.link.Steady []) (hstep : step ≠ .start)
    (hacting : s.Acting step (r, m)) :
    m.link.phase = s.link.phase ∧ m.link.startup = s.link.startup := by
  cases hacting with
  | aside | stopped | clocked | received | dropped => exact ⟨rfl, rfl⟩
  | started => exact absurd rfl hstep
  | submitted _ submission => cases submission <;> exact ⟨rfl, rfl⟩
  | retried parked pending =>
    obtain ⟨hsteady, hidle⟩ := steady_retry h pending
    have hunmoved := Link.unmoved_armNext (hsteady.vacant hidle (Nat.zero_le _))
    exact ⟨hunmoved.phase, hunmoved.startup⟩

theorem phase_ending (hending : s.Ending step (r, m)) (hphase : m.link.phase = .initialized) :
    s.link.phase = .initialized ∧ m.link.startup = s.link.startup := by
  cases hending with
  | closing | dismantled => cases hphase
  | left | refusing => exact ⟨hphase, rfl⟩

/-- Only a start comes back to the phase in which a link can be started. -/
theorem phase_act (h : s.link.Steady []) (hstep : step ≠ .start)
    (hphase : (s.act step).2.link.phase = .initialized) :
    s.link.phase = .initialized ∧ (s.act step).2.link.startup = s.link.startup := by
  rcases acting_or_ending h step with hacting | hending
  · obtain ⟨hsame, hstartup⟩ := phase_acting h hstep hacting
    exact ⟨hsame.symm.trans hphase, hstartup⟩
  · exact phase_ending hending hphase

theorem phase_rest (h : s.link.Steady []) :
    s.settle.link.phase = s.link.phase ∧ s.settle.link.startup = s.link.startup := by
  unfold settle
  split
  · exact ⟨rfl, rfl⟩
  · obtain ⟨hphase, hstartup, _⟩ := Link.settle_frame h s.withheld
    exact ⟨hphase, hstartup⟩

theorem open_act (h : s.link.Steady []) (hopen : s.link.isOpen = true)
    (hstays : step.closes = false) : (s.act step).2.link.isOpen = true := by
  rcases acting_or_ending h step with hacting | hending
  · exact open_acting h hopen hacting
  · generalize s.act step = out at hending ⊢
    cases hending with
    | closing => cases hstays
    | left => exact hopen
    | dismantled final => rcases final with ⟨rfl, _⟩ | ⟨rfl, _⟩ <;> cases hstays
    | refusing => exact hopen

/-- A link that is open stays so until its teardown is asked for. -/
theorem open_step (h : s.Steady) (hopen : s.link.isOpen = true) (hstays : step.closes = false) :
    (s.step step).2.link.isOpen = true := by
  have hquiet := steady_quiet h
  have hacted : (s.quiet.act step).2.link.isOpen = true := open_act hquiet.traffic hopen hstays
  have hrest := (phase_rest (steady_act step hquiet).traffic).1
  exact (congrArg Phase.isOpen hrest).trans hacted

/-- A start in time is all that happens in its step. -/
theorem step_start (h : s.Steady) (hearly : s.link.phase = .initialized) : ∃ result l,
    s.quiet.link.start = (result, l) ∧ s.quiet.link.Activating (result, l) ∧
      s.step .start = (answer result, { s.quiet with link := l }) := by
  have hquiet := steady_quiet h
  have hactivating := Link.activating hquiet.traffic
  have hacted := (steady_act .start hquiet).traffic
  rw [act_start] at hacted
  simp only [Session.step, act_start]
  generalize s.quiet.link.start = ended at hactivating hacted ⊢
  obtain ⟨result, l⟩ := ended
  have hfinished := Link.unfinished_activating (l := s.quiet.link) hearly hactivating
  refine ⟨result, l, rfl, hactivating, ?_⟩
  rw [settle_of_finished hacted hfinished]

/-- A late start is refused. -/
theorem step_start_of_late (h : s.Steady) (hlate : s.link.phase ≠ .initialized) :
    (s.step .start).1.startFailed = false ∧ (s.step .start).1 ≠ .done ∧
      (s.step .start).2.link.phase ≠ .initialized := by
  have hquiet := steady_quiet h
  have hactivating := Link.activating hquiet.traffic
  have hrest := (phase_rest (steady_act .start hquiet).traffic).1
  simp only [Session.step, act_start] at hrest ⊢
  generalize s.quiet.link.start = ended at hactivating hrest ⊢
  obtain ⟨result, l⟩ := ended
  cases hactivating with
  | late _ _ cause =>
    rw [hrest]
    refine ⟨?_, nofun, hlate⟩
    rcases cause with rfl | rfl <;> rfl
  | announced early | muted early | failed _ early => exact absurd early hlate

theorem mute_acting (hmute : s.link.Mute) (hacting : s.Acting step (r, m)) : m.link.Mute := by
  obtain ⟨hlate, hidle, hsettled⟩ := hmute
  cases hacting with
  | aside | received | dropped => exact ⟨hlate, hidle, hsettled⟩
  | stopped => exact ⟨hlate, ⟨hidle.loaded, rfl, hidle.completed⟩, hsettled⟩
  | started starting =>
    cases starting with
    | refused => exact ⟨hlate, hidle, hsettled⟩
    | up early | failed _ early => exact absurd early hlate
  | submitted _ submission => cases submission <;> exact ⟨hlate, hidle, hsettled⟩
  | clocked _ loaded =>
    have hnone : s.link.bus.loaded = none := hidle.loaded
    simp [hnone] at loaded
  | retried _ pending => simp [hsettled] at pending

theorem windDown_of_idle {l : Link} (h : l.Idle) : l.windDown = l := by
  have hheld : l.worker.held = [] := h.held
  have hcompleted : l.bus.completed = [] := h.completed
  unfold Link.windDown
  cases hworker : l.worker with
  | absent => rfl
  | waiting t => simp [hworker, Worker.held] at hheld
  | parked => simp [Bus.collect?, hcompleted]

theorem mute_ending (hmute : s.link.Mute) (hending : s.Ending step (r, m)) : m.link.Mute := by
  obtain ⟨hlate, hidle, hsettled⟩ := hmute
  cases hending with
  | closing => exact ⟨nofun, hidle, hsettled⟩
  | left => exact ⟨hlate, ⟨hidle.loaded, rfl, hidle.completed⟩, hsettled⟩
  | refusing => exact ⟨hlate, hidle, hsettled⟩
  | dismantled =>
    have hgone : Phase.deinit ≠ .initialized := nofun
    have hdown := windDown_of_idle (l := { s.link with phase := .draining }) hidle
    simp only [onLink]
    rw [hdown]
    exact ⟨hgone, ⟨rfl, rfl, rfl⟩, hsettled⟩

theorem mute_step (step : Step) (h : s.Steady ∧ s.link.Mute) :
    (s.step step).2.Steady ∧ (s.step step).2.link.Mute := by
  have hquiet := steady_quiet h.1
  have hmute : s.quiet.link.Mute := ⟨h.2.late, h.2.idle, h.2.settled⟩
  have hacted : (s.quiet.act step).2.link.Mute := by
    rcases acting_or_ending hquiet.traffic step with hacting | hending
    · exact mute_acting hmute hacting
    · exact mute_ending hmute hending
  refine ⟨steady_step step h.1, ?_⟩
  simp only [Session.step]
  rwa [settle_of_finished (steady_act step hquiet).traffic hacted.idle.unfinished]

/-- Nothing is ever loaded on a link that is up with nothing to arm. -/
theorem pending_of_mute (hsteady : s.Steady) (hmute : s.link.Mute) (steps : List Step) :
    (s.run steps).2.link.bus.pending = [] := by
  obtain ⟨hsteady', hmute'⟩ := run_keeps (P := fun s => s.Steady ∧ s.link.Mute)
    (fun _ step h => mute_step step h) ⟨hsteady, hmute⟩ steps
  have hloaded : (s.run steps).2.link.bus.loaded = none := hmute'.idle.loaded
  have hqueued : (s.run steps).2.link.bus.queued = [] := hsteady'.traffic.queued
  rw [Bus.pending, hloaded, hqueued]
  rfl

/-- A link that can be started has its startup event unless a start has failed. -/
structure Began (stumbled : Bool) (s : Session) : Prop extends s.Steady where
  spent : s.link.phase = .initialized → s.link.startup.isSent = stumbled

theorem began_of_kept (hstep : step ≠ .start) (h : s.Began stumbled) :
    (s.step step).2.Began stumbled := by
  have hquiet := steady_quiet h.toSteady
  obtain ⟨hphase, hstartup⟩ := phase_rest (steady_act step hquiet).traffic
  refine ⟨steady_step step h.toSteady, ?_⟩
  intro hinitialized
  obtain ⟨hbefore, hsame⟩ := phase_act hquiet.traffic hstep (hphase.symm.trans hinitialized)
  show (s.quiet.act step).2.settle.link.startup.isSent = stumbled
  rw [hstartup, hsame]
  exact h.spent hbefore

theorem began_create (hcreate : create c host = .ok s) : s.Began false := by
  obtain ⟨hlink, _⟩ := create_eq_ok hcreate
  obtain ⟨_, hl⟩ := Link.create_eq_ok hlink
  refine ⟨(sound_create hcreate).toSteady, ?_⟩
  intro _
  rw [hl]
  rfl

structure StartsMute (s : Session) : Prop where
  done : (s.step .start).1 = .done
  active : (s.step .start).2.link.phase = .active
  unarmed : ∀ steps, ((s.step .start).2.run steps).2.link.bus.pending = []

theorem startsMute_of_sent (h : s.Steady) (hearly : s.link.phase = .initialized)
    (hsent : s.link.startup.isSent = true) : s.StartsMute := by
  have hsteady := steady_step .start h
  have hsent' : s.quiet.link.startup.isSent = true := hsent
  obtain ⟨result, l, _, hactivating, hstart⟩ := step_start h hearly
  rw [hstart] at hsteady
  cases hactivating with
  | late _ late => exact absurd hearly late
  | announced _ unsent => simp [hsent'] at unsent
  | failed _ _ unsent => simp [hsent'] at unsent
  | muted _ _ active mute =>
    refine ⟨?_, ?_, ?_⟩
    · rw [hstart]
      rfl
    · rw [hstart]
      exact active
    · intro steps
      rw [hstart]
      exact pending_of_mute hsteady mute steps

/-- What a call of start comes to: the startup event is armed unless a start has failed before, and
a start that fails lets the next one succeed with nothing armed. -/
structure StartsOnce (stumbled : Bool) (s : Session) : Prop where
  announces : (s.step .start).1 = .done → stumbled = false → (s.step .start).2.link.Announces
  mute : (s.step .start).1 = .done → stumbled = true → s.StartsMute
  failed : (s.step .start).1.startFailed = true →
    (s.step .start).2.link.Spent ∧ (s.step .start).2.StartsMute

theorem startsOnce (h : s.Began stumbled) : s.StartsOnce stumbled := by
  by_cases hearly : s.link.phase = .initialized
  · have hspent := h.spent hearly
    have hsteady := steady_step .start h.toSteady
    obtain ⟨result, l, _, hactivating, hstart⟩ := step_start h.toSteady hearly
    refine ⟨?_, ?_, ?_⟩
    · intro hdone hnever
      rw [hstart] at hdone ⊢
      cases hactivating with
      | late _ late => exact absurd hearly late
      | announced _ _ announces => exact announces
      | muted _ sent =>
        have hsame : s.link.startup.isSent = true := sent
        simp [hspent, hnever] at hsame
      | failed => cases hdone
    · intro _ hstumbled
      exact startsMute_of_sent h.toSteady hearly (hspent.trans hstumbled)
    · intro hfailed
      rw [hstart] at hsteady hfailed ⊢
      cases hactivating with
      | late _ late => exact absurd hearly late
      | announced | muted => cases hfailed
      | failed _ _ _ _ spent =>
        exact ⟨spent, startsMute_of_sent hsteady spent.initialized spent.sent⟩
  · obtain ⟨hnever, hnotDone, _⟩ := step_start_of_late h.toSteady hearly
    refine ⟨fun hdone => absurd hdone hnotDone, fun hdone => absurd hdone hnotDone, ?_⟩
    intro hfailed
    simp [hnever] at hfailed

end SlaveLink.Session
