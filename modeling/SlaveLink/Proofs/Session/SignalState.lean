import SlaveLink.Proofs.Link.SignalState
import SlaveLink.Proofs.Session.ChipSelect
import SlaveLink.Proofs.Session.Course

/-! # What the state of the signals tells at rest
Under the policy `onTransactionEnd` the state, the line and the bus agree after every run: the host
may select without a transfer, clock without selecting and select again, the driver may refuse, and
the link may be torn down at any moment. -/

namespace SlaveLink.Session

variable {s m : Session} {c : LinkConfig} {host : HostLevels} {step : Step}

theorem accords_clocking {t : Transaction} {signals : Signals} (h : signals.Accords false)
    (l : Link) : (clocking t signals l).Accords := h

theorem accords_signalling (hsteady : s.link.Steady []) (hwired : s.Wired c)
    (hpolicy : c.policy = .onTransactionEnd) (h : s.link.Accords)
    (hsignalling : s.Signalling step m) : m.link.Accords := by
  have hshows := hwired.shows
  have hselected := Signals.shows_select hshows
  cases hsignalling with
  | still _ still => exact h.congr still.signals (congrArg Bus.loaded still.bus)
  | selected => exact Signals.accords_select hshows.watched h
  | deselected => exact Signals.accords_deselect hshows.watched (hshows.policy.trans hpolicy) h
  | clocked =>
    exact accords_clocking (Signals.accords_done (hshows.policy.trans hpolicy)) s.link
  | exchanged =>
    have hdone := Signals.shows_done hselected
    refine accords_clocking (Signals.accords_deselect hdone.watched ?_ ?_) s.link
    · exact hdone.policy.trans hpolicy
    · exact Signals.accords_done (hselected.policy.trans hpolicy)
  | missed =>
    exact Signals.accords_deselect hselected.watched (hselected.policy.trans hpolicy)
      (Signals.accords_select hshows.watched h)
  | started =>
    have hstarting := Link.starting fun hphase =>
      hsteady.vacant (hsteady.dormant hphase).1 (Nat.zero_le _)
    exact Link.accords_starting h hstarting
  | @submitted _ f sequence =>
    exact Link.accords_submission (l := { s.link with sequence }) h (Link.submission ..)
  | retried parked pending =>
    obtain ⟨hretry, hidle⟩ := steady_retry hsteady pending
    exact Link.accords_attempt (l := { s.link with rearmPending := false }) h
      (Link.attempt (hretry.vacant hidle (Nat.zero_le _)))
  | dismantled => exact Link.accords_dismantle _

/-- The worker loads at most one transfer, and finishing another touches no signal. -/
theorem accords_settle (hsteady : s.link.Steady []) (h : s.link.Accords) :
    s.settle.link.Accords := by
  rcases idled_or_turned hsteady with hidled | ⟨t, l, hturn, hsettle⟩
  · exact h.seen hidled.signals hidled.loaded
  · obtain ⟨hsteady', hidle, hshaped⟩ := Link.steady_of_turn? hsteady hturn
    obtain ⟨_, _, hframe⟩ := Link.turn?_eq_some hsteady.unfinished_le_one hturn
    have hsignals : l.signals = s.link.signals ∨ l.signals = s.link.signals.takeRelease.2 :=
      (Link.signals_of_turn? hturn).imp (·.2) fun htaken => (congrArg Prod.snd htaken).symm
    have hl : l.Accords := h.seen hsignals (by rw [hframe])
    rw [hsettle, Link.turnAround_eq]
    refine Link.accords_finish hshaped ?_
    rcases attempt_readied (hsteady'.vacant hidle (Nat.le_refl _)) with hsame | hattempt
    · rwa [hsame]
    · exact Link.accords_attempt hl hattempt

theorem accords_step (step : Step) (hlasting : s.Lasting c) (hpolicy : c.policy = .onTransactionEnd)
    (h : s.link.Accords) : (s.step step).2.link.Accords := by
  have hquiet := steady_quiet hlasting.toSteady
  have hacted : (s.quiet.act step).2.link.Accords :=
    accords_signalling (s := s.quiet) hquiet.traffic hlasting.wired hpolicy h
      (signalling hquiet.traffic step)
  exact accords_settle (steady_act step hquiet).traffic hacted

/-- What the state of the signals tells of the line, seen from both of its ends, and of the bus. -/
structure Telling (c : LinkConfig) (s : Session) : Prop where
  asserted : s.link.signals.handshakeAsserted = true ↔ s.link.signals.state = .ready
  seen : (matchingHost c).seesHandshake s.lines = true ↔ s.link.signals.state = .ready
  ready : s.link.signals.state = .ready → s.link.bus.loaded.isSome = true
  inactive : s.link.signals.state = .inactive → s.link.bus.loaded = none

theorem telling_of_accords (hwired : s.Wired c) (h : s.link.Accords) : s.Telling c := by
  have hasserted : s.link.signals.handshakeAsserted = true ↔ s.link.signals.state = .ready := by
    rw [h.line, decide_eq_true_iff]
  refine ⟨hasserted, ?_, h.ready, ?_⟩
  · rw [sees_of_wired hwired]
    exact hasserted
  · intro hstate
    simpa using h.inactive hstate

/-- Under the policy `onTransactionEnd`, after every run, Handshake is asserted exactly if the state
is `ready`; then a transfer is loaded, and none is if the state is `inactive`. -/
theorem handshake_iff_ready (hcreate : create c host = .ok s)
    (hpolicy : c.policy = .onTransactionEnd) (steps : List Step) : (s.run steps).2.Telling c := by
  have hrun := run_keeps (P := fun s => s.Lasting c ∧ s.link.Accords)
    (fun s step h => ⟨lasting_step step h.1, accords_step step h.1 hpolicy h.2⟩)
    ⟨lasting_create hcreate, Link.accords_create (create_eq_ok hcreate).1⟩ steps
  exact telling_of_accords hrun.1.wired hrun.2

/-- The host selects for a transfer and leaves it, and then clocks it without selecting. -/
theorem handshake_iff_ready_small : ∃ s, create smallConfig (matchingHost smallConfig) = .ok s ∧
    (s.run [.start, .select, .deselect]).2.link.signals.state = .transacting ∧
    (s.run [.start, .select, .deselect]).2.Telling smallConfig ∧
    (s.run [.start, .select, .deselect, .clock [] false]).2.link.signals.state = .ready ∧
    (s.run [.start, .select, .deselect, .clock [] false]).2.Telling smallConfig :=
  ⟨_, rfl, by decide +kernel, handshake_iff_ready (c := smallConfig) rfl rfl _,
    by decide +kernel, handshake_iff_ready (c := smallConfig) rfl rfl _⟩

end SlaveLink.Session
