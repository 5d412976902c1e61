import SlaveLink.Proofs.Session.InFlight
import SlaveLink.Proofs.Session.Lines

/-! # Handshake and what is loaded
To a host that clocks in whole exchanges only, Handshake tells at rest whether a transfer is loaded:
no refusal, no failed start and no teardown leaves the line behind. -/

namespace SlaveLink.Session

variable {s m : Session} {c : LinkConfig} {host : HostLevels} {step : Step}

/-- The host clocks in whole exchanges only, and leaves chip-select alone otherwise. -/
def Step.exchangesOnly : Step → Bool
  | .clock .. | .select | .deselect => false
  | _ => true

theorem shows_moving (hstep : step.exchangesOnly = true) (h : s.link.Shows .high)
    (hmoving : s.Moving step m) : m.link.Shows .high := by
  have hselected := Signals.shows_select h
  cases hmoving with
  | inward raises => exact raises.toShows h
  | selected | deselected | clocked => simp [Step.exchangesOnly] at hstep
  | exchanged _ loaded =>
    have hreleased := Signals.shows_deselect (Signals.shows_done hselected)
    simpa [Link.Shows, exchanging, clocking, loaded, Signals.onBusAll] using hreleased
  | missed _ unloaded =>
    have hreleased := Signals.shows_deselect hselected
    simpa [Link.Shows, onSignals, onLink, unloaded] using hreleased
  | dismantled => exact Link.shows_dismantle ((Link.raises_windDown _).toShows h)

theorem shows_step (step : Step) (hstep : step.exchangesOnly = true) (hsteady : s.Steady)
    (h : s.link.Shows .high) : (s.step step).2.link.Shows .high := by
  have hacted : (s.quiet.act step).2.link.Shows .high :=
    shows_moving (s := s.quiet) hstep h (moving (steady_quiet hsteady).traffic step)
  exact raises_rest.toShows hacted

theorem seesHandshake_of_shows {chipSelect : Level} (h : s.link.Shows chipSelect)
    (hconfig : s.link.config = c) :
    (matchingHost c).seesHandshake s.lines = s.link.bus.loaded.isSome := by
  have hlevel := h.handshake
  rw [hconfig] at hlevel
  exact (congrArg (· == c.handshake.active) hlevel).trans (Polarity.level_beq_active ..)

theorem seesDataReady_of_shows {chipSelect : Level} (h : s.link.Shows chipSelect)
    (hconfig : s.link.config = c) :
    (matchingHost c).seesDataReady s.lines = s.link.signals.isDataReady := by
  have hlevel := h.dataReady
  rw [hconfig] at hlevel
  exact (congrArg (· == c.dataReady.active) hlevel).trans (Polarity.level_beq_active ..)

theorem handshakeAsserted_eq {chipSelect : Level} (h : s.link.Shows chipSelect)
    (hconfig : s.link.config = c) :
    s.link.signals.handshakeAsserted = (matchingHost c).seesHandshake s.lines := by
  have hwired := h.wired.1
  rw [hconfig] at hwired
  exact congrArg (s.link.signals.lines.handshake.level == Polarity.active ·) hwired

/-- Handshake is asserted exactly while a transfer is loaded, after every run in which the host
clocks in whole exchanges. -/
theorem handshake_iff_loaded (hcreate : create c host = .ok s) {steps : List Step}
    (hsteps : ∀ step ∈ steps, step.exchangesOnly = true) :
    (s.run steps).2.link.signals.handshakeAsserted = (s.run steps).2.link.bus.loaded.isSome ∧
      (matchingHost c).seesHandshake (s.run steps).2.lines =
        (s.run steps).2.link.bus.loaded.isSome := by
  obtain ⟨hlink, _⟩ := create_eq_ok hcreate
  have hrun := run_induction
    (P := fun s => s.Steady ∧ s.link.config = c ∧ s.link.Shows .high)
    (fun s step hstep h => ⟨steady_step step h.1, (config_step step h.1).trans h.2.1,
      shows_step step hstep h.1 h.2.2⟩)
    hsteps ⟨(sound_create hcreate).toSteady, Link.config_create hlink, Link.shows_create hlink⟩
  obtain ⟨_, hconfig, hshows⟩ := hrun
  have hsees := seesHandshake_of_shows hshows hconfig
  exact ⟨(handshakeAsserted_eq hshows hconfig).trans hsees, hsees⟩

theorem handshake_iff_loaded_small : ∃ s, create smallConfig (matchingHost smallConfig) = .ok s ∧
    (s.run [.start, .exchange [] (.ofMillis 1) none true]).2.link.signals.handshakeAsserted =
      (s.run [.start, .exchange [] (.ofMillis 1) none true]).2.link.bus.loaded.isSome :=
  ⟨_, rfl, (handshake_iff_loaded (c := smallConfig) rfl (by decide)).1⟩

end SlaveLink.Session
