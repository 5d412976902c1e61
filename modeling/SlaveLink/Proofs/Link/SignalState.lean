import SlaveLink.Proofs.Link.Attempt
import SlaveLink.Proofs.Link.Handshake
import SlaveLink.Proofs.Link.Reception

/-! # What the state of the signals says
The state is entered together with the level of Handshake, and the bus becomes loaded or unloaded
at the same moment, but by other means: an edge of chip-select takes the slave out of `ready` and
leaves the transfer where it is. So the three agree one way each: the line with the state, `ready`
with a transfer that is loaded, and `inactive` with none. -/

namespace SlaveLink

namespace Signals

variable {s : Signals} {loaded : Bool}

structure Accords (loaded : Bool) (s : Signals) : Prop where
  line : s.handshakeAsserted = decide (s.state = .ready)
  ready : s.state = .ready → loaded = true
  inactive : s.state = .inactive → loaded = false

theorem handshakeAsserted_setHandshake (on : Bool) (s : Signals) :
    (s.setHandshake on).handshakeAsserted = on :=
  Polarity.level_beq_active s.handshake on

theorem Accords.congr {s' : Signals} (h : s.Accords loaded)
    (hline : s'.handshakeAsserted = s.handshakeAsserted) (hstate : s'.state = s.state) :
    s'.Accords loaded := by
  refine ⟨?_, ?_, ?_⟩
  · rw [hline, hstate]
    exact h.line
  · rw [hstate]
    exact h.ready
  · rw [hstate]
    exact h.inactive

theorem accords_ready (s : Signals) : (s.onBus .ready).Accords true :=
  ⟨handshakeAsserted_setHandshake true s, fun _ => rfl, nofun⟩

/-- With the line dropped and the state `inactive`, nothing may be loaded. -/
theorem accords_dropped (s : Signals) : ((s.setHandshake false).enter .inactive).Accords false :=
  ⟨handshakeAsserted_setHandshake false s, nofun, fun _ => rfl⟩

theorem accords_done (hpolicy : s.policy = .onTransactionEnd) : (s.onBus .done).Accords false := by
  unfold onBus
  rw [hpolicy]
  exact accords_dropped s

theorem accords_setDataReady (on : Bool) (h : s.Accords loaded) :
    (s.setDataReady on).Accords loaded := by
  unfold setDataReady
  split
  · exact h
  · exact h.congr rfl rfl

theorem accords_deactivate (s : Signals) : s.deactivate.Accords false :=
  accords_setDataReady false (accords_dropped s)

theorem accords_driven (level : Level) (h : s.Accords loaded) :
    (s.driven level).Accords loaded := h.congr rfl rfl

/-- The falling edge drops the line and leaves `ready`, whether or not a transfer is loaded. -/
theorem accords_select (hwatched : s.watchers = 1) (h : s.Accords loaded) :
    s.select.Accords loaded := by
  rw [select, drive_of_watched .low hwatched]
  split
  · refine ⟨handshakeAsserted_setHandshake false _, ?_, ?_⟩ <;>
      · intro hstate
        cases hstate
  · exact accords_driven .low h

/-- The rising edge matters under the other policy only. -/
theorem accords_deselect (hwatched : s.watchers = 1) (hpolicy : s.policy = .onTransactionEnd)
    (h : s.Accords loaded) : s.deselect.Accords loaded := by
  have hdriven := accords_driven .high h
  rw [deselect, drive_of_watched .high hwatched]
  split
  · have hsame : (s.driven .high).policy ≠ .onChipSelect := by
      rw [show (s.driven .high).policy = .onTransactionEnd from hpolicy]
      decide
    simpa only [onChipSelect, if_neg hsame] using hdriven
  · exact hdriven

theorem accords_init (c : LinkConfig) : (ofConfig c).init.Accords false :=
  ⟨handshakeAsserted_setHandshake false (ofConfig c), nofun, fun _ => rfl⟩

end Signals

namespace Link

variable {l l' : Link} {t : Transaction}

def Accords (l : Link) : Prop := l.signals.Accords l.bus.loaded.isSome

theorem Accords.congr (h : l.Accords) (hsignals : l'.signals = l.signals)
    (hloaded : l'.bus.loaded = l.bus.loaded) : l'.Accords := by
  rw [Accords, hsignals, hloaded]
  exact h

/-- Looking for a release of chip-select changes neither the line nor the state. -/
theorem Accords.seen (h : l.Accords)
    (hsignals : l'.signals = l.signals ∨ l'.signals = l.signals.takeRelease.2)
    (hloaded : l'.bus.loaded = l.bus.loaded) : l'.Accords := by
  rcases hsignals with hsame | htaken
  · exact h.congr hsame hloaded
  · rw [Accords, htaken, hloaded]
    exact Signals.Accords.congr h rfl rfl

/-- Whatever the state was, a transfer that is loaded makes it `ready`. -/
theorem accords_loading (tx rx : Block) (l : Link) : (l.loading tx rx).Accords :=
  Signals.accords_ready l.signals

theorem accords_attempt (h : l.Accords) (hattempt : l.Attempt l') : l'.Accords := by
  cases hattempt with
  | loaded willing loaded => cases loaded <;> exact accords_loading _ _ _
  | starved | refusedFrame => exact h
  | refusedDummy => exact Signals.accords_setDataReady false h

theorem accords_announcing {r : Except LinkError Unit} (h : l.Accords)
    (hannouncing : l.Announcing (r, l')) : l'.Accords := by
  cases hannouncing with
  | spent | failed | turnedAway => exact h
  | armed => exact Signals.accords_setDataReady true (accords_loading _ _ _)

theorem accords_starting {r : Except LinkError Unit} (h : l.Accords)
    (hstarting : l.Starting (r, l')) : l'.Accords := by
  cases hstarting with
  | refused => exact h
  | up _ announced | failed _ _ announced =>
    exact (accords_announcing (l := { l with phase := .active }) h announced).congr rfl rfl

theorem accords_submission {header : Header} {payload : Bytes} {r : Except LinkError Unit}
    (h : l.Accords) (hsubmission : l.Submission header payload (r, l')) : l'.Accords := by
  cases hsubmission with
  | queued => exact Signals.accords_setDataReady true h
  | refused => exact h

theorem accords_finish {size : Nat} (hshaped : t.Shaped size) (h : l.Accords) :
    (l.finish t).Accords := by
  obtain ⟨_, _, _, _, _, hframe⟩ := finish_frame hshaped l
  rw [hframe]
  exact h

theorem accords_dismantle (l : Link) : l.dismantle.Accords := Signals.accords_deactivate l.signals

theorem accords_create {c : LinkConfig} (hcreate : create c = .ok l) : l.Accords := by
  obtain ⟨_, rfl⟩ := create_eq_ok hcreate
  exact Signals.accords_init c

end Link
end SlaveLink
