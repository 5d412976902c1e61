import SlaveLink.Proofs.Session.Signalling

/-! # What a step does to the lines
The host moves chip-select and clocks, the slave loads transfers, and a teardown ends both. Apart
from that the lines stay as they are. -/

namespace SlaveLink.Session

variable {s m : Session} {c : LinkConfig} {step : Step} {chipSelect : Level} {asserted : Bool}

inductive Moving (s : Session) : Step → Session → Prop
  /-- Only a start and a tick load anything. -/
  | inward {step : Step} {m : Session} (raises : s.link.Raises m.link)
      (unasserted : s.asserts step = false)
      (source : m.link.bus.loaded = s.link.bus.loaded ∨ step = .start ∨ step = .tick) :
      Moving s step m
  | selected : Moving s .select (s.onSignals Signals.select)
  | deselected : Moving s .deselect (s.onSignals Signals.deselect)
  | clocked {data : Bytes} {hold withheld : Bool} {t : Transaction}
      (loaded : s.link.bus.loaded = some t) :
      Moving s (.clock data hold) { s with
        link := clocking (t.clocked data none) (s.link.signals.onBusAll [.done]) s.link, withheld }
  | exchanged {data : Bytes} {limit : Duration} {fault : Option String} {hold withheld : Bool}
      {t : Transaction} (sees : s.host.seesHandshake s.lines = true)
      (loaded : s.link.bus.loaded = some t) :
      Moving s (.exchange data limit fault hold)
        { s with link := exchanging (t.clocked data fault) s.link, withheld }
  /-- The host sees Handshake, but there is nothing to clock. -/
  | missed {data : Bytes} {limit : Duration} {fault : Option String} {hold : Bool}
      (sees : s.host.seesHandshake s.lines = true) (unloaded : s.link.bus.loaded = none) :
      Moving s (.exchange data limit fault hold)
        (s.onSignals fun signals => signals.select.deselect)
  | dismantled {step : Step} (final : s.Dismantles step) :
      Moving s step (s.onLink fun l => { l with phase := .draining }.windDown.dismantle)

theorem asserts_of_offer {sequence : UInt16} {f : Frame} (h : step.offer? sequence = some f) :
    s.asserts step = false := by
  cases step <;> first | exact Bool.and_false _ | simp [Step.offer?] at h

theorem loaded_submission {l l' : Link} {header : Header} {payload : Bytes}
    {r : Except LinkError Unit} (h : l.Submission header payload (r, l')) :
    l'.bus.loaded = l.bus.loaded := by
  cases h <;> rfl

/-- A step of a steady link does one of the things that `Moving` lists. -/
theorem moving (h : s.link.Steady []) (step : Step) : s.Moving step (s.act step).2 := by
  have hsignalling := signalling h step
  generalize (s.act step).2 = m at hsignalling ⊢
  cases hsignalling with
  | still unasserted still =>
    exact .inward still.raises unasserted (.inl (congrArg Bus.loaded still.bus))
  | selected => exact .selected
  | deselected => exact .deselected
  | clocked loaded => exact .clocked loaded
  | exchanged sees loaded => exact .exchanged sees loaded
  | missed sees unloaded => exact .missed sees unloaded
  | started => exact .inward (Link.raises_start _) (Bool.and_false _) (.inr (.inl rfl))
  | @submitted _ f sequence offer =>
    have hsubmission := Link.submission f.header f.payload { s.link with sequence }
    refine .inward ?_ (asserts_of_offer offer) (.inl ?_)
    · exact (Link.raises_submission hsubmission).onward rfl rfl rfl
    · exact loaded_submission (l := { s.link with sequence }) hsubmission
  | retried =>
    exact .inward ((Link.raises_armNext _).onward rfl rfl rfl) (Bool.and_false _)
      (.inr (.inr rfl))
  | dismantled final => exact .dismantled final

/-- The worker does nothing to the lines but what loading does. -/
theorem raises_rest : s.link.Raises s.settle.link := by
  unfold settle
  split
  · exact Link.raises_refl _
  · exact Link.raises_settle _ _

theorem shows_dismantled (h : s.link.signals.Shows c chipSelect asserted) :
    { s.link with phase := .draining }.windDown.dismantle.signals.Shows c chipSelect false := by
  cases Link.raises_windDown { s.link with phase := .draining } with
  | kept _ _ _ shows | raised _ _ _ _ shows => exact Signals.shows_deactivate (shows h)

def Wired (c : LinkConfig) (s : Session) : Prop :=
  ∃ chipSelect asserted, s.link.signals.Shows c chipSelect asserted

theorem Wired.shows (h : s.Wired c) : s.link.signals.Shows c (s.lines.level .chipSelect)
    s.link.signals.handshakeAsserted := by
  obtain ⟨chipSelect, asserted, hshows⟩ := h
  rw [hshows.handshakeAsserted]
  rwa [← show s.lines.level .chipSelect = chipSelect from hshows.chipSelect] at hshows

theorem wired_moving (h : s.Wired c) (hmoving : s.Moving step m) : m.Wired c := by
  obtain ⟨chipSelect, asserted, hshows⟩ := h
  cases hmoving with
  | inward raises =>
    cases raises with
    | kept _ _ _ shows | raised _ _ _ _ shows => exact ⟨_, _, shows hshows⟩
  | selected => exact ⟨_, _, Signals.shows_select hshows⟩
  | deselected => exact ⟨_, _, Signals.shows_deselect hshows⟩
  | clocked => exact ⟨_, _, Signals.shows_done hshows⟩
  | exchanged =>
    exact ⟨_, _, Signals.shows_deselect (Signals.shows_done (Signals.shows_select hshows))⟩
  | missed => exact ⟨_, _, Signals.shows_deselect (Signals.shows_select hshows)⟩
  | dismantled => exact ⟨_, _, shows_dismantled hshows⟩

theorem wired_act (step : Step) (hsteady : s.Steady) (h : s.Wired c) : (s.act step).2.Wired c :=
  wired_moving h (moving hsteady.traffic step)

theorem wired_step (step : Step) (hsteady : s.Steady) (h : s.Wired c) :
    (s.step step).2.Wired c := by
  obtain ⟨chipSelect, asserted, hshows⟩ := wired_act (s := s.quiet) step (steady_quiet hsteady) h
  show Wired c (s.quiet.act step).2.settle
  cases raises_rest (s := (s.quiet.act step).2) with
  | kept _ _ _ shows | raised _ _ _ _ shows => exact ⟨_, _, shows hshows⟩

end SlaveLink.Session
