import SlaveLink.Link.Lifecycle
import SlaveLink.Proofs.Link.Application
import SlaveLink.Proofs.Link.Creation
import SlaveLink.Proofs.Link.Startup

/-! # What the lines say
The slave raises Handshake for every transfer that it loads, whatever loads it, and DataReady has
the level that was latched last. While chip-select stays released, Handshake is asserted as long as
a transfer is loaded. The edges of chip-select drop it, so a host that leaves a transfer loaded
would find it gone. -/

namespace SlaveLink

namespace Signals

variable {s : Signals} {c : LinkConfig} {chipSelect : Level} {asserted : Bool}

/-- Both outputs tell what the slave means, with chip-select at a given level. -/
structure Shows (c : LinkConfig) (chipSelect : Level) (asserted : Bool) (s : Signals) : Prop where
  wired : s.handshake = c.handshake ∧ s.dataReady = c.dataReady
  policy : s.policy = c.policy
  watched : s.watchers = 1
  chipSelect : s.lines.level .chipSelect = chipSelect
  handshake : s.lines.level .handshake = c.handshake.level asserted
  dataReady : s.lines.level .dataReady = c.dataReady.level s.isDataReady

theorem Shows.handshakeAsserted (h : s.Shows c chipSelect asserted) :
    s.handshakeAsserted = asserted := by
  have hlevel : s.lines.handshake.level = c.handshake.level asserted := h.handshake
  rw [Signals.handshakeAsserted, hlevel, h.wired.1]
  exact Polarity.level_beq_active _ _

theorem shows_setHandshake (on : Bool) (h : s.Shows c chipSelect asserted) :
    (s.setHandshake on).Shows c chipSelect on := by
  have hhandshake : s.handshake = c.handshake := h.wired.1
  have hother {line : Line} (hline : line ≠ .handshake) :
      (s.setHandshake on).lines.level line = s.lines.level line :=
    Lines.level_set_of_ne _ _ hline
  refine ⟨h.wired, h.policy, h.watched, ?_, ?_, ?_⟩
  · rw [hother (by decide)]
    exact h.chipSelect
  · simp [setHandshake, hhandshake]
  · rw [hother (by decide)]
    exact h.dataReady

theorem shows_enter (state : SignalState) (h : s.Shows c chipSelect asserted) :
    (s.enter state).Shows c chipSelect asserted :=
  ⟨h.wired, h.policy, h.watched, h.chipSelect, h.handshake, h.dataReady⟩

theorem shows_setDataReady (on : Bool) (h : s.Shows c chipSelect asserted) :
    (s.setDataReady on).Shows c chipSelect asserted := by
  unfold setDataReady
  split
  · exact h
  · have hdataReady : s.dataReady = c.dataReady := h.wired.2
    have hother {line : Line} (hline : line ≠ .dataReady) :
        (s.lines.set .dataReady (s.dataReady.level on)).level line = s.lines.level line :=
      Lines.level_set_of_ne _ _ hline
    refine ⟨h.wired, h.policy, h.watched, ?_, ?_, ?_⟩
    · exact (hother (by decide)).trans h.chipSelect
    · exact (hother (by decide)).trans h.handshake
    · simp [hdataReady]

theorem isDataReady_setDataReady (on : Bool) (s : Signals) :
    (s.setDataReady on).isDataReady = on := by
  unfold setDataReady
  split
  · assumption
  · rfl

/-- A transfer that becomes loaded raises Handshake. -/
theorem shows_ready (h : s.Shows c chipSelect asserted) :
    (s.onBus .ready).Shows c chipSelect true :=
  shows_enter .ready (shows_setHandshake true h)

/-- The end of a transfer drops Handshake under one policy and leaves it alone under the other. -/
theorem shows_done (h : s.Shows c chipSelect asserted) :
    (s.onBus .done).Shows c chipSelect (asserted && decide (c.policy = .onChipSelect)) := by
  unfold onBus
  rw [h.policy]
  cases c.policy with
  | onTransactionEnd => simpa using shows_enter .inactive (shows_setHandshake false h)
  | onChipSelect => simpa using shows_enter .transacting h

theorem shows_takeRelease (h : s.Shows c chipSelect asserted) :
    s.takeRelease.2.Shows c chipSelect asserted :=
  ⟨h.wired, h.policy, h.watched, h.chipSelect, h.handshake, h.dataReady⟩

theorem shows_deactivate (h : s.Shows c chipSelect asserted) :
    s.deactivate.Shows c chipSelect false :=
  shows_setDataReady false (shows_enter .inactive (shows_setHandshake false h))

/-- The line of chip-select alone, before its handler runs. -/
def driven (level : Level) (s : Signals) : Signals :=
  { s with lines := s.lines.drive .chipSelect level }

theorem shows_driven (level : Level) (h : s.Shows c chipSelect asserted) :
    (s.driven level).Shows c level asserted := by
  have hother {line : Line} (hline : line ≠ .chipSelect) :
      (s.driven level).lines.level line = s.lines.level line :=
    Lines.level_drive_of_ne _ _ hline
  refine ⟨h.wired, h.policy, h.watched, Lines.level_drive s.lines .chipSelect level, ?_, ?_⟩
  · rw [hother (by decide)]
    exact h.handshake
  · rw [hother (by decide)]
    exact h.dataReady

theorem onChipSelect_onChipSelect (level : Level) (s : Signals) :
    (s.onChipSelect level).onChipSelect level = s.onChipSelect level := by
  cases level with
  | low => simp [onChipSelect, setHandshake, enter, Lines.set_set]
  | high =>
    by_cases hpolicy : s.policy = .onChipSelect
    · by_cases hstate : s.state = .transacting <;> simp [onChipSelect, enter, hpolicy, hstate]
    · simp [onChipSelect, hpolicy]

/-- Several handlers do what one does. -/
theorem repeat_onChipSelect (level : Level) (n : Nat) (s : Signals) :
    Nat.repeat (onChipSelect level) (n + 1) s = s.onChipSelect level := by
  induction n with
  | zero => rfl
  | succ n ih =>
    rw [Nat.repeat, ih]
    exact onChipSelect_onChipSelect level s

theorem drive_of_watchers (level : Level) (hwatched : 0 < s.watchers) :
    s.drive .chipSelect level =
      if s.lines.level .chipSelect ≠ level then (s.driven level).onChipSelect level
      else s.driven level := by
  obtain ⟨_, _, _, _, _, _, _, watchers⟩ := s
  cases watchers with
  | zero => cases hwatched
  | succ n =>
    simp only [drive, true_and, repeat_onChipSelect]
    rfl

theorem drive_of_watched (level : Level) (hwatched : s.watchers = 1) :
    s.drive .chipSelect level =
      if s.lines.level .chipSelect ≠ level then (s.driven level).onChipSelect level
      else s.driven level :=
  drive_of_watchers level (by omega)

/-- The host asserts chip-select: Handshake falls on the edge, and only then. -/
theorem shows_select (h : s.Shows c chipSelect asserted) :
    s.select.Shows c .low (asserted && decide (chipSelect = .low)) := by
  have hdriven := shows_driven .low h
  rw [select, drive_of_watched .low h.watched, h.chipSelect]
  cases chipSelect with
  | low => simpa using hdriven
  | high =>
    have hfell := shows_enter .transacting (shows_setHandshake false hdriven)
    simpa [onChipSelect] using hfell

theorem shows_released (h : s.Shows c chipSelect asserted) :
    (s.onChipSelect .high).Shows c chipSelect asserted := by
  simp only [onChipSelect]
  split
  · split
    · exact ⟨h.wired, h.policy, h.watched, h.chipSelect, h.handshake, h.dataReady⟩
    · exact ⟨h.wired, h.policy, h.watched, h.chipSelect, h.handshake, h.dataReady⟩
  · exact h

/-- The host releases chip-select; that changes neither output. -/
theorem shows_deselect (h : s.Shows c chipSelect asserted) :
    s.deselect.Shows c .high asserted := by
  have hdriven := shows_driven .high h
  rw [deselect, drive_of_watched .high h.watched]
  split
  · exact shows_released hdriven
  · exact hdriven

theorem shows_init (c : LinkConfig) : (ofConfig c).init.Shows c .high false := by
  have hother {line : Line} (hline : line ≠ .dataReady) :
      (ofConfig c).init.lines.level line = ((ofConfig c).setHandshake false).lines.level line :=
    Lines.level_set_of_ne _ _ hline
  refine ⟨⟨rfl, rfl⟩, rfl, rfl, rfl, ?_, rfl⟩
  exact (hother (by decide)).trans (Lines.level_set _ .handshake _)

end Signals

namespace Link

variable {l l' : Link} {c : LinkConfig} {chipSelect : Level} {t : Transaction}

theorem taken_of_collect? {b b' : Bus} (h : b.collect? = some (t, b')) :
    b'.loaded = b.loaded ∧ b'.clocked = b.clocked := by
  unfold Bus.collect? at h
  split at h
  · cases h
  · obtain ⟨_, rfl⟩ := h
    exact ⟨rfl, rfl⟩

/-- The bus announces a transaction that it loads at once, and only that. -/
theorem announced_submit? {b b' : Bus} {events : List BusEvent}
    (h : b.submit? t = some (events, b')) : b'.clocked = b.clocked ∧
      (events = [.ready] ∧ b.loaded = none ∧ b'.loaded = some t ∨
        events = [] ∧ b'.loaded = b.loaded) := by
  obtain ⟨_, ⟨hnone, rfl, rfl⟩ | ⟨_, rfl, rfl⟩⟩ := Bus.submit?_eq_some h
  · exact ⟨rfl, .inl ⟨rfl, hnone, rfl⟩⟩
  · exact ⟨rfl, .inr ⟨rfl, rfl⟩⟩

/-- All that an operation of the slave does to Handshake is to raise it for a transfer that it
loads. -/
inductive Raises (l l' : Link) : Prop
  | kept (config : l'.config = l.config) (clocked : l'.bus.clocked = l.bus.clocked)
      (loaded : l'.bus.loaded = l.bus.loaded)
      (shows : ∀ {c chipSelect asserted}, l.signals.Shows c chipSelect asserted →
        l'.signals.Shows c chipSelect asserted)
  | raised (config : l'.config = l.config) (clocked : l'.bus.clocked = l.bus.clocked)
      (unloaded : l.bus.loaded = none) (loaded : l'.bus.loaded.isSome = true)
      (shows : ∀ {c chipSelect asserted}, l.signals.Shows c chipSelect asserted →
        l'.signals.Shows c chipSelect true)

/-- The links differ in nothing that the host could notice. -/
structure Unheard (l l' : Link) : Prop where
  config : l'.config = l.config
  bus : l'.bus = l.bus
  signals : l'.signals = l.signals

theorem Unheard.raises (h : l.Unheard l') : l.Raises l' := by
  refine .kept h.config (congrArg Bus.clocked h.bus) (congrArg Bus.loaded h.bus) ?_
  intro c chipSelect asserted hshows
  rwa [h.signals]

theorem raises_of_same (hconfig : l'.config = l.config) (hbus : l'.bus = l.bus)
    (hsignals : l'.signals = l.signals) : l.Raises l' :=
  Unheard.raises ⟨hconfig, hbus, hsignals⟩

theorem raises_refl (l : Link) : l.Raises l := raises_of_same rfl rfl rfl

theorem Raises.trans {l₁ l₂ l₃ : Link} (h₁ : l₁.Raises l₂) (h₂ : l₂.Raises l₃) :
    l₁.Raises l₃ := by
  cases h₁ with
  | kept config₁ clocked₁ loaded₁ shows₁ =>
    cases h₂ with
    | kept config₂ clocked₂ loaded₂ shows₂ =>
      exact .kept (config₂.trans config₁) (clocked₂.trans clocked₁) (loaded₂.trans loaded₁)
        fun h => shows₂ (shows₁ h)
    | raised config₂ clocked₂ unloaded loaded shows₂ =>
      exact .raised (config₂.trans config₁) (clocked₂.trans clocked₁) (loaded₁.symm.trans unloaded)
        loaded fun h => shows₂ (shows₁ h)
  | raised config₁ clocked₁ unloaded loaded shows₁ =>
    cases h₂ with
    | kept config₂ clocked₂ loaded₂ shows₂ =>
      exact .raised (config₂.trans config₁) (clocked₂.trans clocked₁) unloaded
        (by rwa [loaded₂]) fun h => shows₂ (shows₁ h)
    | raised _ _ unloaded₂ => simp [unloaded₂] at loaded

/-- What an operation raises it raises from every link with the same bus and the same signals. -/
theorem Raises.onward {l₁ : Link} (h : l₁.Raises l') (hconfig : l₁.config = l.config)
    (hbus : l₁.bus = l.bus) (hsignals : l₁.signals = l.signals) : l.Raises l' :=
  (raises_of_same hconfig hbus hsignals).trans h

theorem Raises.clocked_eq (h : l.Raises l') : l'.bus.clocked = l.bus.clocked := by
  cases h <;> assumption

def Shows (chipSelect : Level) (l : Link) : Prop :=
  l.signals.Shows l.config chipSelect l.bus.loaded.isSome

theorem Raises.toShows (h : l.Raises l') (hshows : l.Shows chipSelect) : l'.Shows chipSelect := by
  unfold Shows at hshows ⊢
  cases h with
  | kept config _ loaded shows =>
    rw [config, loaded]
    exact shows hshows
  | raised config _ _ loaded shows =>
    rw [config, loaded]
    exact shows hshows

theorem raises_setDataReady (on : Bool) (l : Link) : l.Raises (l.setDataReady on) :=
  .kept rfl rfl rfl (Signals.shows_setDataReady on)

theorem raises_load (t : Transaction) (l : Link) : l.Raises (l.load t).2 := by
  unfold load
  split
  · exact raises_of_same rfl rfl rfl
  · cases hsubmit : l.bus.submit? t with
    | none => exact raises_of_same rfl rfl rfl
    | some accepted =>
      obtain ⟨events, bus⟩ := accepted
      obtain ⟨hclocked, ⟨rfl, hunloaded, hloaded⟩ | ⟨rfl, hloaded⟩⟩ := announced_submit? hsubmit
      · exact .raised rfl hclocked hunloaded (by simp [hloaded]) Signals.shows_ready
      · exact .kept rfl hclocked hloaded id

theorem raises_bindAndLoad (tx rx : Block) (t : Transaction) (l : Link) :
    l.Raises (l.bindAndLoad tx rx t).2 := by
  unfold bindAndLoad
  exact (raises_load _ _).onward rfl rfl rfl

theorem raises_takeOutgoing (l : Link) : l.Raises l.takeOutgoing.2 := by
  unfold takeOutgoing
  split
  · exact raises_of_same rfl rfl rfl
  · split
    · exact raises_refl l
    · exact (raises_setDataReady false _).onward rfl rfl rfl

theorem raises_arm (preset : Option Block) (l : Link) : l.Raises (l.arm preset).2 := by
  unfold arm
  split
  · exact raises_of_same rfl rfl rfl
  · split
    · exact raises_of_same rfl rfl rfl
    · next t memory _ =>
      cases preset with
      | some tx => exact (raises_bindAndLoad _ _ _ _).onward rfl rfl rfl
      | none =>
        have hout : l.Raises (takeOutgoing { l with memory }).2 :=
          (raises_takeOutgoing _).onward rfl rfl rfl
        simp only
        generalize takeOutgoing _ = outgoing at hout ⊢
        obtain ⟨_ | tx, l'⟩ := outgoing
        · exact hout.trans (raises_of_same rfl rfl rfl)
        · exact hout.trans (raises_bindAndLoad _ _ _ _)

theorem raises_armNext (l : Link) : l.Raises l.armNext := by
  have harmed := raises_arm none l
  unfold armNext
  generalize l.arm none = ended at harmed ⊢
  obtain ⟨_ | _, l'⟩ := ended
  · exact harmed.trans (raises_of_same rfl rfl rfl)
  · exact harmed

theorem raises_armStartup (l : Link) : l.Raises l.armStartup.2 := by
  cases hsent : l.startup.isSent with
  | true =>
    simp only [armStartup, takeSequence, Startup.takeFrame, hsent, if_true]
    exact raises_of_same rfl rfl rfl
  | false =>
    rw [armStartup_of_unsent hsent]
    split
    · exact raises_of_same rfl rfl rfl
    · next b memory _ =>
      split
      · exact raises_of_same rfl rfl rfl
      · next bytes _ =>
        have harmed : l.Raises (arm (some { b with bytes }) { l.eventTaken with memory }).2 :=
          (raises_arm _ _).onward rfl rfl rfl
        generalize arm _ _ = ended at harmed ⊢
        obtain ⟨_ | _, l'⟩ := ended
        · exact harmed
        · exact harmed.trans (raises_setDataReady true l')

theorem raises_start (l : Link) : l.Raises l.start.2 := by
  unfold start
  split
  · have harmed : l.Raises (armStartup { l with phase := .active }).2 :=
      (raises_armStartup _).onward rfl rfl rfl
    generalize armStartup _ = ended at harmed ⊢
    obtain ⟨_ | _, l'⟩ := ended
    · exact harmed.trans (raises_of_same rfl rfl rfl)
    · exact harmed.trans (raises_of_same rfl rfl rfl)
  · exact raises_refl l
  · exact raises_refl l
  · exact raises_refl l

theorem raises_submission {h : Header} {payload : Bytes} {r : Except LinkError Unit}
    (hsubmission : l.Submission h payload (r, l')) : l.Raises l' := by
  cases hsubmission with
  | queued => exact (raises_setDataReady true _).onward rfl rfl rfl
  | refused => exact raises_of_same rfl rfl rfl

theorem raises_process (b : Block) (l : Link) : l.Raises (l.process b) := by
  obtain ⟨⟨_, _, _, _, _, hframe⟩, _⟩ := process_processed b l
  rw [hframe]
  exact raises_of_same rfl rfl rfl

theorem raises_finish (t : Transaction) (l : Link) : l.Raises (l.finish t) := by
  unfold finish
  split
  · exact raises_of_same rfl rfl rfl
  · cases t.rx with
    | some rx => cases t.tx <;> exact (raises_process rx _).onward rfl rfl rfl
    | none => cases t.tx <;> exact raises_of_same rfl rfl rfl

theorem raises_turnAround (t : Transaction) (l : Link) : l.Raises (l.turnAround t) := by
  unfold turnAround
  refine Raises.trans ?_ (raises_finish t _)
  split
  · exact raises_refl l
  · exact raises_armNext l

theorem raises_awaitRelease (t : Transaction) (l : Link) : l.Raises (l.awaitRelease t) := by
  have hseen : l.Raises { l with signals := l.signals.takeRelease.2 } :=
    .kept rfl rfl rfl Signals.shows_takeRelease
  unfold awaitRelease
  generalize l.signals.takeRelease = seen at hseen ⊢
  obtain ⟨_ | _, signals⟩ := seen
  · exact hseen.trans (raises_of_same rfl rfl rfl)
  · exact hseen.trans ((raises_turnAround t _).onward rfl rfl rfl)

theorem raises_complete (t : Transaction) (l : Link) : l.Raises (l.complete t) := by
  simp only [complete]
  split
  · exact (raises_turnAround t _).onward rfl rfl rfl
  · exact (raises_awaitRelease t _).onward rfl rfl rfl

theorem raises_collected {bus : Bus} (h : l.bus.collect? = some (t, bus)) :
    l.Raises { l with bus } :=
  .kept rfl (taken_of_collect? h).2 (taken_of_collect? h).1 id

theorem raises_collect (n : Nat) (l : Link) : l.Raises (l.collect n) := by
  induction n generalizing l with
  | zero => exact raises_refl l
  | succ n ih =>
    unfold collect
    split
    · exact raises_refl l
    · cases hcollect : l.bus.collect? with
      | none => exact raises_refl l
      | some taken =>
        obtain ⟨t, bus⟩ := taken
        exact (raises_collected hcollect).trans ((raises_complete t _).trans (ih _))

theorem raises_resume (l : Link) : l.Raises l.resume := by
  unfold resume
  split
  · exact raises_awaitRelease _ l
  · exact raises_refl l

/-- Whatever the worker does, it raises Handshake for what it loads. -/
theorem raises_settle (withheld : Bool) (l : Link) : l.Raises (l.settle withheld) := by
  have hresumed := raises_resume l
  unfold settle
  split
  · exact hresumed
  · exact hresumed.trans (raises_collect _ _)

theorem raises_windDown (l : Link) : l.Raises l.windDown := by
  unfold windDown
  split
  · exact raises_refl l
  · exact raises_finish _ l
  · cases hcollect : l.bus.collect? with
    | none => exact raises_refl l
    | some taken =>
      obtain ⟨t, bus⟩ := taken
      exact (raises_collected hcollect).trans ((raises_finish t _).onward rfl rfl rfl)

/-- A link that is taken apart drops both lines. -/
theorem shows_dismantle (h : l.Shows chipSelect) : l.dismantle.Shows chipSelect :=
  Signals.shows_deactivate h

theorem shows_create (hcreate : create c = .ok l) : l.Shows .high := by
  obtain ⟨_, rfl⟩ := create_eq_ok hcreate
  exact Signals.shows_init c

end Link
end SlaveLink
