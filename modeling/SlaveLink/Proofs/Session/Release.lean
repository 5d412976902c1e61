import SlaveLink.Proofs.Session.ChipSelect
import SlaveLink.Proofs.Session.Course
import SlaveLink.Proofs.Session.Reception

/-! # Waiting for the release of chip-select
Under the policy `onChipSelect` the worker holds a completed transfer until chip-select is released.
An edge leaves a mark, which a wait takes; it goes on if chip-select is still released then. A host
that clocks only while chip-select is asserted leaves an edge behind after every transfer, so the
worker never waits with chip-select released, and marks of earlier edges do not let it go on early.
A retry waits for nothing: it arms whatever the level of chip-select. -/

namespace SlaveLink

namespace Signals

variable {s : Signals} {c : LinkConfig} {chipSelect : Level} {asserted : Bool}

/-- An edge of chip-select leaves its mark. -/
theorem releaseSeen_deselect (h : s.Shows c chipSelect asserted)
    (hpolicy : c.policy = .onChipSelect) :
    s.deselect.releaseSeen = (s.releaseSeen || decide (chipSelect = .low)) := by
  have hsame : (s.driven .high).policy = .onChipSelect := h.policy.trans hpolicy
  rw [deselect, drive_of_watched .high h.watched, h.chipSelect]
  cases chipSelect with
  | low => simp [onChipSelect, hsame]
  | high => simp [driven]

theorem releaseSeen_setDataReady (on : Bool) (s : Signals) :
    (s.setDataReady on).releaseSeen = s.releaseSeen := by
  unfold setDataReady
  split <;> rfl

/-- A wait goes on exactly if an edge left its mark and chip-select is still released. -/
theorem takeRelease_eq_true : s.takeRelease.1 = true ↔
    s.releaseSeen = true ∧ s.lines.level .chipSelect = .high := by
  rw [takeRelease, Bool.and_eq_true, beq_iff_eq]
  rfl

end Signals

namespace Link

variable {l : Link} {t : Transaction} {withheld : Bool}

theorem unreleased_of_waiting (hnone : l.turn? withheld = none) (hwaiting : l.worker = .waiting t) :
    l.signals.takeRelease.1 = false := by
  simpa [turn?, hwaiting, releaseTurn?] using hnone

theorem unreleased_of_completed (hpolicy : l.config.policy = .onChipSelect)
    (hnone : l.turn? false = none) (hparked : l.worker = .parked)
    (hcompleted : l.bus.completed = [t]) : l.signals.takeRelease.1 = false := by
  simpa [turn?, hparked, completedTurn?, Bus.collect?, hcompleted, hpolicy, releaseTurn?]
    using hnone

end Link

namespace Session

variable {s m : Session} {c : LinkConfig} {host : HostLevels} {step : Step} {t : Transaction}

/-- While a transfer is unfinished and chip-select is released, an edge has left its mark. -/
def Marked (s : Session) : Prop :=
  s.link.unfinished ≠ [] → s.lines.level .chipSelect = .high → s.link.signals.releaseSeen = true

theorem marked_of_finished (h : s.link.unfinished = []) : s.Marked :=
  fun hbusy => absurd h hbusy

theorem marked_of_selected (h : s.lines.level .chipSelect = .low) : s.Marked := by
  intro _ hhigh
  simp [h] at hhigh

theorem marked_of_seen (h : s.link.signals.releaseSeen = true) : s.Marked := fun _ _ => h

theorem unfinished_dismantle (l : Link) : l.dismantle.unfinished = [] := rfl

theorem marked_started (hsteady : s.link.Steady []) (h : s.Marked) :
    Marked { s with link := s.link.start.2 } := by
  have hstarting := Link.starting fun hphase =>
    hsteady.vacant (hsteady.dormant hphase).1 (Nat.zero_le _)
  generalize s.link.start = ended at hstarting ⊢
  obtain ⟨r, l⟩ := ended
  by_cases hearly : s.link.phase = .initialized
  · refine marked_of_finished ((inbound_starting hsteady hstarting).2.2.trans ?_)
    exact (hsteady.dormant hearly).1.unfinished
  · cases hstarting with
    | refused => exact h
    | up early | failed _ early => exact absurd early hearly

theorem marked_submission {header : Header} {payload : Bytes} {r : Except LinkError Unit} {l : Link}
    (hwired : s.Wired c) (hsubmission : s.link.Submission header payload (r, l)) (h : s.Marked) :
    Marked { s with link := l } := by
  cases hsubmission with
  | refused => exact h
  | queued =>
    intro hbusy hhigh
    have hshows := Signals.shows_setDataReady true hwired.shows
    refine (Signals.releaseSeen_setDataReady true _).trans (h hbusy ?_)
    exact hshows.chipSelect.symm.trans hhigh

theorem marked_act (step : Step) (hsteady : s.Steady) (hwired : s.Wired c)
    (hpolicy : c.policy = .onChipSelect) (hclocks : s.clocksUnselected step = false)
    (h : s.Marked) : (s.act step).2.Marked := by
  have hsignalling := signalling hsteady.traffic step
  generalize (s.act step).2 = m at hsignalling ⊢
  have hshows := hwired.shows
  have hselected := Signals.shows_select hshows
  cases hsignalling with
  | still _ still =>
    intro hbusy hhigh
    rw [still.unfinished] at hbusy
    rw [lines, still.signals] at hhigh
    rw [still.signals]
    exact h hbusy hhigh
  | selected => exact marked_of_selected hselected.chipSelect
  | deselected =>
    intro hbusy _
    refine (Signals.releaseSeen_deselect hshows hpolicy).trans ?_
    cases hlevel : s.lines.level .chipSelect with
    | low => simp
    | high => simp [h hbusy hlevel]
  | clocked =>
    refine marked_of_selected ((Signals.shows_done hshows).chipSelect.trans ?_)
    cases hlevel : s.lines.level .chipSelect with
    | low => rfl
    | high => simp [clocksUnselected, hlevel] at hclocks
  | exchanged =>
    refine marked_of_seen ((Signals.releaseSeen_deselect (Signals.shows_done hselected)
      hpolicy).trans ?_)
    simp
  | missed =>
    refine marked_of_seen ((Signals.releaseSeen_deselect hselected hpolicy).trans ?_)
    simp
  | started => exact marked_started hsteady.traffic h
  | @submitted _ f sequence =>
    have hsubmission := Link.submission f.header f.payload { s.link with sequence }
    exact marked_submission (s := { s with link := { s.link with sequence } }) hwired hsubmission h
  | retried parked pending =>
    obtain ⟨hretry, hidle⟩ := steady_retry hsteady.traffic pending
    have hunmoved := Link.unmoved_armNext (hretry.vacant hidle (Nat.zero_le _))
    exact marked_of_finished (hunmoved.unfinished.trans hidle.unfinished)
  | dismantled => exact marked_of_finished (unfinished_dismantle _)

/-- A wait that does not go on waits for chip-select. -/
theorem selected_of_unreleased (hbusy : s.link.unfinished ≠ []) (h : s.Marked)
    (hunreleased : s.link.signals.takeRelease.1 = false) : s.lines.level .chipSelect = .low := by
  cases hlevel : s.lines.level .chipSelect with
  | low => rfl
  | high =>
    have hreleased := Signals.takeRelease_eq_true.mpr ⟨h hbusy hlevel, hlevel⟩
    simp [hunreleased] at hreleased

theorem marked_rest (hsteady : s.Steady) (hpolicy : s.link.config.policy = .onChipSelect)
    (h : s.Marked) : s.settle.Marked ∧
      (s.link.phase ≠ .draining → ∀ t, s.settle.link.worker = .waiting t →
        s.settle.lines.level .chipSelect = .low) := by
  unfold settle
  split
  · next hdraining => exact ⟨h, fun hphase => absurd hdraining hphase⟩
  · have hsettling := Link.settling hsteady.traffic s.withheld
    simp only [onLink]
    generalize s.link.settle s.withheld = l at hsettling ⊢
    cases hsettling with
    | rest none =>
      refine ⟨h, fun _ t hwaiting => selected_of_unreleased (s := s) ?_ h ?_⟩
      · simp [Link.unfinished_eq, hwaiting, Worker.held]
      · exact Link.unreleased_of_waiting none hwaiting
    | wait none waiting =>
      have hlow : s.lines.level .chipSelect = .low :=
        selected_of_unreleased (by simp [Link.unfinished_eq, waiting, Worker.held]) h
          (Link.unreleased_of_waiting none waiting)
      exact ⟨marked_of_selected hlow, fun _ _ _ => hlow⟩
    | hold none parked completed reached =>
      have hlow : s.lines.level .chipSelect = .low := by
        rw [reached] at none
        exact selected_of_unreleased (by simp [Link.unfinished_eq, completed]) h
          (Link.unreleased_of_completed hpolicy none parked completed)
      exact ⟨marked_of_selected hlow, fun _ _ _ => hlow⟩
    | turn turn =>
      obtain ⟨hsteady₁, hidle, hshaped⟩ := Link.steady_of_turn? hsteady.traffic turn
      have hnone := Link.unfinished_turnAround hsteady₁ hidle hshaped
      refine ⟨marked_of_finished hnone, fun _ u hwaiting => ?_⟩
      simp [Link.unfinished_eq, hwaiting, Worker.held] at hnone

/-- The worker does not move chip-select. -/
theorem chipSelect_rest (h : s.Wired c) :
    s.settle.lines.level .chipSelect = s.lines.level .chipSelect := by
  cases raises_rest (s := s) with
  | kept _ _ _ shows | raised _ _ _ _ shows => exact (shows h.shows).chipSelect

/-- A transfer is finished only while chip-select is released. -/
theorem released_of_finishing (h : s.Lasting c) (hpolicy : c.policy = .onChipSelect)
    (hfinishing : finishing step s ≠ []) :
    (s.step step).2.lines.level .chipSelect = .high := by
  have hquiet := steady_quiet h.toSteady
  have hacted := steady_act step hquiet
  have hwired := wired_act (s := s.quiet) step hquiet h.wired
  rcases idled_or_turned hacted.traffic with hidled | ⟨t, l, hturn, _⟩
  · exact absurd (finishing_of_idled hidled) hfinishing
  · refine (chipSelect_rest hwired).trans (chipSelect_of_turn ?_ hturn)
    rwa [config_acted h step]

theorem marked_step (h : s.Lasting c) (hpolicy : c.policy = .onChipSelect)
    (hclocks : s.clocksUnselected step = false) (hmarked : s.Marked) :
    (s.step step).2.Marked ∧ ((s.step step).2.link.phase ≠ .draining →
      ∀ t, (s.step step).2.link.worker = .waiting t →
        (s.step step).2.lines.level .chipSelect = .low) := by
  have hquiet := steady_quiet h.toSteady
  have hacted := steady_act step hquiet
  have hphase := (phase_rest hacted.traffic).1
  have hmark := marked_act (s := s.quiet) step hquiet h.wired hpolicy hclocks hmarked
  obtain ⟨hrest, hwaits⟩ := marked_rest hacted (by rwa [config_acted h step]) hmark
  refine ⟨hrest, fun hopen => hwaits ?_⟩
  rwa [← hphase]

/-- Until the link is closed, no step takes the worker out of its wait before the worker runs. -/
theorem waiting_act (step : Step) (hsteady : s.link.Steady [])
    (hwaiting : s.link.worker = .waiting t) (hopen : (s.act step).2.link.isOpen = true) :
    (s.act step).2.link.worker = .waiting t := by
  have hbusy : s.link.unfinished ≠ [] := by simp [Link.unfinished_eq, hwaiting, Worker.held]
  obtain ⟨_, hretry, hstarted⟩ := Link.busy_of_unfinished hsteady hbusy
  have hcases := acting_or_ending hsteady step
  generalize s.act step = out at hcases hopen ⊢
  obtain ⟨r, m⟩ := out
  rcases hcases with hacting | hending
  · cases hacting with
    | aside | clocked | received | dropped => exact hwaiting
    | stopped parked => simp [hwaiting] at parked
    | started starting =>
      cases starting with
      | refused => exact hwaiting
      | up early | failed _ early => exact absurd early hstarted
    | submitted _ submission => cases submission <;> exact hwaiting
    | retried parked => simp [hwaiting] at parked
  · cases hending with
    | closing | refusing => exact hwaiting
    | left parked => simp [hwaiting] at parked
    | dismantled => simp [onLink, Link.dismantle, Link.isOpen, Phase.isOpen] at hopen

theorem waiting_rest (hsteady : s.link.Steady []) (hpolicy : s.link.config.policy = .onChipSelect)
    (hwaiting : s.link.worker = .waiting t) :
    s.settle.link.worker = .waiting t ∨ s.lines.level .chipSelect = .high := by
  unfold settle
  split
  · exact .inl hwaiting
  · have hsettling := Link.settling hsteady s.withheld
    simp only [onLink]
    generalize s.link.settle s.withheld = l at hsettling ⊢
    cases hsettling with
    | rest | wait => exact .inl hwaiting
    | hold _ parked => simp [hwaiting] at parked
    | turn turn => exact .inr (chipSelect_of_turn hpolicy turn)

/-- The worker leaves its wait only while chip-select is released. -/
theorem waiting_step (h : s.Lasting c) (hpolicy : c.policy = .onChipSelect)
    (hwaiting : s.link.worker = .waiting t) (hopen : (s.step step).2.link.isOpen = true) :
    (s.step step).2.link.worker = .waiting t ∨
      (s.step step).2.lines.level .chipSelect = .high := by
  have hquiet := steady_quiet h.toSteady
  have hacted := steady_act step hquiet
  have hwired := wired_act (s := s.quiet) step hquiet h.wired
  have hstays := waiting_act (s := s.quiet) step hquiet.traffic hwaiting
    ((congrArg Phase.isOpen (phase_rest hacted.traffic).1).symm.trans hopen)
  rcases waiting_rest hacted.traffic (by rwa [config_acted h step]) hstays with hwaits | hhigh
  · exact .inl hwaits
  · exact .inr ((chipSelect_rest hwired).trans hhigh)

/-- A release ends the wait. -/
theorem deselect_ends_wait (h : s.Lasting c) (hpolicy : c.policy = .onChipSelect)
    (hopen : s.link.isOpen = true) (hwaiting : s.link.worker = .waiting t)
    (hlow : s.lines.level .chipSelect = .low) :
    finishing .deselect s = [t] ∧ (s.step .deselect).2.link.worker = .parked := by
  have hacted := steady_act .deselect (steady_quiet h.toSteady)
  have hshows : s.link.signals.deselect.Shows c .high _ := Signals.shows_deselect h.wired.shows
  have hreleased : s.link.signals.deselect.takeRelease.1 = true := by
    refine Signals.takeRelease_eq_true.mpr ⟨?_, hshows.chipSelect⟩
    rw [Signals.releaseSeen_deselect h.wired.shows hpolicy, hlow]
    simp
  have hturn : (s.quiet.act .deselect).2.link.turn? s.withheld = some (t,
      { (s.quiet.act .deselect).2.link with
        signals := s.link.signals.deselect.takeRelease.2, worker := .parked }) := by
    have hsame : (s.quiet.act .deselect).2.link.worker = .waiting t := hwaiting
    have hseen : (s.quiet.act .deselect).2.link.signals.takeRelease.1 = true := hreleased
    simp only [Link.turn?, hsame, Link.releaseTurn?, hseen, if_true]
    rfl
  have hsettle : (s.quiet.act .deselect).2.settle.link =
      Link.turnAround t { (s.quiet.act .deselect).2.link with
        signals := s.link.signals.deselect.takeRelease.2, worker := .parked } := by
    have hphase : (s.quiet.act .deselect).2.link.phase ≠ .draining := by
      intro hdraining
      have hclosed : s.link.phase.isOpen = true := hopen
      have hdraining' : s.link.phase = .draining := hdraining
      simp [hdraining', Phase.isOpen] at hclosed
    simp only [settle, if_neg hphase, onLink]
    exact Link.settle_of_turn hacted.traffic hturn
  obtain ⟨hone, hnone⟩ := unfinished_of_turned hacted.traffic hturn hsettle
  obtain ⟨hsteady, hidle, hshaped⟩ := Link.steady_of_turn? hacted.traffic hturn
  refine ⟨finishing_of_turned hone hnone, (congrArg Link.worker hsettle).trans ?_⟩
  exact (Link.unmoved_turnAround hsteady hidle hshaped).worker

theorem marked_run (hcreate : create c host = .ok s) (hpolicy : c.policy = .onChipSelect)
    {steps : List Step} (hclocks : s.happens clocksUnselected steps = false) :
    (s.run steps).2.Marked ∧ ((s.run steps).2.link.phase ≠ .draining →
      ∀ t, (s.run steps).2.link.worker = .waiting t →
        (s.run steps).2.lines.level .chipSelect = .low) := by
  induction steps using List.reverseRecOn with
  | nil =>
    have hidle : s.link.worker = .absent ∧ s.link.unfinished = [] := by
      obtain ⟨_, hl⟩ := Link.create_eq_ok (create_eq_ok hcreate).1
      rw [hl]
      exact ⟨rfl, rfl⟩
    exact ⟨marked_of_finished hidle.2, fun _ t hwaiting => by simp [run, hidle.1] at hwaiting⟩
  | append_singleton steps step ih =>
    simp only [happens_append, Bool.or_eq_false_iff, happens, Bool.or_false] at hclocks
    rw [run_concat]
    exact marked_step (lasting_run (lasting_create hcreate) steps) hpolicy hclocks.2
      (ih hclocks.1).1

/-- The worker heeds every release of chip-select, and no other. -/
structure Heeds (s : Session) : Prop where
  waits : ∀ t, s.link.worker = .waiting t → s.lines.level .chipSelect = .low
  leaves : ∀ step t, s.link.worker = .waiting t → (s.step step).2.link.isOpen = true →
    (s.step step).2.link.worker = .waiting t ∨ (s.step step).2.lines.level .chipSelect = .high
  /-- So it is also for a wait that ends in the step in which it began. -/
  finishes : ∀ step, finishing step s ≠ [] → (s.step step).2.lines.level .chipSelect = .high
  ends : ∀ t, s.link.worker = .waiting t →
    finishing .deselect s = [t] ∧ (s.step .deselect).2.link.worker = .parked

/-- Under `onChipSelect`, with a host that clocks only while chip-select is asserted, an open link
waits for a release only while chip-select is asserted, leaves its wait only once it is released,
and leaves it when it is: no release is lost, and none of an earlier select counts. -/
theorem worker_heeds_release (hcreate : create c host = .ok s)
    (hpolicy : c.policy = .onChipSelect) (steps : List Step)
    (hclocks : s.happens clocksUnselected steps = false)
    (hopen : (s.run steps).2.link.isOpen = true) : (s.run steps).2.Heeds := by
  have hlasting := lasting_run (lasting_create hcreate) steps
  have hwaits := (marked_run hcreate hpolicy hclocks).2 (by
    intro hdraining
    simp [Link.isOpen, hdraining, Phase.isOpen] at hopen)
  exact {
    waits := hwaits
    leaves := fun _ _ hwaiting => waiting_step hlasting hpolicy hwaiting
    finishes := fun _ => released_of_finishing hlasting hpolicy
    ends := fun t hwaiting =>
      deselect_ends_wait hlasting hpolicy hopen hwaiting (hwaits t hwaiting) }

theorem worker_heeds_release_small :
    ∃ s, create selectConfig (matchingHost selectConfig) = .ok s ∧
      (s.run [.select, .deselect, .start, .select, .clock [] false]).2.Heeds ∧
      ∃ t, (s.run [.select, .deselect, .start, .select, .clock [] false]).2.link.worker =
        .waiting t :=
  ⟨_, rfl, worker_heeds_release (c := selectConfig) rfl rfl
    [.select, .deselect, .start, .select, .clock [] false] (by decide +kernel) (by decide +kernel),
    _, rfl⟩

def loads (step : Step) (s : Session) : Prop :=
  (s.step step).2.link.bus.loaded.isSome = true ∧
    (s.link.bus.loaded = none ∨ (s.step step).2.link.bus.clocked ≠ s.link.bus.clocked)

theorem chipSelect_of_arming (h : s.Lasting c) (hstep : step = .start ∨ step = .tick) :
    (s.step step).2.lines.level .chipSelect = s.lines.level .chipSelect := by
  have hquiet := steady_quiet h.toSteady
  have hwired : s.quiet.Wired c := h.wired
  refine (chipSelect_rest (wired_act (s := s.quiet) step hquiet hwired)).trans ?_
  have hmoving := moving hquiet.traffic step
  generalize (s.quiet.act step).2 = m at hmoving ⊢
  cases hmoving with
  | inward raises =>
    cases raises with
    | kept _ _ _ shows | raised _ _ _ _ shows => exact (shows hwired.shows).chipSelect
  | dismantled final =>
    rcases final with ⟨rfl, _⟩ | ⟨rfl, _⟩ <;> simp at hstep
  | selected | deselected | clocked | exchanged | missed => simp at hstep

/-- Under `onChipSelect`, whatever the host does, a transfer is loaded while chip-select is asserted
exactly if a start or a retry loads it then: those wait for no release. -/
theorem loads_selected_iff (hcreate : create c host = .ok s) (hpolicy : c.policy = .onChipSelect)
    (steps : List Step) (step : Step) (hloads : (s.run steps).2.loads step) :
    ((s.run steps).2.step step).2.lines.level .chipSelect = .low ↔
      (step = .start ∨ step = .tick) ∧ (s.run steps).2.lines.level .chipSelect = .low := by
  have hlasting := lasting_run (lasting_create hcreate) steps
  constructor
  · intro hlow
    cases following hlasting step with
    | loads _ _ _ source =>
      rcases source with ⟨hstep, _, hsame⟩ | hreleased
      · exact ⟨hstep, hsame.symm.trans hlow⟩
      · simp [hreleased hpolicy] at hlow
    | keeps kept =>
      rcases kept with ⟨hsame, hclocked⟩ | ⟨hnone, _⟩
      · rcases hloads.2 with hunloaded | hspent
        · simp [loads, hsame, hunloaded] at hloads
        · exact absurd hclocked hspent
      · simp [loads, hnone] at hloads
    | drops gone => simp [loads, ((lasting_step step hlasting).final gone).loaded] at hloads
  · rintro ⟨hstep, hlow⟩
    exact (chipSelect_of_arming hlasting hstep).trans hlow

theorem loads_selected_iff_small :
    ∃ s, create selectConfig (matchingHost selectConfig) = .ok s ∧
      (s.run [.start, .select, .clock [] false]).2.loads .deselect ∧
      ((s.run [.start, .select, .clock [] false]).2.step .deselect).2.lines.level .chipSelect ≠
        .low := by
  refine ⟨_, rfl, ⟨by decide +kernel, .inl (by decide +kernel)⟩, fun hlow => ?_⟩
  have hstep := ((loads_selected_iff (c := selectConfig) rfl rfl
    [.start, .select, .clock [] false] .deselect
    ⟨by decide +kernel, .inl (by decide +kernel)⟩).mp hlow).1
  simp at hstep

/-- The host sends six frames, which the application keeps, and a transfer without a frame; then it
asserts chip-select. -/
def hoarding : List Step :=
  .start ::
    (List.replicate 6 [.exchange [1, 0, 1, 0, 12, 0, 21, 0, 0, 0, 0, 0, 7] (.ofSecs 1) none false,
      .tryReceive true]).flatten ++
    [.exchange [] (.ofSecs 1) none false, .select]

/-- The pool ran short when the last transfer was completed, so nothing is armed; the retry then
loads a transfer though chip-select is asserted. -/
theorem retry_loads_selected :
    ∃ s, create selectConfig (matchingHost selectConfig) = .ok s ∧
      (s.run hoarding).2.link.phase = .active ∧
      (s.run hoarding).2.link.stats.poolExhausted = 1 ∧
      (s.run hoarding).2.link.bus.loaded = none ∧
      ((s.run hoarding).2.step .tick).2.link.bus.loaded.isSome = true ∧
      ((s.run hoarding).2.step .tick).2.lines.level .chipSelect = .low :=
  ⟨_, rfl, by decide +kernel⟩

end Session
end SlaveLink
