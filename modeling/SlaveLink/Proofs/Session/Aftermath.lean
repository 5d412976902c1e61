import SlaveLink.Proofs.Session.ChipSelect
import SlaveLink.Proofs.Signal

/-! # The signals of a link that is torn down
A teardown drops both lines and resets the state, but leaves the handlers for chip-select in place.
The lines stay down. The state follows the host: it becomes `transacting` on the next falling edge,
for good under `onTransactionEnd` and until chip-select is released under the other policy. -/

namespace SlaveLink

namespace Signals

variable {s : Signals} {c : LinkConfig} {chipSelect : Level} {asserted selected : Bool}

theorem state_select (h : s.Shows c chipSelect asserted) :
    s.select.state = if chipSelect = .low then s.state else .transacting := by
  rw [select, drive_of_watched .low h.watched, h.chipSelect]
  cases chipSelect <;> rfl

theorem state_deselect (h : s.Shows c chipSelect asserted) :
    s.deselect.state =
      if chipSelect = .low ∧ c.policy = .onChipSelect ∧ s.state = .transacting then .inactive
      else s.state := by
  rw [deselect, drive_of_watched .high h.watched, h.chipSelect, ← h.policy]
  cases chipSelect with
  | low =>
    obtain ⟨-, -, hstate⟩ := onChipSelect_high (s.driven .high)
    rw [if_pos (by decide), hstate]
    by_cases hends : s.policy = .onChipSelect ∧ s.state = .transacting
    · exact (if_pos hends).trans (if_pos ⟨rfl, hends⟩).symm
    · exact (if_neg hends).trans (if_neg fun h => hends h.2).symm
  | high => simp [driven]

/-- No transaction is loaded any more, and the state tells whether the host selected all the
same. -/
structure Idles (c : LinkConfig) (selected : Bool) (s : Signals) : Prop where
  unready : s.state ≠ .ready
  transacting : s.state = .transacting ↔
    selected = true ∧ (c.policy = .onChipSelect → s.lines.level .chipSelect = .low)

theorem idles_select (hshows : s.Shows c chipSelect asserted) (h : s.Idles c selected) :
    s.select.Idles c (selected || !decide (chipSelect = .low)) := by
  have hselected := Signals.shows_select hshows
  have htransacting := h.transacting
  rw [hshows.chipSelect] at htransacting
  cases chipSelect with
  | low =>
    have hstate : s.select.state = s.state := state_select hshows
    refine ⟨hstate ▸ h.unready, ?_⟩
    simpa [hstate, hselected.chipSelect] using htransacting
  | high =>
    have hstate : s.select.state = .transacting := state_select hshows
    refine ⟨hstate ▸ nofun, ?_⟩
    simp [hstate, hselected.chipSelect]

theorem idles_deselect (hshows : s.Shows c chipSelect asserted) (h : s.Idles c selected) :
    s.deselect.Idles c selected := by
  have hreleased := Signals.shows_deselect hshows
  have hstate := state_deselect hshows
  have htransacting := h.transacting
  rw [hshows.chipSelect] at htransacting
  by_cases hpolicy : c.policy = .onChipSelect
  · have hended : s.deselect.state ≠ .transacting := by
      rw [hstate]
      split
      · exact nofun
      · next hstays =>
        intro hselected
        exact hstays ⟨(htransacting.mp hselected).2 hpolicy, hpolicy, hselected⟩
    refine ⟨?_, iff_of_false hended ?_⟩
    · rw [hstate]
      split
      · exact nofun
      · exact h.unready
    · simp [hreleased.chipSelect, hpolicy]
  · have hsame : s.deselect.state = s.state := by simp [hstate, hpolicy]
    refine ⟨hsame ▸ h.unready, ?_⟩
    simpa [hsame, hpolicy] using htransacting

end Signals

namespace Session

variable {s m : Session} {c : LinkConfig} {host : HostLevels} {step : Step} {selected : Bool}

/-- Whatever happens to a link that is torn down, its signals see the edges of chip-select only. -/
theorem idles_lifeless (hsteady : s.link.Steady []) (hlifeless : s.Lifeless c)
    (h : s.link.signals.Idles c selected) (step : Step) :
    (s.act step).2.link.signals.Idles c (selected || s.asserts step) := by
  obtain ⟨chipSelect, hshows⟩ := hlifeless.shows
  have hlevel : s.lines.level .chipSelect = chipSelect := hshows.chipSelect
  have hselected := Signals.idles_select hshows h
  have hsignalling := signalling hsteady step
  generalize (s.act step).2 = m at hsignalling ⊢
  cases hsignalling with
  | still unasserted still =>
    rw [unasserted, Bool.or_false, still.signals]
    exact h
  | selected =>
    rw [asserts_select, hlevel]
    exact hselected
  | deselected =>
    have hunasserted : s.asserts .deselect = false := Bool.and_false _
    rw [hunasserted, Bool.or_false]
    exact Signals.idles_deselect hshows h
  | missed sees =>
    rw [asserts_exchange sees, hlevel]
    exact Signals.idles_deselect (Signals.shows_select hshows) hselected
  | clocked loaded | exchanged _ loaded => simp [hlifeless.loaded] at loaded
  | started =>
    have hstart : s.link.start.2 = s.link := by simp only [Link.start, hlifeless.phase]
    have hunasserted : s.asserts .start = false := Bool.and_false _
    rw [hunasserted, Bool.or_false, hstart]
    exact h
  | submitted sequence offer =>
    have hsame := submitHeader_of_closed (l := { s.link with sequence }) hlifeless.closed
    rw [asserts_of_offer offer, Bool.or_false, hsame]
    exact h
  | retried parked => simp [hlifeless.worker] at parked
  | dismantled final => exact absurd final hlifeless.not_dismantles

theorem idles_step (hlasting : s.Lasting c) (hlifeless : s.Lifeless c)
    (h : s.link.signals.Idles c selected) (step : Step) :
    (s.step step).2.link.signals.Idles c (selected || s.asserts step) := by
  have hquiet := steady_quiet hlasting.toSteady
  have hgone : s.quiet.Lifeless c := { hlifeless with }
  have hacted : (s.quiet.act step).2.Lifeless c := lifeless_lingering hgone (lingering hgone step)
  have hstep : (s.step step).2 = (s.quiet.act step).2 :=
    settle_of_lifeless (steady_act step hquiet) hacted
  rw [hstep]
  exact idles_lifeless hquiet.traffic hgone h step

theorem idles_run (hlasting : s.Lasting c) (hlifeless : s.Lifeless c)
    (h : s.link.signals.Idles c selected) (steps : List Step) :
    (s.run steps).2.link.signals.Idles c (selected || s.happens asserts steps) := by
  induction steps generalizing s selected with
  | nil =>
    rw [happens, Bool.or_false]
    exact h
  | cons step steps ih =>
    have hgone := (lingering_step hlasting.toSteady hlifeless step).2
    have hnext := ih (lasting_step step hlasting) hgone (idles_step hlasting hlifeless h step)
    rwa [Bool.or_assoc] at hnext

/-- A teardown leaves the state `inactive`. -/
theorem idles_dismantled (hlasting : s.Lasting c) (hfinal : s.Dismantles step) :
    (s.step step).2.link.signals.Idles c false := by
  have hstate := (tornDown hlasting hfinal).state
  refine ⟨hstate ▸ nofun, ?_⟩
  simp [hstate]

/-- A link that is gone was torn down by one of the steps. -/
theorem exists_dismantles (hlasting : s.Lasting c) (hup : s.link.phase ≠ .deinit)
    {steps : List Step} (hgone : (s.run steps).2.link.phase = .deinit) :
    ∃ before step after, steps = before ++ step :: after ∧ (s.run before).2.Dismantles step := by
  -- The last step took the link apart, or found it apart, so steps are taken off the end.
  induction steps using List.reverseRecOn with
  | nil => exact absurd hgone hup
  | append_singleton steps step ih =>
    rw [exists_split_concat]
    by_cases hbefore : (s.run steps).2.link.phase = .deinit
    · exact .inr (ih hbefore)
    · rw [run_concat] at hgone
      have hquiet := steady_quiet (lasting_run hlasting steps).toSteady
      have hsame := (phase_rest (steady_act step hquiet).traffic).1
      exact .inl (dismantles_of_gone (s := (s.run steps).2.quiet) hquiet.traffic hbefore
        (hsame.symm.trans hgone))

theorem idles_of_split (hlasting : s.Lasting c) {before after : List Step}
    (hfinal : (s.run before).2.Dismantles step) :
    (s.run (before ++ step :: after)).2.link.signals.Idles c
      ((s.run (before ++ [step])).2.happens asserts after) := by
  have hlast := lasting_run hlasting before
  have hnext := lasting_step step hlast
  have hlifeless := hnext.final ((tornDown hlast hfinal).inert []).phase
  have hidles := idles_run hnext hlifeless (idles_dismantled hlast hfinal) after
  rw [Bool.false_or] at hidles
  rw [run_concat, run_append s before (step :: after)]
  exact hidles

theorem closed_act (h : s.link.Steady []) (hclosed : s.link.isOpen = false) (step : Step) :
    (s.act step).2.link.isOpen = false := by
  by_cases hstart : step = .start
  · subst hstart
    have hsame : s.link.start.2 = s.link := by
      cases hphase : s.link.phase with
      | initialized | active => simp [Link.isOpen, hphase, Phase.isOpen] at hclosed
      | draining | deinit => simp only [Link.start, hphase]
    rw [act, request_snd, hsame]
    exact hclosed
  · have hcases := acting_or_ending h step
    generalize s.act step = out at hcases ⊢
    obtain ⟨r, m⟩ := out
    rcases hcases with hacting | hending
    · exact (congrArg Phase.isOpen (phase_acting h hstart hacting).1).trans hclosed
    · cases hending with
      | closing | dismantled => rfl
      | left | refusing => exact hclosed

/-- Nothing opens a link again. -/
theorem closed_step (h : s.Steady) (hclosed : s.link.isOpen = false) (step : Step) :
    (s.step step).2.link.isOpen = false := by
  have hquiet := steady_quiet h
  have hrest := (phase_rest (steady_act step hquiet).traffic).1
  exact (congrArg Phase.isOpen hrest).trans (closed_act hquiet.traffic hclosed step)

theorem closed_deinit (hlasting : s.Lasting c) : (s.step .deinit).2.link.isOpen = false := by
  have htears := tearsDown hlasting
  cases hphase : s.link.phase with
  | initialized | active =>
    have hopen : s.link.isOpen = true := congrArg Phase.isOpen hphase
    exact congrArg Phase.isOpen ((htears.opened hopen).inert []).phase
  | draining =>
    rw [(htears.draining hphase).1]
    exact congrArg Phase.isOpen hphase
  | deinit => exact congrArg Phase.isOpen (htears.gone hphase [.deinit]).phase

theorem closed_run (hlasting : s.Lasting c) {steps : List Step} (hasked : .deinit ∈ steps) :
    (s.run steps).2.link.isOpen = false := by
  obtain ⟨before, after, rfl⟩ := List.append_of_mem hasked
  have hlast := lasting_run hlasting before
  have hafter := run_keeps (P := fun m => m.Steady ∧ m.link.isOpen = false)
    (fun _ step h => ⟨steady_step step h.1, closed_step h.1 h.2 step⟩)
    ⟨steady_step .deinit hlast.toSteady, closed_deinit hlast⟩ after
  rw [run_append]
  exact hafter.2

def SelectedSince (s : Session) (steps : List Step) : Prop :=
  ∃ before step after, steps = before ++ step :: after ∧ (s.run before).2.Dismantles step ∧
    (s.run (before ++ [step])).2.happens asserts after = true

/-- After every run with a teardown the link is closed. Once it is gone, the state is never `ready`
again and Handshake stays down. The state is `transacting` exactly if the host has asserted
chip-select since and, under `onChipSelect`, has not released it. -/
theorem state_after_teardown (hcreate : create c host = .ok s) (steps : List Step) :
    (.deinit ∈ steps → (s.run steps).2.link.isOpen = false) ∧
      ((s.run steps).2.link.phase = .deinit →
        (s.run steps).2.link.signals.state ≠ .ready ∧
        (s.run steps).2.link.signals.handshakeAsserted = false ∧
        ((s.run steps).2.link.signals.state = .transacting ↔ s.SelectedSince steps ∧
          (c.policy = .onChipSelect → (s.run steps).2.lines.level .chipSelect = .low))) := by
  have hlasting := lasting_create hcreate
  refine ⟨closed_run hlasting, fun hgone => ?_⟩
  have hup : s.link.phase ≠ .deinit := by
    obtain ⟨_, hl⟩ := Link.create_eq_ok (create_eq_ok hcreate).1
    rw [hl]
    nofun
  obtain ⟨_, hshows⟩ := ((lasting_run hlasting steps).final hgone).shows
  obtain ⟨before, step, after, hsplit, hfinal⟩ := exists_dismantles hlasting hup hgone
  have hidles : (s.run (before ++ step :: after)).2.link.signals.Idles c
      ((s.run (before ++ [step])).2.happens asserts after) := idles_of_split hlasting hfinal
  rw [← hsplit] at hidles
  refine ⟨hidles.unready, hshows.handshakeAsserted, ?_⟩
  constructor
  · intro hstate
    obtain ⟨hselected, hlow⟩ := hidles.transacting.mp hstate
    exact ⟨⟨before, step, after, hsplit, hfinal, hselected⟩, hlow⟩
  · rintro ⟨⟨before, step, after, rfl, hfinal, hselected⟩, hlow⟩
    exact (idles_of_split hlasting hfinal).transacting.mpr ⟨hselected, hlow⟩

theorem state_after_teardown_small :
    ∃ s, create selectConfig (matchingHost selectConfig) = .ok s ∧
      s.SelectedSince [.start, .deinit, .select] :=
  ⟨_, rfl, (((state_after_teardown (c := selectConfig) rfl [.start, .deinit, .select]).2
    (by decide +kernel)).2.2.mp (by decide +kernel)).1⟩

/-- The host asserts chip-select of a link that is gone. -/
theorem select_after_teardown : ∃ s, create smallConfig (matchingHost smallConfig) = .ok s ∧
    (s.run [.start, .deinit]).2.link.phase = .deinit ∧
    (s.run [.start, .deinit]).2.link.signals.state = .inactive ∧
    (s.run [.start, .deinit, .select]).2.link.signals.state = .transacting ∧
    (s.run [.start, .deinit, .select, .deselect]).2.link.signals.state = .transacting :=
  ⟨_, rfl, by decide +kernel⟩

end Session
end SlaveLink
