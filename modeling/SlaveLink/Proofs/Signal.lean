import SlaveLink.Proofs.Link.SignalState

/-! # The signals, whatever the order of events
The state and the line of Handshake are written by five handlers, each in its own way. Whatever
order the events come in, the line is asserted while the state is `ready`. While it is `inactive`
there is one gap: under `onChipSelect` the release of chip-select changes the state and leaves the
line to the falling edge, which is over when a transaction is loaded with chip-select low. -/

namespace SlaveLink

/-- The step is the slave's own or an edge of chip-select; nobody else drives an output. -/
def SignalStep.isOwn : SignalStep → Bool
  | .drive line _ => line == .chipSelect
  | _ => true

namespace Signals

/-- What matters to Handshake: a transaction became loaded or was clocked, an edge of chip-select,
and both lines dropped at once. -/
inductive Heard where
  | loaded | done | fell | rose | dropped
deriving DecidableEq, Repr

def Heard.ofEdge : Level → Heard
  | .low => .fell
  | .high => .rose

def heard? (s : Signals) : SignalStep → Option Heard
  | .init | .deactivate => some .dropped
  | .bus .ready => some .loaded
  | .bus .done => some .done
  | .drive .chipSelect level =>
    if s.lines.level .chipSelect = level then none else some (.ofEdge level)
  | .drive _ _ | .dataReady _ | .takeRelease => none

theorem heard?_drive (s : Signals) (level : Level) : s.heard? (.drive .chipSelect level) =
    if s.lines.level .chipSelect = level then none else some (.ofEdge level) := rfl

def run (s : Signals) (steps : List SignalStep) : Signals :=
  steps.foldl (fun s step => (s.step step).2) s

/-- All that was heard on the way, the latest first. -/
def heard (s : Signals) : List SignalStep → List Heard
  | [] => []
  | step :: steps => (s.step step).2.heard steps ++ (s.heard? step).toList

def Finished (hs : List Heard) : Prop :=
  ∃ n earlier, hs = List.replicate (n + 1) .done ++ .loaded :: earlier

variable {s s' : Signals} {step : SignalStep} {hs : List Heard} {e : Heard}

theorem finished_done :
    Finished (.done :: hs) ↔ Finished hs ∨ ∃ earlier, hs = .loaded :: earlier := by
  constructor
  · rintro ⟨n, earlier, hheard⟩
    rw [List.replicate_succ, List.cons_append, List.cons.injEq] at hheard
    obtain ⟨_, rfl⟩ := hheard
    cases n with
    | zero => exact .inr ⟨earlier, rfl⟩
    | succ n => exact .inl ⟨n, earlier, rfl⟩
  · rintro (⟨n, earlier, rfl⟩ | ⟨earlier, rfl⟩)
    · exact ⟨n + 1, earlier, rfl⟩
    · exact ⟨0, earlier, rfl⟩

theorem not_finished_of_ne (h : e ≠ .done) : ¬ Finished (e :: hs) := by
  rintro ⟨n, earlier, hheard⟩
  rw [List.replicate_succ, List.cons_append, List.cons.injEq] at hheard
  exact h hheard.1

/-! ## What one step does -/

inductive Reacts (s s' : Signals) : Option Heard → Prop
  | unmoved (state : s'.state = s.state) (line : s'.handshakeAsserted = s.handshakeAsserted)
      (chipSelect : s'.lines.level .chipSelect = s.lines.level .chipSelect) : Reacts s s' none
  | loaded (state : s'.state = .ready) (line : s'.handshakeAsserted = true) :
      Reacts s s' (some .loaded)
  | ended (policy : s.policy = .onTransactionEnd) (state : s'.state = .inactive)
      (line : s'.handshakeAsserted = false) : Reacts s s' (some .done)
  | done (policy : s.policy = .onChipSelect) (state : s'.state = .transacting)
      (line : s'.handshakeAsserted = s.handshakeAsserted)
      (chipSelect : s'.lines.level .chipSelect = s.lines.level .chipSelect) :
      Reacts s s' (some .done)
  | fell (state : s'.state = .transacting) (line : s'.handshakeAsserted = false) :
      Reacts s s' (some .fell)
  /-- The release matters to the state under `onChipSelect` only, and to the line never. -/
  | rose (before : s.lines.level .chipSelect = .low)
      (state : s'.state = if s.policy = .onChipSelect ∧ s.state = .transacting then .inactive
        else s.state)
      (line : s'.handshakeAsserted = s.handshakeAsserted)
      (chipSelect : s'.lines.level .chipSelect = .high) : Reacts s s' (some .rose)
  | dropped (state : s'.state = .inactive) (line : s'.handshakeAsserted = false) :
      Reacts s s' (some .dropped)

/-- DataReady has a line of its own. -/
theorem setDataReady_frame (on : Bool) (s : Signals) :
    (s.setDataReady on).state = s.state ∧
      (s.setDataReady on).handshakeAsserted = s.handshakeAsserted ∧
      (s.setDataReady on).lines.level .chipSelect = s.lines.level .chipSelect ∧
      (s.setDataReady on).policy = s.policy ∧ (s.setDataReady on).watchers = s.watchers := by
  unfold setDataReady
  split
  · exact ⟨rfl, rfl, rfl, rfl, rfl⟩
  · exact ⟨rfl, rfl, rfl, rfl, rfl⟩

theorem reacts_setDataReady (on : Bool) (s : Signals) : s.Reacts (s.setDataReady on) none := by
  obtain ⟨hstate, hline, hchipSelect, _⟩ := setDataReady_frame on s
  exact .unmoved hstate hline hchipSelect

theorem reacts_deactivate (s : Signals) : s.Reacts s.deactivate (some .dropped) := by
  obtain ⟨hstate, hline, _⟩ := setDataReady_frame false ((s.setHandshake false).enter .inactive)
  exact .dropped hstate (hline.trans (handshakeAsserted_setHandshake false s))

theorem reacts_onBus (e : BusEvent) (s : Signals) : s.Reacts (s.onBus e) (s.heard? (.bus e)) := by
  cases e with
  | ready =>
    have hline : (s.onBus .ready).handshakeAsserted = true :=
      handshakeAsserted_setHandshake true s
    exact .loaded rfl hline
  | done =>
    cases hpolicy : s.policy with
    | onTransactionEnd =>
      have hended : s.onBus .done = (s.setHandshake false).enter .inactive := by
        simp [onBus, hpolicy]
      have hline : ((s.setHandshake false).enter .inactive).handshakeAsserted = false :=
        handshakeAsserted_setHandshake false s
      rw [hended]
      exact .ended hpolicy rfl hline
    | onChipSelect =>
      have hdone : s.onBus .done = s.enter .transacting := by simp [onBus, hpolicy]
      rw [hdone]
      exact .done hpolicy rfl rfl rfl

theorem reacts_fell (s : Signals) : s.Reacts ((s.driven .low).onChipSelect .low) (some .fell) := by
  have hline : ((s.driven .low).onChipSelect .low).handshakeAsserted = false :=
    handshakeAsserted_setHandshake false (s.driven .low)
  exact .fell rfl hline

/-- The release leaves both outputs alone, and ends `transacting` under `onChipSelect`. -/
theorem onChipSelect_high (s : Signals) :
    (s.onChipSelect .high).lines = s.lines ∧ (s.onChipSelect .high).handshake = s.handshake ∧
      (s.onChipSelect .high).state =
        if s.policy = .onChipSelect ∧ s.state = .transacting then .inactive else s.state := by
  by_cases hpolicy : s.policy = .onChipSelect
  · by_cases hstate : s.state = .transacting <;> simp [onChipSelect, enter, hpolicy, hstate]
  · simp [onChipSelect, hpolicy]

theorem reacts_rose (hlow : s.lines.level .chipSelect = .low) :
    s.Reacts ((s.driven .high).onChipSelect .high) (some .rose) := by
  obtain ⟨hlines, hhandshake, hstate⟩ := onChipSelect_high (s.driven .high)
  refine .rose hlow hstate ?_ ?_
  · rw [handshakeAsserted, hlines, hhandshake]
    rfl
  · rw [hlines]
    exact Lines.level_drive s.lines .chipSelect .high

theorem reacts_drive (level : Level) (hwatched : 0 < s.watchers) :
    s.Reacts (s.drive .chipSelect level) (s.heard? (.drive .chipSelect level)) := by
  rw [drive_of_watchers level hwatched, heard?_drive]
  by_cases hlevel : s.lines.level .chipSelect = level
  · rw [if_neg (not_not_intro hlevel), if_pos hlevel]
    exact .unmoved rfl rfl ((Lines.level_drive s.lines .chipSelect level).trans hlevel.symm)
  · rw [if_pos hlevel, if_neg hlevel]
    cases level with
    | low => exact reacts_fell s
    | high =>
      have hlow : s.lines.level .chipSelect = .low := by
        cases hbefore : s.lines.level .chipSelect with
        | low => rfl
        | high => exact absurd hbefore hlevel
      exact reacts_rose hlow

theorem reacts_step (hown : step.isOwn = true) (hwatched : 0 < s.watchers) :
    s.Reacts (s.step step).2 (s.heard? step) := by
  cases step with
  | init => exact .dropped rfl (handshakeAsserted_setHandshake false s)
  | bus e => exact reacts_onBus e s
  | drive line level =>
    cases line with
    | chipSelect => exact reacts_drive level hwatched
    | handshake | dataReady => cases hown
  | dataReady asserted => exact reacts_setDataReady asserted s
  | takeRelease => exact .unmoved rfl rfl rfl
  | deactivate => exact reacts_deactivate s

theorem kept_onBus (e : BusEvent) (s : Signals) :
    (s.onBus e).policy = s.policy ∧ (s.onBus e).watchers = s.watchers := by
  cases e with
  | ready => exact ⟨rfl, rfl⟩
  | done => cases hpolicy : s.policy <;> simp [onBus, hpolicy, enter, setHandshake]

theorem kept_onChipSelect (level : Level) (s : Signals) :
    (s.onChipSelect level).policy = s.policy ∧ (s.onChipSelect level).watchers = s.watchers := by
  cases level with
  | low => exact ⟨rfl, rfl⟩
  | high =>
    by_cases hpolicy : s.policy = .onChipSelect
    · by_cases hstate : s.state = .transacting <;> simp [onChipSelect, enter, hpolicy, hstate]
    · simp [onChipSelect, hpolicy]

/-- A step keeps the policy, and the handlers that are installed. -/
theorem kept_step (hown : step.isOwn = true) (hwatched : 0 < s.watchers) :
    (s.step step).2.policy = s.policy ∧ 0 < (s.step step).2.watchers := by
  cases step with
  | init => exact ⟨rfl, Nat.succ_pos _⟩
  | bus e =>
    obtain ⟨hpolicy, hwatchers⟩ := kept_onBus e s
    exact ⟨hpolicy, hwatchers ▸ hwatched⟩
  | drive line level =>
    cases line with
    | chipSelect =>
      obtain ⟨hpolicy, hwatchers⟩ := kept_onChipSelect level (s.driven level)
      simp only [Signals.step, drive_of_watchers level hwatched]
      split
      · exact ⟨hpolicy, hwatchers ▸ hwatched⟩
      · exact ⟨rfl, hwatched⟩
    | handshake | dataReady => cases hown
  | dataReady asserted =>
    obtain ⟨_, _, _, hpolicy, hwatchers⟩ := setDataReady_frame asserted s
    exact ⟨hpolicy, hwatchers ▸ hwatched⟩
  | takeRelease => exact ⟨rfl, hwatched⟩
  | deactivate =>
    obtain ⟨_, _, _, hpolicy, hwatchers⟩ :=
      setDataReady_frame false ((s.setHandshake false).enter .inactive)
    exact ⟨hpolicy, hwatchers ▸ hwatched⟩

/-! ## What a whole run does -/

/-- Under `onTransactionEnd` every handler writes the state and the line together. -/
theorem line_of_reacts (hpolicy : s.policy = .onTransactionEnd) {e? : Option Heard}
    (hreacts : s.Reacts s' e?) (hline : s.handshakeAsserted = decide (s.state = .ready)) :
    s'.handshakeAsserted = decide (s'.state = .ready) := by
  cases hreacts with
  | unmoved state line => rw [state, line, hline]
  | loaded state line | ended _ state line | fell state line | dropped state line =>
    rw [state, line]
    rfl
  | done policy => cases hpolicy.symm.trans policy
  | rose _ state line =>
    rw [if_neg (by simp [hpolicy])] at state
    rw [state, line, hline]

/-- Under `onChipSelect` what was heard, the latest first, explains the state and the line. -/
structure Explained (hs : List Heard) (state : SignalState) (up : Bool) (chipSelect : Level) :
    Prop where
  ready : state = .ready → up = true
  /-- While chip-select is low, what came last was no release. -/
  loaded : chipSelect = .low → (state = .ready ↔ ∃ earlier, hs = .loaded :: earlier)
  finished : chipSelect = .low → (state = .transacting ∧ up = true ↔ Finished hs)
  released : state = .inactive ∧ up = true ↔ ∃ earlier, hs = .rose :: earlier ∧ Finished earlier
  edge : ∀ earlier, hs = .rose :: earlier → chipSelect = .high

variable {state : SignalState} {up : Bool} {chipSelect : Level}

/-- Only a release leaves the line up in the state `inactive`. -/
theorem Explained.high (h : Explained hs state up chipSelect) (hstate : state = .inactive)
    (hup : up = true) : chipSelect = .high := by
  obtain ⟨earlier, hheard, _⟩ := h.released.mp ⟨hstate, hup⟩
  exact h.edge earlier hheard

/-- The line is up while the state is `ready` and only then, and a transaction came last if any. -/
theorem explained_of_ready (hup : up = decide (state = .ready))
    (hloaded : state = .ready ↔ e = .loaded) (hdone : e ≠ .done) (hrose : e ≠ .rose) :
    Explained (e :: hs) state up chipSelect := by
  subst hup
  refine ⟨fun hready => decide_eq_true hready, fun _ => ?_, fun _ => ?_, ?_, ?_⟩
  · rw [hloaded]
    simp
  · refine iff_of_false ?_ (not_finished_of_ne hdone)
    rintro ⟨rfl, hup⟩
    cases hup
  · refine iff_of_false ?_ ?_
    · rintro ⟨rfl, hup⟩
      cases hup
    · rintro ⟨earlier, hheard, _⟩
      exact hrose (List.cons.inj hheard).1
  · intro earlier hheard
    exact absurd (List.cons.inj hheard).1 hrose

theorem explained_done (h : Explained hs state up chipSelect) :
    Explained (.done :: hs) .transacting up chipSelect := by
  refine ⟨nofun, fun _ => ⟨nofun, nofun⟩, fun hlow => ?_, ⟨nofun, nofun⟩, nofun⟩
  rw [finished_done, ← h.finished hlow, ← h.loaded hlow]
  constructor
  · rintro ⟨_, hup⟩
    cases hstate : state with
    | ready => exact .inr rfl
    | transacting => exact .inl ⟨rfl, hup⟩
    | inactive => cases hlow.symm.trans (h.high hstate hup)
  · rintro (⟨_, hup⟩ | hready)
    · exact ⟨rfl, hup⟩
    · exact ⟨rfl, h.ready hready⟩

theorem explained_rose (h : Explained hs state up .low) :
    Explained (.rose :: hs) (if state = .transacting then .inactive else state) up .high := by
  refine ⟨?_, nofun, nofun, ?_, fun _ _ => rfl⟩
  · split
    · exact nofun
    · exact h.ready
  · -- Chip-select was low before, so the transfer had ended if the line was still up.
    have hheard : (∃ earlier, Heard.rose :: hs = .rose :: earlier ∧ Finished earlier) ↔
        state = .transacting ∧ up = true := by
      simp [h.finished rfl]
    rw [hheard]
    cases hstate : state with
    | ready => simp
    | transacting => simp
    | inactive =>
      have hdown : up ≠ true := fun hup => nomatch h.high hstate hup
      simp [hdown]

def IsExplained (hs : List Heard) (s : Signals) : Prop :=
  Explained hs s.state s.handshakeAsserted (s.lines.level .chipSelect)

theorem isExplained_of_reacts (hpolicy : s.policy = .onChipSelect) {e? : Option Heard}
    (hreacts : s.Reacts s' e?) (h : s.IsExplained hs) : s'.IsExplained (e?.toList ++ hs) := by
  unfold IsExplained at h ⊢
  cases hreacts with
  | unmoved state line chipSelect =>
    rw [state, line, chipSelect]
    exact h
  | loaded state line | fell state line | dropped state line =>
    rw [state, line]
    exact explained_of_ready rfl (by simp) (by decide) (by decide)
  | ended policy => cases hpolicy.symm.trans policy
  | done _ state line chipSelect =>
    rw [state, line, chipSelect]
    exact explained_done h
  | rose before state line chipSelect =>
    rw [state, line, chipSelect]
    rw [before] at h
    simpa [hpolicy] using explained_rose h

/-- Under `onTransactionEnd` the line agrees with the state after every run. -/
theorem line_run (steps : List SignalStep) (hown : ∀ step ∈ steps, step.isOwn = true)
    (hpolicy : s.policy = .onTransactionEnd) (hwatched : 0 < s.watchers)
    (hline : s.handshakeAsserted = decide (s.state = .ready)) :
    (s.run steps).handshakeAsserted = decide ((s.run steps).state = .ready) := by
  induction steps generalizing s with
  | nil => exact hline
  | cons step steps ih =>
    rw [List.forall_mem_cons] at hown
    obtain ⟨hkept, hwatched'⟩ := kept_step hown.1 hwatched
    exact ih hown.2 (hkept.trans hpolicy) hwatched'
      (line_of_reacts hpolicy (reacts_step hown.1 hwatched) hline)

theorem isExplained_run (steps : List SignalStep) (hown : ∀ step ∈ steps, step.isOwn = true)
    (hpolicy : s.policy = .onChipSelect) (hwatched : 0 < s.watchers) (h : s.IsExplained hs) :
    (s.run steps).IsExplained (s.heard steps ++ hs) := by
  induction steps generalizing s hs with
  | nil => exact h
  | cons step steps ih =>
    rw [List.forall_mem_cons] at hown
    obtain ⟨hkept, hwatched'⟩ := kept_step hown.1 hwatched
    have hstep := isExplained_of_reacts hpolicy (reacts_step hown.1 hwatched) h
    rw [heard, List.append_assoc]
    exact ih hown.2 (hkept.trans hpolicy) hwatched' hstep

/-- From signals that were set up on, and whatever happens in whatever order, Handshake is asserted
while the state is `ready`. While the state is `inactive` it is asserted in one case: under
`onChipSelect`, after a release of chip-select before which nothing was heard but the end of a
transfer since a transaction was loaded, so that the line rose with chip-select low already. -/
theorem line_of_state (s : Signals) (steps : List SignalStep)
    (hown : ∀ step ∈ steps, step.isOwn = true) :
    ((s.init.run steps).state = .ready → (s.init.run steps).handshakeAsserted = true) ∧
      ((s.init.run steps).state = .inactive ∧ (s.init.run steps).handshakeAsserted = true ↔
        s.policy = .onChipSelect ∧
          ∃ earlier, s.init.heard steps = .rose :: earlier ∧ Finished earlier) := by
  have hdropped : s.init.handshakeAsserted = false := handshakeAsserted_setHandshake false s
  have hwatched : 0 < s.init.watchers := Nat.succ_pos _
  cases hpolicy : s.policy with
  | onTransactionEnd =>
    have hline := line_run steps hown (s := s.init) hpolicy hwatched hdropped
    refine ⟨fun hready => by rw [hline, hready]; rfl, iff_of_false ?_ nofun⟩
    rintro ⟨hstate, hup⟩
    rw [hline, hstate] at hup
    cases hup
  | onChipSelect =>
    have hinit : s.init.IsExplained [] := by
      have hstart : Explained [] .inactive false (s.init.lines.level .chipSelect) :=
        ⟨nofun, fun _ => ⟨nofun, nofun⟩, fun _ => ⟨nofun, nofun⟩, ⟨nofun, nofun⟩, nofun⟩
      rwa [← hdropped] at hstart
    have hrun := isExplained_run steps hown (s := s.init) hpolicy hwatched hinit
    rw [List.append_nil] at hrun
    exact ⟨hrun.ready, hrun.released.trans (by simp)⟩

def patient : Signals :=
  { handshake := .activeHigh, dataReady := .activeHigh, policy := .onChipSelect }

def lateLoad : List SignalStep :=
  [.drive .chipSelect .low, .bus .ready, .bus .done, .drive .chipSelect .high]

theorem line_of_state_small : (∀ step ∈ lateLoad, step.isOwn = true) ∧
    patient.policy = .onChipSelect ∧
      ∃ earlier, patient.init.heard lateLoad = .rose :: earlier ∧ Finished earlier :=
  ⟨by decide, (line_of_state patient lateLoad (by decide)).2.mp (by decide +kernel)⟩

/-- Chip-select is released at the end of the transfer, and Handshake stays up. -/
theorem release_leaves_line : (∀ step ∈ lateLoad, step.isOwn = true) ∧
    (patient.init.run lateLoad).lines.level .chipSelect = .high ∧
    (patient.init.run lateLoad).state = .inactive ∧
    (patient.init.run lateLoad).handshakeAsserted = true := by
  decide +kernel

end Signals
end SlaveLink
