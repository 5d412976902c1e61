import SlaveLink.Proofs.Link.Teardown
import SlaveLink.Proofs.Session.Acting

/-! # Sound sessions
What holds of a session between any two steps: at most one transfer is under way, and every block
has its size, whether it is with the link or with the application. Until a teardown, and with a
driver that refuses nothing, the link is also open and free to arm. -/

namespace SlaveLink.Session

variable {s m : Session} {c : LinkConfig} {host : HostLevels} {step : Step} {r : Reply}

theorem create_eq_ok (h : create c host = .ok s) :
    Link.create c = .ok s.link ∧ s = { link := s.link, host } := by
  have hmap : (Link.create c).map (fun link => ({ link, host } : Session)) = .ok s := h
  cases hlink : Link.create c with
  | error e => simp [hlink, Except.map] at hmap
  | ok l =>
    simp only [hlink, Except.map, Except.ok.injEq] at hmap
    subst hmap
    exact ⟨rfl, rfl⟩

theorem shaped_clocked {size : Nat} {t : Transaction} (h : t.Shaped size) (data : Bytes)
    (fault : Option String) : (t.clocked data fault).Shaped size := by
  obtain ⟨⟨tx, htx⟩, ⟨rx, hrx⟩, hlength⟩ := h
  have hfilled : (t.receive data).rx = some (rx.receive (data.take t.length)) := by
    simp [Transaction.receive, hrx]
  cases fault <;> exact ⟨⟨tx, htx⟩, ⟨_, hfilled⟩, hlength⟩

theorem shaped_loaded {l : Link} {t : Transaction} (h : l.Steady [])
    (hloaded : l.bus.loaded = some t) : t.Shaped l.config.frame.blockSize := by
  have hmem : t ∈ l.bus.loaded.toList := by simp [hloaded]
  exact h.shaped t (List.mem_append_left _ hmem)

/-- A retry is due on an idle link only, which was started. -/
theorem idle_of_retry {l : Link} (h : l.Steady []) (hpending : l.rearmPending = true) :
    l.Idle ∧ l.phase ≠ .initialized := by
  refine ⟨h.retry hpending, ?_⟩
  intro hphase
  have hnone : l.rearmPending = false := (h.dormant hphase).2.2
  simp [hpending] at hnone

theorem steady_retry {l : Link} (h : l.Steady []) (hpending : l.rearmPending = true) :
    { l with rearmPending := false }.Steady [] ∧ { l with rearmPending := false }.Idle := by
  obtain ⟨hidle, hphase⟩ := idle_of_retry h hpending
  exact ⟨h.setRetry hidle hphase false, hidle⟩

theorem orderly_retry {l : Link} (h : l.Orderly []) (hpending : l.rearmPending = true) :
    { l with rearmPending := false }.Orderly [] ∧ { l with rearmPending := false }.Idle := by
  obtain ⟨hsteady, hidle⟩ := steady_retry h.steady hpending
  exact ⟨⟨hsteady, h.isOpen, h.willing⟩, hidle⟩

theorem steady_stopWorker {l : Link} (h : l.Steady []) (hparked : l.worker = .parked) :
    l.stopWorker.Steady [] :=
  Traffic.Steady.setWorker h (congrArg Worker.held hparked) rfl fun _ => rfl

theorem steady_acting (h : s.link.Steady []) (hacting : s.Acting step (r, m)) :
    m.link.Steady [] := by
  cases hacting with
  | aside => exact h
  | stopped parked => exact steady_stopWorker h parked
  | started starting => exact Link.steady_starting h starting
  | submitted _ submission =>
    cases submission with
    | queued isOpen => exact h
    | refused e scribbled =>
      rcases scribbled with rfl | ⟨b, rest, bytes, _, _, rfl⟩
      · exact h
      · exact h
  | @clocked _ data fault t _ _ _ loaded =>
    exact Traffic.Steady.clock h loaded (shaped_clocked (shaped_loaded h loaded) data fault)
  | retried parked pending =>
    obtain ⟨hsteady, hidle⟩ := steady_retry h pending
    exact Link.steady_armNext hsteady hidle (Nat.zero_le _) rfl (idle_of_retry h pending).2
  | received due counted kept =>
    rcases kept with ⟨rfl, rfl⟩ | ⟨rfl, rfl⟩
    · exact h
    · exact h
  | dropped => exact h

theorem refusals_announcing {l l' : Link} {result : Except LinkError Unit}
    (hwilling : l.refusals = 0) (h : l.Announcing (result, l')) : l'.refusals = 0 := by
  cases h with
  | spent | armed | failed => exact hwilling
  | turnedAway _ unwilling => exact absurd hwilling unwilling

theorem phase_started {l l' : Link} {result : Except LinkError Unit}
    (h : l.Starting (result, l')) : l'.phase = l.phase ∨ l'.isOpen = true := by
  cases h with
  | refused => exact .inl rfl
  | up _ announced => exact .inr (congrArg Phase.isOpen (Link.announcing_frame announced).2.1)
  | failed => exact .inr rfl

theorem open_starting {l l' : Link} {result : Except LinkError Unit} (hopen : l.isOpen = true)
    (hstarting : l.Starting (result, l')) : l'.isOpen = true := by
  rcases phase_started hstarting with hsame | hopen'
  · exact (congrArg Phase.isOpen hsame).trans hopen
  · exact hopen'

theorem willing_starting {l l' : Link} {result : Except LinkError Unit} (hwilling : l.refusals = 0)
    (hstarting : l.Starting (result, l')) : l'.refusals = 0 := by
  cases hstarting with
  | refused => exact hwilling
  | up _ announced | failed _ _ announced =>
    have hannounced := refusals_announcing (l := { l with phase := .active }) hwilling announced
    exact hannounced

theorem willing_acting (h : s.link.Steady []) (hwilling : s.link.refusals = 0)
    (hacting : s.Acting step (r, m)) : m.link.refusals = 0 := by
  cases hacting with
  | aside | stopped | clocked | received | dropped => exact hwilling
  | started starting => exact willing_starting hwilling starting
  | submitted _ submission => cases submission <;> exact hwilling
  | retried parked pending =>
    obtain ⟨hsteady, hidle⟩ := steady_retry h pending
    exact Link.refusals_armNext ⟨hsteady.vacant hidle (Nat.zero_le _), hwilling⟩

theorem open_acting (h : s.link.Steady []) (hopen : s.link.isOpen = true)
    (hacting : s.Acting step (r, m)) : m.link.isOpen = true := by
  cases hacting with
  | aside | stopped | clocked | received | dropped => exact hopen
  | started starting => exact open_starting hopen starting
  | submitted _ submission => cases submission <;> exact hopen
  | retried parked pending =>
    obtain ⟨hsteady, hidle⟩ := steady_retry h pending
    have hphase := (Link.unmoved_armNext (hsteady.vacant hidle (Nat.zero_le _))).phase
    exact (congrArg Phase.isOpen hphase).trans hopen

theorem orderly_acting (h : s.link.Orderly []) (hacting : s.Acting step (r, m)) :
    m.link.Orderly [] :=
  ⟨steady_acting h.steady hacting, open_acting h.steady h.isOpen hacting,
    willing_acting h.steady h.willing hacting⟩

theorem steady_ending (h : s.link.Steady []) (hending : s.Ending step (r, m)) :
    m.link.Steady [] := by
  cases hending with
  | closing => exact h.setPhase nofun
  | left parked => exact steady_stopWorker h parked
  | dismantled =>
    have hdraining : { s.link with phase := .draining }.Steady [] := h.setPhase nofun
    have hparted := Link.parted_of_steady hdraining
    simp only [onLink]
    rw [Link.dismantle_windDown]
    exact Link.steady_dismantle hparted.steady hparted.held
  | refusing n => exact h.setRefusals n

theorem settle_of_orderly (h : s.link.Orderly []) :
    s.settle = { s with link := s.link.settle s.withheld } := by
  have hphase : s.link.phase ≠ .draining := by
    intro hdraining
    have hopen : s.link.phase.isOpen = true := h.isOpen
    simp [hdraining, Phase.isOpen] at hopen
  simp [settle, hphase, onLink]

/-- What holds of a session between two steps, whatever happened. -/
structure Steady (s : Session) : Prop where
  traffic : s.link.Steady []
  sized : s.link.Sized
  held : ∀ i, some i ∈ s.held → i.block.bytes.length = s.link.config.frame.blockSize

structure Sound (s : Session) : Prop extends s.Steady where
  isOpen : s.link.isOpen = true
  willing : s.link.refusals = 0

theorem Sound.orderly (h : s.Sound) : s.link.Orderly [] := ⟨h.traffic, h.isOpen, h.willing⟩

theorem sound_create (h : create c host = .ok s) : s.Sound := by
  obtain ⟨hlink, hs⟩ := create_eq_ok h
  have horderly := Link.orderly_create hlink
  refine ⟨⟨horderly.steady, Link.sized_create hlink, ?_⟩, horderly.isOpen,
    horderly.willing⟩
  intro i hi
  rw [hs] at hi
  cases hi

theorem steady_quiet (h : s.Steady) : s.quiet.Steady := ⟨h.traffic, h.sized, h.held⟩

theorem sound_quiet (h : s.Sound) : s.quiet.Sound := ⟨steady_quiet h.toSteady, h.isOpen, h.willing⟩

theorem length_blocks_clocked {size : Nat} {t : Transaction} (data : Bytes)
    (fault : Option String) (h : ∀ b ∈ t.blocks, b.bytes.length = size) :
    ∀ b ∈ (t.clocked data fault).blocks, b.bytes.length = size := by
  intro b hb
  have hblocks : (t.clocked data fault).blocks =
      t.tx.toList ++ (t.rx.map (·.receive (data.take t.length))).toList := by
    cases fault <;> rfl
  rw [hblocks] at hb
  rcases List.mem_append.mp hb with hb | hb
  · exact h b (List.mem_append_left _ hb)
  · obtain ⟨rx, hrx, rfl⟩ := Option.map_eq_some_iff.mp (Option.mem_toList.mp hb)
    have hmem : rx ∈ t.blocks := List.mem_append_right _ (by simp [hrx])
    exact (Bytes.length_overwrite _ _).trans (h rx hmem)

theorem config_starting {l l' : Link} {result : Except LinkError Unit}
    (h : l.Starting (result, l')) : l'.config = l.config := by
  cases h with
  | refused => rfl
  | up early announced => exact (Link.announcing_frame announced).2.2.1
  | failed e early announced => exact (Link.announcing_frame announced).2.2.1

theorem config_acting (h : s.link.Steady []) (hacting : s.Acting step (r, m)) :
    m.link.config = s.link.config := by
  cases hacting with
  | aside | stopped | clocked | received | dropped => rfl
  | started starting => exact config_starting starting
  | submitted _ submission => cases submission <;> rfl
  | retried parked pending =>
    obtain ⟨hsteady, hidle⟩ := steady_retry h pending
    exact (Link.unmoved_armNext (hsteady.vacant hidle (Nat.zero_le _))).config

theorem config_ending (h : s.link.Steady []) (hending : s.Ending step (r, m)) :
    m.link.config = s.link.config := by
  cases hending with
  | closing | left | refusing => rfl
  | dismantled =>
    have hdraining : { s.link with phase := .draining }.Steady [] := h.setPhase nofun
    simp only [onLink]
    rw [Link.dismantle_windDown]
    exact (Link.parted_of_steady hdraining).config

theorem sized_submission {l l' : Link} {h : Header} {payload : Bytes}
    {result : Except LinkError Unit} (hsized : l.Sized)
    (hsubmission : l.Submission h payload (result, l')) : l'.Sized := by
  cases hsubmission with
  | @queued b rest n out mux _ free written room =>
    obtain ⟨tx, hpush, rfl⟩ := Option.map_eq_some_iff.mp room
    refine ⟨(Link.sized_withoutBlock hsized).free, ?_, hsized.rx, hsized.transfers⟩
    intro p o ho
    rcases PriorityQueues.mem_of_push? hpush p ho with ho | rfl
    · exact hsized.tx p o ho
    · exact (length_of_encodeFrame_ok written).trans (hsized.free b (by simp [free]))
  | refused e scribbled =>
    exact ⟨Link.free_of_scribbled scribbled hsized.free, hsized.tx, hsized.rx, hsized.transfers⟩

theorem free_of_releaseAll {size : Nat} {m : Memory} {b : Block}
    (h : ∀ x ∈ m.wire.free, x.bytes.length = size) (hb : b.bytes.length = size) :
    ∀ x ∈ (m.releaseAll [b]).wire.free, x.bytes.length = size := by
  intro x hx
  rcases Memory.mem_free_releaseAll.mp hx with hx | hx
  · rw [List.mem_singleton.mp hx]
    exact hb
  · exact h x hx

theorem unfinished_clocking {l : Link} {t : Transaction} (h : l.Steady [])
    (hloaded : l.bus.loaded = some t) (u : Transaction) (signals : Signals) :
    (clocking u signals l).unfinished = [u] :=
  congrArg (· ++ [u]) (h.nothing_unfinished hloaded).1

theorem sized_stopWorker {l : Link} (h : l.Sized) (hparked : l.worker = .parked) :
    l.stopWorker.Sized := by
  refine ⟨h.free, h.tx, h.rx, fun t ht => h.transfers t ?_⟩
  rwa [← Link.unfinished_stopWorker hparked]

theorem sized_acting (h : s.Steady) (hacting : s.Acting step (r, m)) : m.link.Sized := by
  cases hacting with
  | aside => exact h.sized
  | stopped parked => exact sized_stopWorker h.sized parked
  | started starting => exact Link.sized_starting h.traffic h.sized starting
  | @submitted _ _ sequence _ _ _ submission =>
    exact sized_submission (l := { s.link with sequence }) h.sized submission
  | @clocked _ data fault t signals _ clocks loaded =>
    refine ⟨h.sized.free, h.sized.tx, h.sized.rx, ?_⟩
    intro u hu
    have hu' : u ∈ (clocking (t.clocked data fault) signals s.link).unfinished := hu
    rw [unfinished_clocking h.traffic loaded] at hu'
    rw [List.mem_singleton.mp hu']
    refine length_blocks_clocked data fault (h.sized.transfers t ?_)
    simp [loaded]
  | retried parked pending =>
    obtain ⟨hsteady, hidle⟩ := steady_retry h.traffic pending
    exact Link.sized_armNext (l := { s.link with rearmPending := false }) h.sized hidle
      (hsteady.vacant hidle (Nat.zero_le _))
  | @received step p i rx flow stats memory held due counted kept =>
    obtain ⟨hi, hsub⟩ := PriorityQueues.mem_of_pop? due
    have hrx : ∀ p, ∀ i ∈ rx.get p, i.block.bytes.length = s.link.config.frame.blockSize :=
      fun p i hi => h.sized.rx p i (hsub p i hi)
    rcases kept with ⟨rfl, rfl⟩ | ⟨rfl, rfl⟩
    · exact ⟨h.sized.free, h.sized.tx, hrx, h.sized.transfers⟩
    · exact ⟨free_of_releaseAll h.sized.free (h.sized.rx p i hi), h.sized.tx, hrx,
        h.sized.transfers⟩
  | @dropped n i held =>
    exact ⟨free_of_releaseAll h.sized.free (h.held i (List.mem_of_getElem? held)), h.sized.tx,
      h.sized.rx, h.sized.transfers⟩

theorem sized_ending (h : s.Steady) (hending : s.Ending step (r, m)) : m.link.Sized := by
  cases hending with
  | closing | refusing => exact h.sized
  | left parked => exact sized_stopWorker h.sized parked
  | dismantled =>
    have hdraining : { s.link with phase := .draining }.Steady [] := h.traffic.setPhase nofun
    have hparted := Link.parted_of_steady hdraining
    simp only [onLink]
    rw [Link.dismantle_windDown]
    exact Link.sized_dismantle hparted.steady (Link.sized_parted hdraining h.sized) hparted.held

theorem held_acting (h : s.Steady) (hacting : s.Acting step (r, m)) :
    ∀ i, some i ∈ m.held → i.block.bytes.length = m.link.config.frame.blockSize := by
  rw [config_acting h.traffic hacting]
  cases hacting with
  | received due counted kept =>
    rcases kept with ⟨rfl, rfl⟩ | ⟨rfl, rfl⟩
    · intro j hj
      rcases List.mem_append.mp hj with hj | hj
      · exact h.held j hj
      · obtain ⟨hi, _⟩ := PriorityQueues.mem_of_pop? due
        rw [Option.some.inj (List.mem_singleton.mp hj)]
        exact h.sized.rx _ _ hi
    · exact h.held
  | dropped held =>
    intro j hj
    rcases List.mem_or_eq_of_mem_set hj with hj | hj
    · exact h.held j hj
    · cases hj
  | aside | stopped | started | submitted | clocked | retried => exact h.held

theorem held_ending (h : s.Steady) (hending : s.Ending step (r, m)) :
    ∀ i, some i ∈ m.held → i.block.bytes.length = m.link.config.frame.blockSize := by
  rw [config_ending h.traffic hending]
  cases hending <;> exact h.held

theorem config_act (step : Step) (h : s.link.Steady []) :
    (s.act step).2.link.config = s.link.config := by
  rcases acting_or_ending h step with hacting | hending
  · exact config_acting h hacting
  · exact config_ending h hending

theorem config_settle (h : s.link.Steady []) : s.settle.link.config = s.link.config := by
  unfold settle
  split
  · rfl
  · exact (Link.settle_frame h s.withheld).2.2

theorem settle_of_finished (h : s.link.Steady []) (hnone : s.link.unfinished = []) :
    s.settle = s := by
  unfold settle
  split
  · rfl
  · exact congrArg (fun l => { s with link := l }) (Link.settle_of_finished h hnone)

theorem steady_act (step : Step) (h : s.Steady) : (s.act step).2.Steady := by
  rcases acting_or_ending h.traffic step with hacting | hending
  · exact ⟨steady_acting h.traffic hacting, sized_acting h hacting, held_acting h hacting⟩
  · exact ⟨steady_ending h.traffic hending, sized_ending h hending, held_ending h hending⟩

theorem steady_rest (h : s.Steady) : s.settle.Steady := by
  unfold settle
  split
  · exact h
  · refine ⟨Link.steady_settle h.traffic _, Link.sized_settle h.traffic h.sized _, ?_⟩
    show ∀ i, some i ∈ s.held → _ = (s.link.settle s.withheld).config.frame.blockSize
    rw [(Link.settle_frame h.traffic s.withheld).2.2]
    exact h.held

/-- Every step leaves a session steady. -/
theorem steady_step (step : Step) (h : s.Steady) : (s.step step).2.Steady :=
  steady_rest (steady_act step (steady_quiet h))

theorem config_step (step : Step) (h : s.Steady) :
    (s.step step).2.link.config = s.link.config :=
  (config_settle (steady_act step (steady_quiet h)).traffic).trans (config_act step h.traffic)

theorem host_step (h : s.Steady) (step : Step) : (s.step step).2.host = s.host := by
  have hacted : (s.quiet.act step).2.host = s.host := by
    have hcases := acting_or_ending (steady_quiet h).traffic step
    generalize s.quiet.act step = out at hcases ⊢
    obtain ⟨r, m⟩ := out
    rcases hcases with hacting | hending
    · cases hacting <;> rfl
    · cases hending <;> rfl
  have hrest : (s.quiet.act step).2.settle.host = (s.quiet.act step).2.host := by
    unfold settle
    split <;> rfl
  exact hrest.trans hacted

theorem orderly_rest (h : s.link.Orderly []) : s.settle.link.Orderly [] := by
  rw [settle_of_orderly h]
  exact Link.orderly_settle h s.withheld

theorem sound_act (step : Step) (hlive : step.isLive = true) (h : s.Sound) :
    (s.act step).2.Sound := by
  have hacted := orderly_acting h.orderly (acting h.orderly hlive)
  exact ⟨steady_act step h.toSteady, hacted.isOpen, hacted.willing⟩

theorem sound_step (step : Step) (hlive : step.isLive = true) (h : s.Sound) :
    (s.step step).2.Sound := by
  have hrest := orderly_rest (sound_act step hlive (sound_quiet h)).orderly
  exact ⟨steady_step step h.toSteady, hrest.isOpen, hrest.willing⟩

theorem steady_run (hcreate : create c host = .ok s) (steps : List Step) :
    (s.run steps).2.Steady ∧ (s.run steps).2.link.config = c :=
  run_induction (P := fun s => s.Steady ∧ s.link.config = c)
    (fun _ step (_ : True) h => ⟨steady_step step h.1, (config_step step h.1).trans h.2⟩)
    (fun _ _ => trivial)
    ⟨(sound_create hcreate).toSteady, Link.config_create (create_eq_ok hcreate).1⟩

theorem willing_ending (h : s.link.Steady []) (hrefuse : ∀ n, step ≠ .refuse n)
    (hwilling : s.link.refusals = 0) (hending : s.Ending step (r, m)) : m.link.refusals = 0 := by
  cases hending with
  | closing | left => exact hwilling
  | refusing n => exact absurd rfl (hrefuse n)
  | dismantled =>
    have hdraining : { s.link with phase := .draining }.Steady [] := h.setPhase nofun
    simp only [onLink]
    rw [Link.dismantle_windDown]
    exact (Link.parted_of_steady hdraining).refusals.trans hwilling

theorem willing_act (h : s.link.Steady []) (hrefuse : ∀ n, step ≠ .refuse n)
    (hwilling : s.link.refusals = 0) : (s.act step).2.link.refusals = 0 := by
  rcases acting_or_ending h step with hacting | hending
  · exact willing_acting h hwilling hacting
  · exact willing_ending h hrefuse hwilling hending

theorem willing_rest (h : s.link.Steady []) (hwilling : s.link.refusals = 0) :
    s.settle.link.refusals = 0 := by
  unfold settle
  split
  · exact hwilling
  · exact Link.refusals_settle h hwilling s.withheld

/-- A driver that was never told to refuse is willing. -/
theorem willing_run {steps : List Step} (h : s.Steady) (hwilling : s.link.refusals = 0)
    (hnone : ∀ n, .refuse n ∉ steps) : (s.run steps).2.link.refusals = 0 := by
  have hallowed : ∀ step ∈ steps, ∀ n, step ≠ .refuse n := by
    rintro step hmem n rfl
    exact hnone n hmem
  have hrun := run_induction (P := fun s => s.Steady ∧ s.link.refusals = 0) (fun s step hstep h =>
    ⟨steady_step step h.1, willing_rest (steady_act step (steady_quiet h.1)).traffic
      (willing_act (s := s.quiet) h.1.traffic hstep h.2)⟩) hallowed ⟨h, hwilling⟩
  exact hrun.2

end SlaveLink.Session
