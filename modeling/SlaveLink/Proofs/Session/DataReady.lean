import SlaveLink.Proofs.Session.Course

/-! # What DataReady tells the host
DataReady is raised for every frame that is queued and for the startup event, and it is dropped when
a dummy is about to go out in want of a frame. So it is asserted exactly if a frame waits, or if the
last transaction that reached the driver carried one, also if the driver turned that one down. -/

namespace SlaveLink

namespace Signals

theorem isDataReady_onBus (e : BusEvent) (s : Signals) :
    (s.onBus e).isDataReady = s.isDataReady := by
  cases e with
  | ready => rfl
  | done =>
    simp only [onBus]
    split <;> rfl

end Signals

namespace Session

variable {s m : Session} {c : LinkConfig} {host : HostLevels} {step : Step} {reached : List Arm}
  {l l' : Link} {t : Transaction}

def carried (reached : List Arm) : Bool := reached.getLast?.any (·.carriesFrame)

def Latched (reached : List Arm) (l : Link) : Prop :=
  l.signals.isDataReady = true ↔ (∃ p, l.mux.tx.get p ≠ []) ∨ carried reached = true

theorem carried_concat (reached : List Arm) (a : Arm) :
    carried (reached ++ [a]) = a.carriesFrame := by
  simp [carried]

theorem Latched.congr (h : Latched reached l)
    (hlatch : l'.signals.isDataReady = l.signals.isDataReady) (htx : l'.mux.tx = l.mux.tx) :
    Latched reached l' := by
  rw [Latched, hlatch, htx]
  exact h

theorem Latched.unarmed (h : Latched reached l') (hnone : armedBy step l l' = []) :
    Latched (reached ++ armedBy step l l') l' := by
  rw [hnone, List.append_nil]
  exact h

theorem latched_of_carried (hlatch : l.signals.isDataReady = true)
    (hcarried : carried reached = true) : Latched reached l :=
  iff_of_true hlatch (.inr hcarried)

theorem latched_of_waiting {p : Priority} (hlatch : l.signals.isDataReady = true)
    (hwaits : l.mux.tx.get p ≠ []) : Latched reached l :=
  iff_of_true hlatch (.inl ⟨p, hwaits⟩)

theorem latched_of_dummy (hlatch : l.signals.isDataReady = false) (hidle : l.mux.tx.pop? = none)
    (hcarried : carried reached = false) : Latched reached l := by
  refine iff_of_false (by simp [hlatch]) ?_
  rintro (⟨p, hwaits⟩ | hlast)
  · exact hwaits ((PriorityQueues.pop?_eq_none_iff _).mp hidle p)
  · simp [hcarried] at hlast

/-- What the driver takes reads to the host as the frame that was due, or else as a dummy. -/
theorem armed_of_taken (hnone : l.bus.loaded = none) (hlegible : l.Legible) (hsized : l.Sized)
    (hsize : headerSize ≤ l.config.frame.blockSize) (hloaded : l.Loaded l') :
    armed l l' = [⟨l.mux.tx.pop?.isSome, true⟩] := by
  cases hloaded with
  | @frame rx _ p o tx free due =>
    have ho := (PriorityQueues.mem_of_pop? due).1
    obtain ⟨header, hdecode⟩ := hlegible.queued p o ho
    have hout : (l.carrier o.block rx).outgoing = o.block.bytes :=
      Link.outgoing_carrier rx (hsized.tx p o ho)
    rw [armed_of_loaded hnone (t := l.carrier o.block rx) rfl, hout,
      FrameConfig.priorityIn?_of_ok hdecode, due]
    rfl
  | @dummy rx b _ free idle =>
    have hb : b.bytes.length = l.config.frame.blockSize := hsized.free b (by simp [free])
    rw [armed_of_loaded hnone (t := l.carrier (l.dummyIn b) rx) rfl, Link.outgoing_dummy rx hb,
      FrameConfig.priorityIn?_of_error (Link.decodeHeader_dummyIn hsize hb), idle]
    rfl

/-- An attempt that gets as far as the driver gets there with the frame that is due, or else with a
dummy, for which DataReady drops. -/
theorem armed_attempt (hnone : l.bus.loaded = none) (hlegible : l.Legible) (hsized : l.Sized)
    (hsize : headerSize ≤ l.config.frame.blockSize) (h : l.Attempt l') :
    l' = l.starved ∨ (∃ accepted, armed l l' = [⟨l.mux.tx.pop?.isSome, accepted⟩]) ∧
      l'.signals.isDataReady = (l.signals.isDataReady && l.mux.tx.pop?.isSome) ∧
      (l.mux.tx.pop? = none → l'.mux.tx = l.mux.tx) := by
  cases h with
  | starved => exact .inl rfl
  | loaded willing loaded =>
    refine .inr ⟨⟨true, armed_of_taken hnone hlegible hsized hsize loaded⟩, ?_⟩
    · cases loaded with
      | frame free due => simp [Link.loading, Signals.isDataReady_onBus, Link.withoutBlock, due]
      | dummy free idle =>
        simp [Link.loading, Signals.isDataReady_onBus, Link.withoutBlock, Link.setDataReady,
          Signals.isDataReady_setDataReady, idle]
  | refusedFrame unwilling free due =>
    have hless : l.refusals - 1 < l.refusals := by omega
    have hshrunk := PriorityQueues.total_pop? due
    refine .inr ⟨⟨false, ?_⟩, ?_⟩
    · refine (armed_of_refused (by exact hnone) (by exact hless)).trans ?_
      simp [Link.turnedDown, Link.count, Link.withoutBlock, due, hshrunk]
    · simp [Link.turnedDown, Link.count, Link.withoutBlock, due]
  | refusedDummy unwilling free idle =>
    have hless : l.refusals - 1 < l.refusals := by omega
    refine .inr ⟨⟨false, ?_⟩, ?_⟩
    · refine (armed_of_refused (by exact hnone) (by exact hless)).trans ?_
      simp [Link.turnedDown, Link.count, Link.withoutBlock, Link.setDataReady, idle]
    · simp [Link.turnedDown, Link.count, Link.withoutBlock, Link.setDataReady,
        Signals.isDataReady_setDataReady, idle]

theorem latched_attempt (hnone : l.bus.loaded = none) (hlegible : l.Legible) (hsized : l.Sized)
    (hsize : headerSize ≤ l.config.frame.blockSize) (hattempt : l.Attempt l')
    (h : Latched reached l) : Latched (reached ++ armed l l') l' := by
  rcases armed_attempt hnone hlegible hsized hsize hattempt with
    rfl | ⟨⟨accepted, harmed⟩, hlatch, htx⟩
  · have hnothing : armed l l.starved = [] := armed_of_same rfl rfl
    rw [hnothing, List.append_nil]
    exact h.congr rfl rfl
  · rw [harmed]
    cases hpop : l.mux.tx.pop? with
    | none =>
      rw [hpop, Option.isSome_none, Bool.and_false] at hlatch
      exact latched_of_dummy hlatch (by rw [htx hpop, hpop]) (carried_concat _ _)
    | some due =>
      obtain ⟨p, o, tx⟩ := due
      have hwaits : l.mux.tx.get p ≠ [] := List.ne_nil_of_mem (PriorityQueues.mem_of_pop? hpop).1
      have hasserted : l.signals.isDataReady = true := h.mpr (.inl ⟨p, hwaits⟩)
      rw [hpop, hasserted] at hlatch
      exact latched_of_carried hlatch (carried_concat _ _)

/-- A start leaves DataReady as it is, or loads the startup event and asserts DataReady. -/
theorem silent_or_announced {r : Except LinkError Unit} (hnone : l.bus.loaded = none)
    (hsized : l.Sized) (hword : l.config.frame.bufferSize ≤ 65535) (h : l.Announcing (r, l')) :
    (l'.bus.loaded = l.bus.loaded ∧ l'.signals = l.signals ∧ l'.mux.tx = l.mux.tx) ∨
      armed l l' = [⟨true, true⟩] ∧ l'.signals.isDataReady = true := by
  cases h with
  | spent | failed | turnedAway => exact .inl ⟨rfl, rfl, rfl⟩
  | @armed b rx rest n out unsent free written =>
    have hlength : out.length = l.config.frame.blockSize :=
      (length_of_encodeFrame_ok written).trans
        ((Bytes.length_zeros _).trans (hsized.free b (by simp [free])))
    obtain ⟨header, hdecode⟩ :=
      FrameConfig.decodeHeader_of_decode (Link.decode_event hword written)
    have hout : (l.carrier { b with bytes := out } rx).outgoing = out :=
      Link.outgoing_carrier rx hlength
    refine .inr ⟨?_, Signals.isDataReady_setDataReady true _⟩
    refine (armed_of_loaded (t := l.carrier { b with bytes := out } rx) hnone rfl).trans ?_
    rw [hout, FrameConfig.priorityIn?_of_ok hdecode]
    rfl

theorem silent_or_started {r : Except LinkError Unit} (hsteady : l.Steady []) (hsized : l.Sized)
    (hstarting : l.Starting (r, l')) :
    (l'.bus.loaded = l.bus.loaded ∧ l'.signals = l.signals ∧ l'.mux.tx = l.mux.tx) ∨
      armed l l' = [⟨true, true⟩] ∧ l'.signals.isDataReady = true := by
  cases hstarting with
  | refused => exact .inl ⟨rfl, rfl, rfl⟩
  | up early announced | failed _ early announced =>
    have hnone : l.bus.loaded = none := (hsteady.dormant early).1.loaded
    have hended :=
      silent_or_announced (l := { l with phase := .active }) hnone hsized hsteady.word announced
    exact hended

theorem armedBy_start_of_same (hloaded : l'.bus.loaded = l.bus.loaded) :
    armedBy .start l l' = [] := by
  simp only [armedBy, armed, hloaded]
  split
  · next hnone hsome => simp [hnone] at hsome
  · split <;> rfl

theorem latched_starting {r : Except LinkError Unit} (hsteady : l.Steady []) (hsized : l.Sized)
    (hstarting : l.Starting (r, l')) (h : Latched reached l) :
    Latched (reached ++ armedBy .start l l') l' := by
  rcases silent_or_started hsteady hsized hstarting with
    ⟨hloaded, hsignals, htx⟩ | ⟨harmed, hlatch⟩
  · refine Latched.unarmed ?_ (armedBy_start_of_same hloaded)
    exact h.congr (congrArg Signals.isDataReady hsignals) htx
  · have hone : armedBy .start l l' = [⟨true, true⟩] := by rw [armedBy, harmed]; rfl
    rw [hone]
    exact latched_of_carried hlatch (carried_concat _ _)

theorem latched_submission {header : Header} {payload : Bytes} {r : Except LinkError Unit}
    (hsubmission : l.Submission header payload (r, l')) (h : Latched reached l) :
    Latched reached l' := by
  cases hsubmission with
  | queued _ _ _ room =>
    obtain ⟨tx, hpush, rfl⟩ := Option.map_eq_some_iff.mp room
    refine latched_of_waiting (p := header.interface.priority)
      (Signals.isDataReady_setDataReady true _) ?_
    have hqueued := PriorityQueues.get_push? hpush header.interface.priority
    rw [Outgoing.priority, if_pos rfl] at hqueued
    simp [Link.setDataReady, hqueued]
  | refused => exact h

theorem armedBy_of_still (hloaded : l'.bus.loaded = l.bus.loaded)
    (hrefusals : (∀ n, step ≠ .refuse n) → l'.refusals = l.refusals) :
    armedBy step l l' = [] := by
  by_cases hrefuse : ∀ n, step ≠ .refuse n
  · exact armedBy_of_same hloaded (hrefusals hrefuse)
  · obtain ⟨n, rfl⟩ := not_forall_not.mp hrefuse
    rfl

theorem latched_act (step : Step) (hsteady : s.Steady) (hwired : s.Wired c)
    (hlegible : s.link.Legible) (hstays : ¬ s.Dismantles step) (h : Latched reached s.link) :
    Latched (reached ++ armedBy step s.link (s.act step).2.link) (s.act step).2.link := by
  have hsignalling := signalling hsteady.traffic step
  generalize (s.act step).2 = m at hsignalling ⊢
  have hshows := hwired.shows
  have hselected := Signals.shows_select hshows
  have hselect : s.link.signals.select.isDataReady = s.link.signals.isDataReady :=
    Signals.isDataReady_drive _ hshows.watched
  cases hsignalling with
  | still _ still refusals =>
    refine Latched.unarmed ?_ (armedBy_of_still (congrArg Bus.loaded still.bus) refusals)
    exact h.congr (congrArg Signals.isDataReady still.signals) still.tx
  | selected => exact Latched.unarmed (h.congr hselect rfl) rfl
  | deselected =>
    exact Latched.unarmed (h.congr (Signals.isDataReady_drive _ hshows.watched) rfl) rfl
  | clocked =>
    exact Latched.unarmed (h.congr (Signals.isDataReady_onBus .done s.link.signals) rfl) rfl
  | exchanged =>
    refine Latched.unarmed (h.congr ?_ rfl) rfl
    exact (Signals.isDataReady_drive _ (Signals.shows_done hselected).watched).trans
      ((Signals.isDataReady_onBus .done _).trans hselect)
  | missed =>
    refine Latched.unarmed (h.congr ?_ rfl) rfl
    exact (Signals.isDataReady_drive _ hselected.watched).trans hselect
  | started =>
    have hstarting := Link.starting fun hphase =>
      hsteady.traffic.vacant (hsteady.traffic.dormant hphase).1 (Nat.zero_le _)
    exact latched_starting hsteady.traffic hsteady.sized hstarting h
  | @submitted _ f sequence offer =>
    have hsubmission := Link.submission f.header f.payload { s.link with sequence }
    refine Latched.unarmed ?_ (armedBy_of_offer offer _ _)
    exact latched_submission (l := { s.link with sequence }) hsubmission h
  | retried parked pending =>
    obtain ⟨hretry, hidle⟩ := steady_retry hsteady.traffic pending
    exact latched_attempt (l := { s.link with rearmPending := false }) hidle.loaded hlegible
      hsteady.sized (Link.headerSize_le_blockSize hretry)
      (Link.attempt (hretry.vacant hidle (Nat.zero_le _))) h
  | dismantled final => exact absurd final hstays

theorem latched_turned (hsteady : s.Steady) (hlegible : s.link.Legible)
    (hturn : s.link.turn? s.withheld = some (t, l)) (hsettle : s.settle.link = l.turnAround t)
    (h : Latched reached s.link) :
    Latched (reached ++ armed s.link s.settle.link) s.settle.link := by
  obtain ⟨hsteady₁, hidle, hshaped⟩ := Link.steady_of_turn? hsteady.traffic hturn
  have hsized := (Link.sized_of_turn? hsteady.traffic hsteady.sized hturn).1
  have hlegible₁ := Link.legible_of_turn? hsteady.traffic hlegible hturn
  have hvacant := hsteady₁.vacant hidle (Nat.le_refl _)
  obtain ⟨_, signals, heq⟩ := Link.turn?_eq_some hsteady.traffic.unfinished_le_one hturn
  have hlatch : l.signals.isDataReady = s.link.signals.isDataReady := by
    rcases Link.signals_of_turn? hturn with ⟨_, hsame⟩ | htaken
    · rw [hsame]
    · exact (congrArg (·.2.isDataReady) htaken).symm
  have hbefore : Latched reached l := h.congr hlatch (by rw [heq])
  have hreadied : Latched (reached ++ armed l l.readied) l.readied := by
    rcases attempt_readied hvacant with hsame | hattempt
    · rw [hsame, armed_of_same rfl rfl, List.append_nil]
      exact hbefore
    · exact latched_attempt hidle.loaded hlegible₁ hsized (Link.headerSize_le_blockSize hsteady₁)
        hattempt hbefore
  obtain ⟨_, _, _, _, _, hframe⟩ := Link.finish_frame hshaped l.readied
  rw [armed_of_turn hsteady.traffic hturn hsettle, hsettle, Link.turnAround_eq, hframe]
  exact hreadied

theorem latched_rest (hsteady : s.Steady) (hlegible : s.link.Legible) (h : Latched reached s.link) :
    Latched (reached ++ armed s.link s.settle.link) s.settle.link := by
  rcases idled_or_turned hsteady.traffic with hidled | ⟨t, l, hturn, hsettle⟩
  · rw [hidled.armed, List.append_nil]
    refine h.congr ?_ (congrArg Multiplexer.tx hidled.mux)
    rcases hidled.signals with hsame | htaken
    · rw [hsame]
    · rw [htaken]
      rfl
  · exact latched_turned hsteady hlegible hturn hsettle h

theorem latched_step (step : Step) (hlasting : s.Lasting c) (hlegible : s.link.Legible)
    (hstays : ¬ s.quiet.Dismantles step) (h : Latched reached s.link) :
    Latched (reached ++ arms step s) (s.step step).2.link := by
  have hquiet := steady_quiet hlasting.toSteady
  have hacted := latched_act step hquiet hlasting.wired hlegible hstays h
  have hrest := latched_rest (steady_act step hquiet) (legible_act step hquiet hlegible) hacted
  rwa [List.append_assoc] at hrest

theorem latched_create (h : Link.create c = .ok l) : Latched [] l := by
  obtain ⟨_, rfl⟩ := Link.create_eq_ok h
  refine latched_of_dummy rfl ((PriorityQueues.pop?_eq_none_iff _).mpr ?_) rfl
  intro p
  cases p <;> rfl

theorem latched_run (hcreate : create c host = .ok s) {steps : List Step}
    (hstanding : (s.run steps).2.link.phase ≠ .deinit) :
    Latched (s.gather arms steps) (s.run steps).2.link := by
  refine standing_induction (P := fun steps => Latched (s.gather arms steps) (s.run steps).2.link)
    hcreate (latched_create (create_eq_ok hcreate).1) ?_ hstanding
  intro steps step hlasting hstays hlatched
  rw [gather_concat, run_concat]
  exact latched_step step hlasting (legible_run hcreate steps) hstays hlatched

structure Tells (c : LinkConfig) (reached : List Arm) (s : Session) : Prop where
  latch : s.link.signals.isDataReady = true ↔ (∃ p, s.link.mux.tx.get p ≠ []) ∨
    ∃ a, reached.getLast? = some a ∧ a.carriesFrame = true
  /-- Unless the driver turned down the last one, that is the last one that it took. -/
  accepted : (∀ a, reached.getLast? = some a → a.accepted = true) →
    (s.link.signals.isDataReady = true ↔ (∃ p, s.link.mux.tx.get p ≠ []) ∨
      ∃ a, (reached.filter (·.accepted)).getLast? = some a ∧ a.carriesFrame = true)
  line : s.lines.level .dataReady = c.dataReady.level s.link.signals.isDataReady
  queued : ∀ p, s.link.mux.tx.get p ≠ [] → s.link.signals.isDataReady = true

theorem getLast?_accepted (h : ∀ a, reached.getLast? = some a → a.accepted = true) :
    (reached.filter (·.accepted)).getLast? = reached.getLast? := by
  rcases List.eq_nil_or_concat reached with rfl | ⟨before, a, rfl⟩
  · rfl
  · rw [List.concat_eq_append] at h ⊢
    have ha : a.accepted = true := h a List.getLast?_concat
    simp [List.filter_append, ha]

theorem tells_of_latched (hwired : s.Wired c) (h : Latched reached s.link) : Tells c reached s := by
  have hlatch : s.link.signals.isDataReady = true ↔ (∃ p, s.link.mux.tx.get p ≠ []) ∨
      ∃ a, reached.getLast? = some a ∧ a.carriesFrame = true := by
    refine h.trans (or_congr Iff.rfl ?_)
    rw [carried, Option.any_eq_true]
  refine ⟨hlatch, ?_, hwired.shows.dataReady, fun p hp => h.mpr (.inl ⟨p, hp⟩)⟩
  intro haccepted
  rw [getLast?_accepted haccepted]
  exact hlatch

/-- Until the link is torn down, DataReady is asserted exactly if a frame waits or the last
transaction that reached the driver carried one: handed to it by a start that succeeded, or by the
worker, whether the driver took it or not. A driver that is never told to refuse takes them all. -/
theorem dataReady_tells (hcreate : create c host = .ok s) (steps : List Step)
    (hstanding : (s.run steps).2.link.phase ≠ .deinit) :
    Tells c (s.gather arms steps) (s.run steps).2 ∧
      ((∀ n, .refuse n ∉ steps) → ∀ a ∈ s.gather arms steps, a.accepted = true) := by
  refine ⟨tells_of_latched (lasting_run (lasting_create hcreate) steps).wired
    (latched_run hcreate hstanding), ?_⟩
  intro hunrefused a ha
  have hnone := declined_run hcreate hunrefused
  rw [declined, List.countP_eq_zero] at hnone
  simpa using hnone a ha

theorem dataReady_tells_small :
    ∃ s, create smallConfig (matchingHost smallConfig) = .ok s ∧
      Tells smallConfig (s.gather arms [.start, .refuse 1, .clock [] false])
        (s.run [.start, .refuse 1, .clock [] false]).2 :=
  ⟨_, rfl, (dataReady_tells (c := smallConfig) rfl [.start, .refuse 1, .clock [] false]
    (by decide +kernel)).1⟩

/-- The driver turns down the dummy that follows the startup event: no frame waits, the event is the
last transaction that the driver took, and DataReady has dropped. -/
theorem refusal_drops_dataReady :
    ∃ s, create smallConfig (matchingHost smallConfig) = .ok s ∧
      (s.run [.start, .refuse 1, .clock [] false]).2.link.phase = .active ∧
      ((s.gather arms [.start, .refuse 1, .clock [] false]).filter (·.accepted)).getLast? =
        some ⟨true, true⟩ ∧
      (s.run [.start, .refuse 1, .clock [] false]).2.link.signals.isDataReady = false :=
  ⟨_, rfl, by decide +kernel⟩

end Session
end SlaveLink
