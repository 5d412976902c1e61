import SlaveLink.Proofs.Link.Stamping
import SlaveLink.Proofs.Session.Throttling
import SlaveLink.Proofs.Session.Transmission

/-! # What the throttle field of a block tells
The field of a frame says whether the link was throttling when it accepted the frame, however long
the frame waited after that, and the field of a dummy whether it was when the dummy was armed. This
holds through refusals of the driver, which may cost a frame its place, and through a teardown,
which may cost many. -/

namespace SlaveLink.Session

open Link (Outbox despatched despatched_of_same)

variable {s m : Session} {c : LinkConfig} {host : HostLevels} {step : Step} {r : Reply}
  {history : History} {handed : List Bytes} {accepted : List Frame} {log : List Despatch}
  {l l' : Link} {t : Transaction}

def accepts (step : Step) (l : Link) (r : Reply) : List Frame :=
  match r with
  | .done => ((step.offer? l.sequence).map (·.stamped l.flow.isThrottling)).toList
  | _ => []

def accepting (step : Step) (s : Session) : List Frame := accepts step s.link (s.step step).1

def despatchedBy (step : Step) (l l' : Link) : List Despatch :=
  match step with
  | .start => despatched .announcement l l'
  | .tick => despatched l.due l l'
  | _ => []

/-- What reached the driver in a step. The worker arms before it finishes the transfer that it
holds, so what it arms is what was due before it ran. -/
def despatches (step : Step) (s : Session) : List Despatch :=
  let acted := (s.quiet.act step).2
  despatchedBy step s.quiet.link acted.link ++
    despatched acted.link.due acted.link acted.settle.link

structure Stamped (c : LinkConfig) (handed : List Bytes) (accepted : List Frame)
    (log : List Despatch) : Prop where
  /-- The host is handed what the driver took, in order. -/
  inOrder : handed <+: log.filterMap (·.block)
  /-- What it is handed shows what the transaction was made for. -/
  shows : ∀ d ∈ log, ∀ bs, d.block = some bs → d.choice.Shows c bs
  /-- The frames that transactions were made for are, for each priority, the first accepted ones,
  with the throttle field of the moment of their acceptance. -/
  frames : ∀ p, (log.filterMap (·.choice.frameOf? p)).map
      (fun o => Frame.decode c.frame o.block.bytes) <+:
    (accepted.filter (·.interface.priority = p)).map .ok

theorem stamped_of_outbox (h : l.Outbox c handed accepted log) : Stamped c handed accepted log where
  inOrder := by
    rw [← h.wire]
    exact List.prefix_append _ _
  shows := h.shows
  frames p := by
    rw [← h.queues p, List.map_append]
    exact List.prefix_append _ _

theorem despatchedBy_of_same (hloaded : l'.bus.loaded = l.bus.loaded)
    (hrefusals : l'.refusals = l.refusals) : despatchedBy step l l' = [] := by
  unfold despatchedBy
  split <;> simp [despatched_of_same hloaded hrefusals]

theorem despatchedBy_of_offer {sequence : UInt16} {f : Frame} (h : step.offer? sequence = some f)
    (l l' : Link) : despatchedBy step l l' = [] := by
  cases step <;> simp_all [Step.offer?, despatchedBy]

theorem despatchedBy_of_clocks {data : Bytes} {fault : Option String}
    (h : step.clocks? = some (data, fault)) (l l' : Link) : despatchedBy step l l' = [] := by
  cases step <;> simp_all [Step.clocks?, despatchedBy]

theorem accepts_of_unoffered (h : step.offer? l.sequence = none) : accepts step l r = [] := by
  unfold accepts
  split
  · rw [h]
    rfl
  · rfl

/-- What the history does not tell is no acceptance. -/
theorem accepts_of_mute (h : ∀ history, History.answered step l.sequence r history = history) :
    accepts step l r = [] := by
  cases r with
  | done =>
    have hnone := congrArg History.accepted (h {})
    simp only [History.answered, List.nil_append, Option.toList_eq_nil_iff] at hnone
    exact accepts_of_unoffered hnone
  | _ => rfl

theorem acting_of_offer {f : Frame} (hoffer : step.offer? s.link.sequence = some f) :
    s.Acting step (s.act step) := by
  cases step with
  | submitNext interface number payload => exact acting_request (s.link.sequence + 1) hoffer (by
      obtain rfl := Option.some.inj hoffer
      rfl)
  | submit g =>
    obtain rfl := Option.some.inj hoffer
    exact acting_request s.link.sequence rfl rfl
  | _ => cases hoffer

/-- A step that accepts nothing and reaches no driver leaves the outbox as it is. -/
theorem outbox_same (h : l.Outbox c handed accepted log) (haccepts : accepts step l r = [])
    (hconfig : l'.config = l.config)
    (hstartup : l'.startup.capabilities = l.startup.capabilities)
    (hloaded : l'.bus.loaded = l.bus.loaded) (htx : l'.mux.tx = l.mux.tx)
    (hrefusals : l'.refusals = l.refusals) :
    l'.Outbox c handed (accepted ++ accepts step l r) (log ++ despatchedBy step l l') := by
  rw [haccepts, despatchedBy_of_same hloaded hrefusals, List.append_nil, List.append_nil]
  exact h.congr hconfig hstartup hloaded htx

theorem outbox_acting (hsteady : s.Steady) (h : s.link.Outbox c history.handed accepted log)
    (hacting : s.Acting step (r, m)) :
    m.link.Outbox c (history.answered step s.link.sequence r).handed
      (accepted ++ accepts step s.link r) (log ++ despatchedBy step s.link m.link) := by
  cases hacting with
  | aside mute =>
    rw [mute]
    exact outbox_same h (accepts_of_mute mute) rfl rfl rfl rfl rfl
  | stopped parked =>
    rw [mute_done rfl]
    exact outbox_same h (accepts_of_unoffered rfl) rfl rfl rfl rfl rfl
  | received | dropped => exact outbox_same h rfl rfl rfl rfl rfl rfl
  | @started result l starting =>
    have hstarted := Link.outbox_starting hsteady.traffic hsteady.sized h starting
    rw [accepts_of_unoffered rfl, List.append_nil]
    cases result with
    | ok _ =>
      rw [answer, mute_done rfl]
      exact hstarted
    | error e => exact hstarted
  | @submitted _ f sequence result l offer submission =>
    have hbefore : { s.link with sequence }.Outbox c history.handed accepted log :=
      h.congr rfl rfl rfl rfl
    have hsubmitted := Link.outbox_submission hbefore hsteady.traffic.word submission
    rw [despatchedBy_of_offer offer, List.append_nil]
    cases result with
    | ok _ =>
      have haccepts : accepts step s.link (answer (.ok ())) =
          [f.stamped s.link.flow.isThrottling] := by simp [accepts, answer, offer]
      rw [haccepts]
      exact hsubmitted
    | error e => exact hsubmitted
  | @clocked _ data fault t signals withheld clocks loaded =>
    have hhanded : (history.answered step s.link.sequence (.read t.outgoing)).handed =
        history.handed ++ [t.outgoing] := by
      simp [History.answered, History.handed, clocks]
    have haccepts : accepts step s.link (.read t.outgoing) = [] := rfl
    rw [hhanded, haccepts, despatchedBy_of_clocks clocks, List.append_nil, List.append_nil]
    refine h.clock ?_ ?_ loaded ?_ ?_ <;> rfl
  | retried parked pending =>
    obtain ⟨hready, hidle⟩ := steady_retry hsteady.traffic pending
    have hbefore : { s.link with rearmPending := false }.Outbox c history.handed accepted log :=
      h.congr rfl rfl rfl rfl
    have harmed := Link.outbox_attempt hbefore hidle hsteady.sized
      (Link.headerSize_le_blockSize hready)
      (Link.attempt (hready.vacant hidle (Nat.zero_le _)))
    rw [mute_done rfl, accepts_of_unoffered rfl, List.append_nil]
    exact harmed

/-- What a teardown begins with, and what the driver is told, leaves the outbox as it is. -/
theorem outbox_ending (h : s.link.Outbox c history.handed accepted log)
    (hoffer : step.offer? s.link.sequence = none) (hstays : ¬ s.Dismantles step)
    (hending : s.Ending step (r, m)) :
    m.link.Outbox c (history.answered step s.link.sequence r).handed
      (accepted ++ accepts step s.link r) (log ++ despatchedBy step s.link m.link) := by
  cases hending with
  | closing | left =>
    rw [mute_done hoffer]
    exact outbox_same h (accepts_of_unoffered hoffer) rfl rfl rfl rfl rfl
  | dismantled final => exact absurd final hstays
  | refusing n =>
    rw [mute_done hoffer, accepts_of_unoffered hoffer, List.append_nil]
    have hnone (l' : Link) : despatchedBy (.refuse n) s.link l' = [] := rfl
    rw [hnone, List.append_nil]
    exact h.congr rfl rfl rfl rfl

theorem outbox_act (hsteady : s.Steady) (h : s.link.Outbox c history.handed accepted log)
    (hstays : ¬ s.Dismantles step) :
    (s.act step).2.link.Outbox c (history.answered step s.link.sequence (s.act step).1).handed
      (accepted ++ accepts step s.link (s.act step).1)
      (log ++ despatchedBy step s.link (s.act step).2.link) := by
  cases hoffer : step.offer? s.link.sequence with
  | some f => exact outbox_acting hsteady h (acting_of_offer hoffer)
  | none =>
    rcases acting_or_ending hsteady.traffic step with hacting | hending
    · exact outbox_acting hsteady h hacting
    · exact outbox_ending h hoffer hstays hending

theorem startup_settle (h : s.link.Steady []) : s.settle.link.startup = s.link.startup := by
  unfold settle
  split
  · rfl
  · exact (Link.settle_frame h s.withheld).2.1

/-- Finishing a transfer reaches no driver. -/
theorem despatched_turnAround {size : Nat} (hshaped : t.Shaped size) (choice : Choice) (l : Link) :
    despatched choice l (l.turnAround t) = despatched choice l l.readied := by
  obtain ⟨_, _, _, _, _, hframe⟩ := Link.finish_frame hshaped l.readied
  rw [Link.turnAround_eq, hframe]
  rfl

theorem outbox_turned (hsteady : l.Steady [t]) (hidle : l.Idle) (hsized : l.Sized) {size : Nat}
    (hshaped : t.Shaped size) (h : l.Outbox c handed accepted log) :
    (l.turnAround t).Outbox c handed accepted (log ++ despatched l.due l (l.turnAround t)) := by
  obtain ⟨_, _, _, _, _, hframe⟩ := Link.finish_frame hshaped l.readied
  have hready : l.readied.Outbox c handed accepted (log ++ despatched l.due l l.readied) := by
    rcases attempt_readied (hsteady.vacant hidle (Nat.le_refl _)) with hsame | hattempt
    · rw [hsame]
      exact h.undisturbed rfl rfl rfl rfl rfl
    · exact Link.outbox_attempt h hidle hsized (Link.headerSize_le_blockSize hsteady) hattempt
  rw [despatched_turnAround hshaped, Link.turnAround_eq, hframe]
  exact hready.congr rfl rfl rfl rfl

theorem outbox_rest (hsteady : s.Steady) (h : s.link.Outbox c handed accepted log) :
    s.settle.link.Outbox c handed accepted
      (log ++ despatched s.link.due s.link s.settle.link) := by
  rcases idled_or_turned hsteady.traffic with hidled | ⟨t, l, hturn, hsettle⟩
  · have hstartup := congrArg Startup.capabilities (startup_settle hsteady.traffic)
    exact h.undisturbed hidled.config hstartup hidled.loaded (congrArg Multiplexer.tx hidled.mux)
      hidled.refusals
  · obtain ⟨hready, hidle, hshaped⟩ := Link.steady_of_turn? hsteady.traffic hturn
    have hsized := (Link.sized_of_turn? hsteady.traffic hsteady.sized hturn).1
    obtain ⟨_, signals, heq⟩ := Link.turn?_eq_some hsteady.traffic.unfinished_le_one hturn
    have hbefore : l.Outbox c handed accepted log := by
      rw [heq]
      exact h.congr rfl rfl rfl rfl
    have hturned := outbox_turned hready hidle hsized hshaped hbefore
    have hsame : despatched s.link.due s.link (l.turnAround t) =
        despatched l.due l (l.turnAround t) := by
      rw [heq]
      rfl
    rw [hsettle, hsame]
    exact hturned

/-- Every step of a link that it does not take apart. -/
theorem outbox_step (hlasting : s.Lasting c) (hstays : ¬ s.quiet.Dismantles step)
    (h : s.link.Outbox c history.handed accepted log) :
    (s.step step).2.link.Outbox c (history.note step s).handed (accepted ++ accepting step s)
      (log ++ despatches step s) := by
  have hquiet := steady_quiet hlasting.toSteady
  have hbefore : s.quiet.link.Outbox c history.handed accepted log := h.congr rfl rfl rfl rfl
  have hacted := outbox_act hquiet hbefore hstays
  have hrested := outbox_rest (steady_act step hquiet) hacted
  rw [List.append_assoc] at hrested
  exact hrested

/-! ## After the teardown -/

structure Silent (step : Step) (s : Session) : Prop where
  accepting : accepting step s = []
  despatches : despatches step s = []
  handed : ∀ history : History, (history.note step s).handed = history.handed

theorem isCall_of_offer {f : Frame} {sequence : UInt16} (h : step.offer? sequence = some f) :
    step.isCall = true := by
  cases step <;> first | rfl | cases h

theorem accepts_of_lingering (h : s.Lingering step (r, m)) : accepts step l r = [] := by
  cases hoffer : step.offer? l.sequence with
  | none => exact accepts_of_unoffered hoffer
  | some f =>
    have hcall := isCall_of_offer hoffer
    cases h with
    | aside refused =>
      rw [refused hcall]
      rfl
    | moved other =>
      rw [other] at hcall
      cases hcall
    | dropped => cases hoffer

theorem despatchedBy_of_lifeless (h : s.Lifeless c) :
    despatchedBy step s.link (s.act step).2.link = [] := by
  have hstart : s.link.start = (.error .inactive, s.link) := by simp only [Link.start, h.phase]
  cases step with
  | start =>
    rw [act_start, hstart]
    exact despatchedBy_of_same rfl rfl
  | tick =>
    simp only [act, wakeWorker, h.worker, reduceCtorEq, if_false]
    exact despatchedBy_of_same rfl rfl
  | _ => rfl

/-- Nothing is read that is not loaded. -/
theorem handed_of_unloaded (hsteady : s.Steady) (hnone : s.link.bus.loaded = none)
    (step : Step) (history : History) :
    (history.answered step s.link.sequence (s.act step).1).handed = history.handed := by
  have hcases := acting_or_ending hsteady.traffic step
  generalize s.act step = out at hcases ⊢
  obtain ⟨r, m⟩ := out
  rcases hcases with hacting | hending
  · cases hacting with
    | aside mute => exact congrArg History.handed (mute history)
    | @started result | @submitted _ _ _ result => cases result <;> rfl
    | clocked _ loaded =>
      rw [hnone] at loaded
      cases loaded
    | stopped | retried | received | dropped => rfl
  · cases hending <;> rfl

theorem silent_of_lifeless (hsteady : s.Steady) (h : s.Lifeless c) (step : Step) :
    s.Silent step := by
  have hquiet : s.quiet.Lifeless c := { h with }
  have hlingering := (lingering_step hsteady h step).1
  have hacted : (s.quiet.act step).2.Lifeless c := lifeless_lingering hquiet (lingering hquiet step)
  have hsettled := settle_of_lifeless (steady_act step (steady_quiet hsteady)) hacted
  refine ⟨accepts_of_lingering hlingering, ?_,
    handed_of_unloaded (steady_quiet hsteady) h.loaded step⟩
  simp only [despatches]
  rw [despatchedBy_of_lifeless hquiet, hsettled, despatched_of_same rfl rfl]
  rfl

/-- Taking the link apart lets the worker finish, but not arm. -/
theorem silent_of_dismantles (hlasting : s.Lasting c) (hfinal : s.quiet.Dismantles step) :
    s.Silent step := by
  have hact := act_of_dismantles hfinal
  have hoffer (sequence : UInt16) : step.offer? sequence = none := by
    rcases hfinal with ⟨rfl, _⟩ | ⟨rfl, _⟩ <;> rfl
  have hbefore (l l' : Link) : despatchedBy step l l' = [] := by
    rcases hfinal with ⟨rfl, _⟩ | ⟨rfl, _⟩ <;> rfl
  have hacted : (s.quiet.act step).2.Lifeless c := by
    rw [hact]
    exact lifeless_dismantled hlasting.wired
  have hsettled := settle_of_lifeless (steady_act step (steady_quiet hlasting.toSteady)) hacted
  refine ⟨accepts_of_unoffered (hoffer _), ?_, ?_⟩
  · simp only [despatches]
    rw [hbefore, hsettled, despatched_of_same rfl rfl]
    rfl
  · intro history
    show (history.answered step s.link.sequence (s.quiet.act step).1).handed = history.handed
    rw [hact]
    rfl

theorem silent_of_gone (hlasting : s.Lasting c) (hgone : (s.step step).2.link.phase = .deinit) :
    s.Silent step := by
  by_cases hbefore : s.link.phase = .deinit
  · exact silent_of_lifeless hlasting.toSteady (hlasting.final hbefore) step
  · have hquiet := steady_quiet hlasting.toSteady
    have hsame := (phase_rest (steady_act step hquiet).traffic).1
    exact silent_of_dismantles hlasting
      (dismantles_of_gone (s := s.quiet) hquiet.traffic hbefore (hsame.symm.trans hgone))

theorem stamped_run (hcreate : create c host = .ok s) (steps : List Step) :
    Stamped c (s.history steps).handed (s.gather accepting steps) (s.gather despatches steps) ∧
      ((s.run steps).2.link.phase ≠ .deinit → (s.run steps).2.link.Outbox c
        (s.history steps).handed (s.gather accepting steps) (s.gather despatches steps)) := by
  induction steps using List.reverseRecOn with
  | nil =>
    have hempty := Link.outbox_create (create_eq_ok hcreate).1
    exact ⟨stamped_of_outbox hempty, fun _ => hempty⟩
  | append_singleton steps step ih =>
    have hlasting := lasting_run (lasting_create hcreate) steps
    rw [history_concat, gather_concat, gather_concat, run_concat]
    by_cases hgone : ((s.run steps).2.step step).2.link.phase = .deinit
    -- A teardown empties the queues, so the outbox ends here. Nothing is added from now on, and what
    -- was handed over and accepted before stays a prefix.
    · have hsilent := silent_of_gone hlasting hgone
      rw [hsilent.handed, hsilent.accepting, hsilent.despatches, List.append_nil, List.append_nil]
      exact ⟨ih.1, fun hstanding => absurd hgone hstanding⟩
    · obtain ⟨hstanding, hstays⟩ := standing_of_step hlasting step hgone
      have hstep := outbox_step hlasting hstays (ih.2 hstanding)
      exact ⟨stamped_of_outbox hstep, fun _ => hstep⟩

/-- Whatever happens to a link, each block that the host reads is the startup event, which never
asks it to hold back, or a frame with the throttle field of the moment when it was accepted, or a
dummy with that of the moment when it was armed. -/
theorem throttle_tells_origin (hcreate : create c host = .ok s) (steps : List Step) :
    Stamped c (s.history steps).handed (s.gather accepting steps) (s.gather despatches steps) :=
  (stamped_run hcreate steps).1

/-- The bulk receive queue fills up, a frame is submitted, the application empties the queue, and
only then the host reads the frame. -/
def lateReading : List Step :=
  [.start, sendBulk, sendBulk, .submitNext .serial 0 [1], .tryReceive false, .tryReceive false,
    .clock (Header.dummy .off).encode false, .clock (Header.dummy .off).encode false]

/-- The last block asks the host to hold back, although the link no longer does. -/
theorem throttle_tells_origin_late :
    ∃ s, create bandConfig (matchingHost bandConfig) = .ok s ∧
      (s.run lateReading).2.link.flow.isThrottling = false ∧
      (s.history lateReading).handed.map (fun bs => (Header.parse bs).toOption.map (·.throttle)) =
        [some .off, some .off, some .off, some .on] ∧
      Stamped bandConfig (s.history lateReading).handed (s.gather accepting lateReading)
        (s.gather despatches lateReading) :=
  ⟨_, rfl, by decide +kernel, by decide +kernel, throttle_tells_origin rfl lateReading⟩

end SlaveLink.Session
