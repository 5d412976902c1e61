import Mathlib.Data.List.Forall2
import SlaveLink.Proofs.Link.Tally
import SlaveLink.Proofs.Session.Course
import SlaveLink.Proofs.Session.Reception

/-! # What the statistics say of a run
The transfers that the host clocked are those that the worker finished and at most one more. Each
finished one is counted once, as the host itself would count it, and what the statistics count of
frames that came in is what the application was given and what still waits. The driver's refusals
of what the worker arms are counted as failures of the bus, too. -/

namespace SlaveLink.Session

open Link (Books)

variable {s m : Session} {c : LinkConfig} {host : HostLevels} {step : Step} {r : Reply}
  {history : History} {finished : List Transaction} {refused received waiting : Nat}
  {l l' : Link} {t : Transaction}

/-- The transfer is the one that the host clocked: it read what went out, and the block that came in
begins with what it sent. -/
structure Exchange.Carries (e : Exchange) (t : Transaction) : Prop where
  read : e.read = t.outgoing
  fault : e.fault = t.fault
  sent : ∀ b ∈ t.rx, e.sent.take b.bytes.length <+: b.bytes

structure Ledger (c : LinkConfig) (h : History) (finished : List Transaction) (refused : Nat)
    (l : Link) : Prop where
  books : Books c.frame finished refused h.received.length l.mux.rx.total l.stats
  clocked : l.bus.clocked = h.exchanges.length
  transfers : List.Forall₂ Exchange.Carries h.exchanges (finished ++ l.unfinished)

theorem ledger_create (h : Link.create c = .ok l) : Ledger c {} [] 0 l := by
  obtain ⟨_, rfl⟩ := Link.create_eq_ok h
  exact ⟨Link.books_empty c.frame, rfl, .nil⟩

/-- The books do not look at what else the history tells, nor at what else the link is. -/
theorem Ledger.congr {history' : History} (h : Ledger c history finished refused l)
    (hexchanges : history'.exchanges = history.exchanges)
    (hreceived : history'.received = history.received)
    (hrx : l'.mux.rx = l.mux.rx)
    (hstats : l'.stats ∈ [l.stats, l.stats.bump .poolExhausted, l.stats.bump .txQueueFull])
    (hclocked : l'.bus.clocked = l.bus.clocked) (hunfinished : l'.unfinished = l.unfinished) :
    Ledger c history' finished refused l' := by
  refine ⟨?_, ?_, ?_⟩
  · rw [hreceived, hrx]
    refine h.books.aside ?_
    simp only [List.mem_cons, List.not_mem_nil, or_false] at hstats ⊢
    tauto
  · rw [hclocked, hexchanges, h.clocked]
  · rw [hexchanges, hunfinished]
    exact h.transfers

theorem Ledger.unarmed (h : Ledger c history finished refused l') (hnone : armedBy step l l' = []) :
    Ledger c history finished (refused + declined (armedBy step l l')) l' := by
  rw [hnone]
  exact h

/-- Each refusal that an attempt uses up turns down one transaction. -/
theorem declined_attempt (hnone : l.bus.loaded = none) (h : l.Attempt l') :
    declined (armed l l') + l'.refusals = l.refusals := by
  cases h with
  | loaded willing loaded =>
    rw [declined_of_willing willing]
    cases loaded <;> exact Nat.zero_add _
  | starved => simp [declined, armed, Link.starved, Link.count, hnone]
  | refusedFrame unwilling | refusedDummy unwilling =>
    have hless : l.refusals - 1 < l.refusals := by omega
    simp [declined, armed, Link.turnedDown, Link.count, Link.withoutBlock, Link.setDataReady, hnone,
      hless]
    omega

/-- An attempt to arm is booked if the driver turned it down. -/
theorem books_attempt (hnone : l.bus.loaded = none) (hattempt : l.Attempt l')
    (h : Books c.frame finished refused received waiting l.stats) :
    Books c.frame finished (refused + declined (armed l l')) received waiting l'.stats := by
  have hdeclined := declined_attempt hnone hattempt
  rcases hattempt.counted with ⟨hstats, hsame⟩ | ⟨hstats, hless⟩
  · have hzero : declined (armed l l') = 0 := by omega
    rw [hzero]
    refine h.aside ?_
    simp only [List.mem_cons, List.not_mem_nil, or_false] at hstats ⊢
    tauto
  · have hone : declined (armed l l') = 1 := by omega
    rw [hone, hstats]
    exact h.refuse

theorem clocked_starting {result : Except LinkError Unit} (h : l.Starting (result, l')) :
    l'.bus.clocked = l.bus.clocked := by
  cases h with
  | refused => rfl
  | up _ announced | failed _ _ announced => cases announced <;> rfl

theorem carries_clocked {size : Nat} {b : Block} (data : Bytes) (fault : Option String)
    (hshaped : t.Shaped size) (hrx : t.rx = some b) (hb : b.bytes.length = size)
    (hclean : t.fault = none) :
    Exchange.Carries ⟨data, t.outgoing, fault⟩ (t.clocked data fault) := by
  have hlength : t.length = b.bytes.length := hshaped.length.trans hb.symm
  have hfilled : (t.clocked data fault).rx = some (b.receive (data.take t.length)) := by
    cases fault <;> simp [Transaction.clocked, Transaction.failWith, Transaction.receive, hrx]
  refine ⟨by cases fault <;> rfl, ?_, ?_⟩
  · cases fault
    · exact hclean.symm
    · rfl
  · intro b' hb'
    rw [hfilled, Option.mem_some_iff] at hb'
    subst hb'
    rw [Block.receive, Bytes.length_overwrite, Bytes.overwrite, hlength, List.take_take,
      Nat.min_self]
    exact List.prefix_append _ _

theorem ledger_clocked {data : Bytes} {fault : Option String} {signals : Signals}
    (hsteady : s.Steady) (h : Ledger c history finished refused s.link)
    (hclocks : step.clocks? = some (data, fault)) (hloaded : s.link.bus.loaded = some t) :
    Ledger c (history.answered step s.link.sequence (.read t.outgoing)) finished refused
      (clocking (t.clocked data fault) signals s.link) := by
  have hshaped := shaped_loaded hsteady.traffic hloaded
  obtain ⟨b, hrx⟩ := hshaped.rx
  have hb : b.bytes.length = s.link.config.frame.blockSize := by
    refine hsteady.sized.transfers t (List.mem_append_left _ (by simp [hloaded])) b ?_
    exact List.mem_append_right _ (by simp [hrx])
  have hexchanges : history.answered step s.link.sequence (.read t.outgoing) =
      { history with exchanges := history.exchanges ++ [⟨data, t.outgoing, fault⟩] } := by
    simp [History.answered, hclocks]
  have hcarries := carries_clocked data fault hshaped hrx hb (hsteady.traffic.intact t hloaded)
  have hnone : s.link.unfinished = [] :=
    List.append_eq_nil_iff.mpr (hsteady.traffic.nothing_unfinished hloaded)
  have htransfers := h.transfers
  rw [hnone, List.append_nil] at htransfers
  rw [hexchanges]
  refine ⟨h.books, ?_, ?_⟩
  · rw [List.length_append, List.length_singleton, ← h.clocked]
    rfl
  · rw [unfinished_clocking hsteady.traffic hloaded]
    exact List.rel_append htransfers (.cons hcarries .nil)

theorem ledger_retried (hsteady : s.link.Steady []) (hpending : s.link.rearmPending = true)
    (h : Ledger c history finished refused s.link) :
    Ledger c history finished
      (refused + declined (armed s.link (Link.armNext { s.link with rearmPending := false })))
      (Link.armNext { s.link with rearmPending := false }) := by
  obtain ⟨hretry, hidle⟩ := steady_retry hsteady hpending
  have hvacant := hretry.vacant hidle (Nat.zero_le _)
  have hunmoved := Link.unmoved_armNext hvacant
  refine ⟨?_, ?_, ?_⟩
  · rw [Link.rx_armNext hvacant]
    exact books_attempt (l := { s.link with rearmPending := false }) hidle.loaded
      (Link.attempt hvacant) h.books
  · exact (Link.raises_armNext { s.link with rearmPending := false }).clocked_eq.trans h.clocked
  · rw [hunmoved.unfinished]
    exact h.transfers

theorem ledger_acting (hsteady : s.Steady) (h : Ledger c history finished refused s.link)
    (hacting : s.Acting step (r, m)) :
    Ledger c (history.answered step s.link.sequence r) finished
      (refused + declined (armedBy step s.link m.link)) m.link := by
  cases hacting with
  | aside mute =>
    rw [mute]
    refine Ledger.unarmed ?_ (armedBy_of_same rfl rfl)
    exact h.congr rfl rfl rfl (List.mem_cons_self ..) rfl rfl
  | stopped parked =>
    refine Ledger.unarmed ?_ (armedBy_of_same rfl rfl)
    exact h.congr rfl rfl rfl (List.mem_cons_self ..) rfl
      (Link.unfinished_stopWorker parked)
  | @started result l starting =>
    obtain ⟨hrx, hstats, hunfinished⟩ := inbound_starting hsteady.traffic starting
    have hnone : declined (armedBy .start s.link l) = 0 := declined_accepted _
    simp only [hnone, Nat.add_zero]
    exact h.congr (answered_answer result).1 (answered_answer result).2.2 hrx (by simp [hstats])
      (clocked_starting starting) hunfinished
  | @submitted _ f sequence result l offer submission =>
    refine Ledger.unarmed ?_ (armedBy_of_offer offer _ _)
    cases submission with
    | queued _ _ _ room =>
      obtain ⟨tx, _, rfl⟩ := Option.map_eq_some_iff.mp room
      exact h.congr (answered_answer _).1 (answered_answer _).2.2 rfl (List.mem_cons_self ..) rfl
        rfl
    | refused e scribbled counted =>
      refine h.congr (answered_answer _).1 (answered_answer _).2.2 rfl ?_ rfl rfl
      simpa using counted
  | clocked clocks loaded =>
    exact Ledger.unarmed (ledger_clocked hsteady h clocks loaded) (armedBy_of_clocks clocks _ _)
  | retried parked pending =>
    rw [mute_done rfl]
    exact ledger_retried hsteady.traffic pending h
  | @received _ p i rx flow stats memory held due counted kept =>
    refine Ledger.unarmed ⟨?_, h.clocked, h.transfers⟩ (armedBy_of_same rfl rfl)
    have hbooks := h.books
    rw [PriorityQueues.total_pop? due] at hbooks
    have hcounted : Books c.frame finished refused (history.received.length + 1) rx.total
        stats := by
      refine hbooks.receive.aside ?_
      simp only [List.mem_cons, List.not_mem_nil, or_false] at counted ⊢
      tauto
    simpa [History.answered] using hcounted
  | dropped =>
    refine Ledger.unarmed ?_ (armedBy_of_same rfl rfl)
    exact h.congr rfl rfl rfl (List.mem_cons_self ..) rfl rfl

theorem ledger_ending (h : Ledger c history finished refused s.link) (hstays : ¬ s.Dismantles step)
    (hending : s.Ending step (r, m)) :
    Ledger c (history.answered step s.link.sequence r) finished
      (refused + declined (armedBy step s.link m.link)) m.link := by
  cases hending with
  | closing =>
    refine Ledger.unarmed ?_ (armedBy_of_same rfl rfl)
    exact h.congr rfl rfl rfl (List.mem_cons_self ..) rfl rfl
  | left parked =>
    refine Ledger.unarmed ?_ (armedBy_of_same rfl rfl)
    exact h.congr rfl rfl rfl (List.mem_cons_self ..) rfl
      (Link.unfinished_stopWorker parked)
  | dismantled final => exact absurd final hstays
  | refusing n => exact h.congr rfl rfl rfl (List.mem_cons_self ..) rfl rfl

theorem outgoing_of_shaped {tx : Block} {size : Nat} (hshaped : t.Shaped size)
    (htx : t.tx = some tx) (hsize : tx.bytes.length = size) : t.outgoing = tx.bytes := by
  rw [Transaction.outgoing, htx, hshaped.length, ← hsize]
  exact List.take_length

theorem ledger_turned (hsteady : s.Steady) (hconfig : s.link.config = c)
    (hlegible : s.link.Legible) (h : Ledger c history finished refused s.link)
    (hturn : s.link.turn? s.withheld = some (t, l)) (hsettle : s.settle.link = l.turnAround t) :
    Ledger c history (finished ++ [t]) (refused + declined (armed s.link s.settle.link))
      s.settle.link := by
  obtain ⟨hsteady₁, hidle, hshaped⟩ := Link.steady_of_turn? hsteady.traffic hturn
  obtain ⟨_, hsized⟩ := Link.sized_of_turn? hsteady.traffic hsteady.sized hturn
  obtain ⟨_, signals, heq⟩ := Link.turn?_eq_some hsteady.traffic.unfinished_le_one hturn
  obtain ⟨hone, hnone⟩ := unfinished_of_turned hsteady.traffic hturn hsettle
  have hvacant := hsteady₁.vacant hidle (Nat.le_refl _)
  have harmed := armed_of_turn hsteady.traffic hturn hsettle
  have hbooks : Books c.frame finished refused history.received.length l.mux.rx.total l.stats := by
    rw [heq]
    exact h.books
  have hreadied : Books c.frame finished (refused + declined (armed l l.readied))
      history.received.length l.readied.mux.rx.total l.readied.stats := by
    rw [Link.rx_readied hvacant]
    rcases attempt_readied hvacant with hsame | hattempt
    · rw [hsame, armed_of_same rfl rfl]
      exact hbooks
    · exact books_attempt hidle.loaded hattempt hbooks
  obtain ⟨tx, htx⟩ := hshaped.tx
  obtain ⟨rx, hrx⟩ := hshaped.rx
  have hout := outgoing_of_shaped hshaped htx (hsized tx (by simp [Transaction.blocks, htx]))
  have hreads := hlegible.transfers t (by simp [hone])
  rw [hout, hconfig] at hreads
  obtain ⟨cs, hbooked, hstats, hgrown⟩ := Link.booked_finish htx hrx hout hreads l.readied
  have hclocked := raises_rest (s := s).clocked_eq
  rw [harmed]
  refine ⟨?_, hclocked.trans h.clocked, ?_⟩
  · rw [hsettle, Link.turnAround_eq, hstats, hgrown]
    exact hreadied.finish hbooked
  · rw [hnone, List.append_nil, ← hone]
    exact h.transfers

/-- The worker books what it finishes and what the driver turned down. -/
theorem ledger_rest (hsteady : s.Steady) (hconfig : s.link.config = c) (hlegible : s.link.Legible)
    (h : Ledger c history finished refused s.link) :
    Ledger c history
      (finished ++ s.link.unfinished.take
        (s.link.unfinished.length - s.settle.link.unfinished.length))
      (refused + declined (armed s.link s.settle.link)) s.settle.link := by
  rcases idled_or_turned hsteady.traffic with hidled | ⟨t, l, hturn, hsettle⟩
  · rw [hidled.armed, hidled.unfinished, Nat.sub_self, List.take_zero, List.append_nil]
    exact h.congr rfl rfl (congrArg Multiplexer.rx hidled.mux) (by simp [hidled.stats])
      hidled.clocked hidled.unfinished
  · obtain ⟨hone, hnone⟩ := unfinished_of_turned hsteady.traffic hturn hsettle
    have hfinished : s.link.unfinished.take
        (s.link.unfinished.length - s.settle.link.unfinished.length) = [t] := by
      rw [hone, hnone]
      rfl
    rw [hfinished]
    exact ledger_turned hsteady hconfig hlegible h hturn hsettle

theorem ledger_step (step : Step) (hlasting : s.Lasting c) (hlegible : s.link.Legible)
    (hstays : ¬ s.quiet.Dismantles step) (h : Ledger c history finished refused s.link) :
    Ledger c (history.note step s) (finished ++ finishing step s) (refused + declined (arms step s))
      (s.step step).2.link := by
  have hquiet := steady_quiet hlasting.toSteady
  have hledger : Ledger c history finished refused s.quiet.link := ⟨h.books, h.clocked, h.transfers⟩
  have hacted : Ledger c
      (history.answered step s.quiet.link.sequence (s.quiet.act step).1) finished
      (refused + declined (armedBy step s.quiet.link (s.quiet.act step).2.link))
      (s.quiet.act step).2.link := by
    rcases acting_or_ending hquiet.traffic step with hacting | hending
    · exact ledger_acting hquiet hledger hacting
    · exact ledger_ending hledger hstays hending
  have hrest := ledger_rest (steady_act step hquiet) (config_acted hlasting step)
    (legible_act step hquiet hlegible) hacted
  rw [Nat.add_assoc, ← declined_append] at hrest
  exact ⟨hrest.books, hrest.clocked, hrest.transfers⟩

/-- The books of a run that has not torn the link down. -/
theorem ledger_run (hcreate : create c host = .ok s) {steps : List Step}
    (hstanding : (s.run steps).2.link.phase ≠ .deinit) :
    Ledger c (s.history steps) (s.gather finishing steps) (declined (s.gather arms steps))
      (s.run steps).2.link := by
  refine standing_induction (P := fun steps => Ledger c (s.history steps)
    (s.gather finishing steps) (declined (s.gather arms steps)) (s.run steps).2.link) hcreate
    (ledger_create (create_eq_ok hcreate).1) ?_ hstanding
  intro steps step hlasting hstays hledger
  rw [history_concat, gather_concat, gather_concat, declined_append, run_concat]
  exact ledger_step step hlasting (legible_run hcreate steps) hstays hledger

/-- What the statistics of a link say of the transfers that its worker finished and of the arms of
the worker that the driver turned down. -/
structure Accounts (c : LinkConfig) (h : History) (finished : List Transaction) (refused : Nat)
    (l : Link) : Prop where
  /-- The host clocked what the worker finished, and at most one transfer more. -/
  transfers : List.Forall₂ Exchange.Carries h.exchanges (finished ++ l.unfinished)
  pending : l.unfinished.length ≤ 1
  clocked : l.bus.clocked = h.exchanges.length
  total : l.bus.clocked + refused =
    l.stats.tx.total + l.stats.txDummy + l.stats.busFailures + l.unfinished.length
  balance : l.stats.tx.total + l.stats.txDummy = l.stats.rx.total + l.stats.rxDummy +
    l.stats.droppedChecksum + l.stats.droppedMalformed + l.stats.droppedOverrun
  failures : l.stats.busFailures = finished.countP (·.isFaulted) + refused
  frames : ∀ p, l.stats.tx.get p = finished.countP (·.sentFrame c.frame p)
  /-- The startup event is a frame of control. -/
  announced : ∀ t ∈ finished, t.isFaulted = false →
    ∀ sequence, Frame.decode c.frame t.outgoing =
        .ok { c.slaveCapabilities.toFrame with sequence } →
      t.sentFrame c.frame .control = true
  dummies : l.stats.txDummy = finished.countP (·.sentDummy c.frame)
  received : l.stats.rx.total = h.received.length + l.mux.rx.total
  powerSave : l.stats.powerSaveEvents = finished.countP (·.tellsPowerSave)

theorem sentFrame_of_event {sequence : UInt16} (hclean : t.isFaulted = false)
    (hevent : Frame.decode c.frame t.outgoing =
      .ok { c.slaveCapabilities.toFrame with sequence }) :
    t.sentFrame c.frame .control = true := by
  obtain ⟨header, hdecode⟩ := FrameConfig.decodeHeader_of_decode hevent
  have hinterface : header.interface = .internal := by
    rw [Frame.decode, hdecode] at hevent
    exact congrArg Frame.interface (Except.ok.inj hevent)
  rw [Transaction.sentFrame, hclean, FrameConfig.priorityIn?_of_ok hdecode, hinterface]
  rfl

theorem accounts_of_ledger (hone : l.unfinished.length ≤ 1)
    (h : Ledger c history finished refused l) : Accounts c history finished refused l where
  transfers := h.transfers
  pending := hone
  clocked := h.clocked
  total := by
    have hlength := h.transfers.length_eq
    have hsplit := List.length_eq_countP_add_countP (l := finished) (·.isFaulted)
    have hsent := h.books.sent
    rw [Stats.sent] at hsent
    have hclocked := h.clocked
    have hfailures := h.books.failures
    simp only [List.length_append, Bool.not_eq_true] at hlength hsplit
    simp only [Bool.decide_eq_false] at hsplit
    omega
  balance := h.books.sent.trans h.books.taken.symm
  failures := h.books.failures
  frames := h.books.frames
  announced _ _ hclean _ hevent := sentFrame_of_event hclean hevent
  dummies := h.books.dummies
  received := h.books.received
  powerSave := h.books.powerSave

/-- Until the link is torn down, the statistics balance: every transfer that the host clocked is
counted once when the worker finishes it, as the host would count it. The failures of the bus count
the finished transfers that failed, and besides the arms of the worker that the driver turned down,
which there are only once the driver was told to refuse. -/
theorem statistics_balance (hcreate : create c host = .ok s) (steps : List Step)
    (hstanding : (s.run steps).2.link.phase ≠ .deinit) :
    Accounts c (s.history steps) (s.gather finishing steps) (declined (s.gather arms steps))
        (s.run steps).2.link ∧
      ((∀ n, .refuse n ∉ steps) → declined (s.gather arms steps) = 0) := by
  have hlasting := lasting_run (lasting_create hcreate) steps
  exact ⟨accounts_of_ledger hlasting.traffic.unfinished_le_one (ledger_run hcreate hstanding),
    fun hunrefused => declined_run hcreate hunrefused⟩

theorem statistics_balance_small :
    ∃ s, create smallConfig (matchingHost smallConfig) = .ok s ∧
      Accounts smallConfig (s.history [.start, .refuse 1, .clock [] false])
        (s.gather finishing [.start, .refuse 1, .clock [] false])
        (declined (s.gather arms [.start, .refuse 1, .clock [] false]))
        (s.run [.start, .refuse 1, .clock [] false]).2.link :=
  ⟨_, rfl, (statistics_balance (c := smallConfig) rfl [.start, .refuse 1, .clock [] false]
    (by decide +kernel)).1⟩

/-- The driver turns down what the worker arms after the startup event: no transfer failed, and yet
a failure of the bus is counted. -/
theorem refusal_counted_as_failure :
    ∃ s, create smallConfig (matchingHost smallConfig) = .ok s ∧
      (s.run [.start, .refuse 1, .clock [] false]).2.link.phase = .active ∧
      (s.gather finishing [.start, .refuse 1, .clock [] false]).countP (·.isFaulted) = 0 ∧
      (s.run [.start, .refuse 1, .clock [] false]).2.link.stats.busFailures = 1 ∧
      (s.run [.start, .refuse 1, .clock [] false]).2.link.bus.clocked = 1 ∧
      (s.run [.start, .refuse 1, .clock [] false]).2.link.stats.tx.total = 1 :=
  ⟨_, rfl, by decide +kernel⟩

end SlaveLink.Session
