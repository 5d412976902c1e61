import SlaveLink.Proofs.Link.Wiring
import SlaveLink.Proofs.Session.Handshake

/-! # Policy and polarities do not show
A link does the same whichever policy drops Handshake and whichever levels mean "asserted", as long
as the host knows the levels and clocks in whole exchanges: at the end of an exchange chip-select is
released again, so a worker that waits for that never has to. -/

namespace SlaveLink

namespace Signals

variable {s : Signals} {c : LinkConfig} {asserted : Bool}

/-- After a whole exchange the signals are at rest under either policy, and the release was seen by
the one that waits for it. -/
theorem exchanged (h : s.Shows c .high asserted) :
    (s.select.onBusAll [.done]).deselect.state = .inactive ∧
      (s.select.onBusAll [.done]).deselect.isDataReady = s.isDataReady ∧
      (c.policy = .onChipSelect → (s.select.onBusAll [.done]).deselect.releaseSeen = true) := by
  have hdone := shows_done (shows_select h)
  have hlow : (s.select.onBus .done).lines.level .chipSelect ≠ .high := by
    rw [hdone.chipSelect]
    decide
  have hselect : s.select = (s.driven .low).onChipSelect .low := by
    rw [select, drive_of_watched .low h.watched, h.chipSelect, if_pos (by decide)]
  show (s.select.onBus .done).deselect.state = .inactive ∧
    (s.select.onBus .done).deselect.isDataReady = s.isDataReady ∧
    (c.policy = .onChipSelect → (s.select.onBus .done).deselect.releaseSeen = true)
  rw [deselect, drive_of_watched .high hdone.watched, if_pos hlow, hselect]
  have hpolicy := h.policy
  cases hcases : s.policy with
  | onTransactionEnd =>
    rw [hcases] at hpolicy
    simp [onChipSelect, onBus, driven, setHandshake, enter, hcases, ← hpolicy]
  | onChipSelect => simp [onChipSelect, onBus, driven, setHandshake, enter, hcases]

end Signals

namespace Session

variable {s s₁ s₂ : Session} {c : LinkConfig} {host : HostLevels} {step : Step} {w : Wiring}
  {seen₁ seen₂ : Bool}

open Link (SameResult)

structure Rewired (w : Wiring) (seen₁ seen₂ : Bool) (s₁ s₂ : Session) : Prop where
  link : s₁.link.Rewired w seen₁ seen₂ s₂.link
  held : s₂.held = s₁.held
  withheld : s₂.withheld = s₁.withheld

structure SameStep (w : Wiring) (seen₁ seen₂ : Bool) (r₁ r₂ : Reply × Session) : Prop where
  reply : r₁.1 = r₂.1
  session : Rewired w seen₁ seen₂ r₁.2 r₂.2

theorem Rewired.onLink (h : Rewired w seen₁ seen₂ s₁ s₂) {f : Link → Link}
    (hf : (f s₁.link).Rewired w seen₁ seen₂ (f s₂.link)) :
    Rewired w seen₁ seen₂ (s₁.onLink f) (s₂.onLink f) :=
  ⟨hf, h.held, h.withheld⟩

theorem Rewired.request (h : Rewired w seen₁ seen₂ s₁ s₂)
    {f : Link → Except LinkError Unit × Link}
    (hf : SameResult w seen₁ seen₂ (f s₁.link) (f s₂.link)) :
    SameStep w seen₁ seen₂ (s₁.request f) (s₂.request f) := by
  obtain ⟨result, l₁, l₂, hf₁, hf₂, hl⟩ := hf.split
  unfold Session.request
  rw [hf₁, hf₂]
  cases result with
  | ok _ => exact ⟨rfl, hl, h.held, h.withheld⟩
  | error e => exact ⟨rfl, hl, h.held, h.withheld⟩

theorem Rewired.wakeWorker (h : Rewired w seen₁ seen₂ s₁ s₂) {f : Link → Link}
    (hf : (f s₁.link).Rewired w seen₁ seen₂ (f s₂.link)) :
    SameStep w seen₁ seen₂ (s₁.wakeWorker f) (s₂.wakeWorker f) := by
  have hworker := h.link.same Link.worker Link.worker_rewired
  unfold Session.wakeWorker
  rw [hworker]
  split
  · exact ⟨rfl, h.onLink hf⟩
  · exact ⟨rfl, h⟩

theorem Rewired.handOver (h : Rewired w seen₁ seen₂ s₁ s₂) (hold : Bool) (i : Incoming) :
    Rewired w seen₁ seen₂ (s₁.handOver hold i) (s₂.handOver hold i) := by
  cases hold with
  | true =>
    refine ⟨h.link, ?_, h.withheld⟩
    show s₂.held ++ [some i] = s₁.held ++ [some i]
    rw [h.held]
  | false =>
    exact h.onLink (h.link.of_commutes (f := fun l => l.giveBack [i.block]) fun _ _ _ => rfl)

theorem Rewired.burn (h : Rewired w seen₁ seen₂ s₁ s₂) (n : Nat) :
    SameStep w seen₁ seen₂ (s₁.act (.burn n)) (s₂.act (.burn n)) := by
  refine ⟨rfl, h.onLink ?_⟩
  induction n with
  | zero => exact h.link
  | succ n ih => exact (ih.submitNext .station 0 []).link

theorem Rewired.tryReceive (h : Rewired w seen₁ seen₂ s₁ s₂) (hold : Bool) :
    SameStep w seen₁ seen₂ (s₁.act (.tryReceive hold)) (s₂.act (.tryReceive hold)) := by
  obtain ⟨result, l₁, l₂, hreceive₁, hreceive₂, hl⟩ :=
    (SameResult.of_commutes h.link Link.tryReceive_rewired).split
  simp only [act, hreceive₁, hreceive₂]
  have htaken : Rewired w seen₁ seen₂ { s₁ with link := l₁ } { s₂ with link := l₂ } :=
    ⟨hl, h.held, h.withheld⟩
  obtain e | _ | i := result
  · exact ⟨rfl, htaken⟩
  · exact ⟨rfl, htaken⟩
  · exact ⟨rfl, htaken.handOver hold i⟩

theorem Rewired.receive (h : Rewired w seen₁ seen₂ s₁ s₂) (limit : Option Duration)
    (hold : Bool) :
    SameStep w seen₁ seen₂ (s₁.act (.receive limit hold)) (s₂.act (.receive limit hold)) := by
  obtain ⟨result, l₁, l₂, hreceive₁, hreceive₂, hl⟩ :=
    (SameResult.of_commutes h.link fun w g l => Link.receive_rewired w g l limit).split
  simp only [act, hreceive₁, hreceive₂]
  have htaken : Rewired w seen₁ seen₂ { s₁ with link := l₁ } { s₂ with link := l₂ } :=
    ⟨hl, h.held, h.withheld⟩
  cases result with
  | found i => exact ⟨rfl, htaken.handOver hold i⟩
  | timedOut | closed | waiting => exact ⟨rfl, htaken⟩

theorem Rewired.dropHeld (h : Rewired w seen₁ seen₂ s₁ s₂) (n : Nat) :
    SameStep w seen₁ seen₂ (s₁.act (.dropHeld n)) (s₂.act (.dropHeld n)) := by
  simp only [act]
  rw [h.held]
  cases s₁.held[n]?.join with
  | none => exact ⟨rfl, h⟩
  | some i =>
    have hgiven : (s₁.link.giveBack [i.block]).Rewired w seen₁ seen₂
        (s₂.link.giveBack [i.block]) :=
      h.link.of_commutes (f := fun l => l.giveBack [i.block]) fun _ _ _ => rfl
    exact ⟨rfl, hgiven, rfl, h.withheld⟩

/-- Every step but those of the host does the same under either wiring. -/
theorem Rewired.act (h : Rewired w seen₁ seen₂ s₁ s₂) (hstep : step.exchangesOnly = true)
    (hclocks : step.clocks? = none)
    (hsees : s₁.host.seesHandshake s₁.lines = s₂.host.seesHandshake s₂.lines) :
    SameStep w seen₁ seen₂ (s₁.act step) (s₂.act step) := by
  have hopen := h.link.same Link.isOpen Link.isOpen_rewired
  cases step with
  | start => exact h.request h.link.start
  | submitNext interface number payload =>
    exact h.request (h.link.submitNext interface number payload)
  | submit f => exact h.request (h.link.submitHeader f.header f.payload)
  | burn n => exact h.burn n
  | drain => exact ⟨rfl, h.onLink (h.link.of_commutes Link.beginDrain_rewired)⟩
  | finishDrain => exact ⟨rfl, h.onLink h.link.finishDrain⟩
  | deinit =>
    have hdraining := h.link.of_commutes Link.beginDrain_rewired
    simp only [Session.act]
    rw [hopen]
    split
    · exact ⟨rfl, h.onLink (f := fun l => l.beginDrain.finishDrain) hdraining.finishDrain⟩
    · exact ⟨rfl, h⟩
  | exchange => simp [Step.clocks?] at hclocks
  | clock => simp [Step.clocks?] at hclocks
  | select | deselect => simp [Step.exchangesOnly] at hstep
  | deliver => exact ⟨rfl, h.link, h.held, rfl⟩
  | waitReady limit =>
    simp only [Session.act, HostLevels.waitReady, hsees]
    split
    · exact ⟨rfl, h⟩
    · exact ⟨rfl, h⟩
  | tick => exact h.wakeWorker h.link.tick
  | busError => exact h.wakeWorker (h.link.of_commutes Link.leaveIfDrained_rewired)
  | busShutdown => exact h.wakeWorker (h.link.of_commutes fun _ _ _ => rfl)
  | refuse n =>
    have hrefusing : { s₁.link with refusals := n }.Rewired w seen₁ seen₂
        { s₂.link with refusals := n } :=
      h.link.of_commutes (f := fun l => { l with refusals := n }) fun _ _ _ => rfl
    exact ⟨rfl, hrefusing, h.held, h.withheld⟩
  | tryReceive hold => exact h.tryReceive hold
  | receive limit hold => exact h.receive limit hold
  | dropHeld n => exact h.dropHeld n
  | showHeld n => exact ⟨by simp only [Session.act, h.held], h⟩
  | register id => exact ⟨rfl, h.onLink (h.link.of_commutes fun _ _ _ => rfl)⟩

/-- What holds between the steps of a session whose host clocks in whole exchanges. -/
structure AtRest (c : LinkConfig) (s : Session) : Prop where
  steady : s.Steady
  config : s.link.config = c
  host : s.host = matchingHost c
  shows : s.link.Shows .high
  unhindered : s.link.Unhindered

theorem AtRest.seesHandshake (h : s.AtRest c) :
    s.host.seesHandshake s.lines = s.link.bus.loaded.isSome := by
  rw [h.host]
  exact seesHandshake_of_shows h.shows h.config

theorem AtRest.exchange (h : s.AtRest c) (data : Bytes) (limit : Duration)
    (fault : Option String) (hold : Bool) : s.act (.exchange data limit fault hold) =
      match s.link.bus.loaded with
      | none => (.hostFailed (.timeout limit), s)
      | some t => (.read t.outgoing, { s with
        link := exchanging (t.clocked data fault) s.link, withheld := s.withheld || hold }) := by
  have hselected : (s.onSignals Signals.select).link.Steady [] := h.steady.traffic
  simp only [Session.act, Session.exchange, HostLevels.waitReady, h.seesHandshake]
  cases hloaded : s.link.bus.loaded with
  | none => rfl
  | some t =>
    simp only [clock_of_loaded hselected data fault hloaded]
    rfl

/-- A transfer that a whole exchange clocked need not wait for chip-select. -/
theorem AtRest.exchanging (h : s.AtRest c) (t : Transaction) :
    (exchanging t s.link).Unhindered := by
  refine ⟨h.unhindered.held, fun hpolicy _ => ⟨(Signals.exchanged h.shows).2.2 hpolicy, ?_⟩⟩
  exact (Signals.shows_deselect (Signals.shows_done (Signals.shows_select h.shows))).chipSelect

theorem Rewired.exchange (h : Rewired w seen₁ seen₂ s₁ s₂) (h₁ : s₁.AtRest c)
    (h₂ : s₂.AtRest (c.wired w)) (data : Bytes) (limit : Duration) (fault : Option String)
    (hold : Bool) : ∃ seen₁ seen₂,
      SameStep w seen₁ seen₂ (s₁.act (.exchange data limit fault hold))
        (s₂.act (.exchange data limit fault hold)) := by
  have hexchanged₁ := Signals.exchanged h₁.shows
  have hexchanged₂ := Signals.exchanged h₂.shows
  rw [h₁.exchange, h₂.exchange, h.withheld]
  obtain ⟨g, hlink, hagree⟩ := h.link
  rw [hlink] at hexchanged₂ ⊢
  rw [Link.bus_rewired]
  cases s₁.link.bus.loaded with
  | none => exact ⟨seen₁, seen₂, rfl, h⟩
  | some t =>
    refine ⟨_, _, rfl, ⟨_, rfl, ?_, ?_, rfl, rfl⟩, h.held, rfl⟩
    · exact hexchanged₁.1.trans hexchanged₂.1.symm
    · exact hexchanged₁.2.1.trans (hagree.isDataReady.trans hexchanged₂.2.1.symm)

/-- A step that clocks nothing completes no transfer, and never leaves the worker waiting. -/
theorem unfinished_unclocked (h : s.link.Steady []) (hclocks : step.clocks? = none)
    (hheld : s.link.worker.held = []) : (s.act step).2.link.worker.held = [] ∧
      ((s.act step).2.link.bus.completed = s.link.bus.completed ∨
        (s.act step).2.link.bus.completed = []) := by
  have hcases := acting_or_ending h step
  generalize s.act step = out at hcases ⊢
  obtain ⟨r, m⟩ := out
  rcases hcases with hacting | hending
  · cases hacting with
    | aside | received | dropped => exact ⟨hheld, .inl rfl⟩
    | stopped => exact ⟨rfl, .inl rfl⟩
    | started starting =>
      cases starting with
      | refused => exact ⟨hheld, .inl rfl⟩
      | up _ announced => exact ⟨rfl, .inl (Link.announcing_frame announced).2.2.2.2.2⟩
      | failed _ _ announced =>
        obtain ⟨hworker, _, _, _, _, hcompleted⟩ := Link.announcing_frame announced
        exact ⟨(congrArg Worker.held hworker).trans hheld, .inl hcompleted⟩
    | submitted _ submission => cases submission <;> exact ⟨hheld, .inl rfl⟩
    | clocked clocks => simp [hclocks] at clocks
    | retried _ pending =>
      obtain ⟨hsteady, hidle⟩ := steady_retry h pending
      have hunmoved := Link.unmoved_armNext (hsteady.vacant hidle (Nat.zero_le _))
      exact ⟨(congrArg Worker.held hunmoved.worker).trans hheld, .inl hunmoved.completed⟩
  · cases hending with
    | closing | refusing => exact ⟨hheld, .inl rfl⟩
    | left => exact ⟨rfl, .inl rfl⟩
    | dismantled => exact ⟨rfl, .inr rfl⟩

theorem AtRest.shows_act (h : s.AtRest c) (hstep : step.exchangesOnly = true) :
    (s.act step).2.link.Shows .high :=
  shows_moving hstep h.shows (moving h.steady.traffic step)

/-- A step that clocks nothing, and leaves a release of chip-select as it was seen or not, hinders
the worker no more than before. -/
theorem AtRest.unhindered_act (h : s.AtRest c) (hstep : step.exchangesOnly = true)
    (hclocks : step.clocks? = none)
    (hseen : (s.act step).2.link.signals.releaseSeen = s.link.signals.releaseSeen) :
    (s.act step).2.link.Unhindered := by
  obtain ⟨hheld, hcompleted⟩ :=
    unfinished_unclocked h.steady.traffic hclocks h.unhindered.held
  refine ⟨hheld, fun hpolicy hbusy => ⟨?_, (h.shows_act hstep).chipSelect⟩⟩
  rw [config_act step h.steady.traffic] at hpolicy
  rw [hseen]
  rcases hcompleted with hsame | hnil
  · rw [hsame] at hbusy
    exact (h.unhindered.released hpolicy hbusy).1
  · exact absurd hnil hbusy

theorem Rewired.acted (h : Rewired w seen₁ seen₂ s₁ s₂) (h₁ : s₁.AtRest c)
    (h₂ : s₂.AtRest (c.wired w)) (hstep : step.exchangesOnly = true) :
    (∃ seen₁ seen₂, SameStep w seen₁ seen₂ (s₁.act step) (s₂.act step)) ∧
      (s₁.act step).2.link.Unhindered ∧ (s₂.act step).2.link.Unhindered := by
  cases hclocks : step.clocks? with
  | none =>
    have hsees : s₁.host.seesHandshake s₁.lines = s₂.host.seesHandshake s₂.lines := by
      rw [h₁.seesHandshake, h₂.seesHandshake, h.link.same Link.bus Link.bus_rewired]
    have hsame := h.act hstep hclocks hsees
    obtain ⟨g, hlink, hagree⟩ := h.link
    obtain ⟨g', hlink', hagree'⟩ := hsame.session.link
    refine ⟨⟨_, _, hsame⟩, h₁.unhindered_act hstep hclocks (hagree'.first.trans hagree.first.symm),
      h₂.unhindered_act hstep hclocks ?_⟩
    rw [hlink', hlink]
    exact hagree'.second.trans hagree.second.symm
  | some clocked =>
    cases step with
    | exchange data limit fault hold =>
      have hbus := h.link.same Link.bus Link.bus_rewired
      refine ⟨h.exchange h₁ h₂ data limit fault hold, ?_⟩
      rw [h₁.exchange, h₂.exchange, hbus]
      cases s₁.link.bus.loaded with
      | none => exact ⟨h₁.unhindered, h₂.unhindered⟩
      | some t => exact ⟨h₁.exchanging _, h₂.exchanging _⟩
    | clock => simp [Step.exchangesOnly] at hstep
    | _ => simp [Step.clocks?] at hclocks

theorem Rewired.settle (h : Rewired w seen₁ seen₂ s₁ s₂) (hsteady₁ : s₁.link.Steady [])
    (hsteady₂ : s₂.link.Steady []) (h₁ : s₁.link.Unhindered) (h₂ : s₂.link.Unhindered) :
    ∃ seen₁ seen₂, Rewired w seen₁ seen₂ s₁.settle s₂.settle := by
  have hphase := h.link.same Link.phase Link.phase_rewired
  obtain ⟨_, _, hsettled⟩ := h.link.settle hsteady₁ hsteady₂ h₁ h₂ s₁.withheld
  unfold Session.settle
  rw [hphase, h.withheld]
  split
  · exact ⟨_, _, h⟩
  · exact ⟨_, _, hsettled, h.held, h.withheld⟩

theorem AtRest.quiet (h : s.AtRest c) : s.quiet.AtRest c :=
  ⟨steady_quiet h.steady, h.config, h.host, h.shows, h.unhindered.held, h.unhindered.released⟩

theorem atRest_step (h : s.AtRest c) (hstep : step.exchangesOnly = true)
    (hacted : (s.quiet.act step).2.link.Unhindered) : (s.step step).2.AtRest c where
  steady := steady_step step h.steady
  config := (config_step step h.steady).trans h.config
  host := (host_step h.steady step).trans h.host
  shows := shows_step step hstep h.steady h.shows
  unhindered := by
    have hsteady := (steady_act step (steady_quiet h.steady)).traffic
    show (s.quiet.act step).2.settle.link.Unhindered
    unfold Session.settle
    split
    · exact hacted
    · exact Link.unhindered_settle hsteady hacted _

theorem rewired_step (h : Rewired w seen₁ seen₂ s₁ s₂) (h₁ : s₁.AtRest c)
    (h₂ : s₂.AtRest (c.wired w)) (hstep : step.exchangesOnly = true) :
    (∃ seen₁ seen₂, SameStep w seen₁ seen₂ (s₁.step step) (s₂.step step)) ∧
      (s₁.step step).2.AtRest c ∧ (s₂.step step).2.AtRest (c.wired w) := by
  have hquiet : Rewired w seen₁ seen₂ s₁.quiet s₂.quiet :=
    ⟨h.link.of_commutes (f := fun l => { l with notices := [] }) fun _ _ _ => rfl, h.held,
      h.withheld⟩
  obtain ⟨⟨_, _, hsame⟩, hacted₁, hacted₂⟩ := hquiet.acted h₁.quiet h₂.quiet hstep
  obtain ⟨_, _, hsettled⟩ := hsame.session.settle
    (steady_act step h₁.quiet.steady).traffic (steady_act step h₂.quiet.steady).traffic
    hacted₁ hacted₂
  exact ⟨⟨_, _, hsame.reply, hsettled⟩, atRest_step h₁ hstep hacted₁, atRest_step h₂ hstep hacted₂⟩

theorem rewired_run {steps : List Step} (h : Rewired w seen₁ seen₂ s₁ s₂) (h₁ : s₁.AtRest c)
    (h₂ : s₂.AtRest (c.wired w)) (hsteps : ∀ step ∈ steps, step.exchangesOnly = true) :
    (s₁.run steps).1 = (s₂.run steps).1 ∧
      (∃ seen₁ seen₂, Rewired w seen₁ seen₂ (s₁.run steps).2 (s₂.run steps).2) ∧
      (s₁.run steps).2.AtRest c ∧ (s₂.run steps).2.AtRest (c.wired w) := by
  induction steps generalizing s₁ s₂ seen₁ seen₂ with
  | nil => exact ⟨rfl, ⟨_, _, h⟩, h₁, h₂⟩
  | cons step steps ih =>
    obtain ⟨⟨_, _, hsame⟩, hnext₁, hnext₂⟩ :=
      rewired_step h h₁ h₂ (hsteps step (List.mem_cons_self ..))
    obtain ⟨hreplies, hrun⟩ := ih hsame.session hnext₁ hnext₂
      fun x hx => hsteps x (List.mem_cons_of_mem _ hx)
    refine ⟨?_, hrun⟩
    show (s₁.step step).1 :: ((s₁.step step).2.run steps).1 = _
    rw [hsame.reply, hreplies]
    rfl

theorem atRest_create (h : create c (matchingHost c) = .ok s) : s.AtRest c := by
  obtain ⟨hlink, hs⟩ := create_eq_ok h
  refine ⟨(sound_create h).toSteady, Link.config_create hlink, by rw [hs],
    Link.shows_create hlink, ?_⟩
  obtain ⟨_, hl⟩ := Link.create_eq_ok hlink
  rw [hl]
  exact ⟨rfl, fun _ hbusy => absurd rfl hbusy⟩

theorem link_create_wired (c : LinkConfig) (w : Wiring) : Link.create (c.wired w) =
    (Link.create c).map fun l => Link.ofMemory (c.wired w) l.memory := by
  have hvalidate : (c.wired w).validate = c.validate := rfl
  have hreserve : Link.reserve (c.wired w) = Link.reserve c := rfl
  have hqueues : Link.claimQueues (c.wired w) = Link.claimQueues c := rfl
  have hbus : (c.wired w).busQueueSize = c.busQueueSize := rfl
  unfold Link.create Link.createIn
  rw [hvalidate, hreserve, hqueues, hbus]
  cases c.validate with
  | error e => rfl
  | ok _ =>
    simp only
    split
    · rfl
    · split
      · rfl
      · rfl
      · split <;> rfl

/-- Whether a link can be built does not depend on its wiring. -/
theorem rewired_create (c : LinkConfig) (w : Wiring) :
    (∃ e, create c (matchingHost c) = .error e ∧
      create (c.wired w) (matchingHost (c.wired w)) = .error e) ∨
    ∃ s₁ s₂, create c (matchingHost c) = .ok s₁ ∧
      create (c.wired w) (matchingHost (c.wired w)) = .ok s₂ ∧ Rewired w false false s₁ s₂ := by
  have hwired := link_create_wired c w
  cases hlink : Link.create c with
  | error e =>
    rw [hlink] at hwired
    exact .inl ⟨e, congrArg (Except.map _) hlink, congrArg (Except.map _) hwired⟩
  | ok l =>
    rw [hlink] at hwired
    obtain ⟨_, rfl⟩ := Link.create_eq_ok hlink
    exact .inr ⟨_, _, congrArg (Except.map _) hlink, congrArg (Except.map _) hwired,
      ⟨_, rfl, rfl, rfl, rfl, rfl⟩, rfl, rfl⟩

/-- Nothing tells the sessions apart but the settings of the outputs and the levels of the lines:
the links have the same memory, queues and counters, and the host reads the lines in the same
way. -/
structure Indistinct (w : Wiring) (s₁ s₂ : Session) : Prop where
  link : s₂.link = s₁.link.rewired w s₂.link.signals
  held : s₂.held = s₁.held
  withheld : s₂.withheld = s₁.withheld
  state : s₂.link.signals.state = s₁.link.signals.state
  handshake : s₂.host.seesHandshake s₂.lines = s₁.host.seesHandshake s₁.lines
  dataReady : s₂.host.seesDataReady s₂.lines = s₁.host.seesDataReady s₁.lines

theorem Rewired.indistinct (h : Rewired w seen₁ seen₂ s₁ s₂) (h₁ : s₁.AtRest c)
    (h₂ : s₂.AtRest (c.wired w)) : Indistinct w s₁ s₂ := by
  obtain ⟨g, hlink, hagree⟩ := h.link
  have hsignals : s₂.link.signals = g := congrArg Link.signals hlink
  refine ⟨by rw [hsignals]; exact hlink, h.held, h.withheld, ?_, ?_, ?_⟩
  · rw [hsignals]
    exact hagree.state.symm
  · rw [h₁.seesHandshake, h₂.seesHandshake, h.link.same Link.bus Link.bus_rewired]
  · rw [h₁.host, h₂.host, seesDataReady_of_shows h₁.shows h₁.config,
      seesDataReady_of_shows h₂.shows h₂.config, hsignals]
    exact hagree.isDataReady.symm

/-- Two runs of the same steps, with a host that knows the levels and clocks in whole exchanges,
give the same replies and stay indistinct, whatever the policy and the polarities. -/
theorem wiring_unobservable (c : LinkConfig) (w : Wiring) {steps : List Step}
    (hsteps : ∀ step ∈ steps, step.exchangesOnly = true) :
    (∃ e, create c (matchingHost c) = .error e ∧
      create (c.wired w) (matchingHost (c.wired w)) = .error e) ∨
    ∃ s₁ s₂, create c (matchingHost c) = .ok s₁ ∧
      create (c.wired w) (matchingHost (c.wired w)) = .ok s₂ ∧
      (s₁.run steps).1 = (s₂.run steps).1 ∧
      Indistinct w (s₁.run steps).2 (s₂.run steps).2 := by
  rcases rewired_create c w with hfailed | ⟨s₁, s₂, hcreate₁, hcreate₂, h⟩
  · exact .inl hfailed
  · obtain ⟨hreplies, ⟨_, _, hrun⟩, h₁, h₂⟩ :=
      rewired_run h (atRest_create hcreate₁) (atRest_create hcreate₂) hsteps
    exact .inr ⟨s₁, s₂, hcreate₁, hcreate₂, hreplies, hrun.indistinct h₁ h₂⟩

def lowWiring : Wiring := ⟨.onChipSelect, .activeLow, .activeLow⟩

/-- A faulted exchange follows one that is withheld from the worker. -/
theorem wiring_unobservable_small :
    ∃ s₁ s₂, create smallConfig (matchingHost smallConfig) = .ok s₁ ∧
      create (smallConfig.wired lowWiring) (matchingHost (smallConfig.wired lowWiring)) = .ok s₂ ∧
      (s₁.run [.start, .exchange [] (.ofMillis 1) none true, .deliver,
        .exchange [] (.ofMillis 1) (some "fault") false]).1 =
      (s₂.run [.start, .exchange [] (.ofMillis 1) none true, .deliver,
        .exchange [] (.ofMillis 1) (some "fault") false]).1 := by
  have hsteps : ∀ step ∈ [Step.start, .exchange [] (.ofMillis 1) none true, .deliver,
      .exchange [] (.ofMillis 1) (some "fault") false], step.exchangesOnly = true := by decide
  rcases wiring_unobservable smallConfig lowWiring hsteps with
    ⟨e, hfailed, _⟩ | ⟨s₁, s₂, hcreate₁, hcreate₂, hreplies, _⟩
  · cases hfailed
  · exact ⟨s₁, s₂, hcreate₁, hcreate₂, hreplies⟩

end Session
end SlaveLink
