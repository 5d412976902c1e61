import SlaveLink.Proofs.Link.Outbound
import SlaveLink.Proofs.Session.InFlight

/-! # Frames on their way out
No accepted frame is lost, doubled or overtaken by another one of its priority: at any moment the
frames on the wire and the waiting ones are the accepted ones. What leaves a queue is due. -/

namespace SlaveLink

/-- `r` is left of `q` without the oldest item of the first queue that is not empty. -/
structure PriorityQueues.Takes {α : Type} (q : PriorityQueues α) (p : Priority) (x : α)
    (r : PriorityQueues α) : Prop where
  head : q.get p = x :: r.get p
  others : ∀ s, s ≠ p → r.get s = q.get s
  first : ∀ s : Priority, s.index < p.index → q.get s = []

namespace Session

variable {s m : Session} {c : LinkConfig} {host : HostLevels} {step : Step} {r : Reply}
  {history : History}

def History.handed (h : History) : List Bytes := h.exchanges.map (·.read)

/-- The frames that wait when a step comes to arm, the one that it submits among them. -/
def offered (step : Step) (s : Session) : PriorityQueues Outgoing :=
  match step with
  | .tick => s.link.mux.tx
  | step => (s.quiet.act step).2.link.mux.tx

/-- The step takes no frame from the queues, or loads the one that is due. -/
def TakesDue (step : Step) (s : Session) : Prop :=
  (s.step step).2.link.mux.tx = offered step s ∨ ∃ p o t,
    (offered step s).Takes p o (s.step step).2.link.mux.tx ∧
      (s.step step).2.link.bus.loaded = some t ∧ t.tx = some o.block

/-- What the host was handed is readable, the startup event comes first, and the frames of each
priority are the accepted ones in order. -/
structure Transmitted (c : LinkConfig) (h : History) (l : Link) : Prop where
  readable : ∀ bs ∈ h.handed, decodeHeader c.frame bs = .error .dummyFrame ∨
    ∃ f, Frame.decode c.frame bs = .ok f
  announced : ∀ bs, (Outbound.wire h.handed l.bus.loaded).head? = some bs → ∃ sequence,
    Frame.decode c.frame bs = .ok { c.slaveCapabilities.toFrame with sequence }
  inOrder : ∀ p, framesOf c.frame p
      ((Outbound.wire h.handed l.bus.loaded).drop 1 ++ Outbound.waiting l.mux.tx p) =
    (h.accepted.filter (·.interface.priority = p)).map (·.carried)

theorem takes_of_pop? {α : Type} {q r : PriorityQueues α} {p : Priority} {x : α}
    (h : q.pop? = some (p, x, r)) : q.Takes p x r :=
  ⟨(PriorityQueues.get_pop? h).1, (PriorityQueues.get_pop? h).2.1, (PriorityQueues.get_pop? h).2.2⟩

theorem sends_acting (hsound : s.Sound)
    (h : s.link.Sends c history.handed history.accepted) (hacting : s.Acting step (r, m)) :
    m.link.Sends c (history.answered step s.link.sequence r).handed
      (history.answered step s.link.sequence r).accepted := by
  cases hacting with
  | aside mute =>
    rw [mute]
    exact ⟨h.config, h.capabilities, h.fresh, h.silent, h.faithful⟩
  | stopped parked =>
    rw [mute_done rfl]
    refine ⟨h.config, h.capabilities, h.fresh, ?_, h.faithful⟩
    intro hnil
    exact ⟨(Link.unfinished_stopWorker parked).trans (h.silent hnil).1, (h.silent hnil).2⟩
  | @started result l starting =>
    have hstarted := Link.sends_starting hsound.orderly hsound.sized h starting
    cases result with
    | ok _ =>
      rw [answer, mute_done rfl]
      exact hstarted
    | error e => exact hstarted
  | @submitted _ f sequence result l offer submission =>
    have hsubmitted := Link.sends_submission (l := { s.link with sequence }) hsound.orderly.word
      ⟨h.config, h.capabilities, h.fresh, h.silent, h.faithful⟩ submission
    cases result with
    | ok _ =>
      simp only [answer, History.answered, offer]
      exact hsubmitted
    | error e =>
      rw [Link.taken, List.append_nil] at hsubmitted
      exact hsubmitted
  | @clocked _ data fault t signals withheld clocks loaded =>
    have hhanded : (history.answered step s.link.sequence (.read t.outgoing)).handed =
        history.handed ++ [t.outgoing] := by
      simp [History.answered, History.handed, clocks]
    have hspoken : history.handed ++ [t.outgoing] ≠ [] := by simp
    have hfaithful := h.faithful
    rw [loaded] at hfaithful
    rw [hhanded]
    refine ⟨h.config, h.capabilities, ?_, fun hnil => absurd hnil hspoken,
      hfaithful.clock⟩
    intro hunsent
    have hnone := (h.fresh hunsent).2
    simp [loaded] at hnone
  | retried parked pending =>
    obtain ⟨horderly, hidle⟩ := orderly_retry hsound.orderly pending
    have hspoken : history.handed ≠ [] := fun hnil => by simp [(h.silent hnil).2] at pending
    rw [mute_done rfl]
    exact Link.sends_armNext (l := { s.link with rearmPending := false })
      ⟨h.config, h.capabilities, h.fresh, fun hnil => absurd hnil hspoken, h.faithful⟩ hspoken
      hsound.sized hidle (Link.headerSize_le_blockSize horderly.steady)
      (horderly.canArm hidle (Nat.zero_le _))
  | received => exact ⟨h.config, h.capabilities, h.fresh, h.silent, h.faithful⟩
  | dropped => exact ⟨h.config, h.capabilities, h.fresh, h.silent, h.faithful⟩

theorem sends_step (step : Step) (hlive : step.isLive = true)
    (h : s.Sound ∧ s.link.Sends c history.handed history.accepted) :
    (s.step step).2.Sound ∧ (s.step step).2.link.Sends c (history.note step s).handed
      (history.note step s).accepted := by
  have hquiet := sound_quiet h.1
  have hacting := acting hquiet.orderly hlive
  have hsends : s.quiet.link.Sends c history.handed history.accepted :=
    ⟨h.2.config, h.2.capabilities, h.2.fresh, h.2.silent, h.2.faithful⟩
  have hacted := sends_acting hquiet hsends hacting
  have hsound : (s.quiet.act step).2.Sound := sound_act step hlive hquiet
  refine ⟨sound_step step hlive h.1, ?_⟩
  show (s.quiet.act step).2.settle.link.Sends c
    (history.answered step s.link.sequence (s.quiet.act step).1).handed
    (history.answered step s.link.sequence (s.quiet.act step).1).accepted
  rw [settle_of_orderly hsound.orderly]
  exact Link.sends_settle hsound.orderly hsound.sized hacted _

theorem transmitted {l : Link} (h : l.Sends c history.handed history.accepted) :
    Transmitted c history l := by
  refine ⟨?_, h.faithful.announced, h.faithful.inOrder⟩
  intro bs hbs
  rcases h.faithful.readable bs (List.mem_append_left _ hbs) with hdummy | hframe
  · left
    rw [Frame.decode] at hdummy
    cases hdecode : decodeHeader c.frame bs with
    | ok header => simp [hdecode, Except.map] at hdummy
    | error e => simpa [hdecode, Except.map] using hdummy
  · exact .inr hframe

/-- Arming takes nothing from the queues, or the frame that is due. -/
theorem takes_armNext {l : Link} (h : l.CanArm) : l.armNext.mux.tx = l.mux.tx ∨ ∃ p o t,
    l.mux.tx.Takes p o l.armNext.mux.tx ∧ l.armNext.bus.loaded = some t ∧
      t.tx = some o.block := by
  rcases Link.armNext_loaded_or_starved h with hloaded | hstarved
  · generalize l.armNext = l' at hloaded ⊢
    cases hloaded with
    | frame free due => exact .inr ⟨_, _, _, takes_of_pop? due, rfl, rfl⟩
    | dummy free idle => exact .inl rfl
  · rw [hstarved]
    exact .inl rfl

theorem takes_settle {l : Link} (h : l.Orderly []) (withheld : Bool) :
    (l.settle withheld).mux.tx = l.mux.tx ∨ ∃ p o t,
      l.mux.tx.Takes p o (l.settle withheld).mux.tx ∧
        (l.settle withheld).bus.loaded = some t ∧ t.tx = some o.block := by
  generalize hend : l.settle withheld = l'
  have hsettling := Link.settling h.steady withheld
  rw [hend] at hsettling
  cases hsettling with
  | rest | wait | hold => exact .inl rfl
  | @turn t l₁ hturn =>
    obtain ⟨horderly, hidle, hshaped⟩ := Link.orderly_of_turn? h hturn
    have htakes := takes_armNext (horderly.canArm hidle (Nat.le_refl _))
    obtain ⟨_, signals, rfl⟩ :=
      Link.turn?_eq_some (Nat.le_trans (Nat.le_add_left _ _) h.single) hturn
    rw [Link.turnAround_of_orderly horderly]
    obtain ⟨_, _, _, _, _, hfinished⟩ := Link.finish_frame hshaped (Link.armNext _)
    rw [hfinished]
    exact htakes

theorem takesDue_tick (h : s.Sound) : TakesDue .tick s := by
  have hquiet := sound_quiet h
  have hacting : s.quiet.Acting .tick (s.quiet.act .tick) := acting hquiet.orderly rfl
  have hacted : (s.quiet.act .tick).2.link.Orderly [] := orderly_acting hquiet.orderly hacting
  have htakes := takes_settle hacted (s.quiet.act .tick).2.withheld
  show (s.quiet.act .tick).2.settle.link.mux.tx = s.quiet.link.mux.tx ∨ ∃ p o t,
    s.quiet.link.mux.tx.Takes p o (s.quiet.act .tick).2.settle.link.mux.tx ∧
      (s.quiet.act .tick).2.settle.link.bus.loaded = some t ∧ t.tx = some o.block
  rw [settle_of_orderly hacted]
  generalize s.quiet.act .tick = acted at hacting hacted htakes ⊢
  -- A tick that retries arms on an idle link, so the worker has nothing left to arm for.
  cases hacting with
  | aside => exact htakes
  | received => exact htakes
  | retried parked pending =>
    obtain ⟨horderly, hidle⟩ := orderly_retry hquiet.orderly pending
    have hcan := horderly.canArm hidle (Nat.zero_le _)
    have hnone : (Link.armNext { s.quiet.link with rearmPending := false }).unfinished = [] := by
      rw [(Link.unmoved_armNext hcan.toVacant).unfinished]
      exact hidle.unfinished
    simp only [onLink] at hacted ⊢
    rw [Link.settle_of_finished hacted.steady hnone]
    exact takes_armNext hcan
  | submitted offer => simp [Step.offer?] at offer
  | clocked clocks => simp [Step.clocks?] at clocks

theorem takesDue (h : s.Sound) (step : Step) (hlive : step.isLive = true) : TakesDue step s := by
  have hquiet := sound_quiet h
  have hacted : (s.quiet.act step).2.link.Orderly [] :=
    orderly_acting hquiet.orderly (acting hquiet.orderly hlive)
  have hsettle : (s.step step).2.link =
      (s.quiet.act step).2.link.settle (s.quiet.act step).2.withheld :=
    congrArg link (settle_of_orderly hacted)
  by_cases htick : step = .tick
  · subst htick
    exact takesDue_tick h
  · have hoffered : offered step s = (s.quiet.act step).2.link.mux.tx := by
      cases step <;> first | rfl | exact absurd rfl htick
    unfold TakesDue
    rw [hsettle, hoffered]
    exact takes_settle hacted _

/-- While the driver refuses nothing and no teardown is asked for, accepted frames go out in the
order of their acceptance, each priority for itself, and what leaves a queue is due. -/
theorem transmission_in_order (hcreate : create c host = .ok s) (steps : List Step)
    (hlive : ∀ step ∈ steps, step.isLive = true) :
    Transmitted c (s.history steps) (s.run steps).2.link ∧
      ∀ step : Step, step.isLive = true → TakesDue step (s.run steps).2 := by
  have hrun := History.along_induction
    (P := fun h s => s.Sound ∧ s.link.Sends c h.handed h.accepted)
    (fun _ _ step => sends_step step) steps {} s hlive
    ⟨sound_create hcreate, Link.sends_create (create_eq_ok hcreate).1⟩
  exact ⟨transmitted hrun.2, fun step => takesDue hrun.1 step⟩

theorem transmission_in_order_small :
    ∃ s, create smallConfig (matchingHost smallConfig) = .ok s ∧
      Transmitted smallConfig
        (s.history [.start, .submitNext .station 1 [7], .clock [] false, .clock [] false])
        (s.run [.start, .submitNext .station 1 [7], .clock [] false, .clock [] false]).2.link :=
  ⟨_, rfl, (transmission_in_order (c := smallConfig) rfl
    [.start, .submitNext .station 1 [7], .clock [] false, .clock [] false] (by decide)).1⟩

end Session
end SlaveLink
