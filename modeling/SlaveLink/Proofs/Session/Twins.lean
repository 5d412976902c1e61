import SlaveLink.Proofs.Link.Twins
import SlaveLink.Proofs.Session.Sound

/-! # Sessions that differ in what a transfer brought
While a transfer is not finished, no step looks at the bytes in its block, so two runs that differ
in them stay in step. They part once the transfer is finished, and then they are alike. -/

namespace SlaveLink

open Link

namespace Session

variable {s s₁ s₂ m : Session} {step : Step} {r : Reply} {bytes : Bytes}

def swapped (w : Worker) (b : Bus) (s : Session) : Session := s.onLink (Link.swapped w b)

def rewritten (bytes : Bytes) (s : Session) : Session := s.onLink (Link.rewritten bytes)

def Detached (f : Session → Reply × Session) : Prop :=
  ∀ w b s, f (s.swapped w b) = ((f s).1, (f s).2.swapped w b)

theorem Detached.rewritten {f : Session → Reply × Session} (h : Detached f) (bytes : Bytes)
    (s : Session) : f (s.rewritten bytes) = ((f s).1, (f s).2.rewritten bytes) := by
  have hsame : f s = ((f s).1, (f s).2.swapped s.link.worker s.link.bus) :=
    h s.link.worker s.link.bus s
  have hworker : (f s).2.link.worker = s.link.worker := by rw [hsame]; rfl
  have hbus : (f s).2.link.bus = s.link.bus := by rw [hsame]; rfl
  have hrewritten : (f s).2.rewritten bytes =
      (f s).2.swapped (s.link.worker.rewritten bytes) (s.link.bus.rewritten bytes) := by
    rw [← hworker, ← hbus]
    rfl
  rw [hrewritten]
  exact h (s.link.worker.rewritten bytes) (s.link.bus.rewritten bytes) s

theorem detached_request {f : Link → Except LinkError Unit × Link}
    (h : ∀ w b l, f (l.swapped w b) = ((f l).1, (f l).2.swapped w b)) :
    Detached (Session.request f) := by
  intro w b s
  have hlink : f (s.swapped w b).link = ((f s.link).1, (f s.link).2.swapped w b) := h w b s.link
  unfold request
  rw [hlink]
  generalize f s.link = ended
  obtain ⟨_ | _, l⟩ := ended <;> rfl

theorem handOver_swapped (hold : Bool) (i : Incoming) (w : Worker) (b : Bus) (s : Session) :
    (s.swapped w b).handOver hold i = (s.handOver hold i).swapped w b := by
  cases hold <;> rfl

theorem detached_tryReceive (hold : Bool) : Detached (act (.tryReceive hold)) := by
  intro w b s
  have hlink : (s.swapped w b).link.tryReceive =
      (s.link.tryReceive.1, s.link.tryReceive.2.swapped w b) := tryReceive_swapped w b s.link
  simp only [act, hlink]
  generalize s.link.tryReceive = ended
  obtain ⟨_ | _ | i, l⟩ := ended
  · rfl
  · rfl
  · exact congrArg (Prod.mk _) (handOver_swapped hold i w b { s with link := l })

theorem detached_receive (limit : Option Duration) (hold : Bool) :
    Detached (act (.receive limit hold)) := by
  intro w b s
  have hlink : (s.swapped w b).link.receive limit =
      ((s.link.receive limit).1, (s.link.receive limit).2.swapped w b) :=
    receive_swapped w b s.link limit
  simp only [act, hlink]
  generalize s.link.receive limit = ended
  obtain ⟨outcome, l⟩ := ended
  cases outcome with
  | found i => exact congrArg (Prod.mk _) (handOver_swapped hold i w b { s with link := l })
  | timedOut | closed | waiting => rfl

theorem detached_dropHeld (n : Nat) : Detached (act (.dropHeld n)) := by
  intro w b s
  have hheld : (s.swapped w b).held = s.held := rfl
  simp only [act, hheld]
  cases s.held[n]?.join <;> rfl

theorem detached_waitReady (limit : Duration) : Detached (act (.waitReady limit)) := by
  intro w b s
  have hready : (s.swapped w b).host.waitReady limit (s.swapped w b).lines =
      s.host.waitReady limit s.lines := rfl
  simp only [act, hready]
  cases s.host.waitReady limit s.lines <;> rfl

theorem detached_burn (n : Nat) : Detached (act (.burn n)) := by
  intro w b s
  have hburn (l : Link) : Nat.repeat (fun l => (l.submitNext .station 0 []).2) n (l.swapped w b) =
      (Nat.repeat (fun l => (l.submitNext .station 0 []).2) n l).swapped w b := by
    induction n with
    | zero => rfl
    | succ n ih =>
      rw [Nat.repeat, Nat.repeat, ih]
      rw [submitNext_swapped]
  exact congrArg (fun l => (Reply.done, { s with link := l })) (hburn s.link)

theorem detached_drain : Detached (act .drain) := by
  intro w b s
  have hopen : (s.link.swapped w b).isOpen = s.link.isOpen := rfl
  simp only [act, swapped, onLink, beginDrain, hopen]
  split <;> rfl

/-- The step looks at the transfers that are not finished. -/
def Step.isAttached : Step → Bool
  | .start | .finishDrain | .deinit | .exchange .. | .clock .. | .tick | .busError
  | .busShutdown => true
  | _ => false

theorem detached_act (h : step.isAttached = false) : Detached (act step) := by
  cases step with
  | start | finishDrain | deinit | exchange | clock | tick | busError | busShutdown =>
    simp [Step.isAttached] at h
  | drain => exact detached_drain
  | submitNext interface number payload =>
    exact detached_request fun w b l => submitNext_swapped w b l interface number payload
  | submit f => exact detached_request fun w b l => submitHeader_swapped w b l f.header f.payload
  | burn n => exact detached_burn n
  | waitReady limit => exact detached_waitReady limit
  | tryReceive hold => exact detached_tryReceive hold
  | receive limit hold => exact detached_receive limit hold
  | dropHeld n => exact detached_dropHeld n
  | deliver | select | deselect | refuse | showHeld | register => exact fun _ _ _ => rfl

theorem wakeWorker_rewritten {f : Link → Link}
    (h : s.link.worker = .parked → f (s.link.rewritten bytes) = (f s.link).rewritten bytes) :
    (s.rewritten bytes).wakeWorker f =
      ((s.wakeWorker f).1, (s.wakeWorker f).2.rewritten bytes) := by
  have hsame : (s.rewritten bytes).link.worker = s.link.worker.rewritten bytes := rfl
  unfold wakeWorker
  rw [hsame]
  cases hworker : s.link.worker with
  | absent => rfl
  | waiting t => rfl
  | parked =>
    simp only [Worker.rewritten, if_true]
    exact congrArg (fun l => (Reply.done, { s with link := l })) (h hworker)

theorem leaveIfDrained_rewritten (bytes : Bytes) (l : Link) :
    (l.rewritten bytes).leaveIfDrained = l.leaveIfDrained.rewritten bytes := by
  have hsame : ((l.rewritten bytes).isDraining ∧
      ((l.rewritten bytes).inFlight = 0 ∨ (l.rewritten bytes).config.drainTimeout = 0)) =
      (l.isDraining ∧ (l.inFlight = 0 ∨ l.config.drainTimeout = 0)) := rfl
  unfold leaveIfDrained
  simp only [hsame]
  split <;> rfl

theorem tick_of_settled {l : Link} (h : l.rearmPending = false) : l.tick = l.leaveIfDrained := by
  simp [tick, h]

theorem start_of_late (h : s.link.phase ≠ .initialized) (bytes : Bytes) :
    (s.rewritten bytes).act .start = ((s.act .start).1, (s.act .start).2.rewritten bytes) := by
  have hsame : (s.rewritten bytes).link.phase = s.link.phase := rfl
  simp only [act, request, Link.start, hsame]
  cases hphase : s.link.phase with
  | initialized => exact absurd hphase h
  | active | draining | deinit => rfl

theorem exchange_of_unloaded (data : Bytes) (limit : Duration) (fault : Option String)
    (hloaded : s.link.bus.loaded = none) : s.exchange data limit fault =
      match s.host.waitReady limit s.lines with
      | .error e => (.error e, s)
      | .ok () =>
        (.error .busNotReady, (s.onSignals Signals.select).onSignals Signals.deselect) := by
  unfold exchange
  cases s.host.waitReady limit s.lines with
  | error e => rfl
  | ok _ => simp only [clock_of_unloaded (s := s.onSignals Signals.select) data fault hloaded]

theorem exchange_rewritten (data : Bytes) (limit : Duration) (fault : Option String)
    (hold : Bool) (bytes : Bytes) (hloaded : s.link.bus.loaded = none) :
    (s.rewritten bytes).act (.exchange data limit fault hold) =
      ((s.act (.exchange data limit fault hold)).1,
        (s.act (.exchange data limit fault hold)).2.rewritten bytes) := by
  have hsame : (s.rewritten bytes).host.waitReady limit (s.rewritten bytes).lines =
      s.host.waitReady limit s.lines := rfl
  simp only [act]
  rw [exchange_of_unloaded data limit fault hloaded,
    exchange_of_unloaded (s := s.rewritten bytes) data limit fault hloaded, hsame]
  cases s.host.waitReady limit s.lines <;> rfl

/-- No step but the last of a teardown looks at the bytes of a transfer that is not finished. -/
theorem act_rewritten (h : s.link.Steady []) (hbusy : s.link.unfinished ≠ [])
    (hstays : ¬ s.Dismantles step) (bytes : Bytes) :
    (s.rewritten bytes).act step = ((s.act step).1, (s.act step).2.rewritten bytes) := by
  obtain ⟨hloaded, hretry, hphase⟩ := busy_of_unfinished h hbusy
  cases hattached : step.isAttached with
  | false => exact (detached_act hattached).rewritten bytes s
  | true =>
    cases step with
    | start => exact start_of_late hphase bytes
    | finishDrain | deinit =>
      have hstays₂ : ¬ (s.rewritten bytes).Dismantles _ := hstays
      rw [act_of_stays (by simp) hstays, act_of_stays (by simp) hstays₂]
    | exchange data limit fault hold =>
      exact exchange_rewritten data limit fault hold bytes hloaded
    | clock data hold =>
      simp only [act]
      rw [clock_of_unloaded data none hloaded,
        clock_of_unloaded (s := s.rewritten bytes) data none hloaded]
      rfl
    | tick =>
      refine wakeWorker_rewritten ?_
      intro _
      rw [tick_of_settled hretry, tick_of_settled (l := s.link.rewritten bytes) hretry]
      exact leaveIfDrained_rewritten bytes s.link
    | busError => exact wakeWorker_rewritten fun _ => leaveIfDrained_rewritten bytes s.link
    | busShutdown => exact wakeWorker_rewritten fun _ => rfl
    | _ => simp [Step.isAttached] at hattached

theorem unfinished_acting (h : s.link.Steady []) (hbusy : s.link.unfinished ≠ [])
    (hacting : s.Acting step (r, m)) : m.link.unfinished = s.link.unfinished := by
  obtain ⟨hloaded, hretry, hphase⟩ := busy_of_unfinished h hbusy
  cases hacting with
  | aside | received | dropped => rfl
  | stopped parked => exact unfinished_stopWorker parked
  | started starting =>
    cases starting with
    | refused => rfl
    | up early | failed _ early => exact absurd early hphase
  | submitted _ submission => cases submission <;> rfl
  | clocked _ loaded => exact absurd (hloaded.symm.trans loaded) nofun
  | retried _ pending => exact absurd (hretry.symm.trans pending) nofun

theorem unfinished_ending (hstays : ¬ s.Dismantles step) (hending : s.Ending step (r, m)) :
    m.link.unfinished = s.link.unfinished := by
  cases hending with
  | closing | refusing => rfl
  | left parked => exact unfinished_stopWorker parked
  | dismantled final => exact absurd final hstays

theorem unfinished_act (h : s.link.Steady []) (hbusy : s.link.unfinished ≠ [])
    (hstays : ¬ s.Dismantles step) : (s.act step).2.link.unfinished = s.link.unfinished := by
  rcases acting_or_ending h step with hacting | hending
  · exact unfinished_acting h hbusy hacting
  · exact unfinished_ending hstays hending

theorem unfinished_of_dismantles (h : s.Dismantles step) :
    (s.act step).2.link.unfinished = [] := by
  rw [act_of_dismantles h]
  rfl

inductive Parts (bytes : Bytes) (s₁ s₂ : Session) : Prop
  | twins (rewritten : s₂ = s₁.rewritten bytes) (twins : s₁.link.Twins bytes s₂.link) :
      Parts bytes s₁ s₂
  | finished (finished : s₁.link.unfinished = []) (alike : s₁.link.Alike s₂.link) :
      Parts bytes s₁ s₂

theorem parts_settle (h : s.link.Steady [])
    (htwins : s.link.Twins bytes (s.link.rewritten bytes)) :
    Parts bytes s.settle (s.rewritten bytes).settle := by
  have hphase : (s.rewritten bytes).link.phase = s.link.phase := rfl
  unfold settle
  rw [hphase]
  split
  · exact .twins rfl htwins
  · cases htwins.settle h s.withheld with
    | twins hsettled =>
      exact .twins (congrArg (fun l => { s with link := l }) hsettled.rewritten) hsettled
    | finished hnone halike => exact .finished hnone halike

theorem parts_dismantles (h : s.Steady) (hfinal : s.Dismantles step)
    (htwins : s.link.Twins bytes (s.link.rewritten bytes)) :
    ((s.rewritten bytes).act step).1 = (s.act step).1 ∧
      Parts bytes (s.act step).2.settle ((s.rewritten bytes).act step).2.settle := by
  have hfinal₂ : (s.rewritten bytes).Dismantles step := hfinal
  have hsteady₂ : (s.rewritten bytes).link.Steady [] := steady_rewritten h.traffic bytes
  have hdraining : { s.link with phase := .draining }.Steady [] := h.traffic.setPhase nofun
  have hdraining₂ : { (s.rewritten bytes).link with phase := .draining }.Steady [] :=
    hsteady₂.setPhase nofun
  have hparted := parted_of_steady hdraining
  have hparted₂ := parted_of_steady hdraining₂
  have hdone := steady_dismantle hparted.steady hparted.held
  have hdone₂ := steady_dismantle hparted₂.steady hparted₂.held
  rw [← dismantle_windDown] at hdone hdone₂
  rw [act_of_dismantles hfinal, act_of_dismantles hfinal₂]
  refine ⟨rfl, ?_⟩
  rw [settle_of_finished hdone rfl, settle_of_finished hdone₂ rfl]
  have hdrained : Link.Twins bytes { s.link with phase := .draining }
      { (s.rewritten bytes).link with phase := .draining } := ⟨rfl, htwins.agree⟩
  exact .finished rfl (hdrained.dismantle hdraining)

theorem parts_step (step : Step) (h : s.Steady) (hbusy : s.link.unfinished ≠ [])
    (htwins : s.link.Twins bytes (s.link.rewritten bytes)) :
    ((s.rewritten bytes).step step).1 = (s.step step).1 ∧
      Parts bytes (s.step step).2 ((s.rewritten bytes).step step).2 := by
  have hquiet := steady_quiet h
  have htwins' : s.quiet.link.Twins bytes (s.quiet.link.rewritten bytes) := ⟨rfl, htwins.agree⟩
  show ((s.quiet.rewritten bytes).act step).1 = (s.quiet.act step).1 ∧
    Parts bytes (s.quiet.act step).2.settle ((s.quiet.rewritten bytes).act step).2.settle
  by_cases hfinal : s.quiet.Dismantles step
  · exact parts_dismantles hquiet hfinal htwins'
  · rw [act_rewritten hquiet.traffic hbusy hfinal bytes]
    refine ⟨rfl, parts_settle (steady_act step hquiet).traffic ⟨rfl, ?_⟩⟩
    rw [unfinished_act hquiet.traffic hbusy hfinal, config_act step hquiet.traffic]
    exact htwins'.agree

def awaits (s : Session) : List Step → Prop
  | [] => True
  | step :: steps => s.link.unfinished ≠ [] ∧ (s.step step).2.awaits steps

theorem unfinished_settle (h : s.link.Steady []) :
    s.settle.link.unfinished = s.link.unfinished ∨ s.settle.link.unfinished = [] := by
  unfold settle
  split
  · exact .inl rfl
  · cases hturn : s.link.turn? s.withheld with
    | none =>
      have hrested := settle_of_unturned h.unfinished_le_one hturn
      simp only [onLink, hrested]
      exact .inl (rested_frame s.withheld s.link).1
    | some turn =>
      obtain ⟨t, l⟩ := turn
      obtain ⟨hsteady, hidle, hshaped⟩ := steady_of_turn? h hturn
      simp only [onLink, settle_of_turn h hturn]
      exact .inr (unfinished_turnAround hsteady hidle hshaped)

/-- Until the transfer is finished the same is replied to both sessions, and then they are alike. -/
theorem parts_run (steps : List Step) : ∀ {s₁ s₂ : Session}, s₁.Steady → Parts bytes s₁ s₂ →
    s₁.awaits steps → (s₂.run steps).1 = (s₁.run steps).1 ∧
      (s₁.run steps).2.link.Alike (s₂.run steps).2.link := by
  induction steps with
  | nil =>
    intro s₁ s₂ _ hparts _
    cases hparts with
    | twins _ htwins => exact ⟨rfl, htwins.alike⟩
    | finished _ halike => exact ⟨rfl, halike⟩
  | cons step steps ih =>
    intro s₁ s₂ hsteady hparts hawaits
    obtain ⟨hbusy, hawaits⟩ := hawaits
    -- Sessions that have parted are compared no further: nothing is left to wait for.
    cases hparts with
    | finished hnone => exact absurd hnone hbusy
    | twins hrewritten htwins =>
      rw [hrewritten] at htwins ⊢
      obtain ⟨hreply, hparts⟩ := parts_step step hsteady hbusy htwins
      obtain ⟨hreplies, halike⟩ := ih (steady_step step hsteady) hparts hawaits
      refine ⟨?_, halike⟩
      simp only [run]
      rw [hreply, hreplies]

end Session
end SlaveLink
