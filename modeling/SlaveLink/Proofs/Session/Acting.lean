import SlaveLink.Proofs.Bus.Order
import SlaveLink.Proofs.Link.Application
import SlaveLink.Proofs.Link.Worker
import SlaveLink.Proofs.Session.History

/-! # What a step does
Before the worker runs, a step does one of eight things, or one of four more in a teardown or with a
driver that refuses. -/

namespace SlaveLink

namespace Session

variable {s : Session}

def answer : Except LinkError Unit → Reply
  | .ok () => .done
  | .error e => .refused e

def clocking (t : Transaction) (signals : Signals) (l : Link) : Link :=
  { l with
    bus := { l.bus with loaded := none, completed := [t], clocked := l.bus.clocked + 1 }
    signals }

/-- What a step does before the worker runs. -/
inductive Acting (s : Session) : Step → Reply × Session → Prop
  /-- Nothing that the history tells, and nothing that takes part in the traffic. -/
  | aside {step : Step} {r : Reply} {signals : Signals} {sequence : UInt16}
      {listener : Option Nat} {withheld : Bool}
      (mute : ∀ h, History.answered step s.link.sequence r h = h) :
      Acting s step (r, { s with link := { s.link with signals, sequence, listener }, withheld })
  | stopped (parked : s.link.worker = .parked) :
      Acting s .busShutdown (.done, s.onLink Link.stopWorker)
  | started {r : Except LinkError Unit} {l : Link} (starting : s.link.Starting (r, l)) :
      Acting s .start (answer r, { s with link := l })
  | submitted {step : Step} {f : Frame} {sequence : UInt16} {r : Except LinkError Unit} {l : Link}
      (offer : step.offer? s.link.sequence = some f)
      (submission : { s.link with sequence }.Submission f.header f.payload (r, l)) :
      Acting s step (answer r, { s with link := l })
  | clocked {step : Step} {data : Bytes} {fault : Option String} {t : Transaction}
      {signals : Signals} {withheld : Bool} (clocks : step.clocks? = some (data, fault))
      (loaded : s.link.bus.loaded = some t) :
      Acting s step (.read t.outgoing,
        { s with link := clocking (t.clocked data fault) signals s.link, withheld })
  | retried (parked : s.link.worker = .parked) (pending : s.link.rearmPending = true) :
      Acting s .tick (.done, s.onLink fun l => { l with rearmPending := false }.armNext)
  | received {step : Step} {p : Priority} {i : Incoming} {rx : PriorityQueues Incoming}
      {flow : FlowControl} {stats : Stats} {memory : Memory} {held : List (Option Incoming)}
      (due : s.link.mux.rx.pop? = some (p, i, rx))
      (counted : stats ∈ [s.link.stats, s.link.stats.bump (.throttleChanged true),
        s.link.stats.bump (.throttleChanged false)])
      (kept : memory = s.link.memory ∧ held = s.held ++ [some i] ∨
        memory = s.link.memory.releaseAll [i.block] ∧ held = s.held) :
      Acting s step (.received (some i), { s with
        link := { s.link with mux := { s.link.mux with rx }, flow, stats, memory }, held })
  | dropped {n : Nat} {i : Incoming} (held : s.held[n]? = some (some i)) :
      Acting s (.dropHeld n) (.dropped true, { s with
        link := s.link.giveBack [i.block], held := s.held.set n none })

def Dismantles (step : Step) (s : Session) : Prop :=
  step = .finishDrain ∧ s.link.phase = .draining ∨ step = .deinit ∧ s.link.isOpen = true

/-- What a step does besides, when the link is torn down or its driver is to refuse. -/
inductive Ending (s : Session) : Step → Reply × Session → Prop
  | closing (isOpen : s.link.isOpen = true) :
      Ending s .drain (.done, s.onLink fun l => { l with phase := .draining })
  | left {step : Step} (parked : s.link.worker = .parked) (draining : s.link.isDraining = true) :
      Ending s step (.done, s.onLink Link.stopWorker)
  | dismantled {step : Step} (final : s.Dismantles step) :
      Ending s step
        (.done, s.onLink fun l => { l with phase := .draining }.windDown.dismantle)
  | refusing (n : Nat) : Ending s (.refuse n) (.done, s.onLink fun l => { l with refusals := n })

theorem mute_done {step : Step} {sequence : UInt16} (h : step.offer? sequence = none)
    (history : History) : History.answered step sequence .done history = history := by
  simp [History.answered, h]

theorem acting_request {step : Step} {f : Frame} (sequence : UInt16)
    {act : Link → Except LinkError Unit × Link} (hoffer : step.offer? s.link.sequence = some f)
    (hact : act s.link = { s.link with sequence }.submitHeader f.header f.payload) :
    s.Acting step (s.request act) := by
  have hsubmission := Link.submission f.header f.payload { s.link with sequence }
  unfold request
  rw [hact]
  generalize { s.link with sequence }.submitHeader f.header f.payload = ended at hsubmission ⊢
  obtain ⟨r, l⟩ := ended
  cases r <;> exact .submitted hoffer hsubmission

theorem acting_start (h : s.link.phase = .initialized → s.link.Vacant) :
    s.Acting .start (s.request Link.start) := by
  have hstarting := Link.starting h
  unfold request
  generalize s.link.start = ended at hstarting ⊢
  obtain ⟨r, l⟩ := ended
  cases r <;> exact .started hstarting

theorem clock_of_loaded {t : Transaction} (h : s.link.Steady []) (data : Bytes)
    (fault : Option String) (hloaded : s.link.bus.loaded = some t) : s.clock data fault =
      (.ok t.outgoing, { s with
        link := clocking (t.clocked data fault) (s.link.signals.onBusAll [.done]) s.link }) := by
  have hqueued : s.link.bus.queued = [] := h.queued
  have hroom : 0 < s.link.bus.queueSize := h.room
  have hcompleted : s.link.bus.completed = [] := (h.nothing_unfinished hloaded).2
  have hfull : ¬ s.link.bus.queueSize ≤ 0 := by omega
  cases fault <;>
    simp [clock, Bus.clock?, hloaded, hqueued, hcompleted, hfull, onLink, clocking,
      Memory.releaseTransactions, Transaction.clocked]

theorem clock_of_unloaded (data : Bytes) (fault : Option String)
    (hloaded : s.link.bus.loaded = none) : s.clock data fault = (.error .busNotReady, s) := by
  simp [clock, Bus.clock?, hloaded]

theorem acting_clock (h : s.link.Steady []) (data : Bytes) (hold : Bool) :
    s.Acting (.clock data hold) (transferred hold (s.clock data none)) := by
  cases hloaded : s.link.bus.loaded with
  | none =>
    rw [clock_of_unloaded data none hloaded]
    exact .aside fun _ => rfl
  | some t =>
    rw [clock_of_loaded h data none hloaded]
    exact .clocked rfl hloaded

theorem acting_exchange (h : s.link.Steady []) (data : Bytes) (limit : Duration)
    (fault : Option String) (hold : Bool) :
    s.Acting (.exchange data limit fault hold)
      (transferred hold (s.exchange data limit fault)) := by
  unfold exchange
  cases s.host.waitReady limit s.lines with
  | error e => exact .aside fun _ => rfl
  | ok _ =>
    have hselected : (s.onSignals Signals.select).link.Steady [] := h
    cases hloaded : s.link.bus.loaded with
    | none =>
      simp only [clock_of_unloaded (s := s.onSignals Signals.select) data fault hloaded]
      exact .aside fun _ => rfl
    | some t =>
      simp only [clock_of_loaded hselected data fault hloaded]
      exact .clocked rfl hloaded

theorem submitHeader_empty (h : Header) (l : Link) : (l.submitHeader h []).2 = l := by
  cases hopen : l.isOpen <;> simp [Link.submitHeader, hopen]

theorem burn_eq (n : Nat) (l : Link) : ∃ sequence,
    Nat.repeat (fun l => (l.submitNext .station 0 []).2) n l = { l with sequence } := by
  induction n with
  | zero => exact ⟨l.sequence, rfl⟩
  | succ n ih =>
    obtain ⟨sequence, ih⟩ := ih
    refine ⟨sequence + 1, ?_⟩
    rw [Nat.repeat, ih]
    exact submitHeader_empty _ _

theorem acting_or_ending_leave {step : Step} (hoffer : step.offer? s.link.sequence = none)
    (hparked : s.link.worker = .parked) :
    s.Acting step (.done, s.onLink Link.leaveIfDrained) ∨
      s.Ending step (.done, s.onLink Link.leaveIfDrained) := by
  by_cases hleave : s.link.isDraining ∧ (s.link.inFlight = 0 ∨ s.link.config.drainTimeout = 0)
  · have heq : s.link.leaveIfDrained = s.link.stopWorker := if_pos hleave
    simp only [onLink, heq]
    exact .inr (.left hparked hleave.1)
  · have heq : s.link.leaveIfDrained = s.link := if_neg hleave
    simp only [onLink, heq]
    exact .inl (.aside (mute_done hoffer))

theorem acting_or_ending_tick :
    s.Acting .tick (s.wakeWorker Link.tick) ∨ s.Ending .tick (s.wakeWorker Link.tick) := by
  unfold wakeWorker
  split
  · next hparked =>
    by_cases hretry : ¬ s.link.isDraining ∧ s.link.rearmPending
    · have htick : s.link.tick = { s.link with rearmPending := false }.armNext := if_pos hretry
      have hacting := Acting.retried hparked hretry.2
      simp only [onLink] at hacting ⊢
      rw [htick]
      exact .inl hacting
    · have htick : s.link.tick = s.link.leaveIfDrained := if_neg hretry
      simp only [onLink, htick]
      exact acting_or_ending_leave rfl hparked
  · exact .inl (.aside fun _ => rfl)

theorem handOver_eq (hold : Bool) (i : Incoming) (s : Session) : ∃ memory held,
    s.handOver hold i = { s with link := { s.link with memory }, held } ∧
      (memory = s.link.memory ∧ held = s.held ++ [some i] ∨
        memory = s.link.memory.releaseAll [i.block] ∧ held = s.held) := by
  cases hold
  · exact ⟨_, _, rfl, .inr ⟨rfl, rfl⟩⟩
  · exact ⟨_, _, rfl, .inl ⟨rfl, rfl⟩⟩

theorem acting_received {step : Step} {p : Priority} {i : Incoming}
    {rx : PriorityQueues Incoming} (hold : Bool) (hdue : s.link.mux.rx.pop? = some (p, i, rx)) :
    s.Acting step (.received (some i),
      { s with link := Link.updateFlow { s.link with mux := { s.link.mux with rx } } }.handOver
        hold i) := by
  obtain ⟨flow, stats, hflow, hcounted⟩ := Link.updateFlow_taken rx s.link
  rw [hflow]
  obtain ⟨memory, held, heq, hkept⟩ := handOver_eq hold i
    { s with link := { s.link with mux := { s.link.mux with rx }, flow, stats } }
  rw [heq]
  exact .received hdue hcounted hkept

/-- A request to receive changes nothing, and is not turned down by the driver or a pool, or it
hands over the frame that is due. -/
theorem act_of_receives {step : Step} {hold : Bool}
    (hstep : step = .tryReceive hold ∨ ∃ limit, step = .receive limit hold) :
    (∃ r, (∀ h, History.answered step s.link.sequence r h = h) ∧
        (∀ e, r ≠ .refused (.device e)) ∧ s.act step = (r, s)) ∨
      ∃ p i rx, s.link.mux.rx.pop? = some (p, i, rx) ∧ s.act step = (.received (some i),
        { s with link := Link.updateFlow { s.link with mux := { s.link.mux with rx } } }.handOver
          hold i) := by
  cases hopen : s.link.isOpen with
  | false =>
    refine .inl ?_
    rcases hstep with rfl | ⟨limit, rfl⟩
    · exact ⟨.refused .inactive, fun _ => rfl, by simp, by simp [act, Link.tryReceive, hopen]⟩
    · exact ⟨.refused .inactive, fun _ => rfl, by simp, by simp [act, Link.receive, hopen]⟩
  | true =>
    cases hdue : s.link.mux.rx.pop? with
    | none =>
      refine .inl ?_
      rcases hstep with rfl | ⟨limit, rfl⟩
      · simp only [act, Link.tryReceive_of_idle hopen hdue]
        exact ⟨.received none, fun _ => rfl, by simp, rfl⟩
      · simp only [act, Link.receive_of_idle limit hopen hdue]
        cases limit with
        | none => exact ⟨.waiting, fun _ => rfl, by simp, rfl⟩
        | some limit => exact ⟨.refused (.timeout limit), fun _ => rfl, by simp, rfl⟩
    | some due =>
      obtain ⟨p, i, rx⟩ := due
      refine .inr ⟨p, i, rx, rfl, ?_⟩
      rcases hstep with rfl | ⟨limit, rfl⟩
      · simp only [act, Link.tryReceive_of_due hopen hdue]
      · simp only [act, Link.receive_of_due limit hopen hdue]

theorem acting_receives {step : Step} {hold : Bool}
    (hstep : step = .tryReceive hold ∨ ∃ limit, step = .receive limit hold) :
    s.Acting step (s.act step) := by
  rcases act_of_receives hstep with ⟨r, hmute, _, hact⟩ | ⟨p, i, rx, hdue, hact⟩
  · rw [hact]
    exact .aside hmute
  · rw [hact]
    exact acting_received hold hdue

theorem acting_dropHeld (n : Nat) : s.Acting (.dropHeld n) (s.act (.dropHeld n)) := by
  unfold act
  cases hheld : s.held[n]? with
  | none =>
    simp only [hheld]
    exact .aside fun _ => rfl
  | some kept =>
    cases kept with
    | none =>
      simp only [hheld]
      exact .aside fun _ => rfl
    | some i =>
      simp only [hheld]
      exact .dropped hheld

theorem act_of_dismantles {step : Step} (h : s.Dismantles step) :
    s.act step = (.done, s.onLink fun l => { l with phase := .draining }.windDown.dismantle) := by
  rcases h with ⟨rfl, hphase⟩ | ⟨rfl, hopen⟩
  · have hsame : { s.link with phase := .draining } = s.link := by rw [← hphase]
    have heq : s.link.finishDrain = { s.link with phase := .draining }.windDown.dismantle := by
      rw [hsame]
      simp only [Link.finishDrain, hphase]
    simp only [act, onLink, heq]
  · simp only [act, hopen, if_true, onLink, Link.beginDrain]
    rfl

theorem act_of_stays {step : Step} (hstep : step = .finishDrain ∨ step = .deinit)
    (hstays : ¬ s.Dismantles step) : s.act step = (.done, s) := by
  rcases hstep with rfl | rfl
  · have heq : s.link.finishDrain = s.link := by
      cases hphase : s.link.phase with
      | draining => exact absurd (.inl ⟨rfl, hphase⟩) hstays
      | initialized | active | deinit => simp only [Link.finishDrain, hphase]
    simp only [act, onLink, heq]
  · have hclosed : ¬ s.link.isOpen = true := fun hopen => hstays (.inr ⟨rfl, hopen⟩)
    simp only [act, if_neg hclosed]

/-- A teardown takes the link apart once it has begun. -/
theorem acting_or_ending_teardown {step : Step} (hstep : step = .finishDrain ∨ step = .deinit) :
    s.Acting step (s.act step) ∨ s.Ending step (s.act step) := by
  by_cases hfinal : s.Dismantles step
  · rw [act_of_dismantles hfinal]
    exact .inr (.dismantled hfinal)
  · have hoffer : step.offer? s.link.sequence = none := by rcases hstep with rfl | rfl <;> rfl
    rw [act_of_stays hstep hfinal]
    exact .inl (.aside (mute_done hoffer))

/-- A step of a steady link does one of the things that `Acting` and `Ending` list. -/
theorem acting_or_ending (h : s.link.Steady []) (step : Step) :
    s.Acting step (s.act step) ∨ s.Ending step (s.act step) := by
  cases step with
  | start =>
    exact .inl (acting_start fun hphase => h.vacant (h.dormant hphase).1 (Nat.zero_le _))
  | drain =>
    cases hopen : s.link.isOpen with
    | true =>
      simp only [act, onLink, Link.beginDrain, hopen, if_true]
      exact .inr (.closing hopen)
    | false =>
      simp only [act, onLink, Link.beginDrain, hopen, Bool.false_eq_true, if_false]
      exact .inl (.aside (mute_done rfl))
  | finishDrain => exact acting_or_ending_teardown (.inl rfl)
  | deinit => exact acting_or_ending_teardown (.inr rfl)
  | refuse n => exact .inr (.refusing n)
  | submitNext interface number payload =>
    exact .inl (acting_request (s.link.sequence + 1) rfl rfl)
  | submit f => exact .inl (acting_request s.link.sequence rfl rfl)
  | burn n =>
    obtain ⟨sequence, hburn⟩ := burn_eq n s.link
    simp only [act, onLink, hburn]
    exact .inl (.aside (mute_done rfl))
  | exchange data limit fault hold => exact .inl (acting_exchange h data limit fault hold)
  | clock data hold => exact .inl (acting_clock h data hold)
  | deliver => exact .inl (.aside (mute_done rfl))
  | select => exact .inl (.aside (mute_done rfl))
  | deselect => exact .inl (.aside (mute_done rfl))
  | waitReady limit =>
    simp only [act]
    split
    · exact .inl (.aside fun _ => rfl)
    · exact .inl (.aside (mute_done rfl))
  | tick => exact acting_or_ending_tick
  | busError =>
    simp only [act, wakeWorker]
    split
    · next hparked => exact acting_or_ending_leave rfl hparked
    · exact .inl (.aside fun _ => rfl)
  | busShutdown =>
    simp only [act, wakeWorker]
    split
    · next hparked => exact .inl (.stopped hparked)
    · exact .inl (.aside fun _ => rfl)
  | tryReceive hold => exact .inl (acting_receives (.inl rfl))
  | receive limit hold => exact .inl (acting_receives (.inr ⟨limit, rfl⟩))
  | dropHeld n => exact .inl (acting_dropHeld n)
  | showHeld n => exact .inl (.aside fun _ => rfl)
  | register id => exact .inl (.aside (mute_done rfl))

theorem acting (h : s.link.Orderly []) {step : Step} (hlive : step.isLive = true) :
    s.Acting step (s.act step) := by
  refine (acting_or_ending h.steady step).resolve_right ?_
  intro hending
  generalize s.act step = out at hending
  cases hending with
  | closing => simp [Step.isLive] at hlive
  | left _ hdraining => simp [h.not_draining] at hdraining
  | dismantled hfinal => rcases hfinal with ⟨rfl, _⟩ | ⟨rfl, _⟩ <;> simp [Step.isLive] at hlive
  | refusing n => simp [Step.isLive] at hlive

end Session
end SlaveLink
