import SlaveLink.Proofs.Link.Handshake
import SlaveLink.Proofs.Session.Sound

/-! # What a step does to the signals
Before the worker runs, the host moves chip-select or clocks, the slave starts, queues a frame, arms
anew or is taken apart. No other step touches the signals, nor what they tell of: the bus, the
frames that wait to go out and the transfers that the worker has not finished. -/

namespace SlaveLink

/-- The links differ neither in the signals nor in what the signals tell of. -/
structure Link.Still (l l' : Link) : Prop extends l.Unheard l' where
  tx : l'.mux.tx = l.mux.tx
  unfinished : l'.unfinished = l.unfinished

namespace Link

theorem still_refl (l : Link) : l.Still l := ⟨⟨rfl, rfl, rfl⟩, rfl, rfl⟩

theorem still_leaveIfDrained {l : Link} (hparked : l.worker = .parked) :
    l.Still l.leaveIfDrained := by
  unfold leaveIfDrained
  split
  · exact ⟨⟨rfl, rfl, rfl⟩, rfl, unfinished_stopWorker hparked⟩
  · exact still_refl l

end Link

namespace Session

variable {s m : Session} {step : Step}

/-- The host pulls chip-select down by the step: it selects, or it sees Handshake and exchanges. -/
def asserts (step : Step) (s : Session) : Bool :=
  s.lines.level .chipSelect == .high &&
    match step with
    | .select => true
    | .exchange .. => s.host.seesHandshake s.lines
    | _ => false

def exchanging (t : Transaction) (l : Link) : Link :=
  clocking t (l.signals.select.onBusAll [.done]).deselect l

inductive Signalling (s : Session) : Step → Session → Prop
  /-- Nothing. What the driver is to refuse changes only if it is told so. -/
  | still {step : Step} {m : Session} (unasserted : s.asserts step = false)
      (still : s.link.Still m.link)
      (refusals : (∀ n, step ≠ .refuse n) → m.link.refusals = s.link.refusals) :
      Signalling s step m
  | selected : Signalling s .select (s.onSignals Signals.select)
  | deselected : Signalling s .deselect (s.onSignals Signals.deselect)
  | clocked {data : Bytes} {hold withheld : Bool} {t : Transaction}
      (loaded : s.link.bus.loaded = some t) :
      Signalling s (.clock data hold) { s with
        link := clocking (t.clocked data none) (s.link.signals.onBusAll [.done]) s.link, withheld }
  | exchanged {data : Bytes} {limit : Duration} {fault : Option String} {hold withheld : Bool}
      {t : Transaction} (sees : s.host.seesHandshake s.lines = true)
      (loaded : s.link.bus.loaded = some t) :
      Signalling s (.exchange data limit fault hold)
        { s with link := exchanging (t.clocked data fault) s.link, withheld }
  /-- The host sees Handshake, but there is nothing to clock. -/
  | missed {data : Bytes} {limit : Duration} {fault : Option String} {hold : Bool}
      (sees : s.host.seesHandshake s.lines = true) (unloaded : s.link.bus.loaded = none) :
      Signalling s (.exchange data limit fault hold)
        (s.onSignals fun signals => signals.select.deselect)
  | started : Signalling s .start { s with link := s.link.start.2 }
  | submitted {step : Step} {f : Frame} (sequence : UInt16)
      (offer : step.offer? s.link.sequence = some f) :
      Signalling s step { s with
        link := (Link.submitHeader f.header f.payload { s.link with sequence }).2 }
  | retried (parked : s.link.worker = .parked) (pending : s.link.rearmPending = true) :
      Signalling s .tick (s.onLink fun l => { l with rearmPending := false }.armNext)
  | dismantled {step : Step} (final : s.Dismantles step) :
      Signalling s step (s.onLink fun l => { l with phase := .draining }.windDown.dismantle)

theorem request_snd (f : Link → Except LinkError Unit × Link) (s : Session) :
    (s.request f).2 = { s with link := (f s.link).2 } := by
  unfold request
  generalize f s.link = ended
  obtain ⟨_ | _, l⟩ := ended <;> rfl

theorem signalling_clock (h : s.link.Steady []) (data : Bytes) (hold : Bool) :
    s.Signalling (.clock data hold) (s.act (.clock data hold)).2 := by
  simp only [act]
  cases hloaded : s.link.bus.loaded with
  | none =>
    rw [clock_of_unloaded data none hloaded]
    exact .still (Bool.and_false _) (Link.still_refl _) fun _ => rfl
  | some t =>
    rw [clock_of_loaded h data none hloaded]
    exact .clocked hloaded

theorem signalling_exchange (h : s.link.Steady []) (data : Bytes) (limit : Duration)
    (fault : Option String) (hold : Bool) :
    s.Signalling (.exchange data limit fault hold)
      (s.act (.exchange data limit fault hold)).2 := by
  simp only [act, exchange, HostLevels.waitReady]
  cases hsees : s.host.seesHandshake s.lines with
  | false => exact .still (by simp [asserts, hsees]) (Link.still_refl _) fun _ => rfl
  | true =>
    simp only [if_true]
    have hselected : (s.onSignals Signals.select).link.Steady [] := h
    cases hloaded : s.link.bus.loaded with
    | none =>
      simp only [clock_of_unloaded (s := s.onSignals Signals.select) data fault hloaded]
      exact .missed hsees hloaded
    | some t =>
      simp only [clock_of_loaded hselected data fault hloaded]
      exact .exchanged hsees hloaded

theorem signalling_wakeWorker {f : Link → Link} (hunasserted : s.asserts step = false)
    (hf : s.link.worker = .parked →
      s.link.Still (f s.link) ∧ (f s.link).refusals = s.link.refusals) :
    s.Signalling step (s.wakeWorker f).2 := by
  unfold wakeWorker
  split
  · next hparked => exact .still hunasserted (hf hparked).1 fun _ => (hf hparked).2
  · exact .still hunasserted (Link.still_refl _) fun _ => rfl

theorem refusals_leaveIfDrained (l : Link) : l.leaveIfDrained.refusals = l.refusals := by
  unfold Link.leaveIfDrained
  split <;> rfl

theorem signalling_tick : s.Signalling .tick (s.act .tick).2 := by
  by_cases hretry : s.link.worker = .parked ∧ ¬ s.link.isDraining ∧ s.link.rearmPending
  · have htick : s.link.tick = { s.link with rearmPending := false }.armNext := if_pos hretry.2
    simp only [act, wakeWorker, if_pos hretry.1, onLink, htick]
    exact .retried hretry.1 hretry.2.2
  · refine signalling_wakeWorker (Bool.and_false _) fun hparked => ?_
    have htick : s.link.tick = s.link.leaveIfDrained := if_neg fun h => hretry ⟨hparked, h⟩
    rw [htick]
    exact ⟨Link.still_leaveIfDrained hparked, refusals_leaveIfDrained _⟩

theorem signalling_received {i : Incoming} {rx : PriorityQueues Incoming} (hold : Bool)
    (hunasserted : s.asserts step = false) : s.Signalling step
      ({ s with link := Link.updateFlow { s.link with mux := { s.link.mux with rx } } }.handOver
        hold i) := by
  obtain ⟨flow, stats, hflow, _⟩ := Link.updateFlow_taken rx s.link
  rw [hflow]
  cases hold <;> exact .still hunasserted ⟨⟨rfl, rfl, rfl⟩, rfl, rfl⟩ fun _ => rfl

theorem signalling_teardown (hstep : step = .finishDrain ∨ step = .deinit) :
    s.Signalling step (s.act step).2 := by
  by_cases hfinal : s.Dismantles step
  · rw [act_of_dismantles hfinal]
    exact .dismantled hfinal
  · rw [act_of_stays hstep hfinal]
    refine .still ?_ (Link.still_refl _) fun _ => rfl
    rcases hstep with rfl | rfl <;> exact Bool.and_false _

theorem signalling_receives {hold : Bool}
    (hstep : step = .tryReceive hold ∨ ∃ limit, step = .receive limit hold) :
    s.Signalling step (s.act step).2 := by
  have hunasserted : s.asserts step = false := by
    rcases hstep with rfl | ⟨limit, rfl⟩ <;> exact Bool.and_false _
  rcases act_of_receives hstep with ⟨r, _, _, hact⟩ | ⟨p, i, rx, _, hact⟩
  · rw [hact]
    exact .still hunasserted (Link.still_refl _) fun _ => rfl
  · rw [hact]
    exact signalling_received hold hunasserted

/-- A step of a steady link does one of the things that `Signalling` lists. -/
theorem signalling (h : s.link.Steady []) (step : Step) : s.Signalling step (s.act step).2 := by
  have hplain (hunasserted : s.asserts step = false) {m : Session}
      (hstill : s.link.Still m.link) (hrefusals : m.link.refusals = s.link.refusals) :
      s.Signalling step m := .still hunasserted hstill fun _ => hrefusals
  cases step with
  | select => exact .selected
  | deselect => exact .deselected
  | clock data hold => exact signalling_clock h data hold
  | exchange data limit fault hold => exact signalling_exchange h data limit fault hold
  | start =>
    simp only [act, request_snd]
    exact .started
  | submitNext interface number payload =>
    simp only [act, request_snd]
    exact .submitted
      (f := { Frame.ofPayload interface payload with number, sequence := s.link.sequence })
      (s.link.sequence + 1) rfl
  | submit f =>
    simp only [act, request_snd]
    exact .submitted (f := f) s.link.sequence rfl
  | tick => exact signalling_tick
  | burn n =>
    obtain ⟨sequence, hburn⟩ := burn_eq n s.link
    simp only [act, onLink, hburn]
    exact hplain (Bool.and_false _) ⟨⟨rfl, rfl, rfl⟩, rfl, rfl⟩ rfl
  | drain =>
    simp only [act, onLink, Link.beginDrain]
    split <;> exact hplain (Bool.and_false _) ⟨⟨rfl, rfl, rfl⟩, rfl, rfl⟩ rfl
  | finishDrain => exact signalling_teardown (.inl rfl)
  | deinit => exact signalling_teardown (.inr rfl)
  | busError =>
    exact signalling_wakeWorker (Bool.and_false _) fun hparked =>
      ⟨Link.still_leaveIfDrained hparked, refusals_leaveIfDrained _⟩
  | busShutdown =>
    exact signalling_wakeWorker (Bool.and_false _) fun hparked =>
      ⟨⟨⟨rfl, rfl, rfl⟩, rfl, Link.unfinished_stopWorker hparked⟩, rfl⟩
  | refuse n =>
    exact .still (Bool.and_false _) ⟨⟨rfl, rfl, rfl⟩, rfl, rfl⟩ fun hother => absurd rfl (hother n)
  | tryReceive hold => exact signalling_receives (.inl rfl)
  | receive limit hold => exact signalling_receives (.inr ⟨limit, rfl⟩)
  | waitReady limit =>
    simp only [act]
    split <;> exact hplain (Bool.and_false _) (Link.still_refl _) rfl
  | dropHeld n =>
    simp only [act]
    split <;> exact hplain (Bool.and_false _) ⟨⟨rfl, rfl, rfl⟩, rfl, rfl⟩ rfl
  | deliver | showHeld | register =>
    exact hplain (Bool.and_false _) ⟨⟨rfl, rfl, rfl⟩, rfl, rfl⟩ rfl

end Session
end SlaveLink
