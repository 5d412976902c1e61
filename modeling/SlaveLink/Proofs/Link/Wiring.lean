import SlaveLink.Proofs.Link.Handshake
import SlaveLink.Proofs.Link.Worker

/-! # Another wiring
The policy and the polarities say when the outputs are driven, and to which level. No operation of
the link looks at a line: two links that differ in their wiring, and whose signals mean the same,
give the same results and stay so. -/

namespace SlaveLink

/-- When Handshake falls after a transfer, and which levels of the outputs mean "asserted". -/
structure Wiring where
  policy : DeassertPolicy
  handshake : Polarity
  dataReady : Polarity

def LinkConfig.wired (w : Wiring) (c : LinkConfig) : LinkConfig :=
  { c with policy := w.policy, handshake := w.handshake, dataReady := w.dataReady }

variable {w : Wiring} {seen₁ seen₂ : Bool}

namespace Signals

variable {s₁ s₂ : Signals}

/-- Both mean the same by their lines. Whether a release of chip-select was seen depends on the
policy, so each side is known by itself. -/
structure Agree (seen₁ seen₂ : Bool) (s₁ s₂ : Signals) : Prop where
  state : s₁.state = s₂.state
  isDataReady : s₁.isDataReady = s₂.isDataReady
  first : s₁.releaseSeen = seen₁
  second : s₂.releaseSeen = seen₂

theorem Agree.setDataReady (h : s₁.Agree seen₁ seen₂ s₂) (asserted : Bool) :
    (s₁.setDataReady asserted).Agree seen₁ seen₂ (s₂.setDataReady asserted) := by
  unfold Signals.setDataReady
  rw [h.isDataReady]
  split
  · exact h
  · exact ⟨h.state, rfl, h.first, h.second⟩

theorem Agree.ready (h : s₁.Agree seen₁ seen₂ s₂) :
    (s₁.onBus .ready).Agree seen₁ seen₂ (s₂.onBus .ready) :=
  ⟨rfl, h.isDataReady, h.first, h.second⟩

theorem Agree.deactivate (h : s₁.Agree seen₁ seen₂ s₂) :
    s₁.deactivate.Agree seen₁ seen₂ s₂.deactivate := by
  have hlow : ((s₁.setHandshake false).enter .inactive).Agree seen₁ seen₂
      ((s₂.setHandshake false).enter .inactive) := ⟨rfl, h.isDataReady, h.first, h.second⟩
  exact hlow.setDataReady false

end Signals

namespace Link

variable {l₁ l₂ : Link} {α : Type}

def rewired (w : Wiring) (signals : Signals) (l : Link) : Link :=
  { l with config := l.config.wired w, signals }

@[simp] theorem phase_rewired (w : Wiring) (g : Signals) (l : Link) :
    (l.rewired w g).phase = l.phase := rfl

@[simp] theorem isOpen_rewired (w : Wiring) (g : Signals) (l : Link) :
    (l.rewired w g).isOpen = l.isOpen := rfl

@[simp] theorem isDraining_rewired (w : Wiring) (g : Signals) (l : Link) :
    (l.rewired w g).isDraining = l.isDraining := rfl

@[simp] theorem frame_rewired (w : Wiring) (g : Signals) (l : Link) :
    (l.rewired w g).config.frame = l.config.frame := rfl

@[simp] theorem memory_rewired (w : Wiring) (g : Signals) (l : Link) :
    (l.rewired w g).memory = l.memory := rfl

@[simp] theorem mux_rewired (w : Wiring) (g : Signals) (l : Link) :
    (l.rewired w g).mux = l.mux := rfl

@[simp] theorem bus_rewired (w : Wiring) (g : Signals) (l : Link) :
    (l.rewired w g).bus = l.bus := rfl

@[simp] theorem worker_rewired (w : Wiring) (g : Signals) (l : Link) :
    (l.rewired w g).worker = l.worker := rfl

def Rewired (w : Wiring) (seen₁ seen₂ : Bool) (l₁ l₂ : Link) : Prop :=
  ∃ signals, l₂ = l₁.rewired w signals ∧ l₁.signals.Agree seen₁ seen₂ signals

structure SameResult (w : Wiring) (seen₁ seen₂ : Bool) (r₁ r₂ : α × Link) : Prop where
  result : r₁.1 = r₂.1
  link : Rewired w seen₁ seen₂ r₁.2 r₂.2

theorem SameResult.split {r₁ r₂ : α × Link} (h : SameResult w seen₁ seen₂ r₁ r₂) :
    ∃ a m₁ m₂, r₁ = (a, m₁) ∧ r₂ = (a, m₂) ∧ Rewired w seen₁ seen₂ m₁ m₂ := by
  obtain ⟨a, m₁⟩ := r₁
  obtain ⟨_, m₂⟩ := r₂
  obtain ⟨rfl, hlink⟩ := h
  exact ⟨a, m₁, m₂, rfl, rfl, hlink⟩

section

variable (w) (g : Signals) (l : Link)

theorem updateFlow_rewired : (l.rewired w g).updateFlow = l.updateFlow.rewired w g := by
  unfold updateFlow
  simp only [rewired]
  generalize l.flow.update (l.mux.rx.length .bulk) (l.mux.rx.depths.get .bulk) = updated
  obtain ⟨_ | on, flow⟩ := updated <;> rfl

theorem deliver_rewired (i : Incoming) : (l.rewired w g).deliver i = (l.deliver i).rewired w g := by
  unfold deliver
  rw [mux_rewired]
  cases l.mux.deliver? i with
  | some mux => exact updateFlow_rewired w g ({ l with mux }.count (.frameReceived i.priority))
  | none => exact updateFlow_rewired w g ((l.giveBack [i.block]).count (.dropped .overrun))

theorem heard_rewired (bytes : Bytes) :
    (l.rewired w g).heard bytes = (l.heard bytes).rewired w g := by
  unfold heard
  split <;> rfl

theorem process_rewired (x : Block) : (l.rewired w g).process x = (l.process x).rewired w g := by
  rw [process_eq, process_eq, heard_rewired, frame_rewired]
  cases decodeHeader (l.heard x.bytes).config.frame x.bytes with
  | error e => rfl
  | ok h => exact deliver_rewired w g (l.heard x.bytes) ⟨h, x⟩

theorem finish_rewired (t : Transaction) :
    (l.rewired w g).finish t = (l.finish t).rewired w g := by
  obtain ⟨tx, rx, length, fault⟩ := t
  cases fault with
  | some reason => rfl
  | none =>
    cases rx with
    | none => cases tx <;> rfl
    | some x =>
      cases tx with
      | none => exact process_rewired w g (l.giveBackTransaction { length }) x
      | some tx =>
        exact process_rewired w g
          ((l.count (transmission tx)).giveBackTransaction { tx := some tx, length }) x

theorem tryReceive_rewired : (l.rewired w g).tryReceive =
    (l.tryReceive.1, l.tryReceive.2.rewired w g) := by
  unfold tryReceive
  rw [isOpen_rewired, mux_rewired]
  split
  · rfl
  · cases l.mux.receive? with
    | none => rfl
    | some due =>
      obtain ⟨i, mux⟩ := due
      simp only
      rw [← updateFlow_rewired]
      rfl

theorem receive_rewired (limit : Option Duration) : (l.rewired w g).receive limit =
    ((l.receive limit).1, (l.receive limit).2.rewired w g) := by
  unfold receive
  rw [isOpen_rewired, mux_rewired]
  split
  · rfl
  · generalize l.mux.rx.popWithin limit false = waited
    obtain ⟨outcome, rx⟩ := waited
    cases outcome with
    | found found =>
      simp only
      rw [← updateFlow_rewired]
      rfl
    | timedOut | closed | waiting => rfl

theorem leaveIfDrained_rewired :
    (l.rewired w g).leaveIfDrained = l.leaveIfDrained.rewired w g := by
  have hleaves : ((l.rewired w g).isDraining ∧ ((l.rewired w g).inFlight = 0 ∨
      (l.rewired w g).config.drainTimeout = 0)) =
      (l.isDraining ∧ (l.inFlight = 0 ∨ l.config.drainTimeout = 0)) := rfl
  unfold leaveIfDrained
  simp only [hleaves]
  split <;> rfl

theorem beginDrain_rewired : (l.rewired w g).beginDrain = l.beginDrain.rewired w g := by
  unfold beginDrain
  rw [isOpen_rewired]
  split <;> rfl

end

/-- What does not depend on the wiring is the same on both sides. -/
theorem Rewired.same (h : Rewired w seen₁ seen₂ l₁ l₂) (f : Link → α)
    (hf : ∀ w g l, f (l.rewired w g) = f l) : f l₂ = f l₁ := by
  obtain ⟨g, rfl, _⟩ := h
  exact hf w g l₁

/-- What the signals are left alone by, the wiring makes no difference to. -/
theorem Rewired.of_commutes {f : Link → Link} (h : Rewired w seen₁ seen₂ l₁ l₂)
    (hf : ∀ w g l, f (l.rewired w g) = (f l).rewired w g) :
    Rewired w seen₁ seen₂ (f l₁) (f l₂) := by
  obtain ⟨g, rfl, hagree⟩ := h
  -- Under its own wiring a link is as it was, so its signals are left alone.
  have hself : f l₁ = (f l₁).rewired
      ⟨l₁.config.policy, l₁.config.handshake, l₁.config.dataReady⟩ l₁.signals :=
    hf ⟨l₁.config.policy, l₁.config.handshake, l₁.config.dataReady⟩ l₁.signals l₁
  have hsame : (f l₁).signals = l₁.signals := by
    rw [hself]
    rfl
  exact ⟨g, hf w g l₁, by rw [hsame]; exact hagree⟩

theorem SameResult.of_commutes {f : Link → α × Link} (h : Rewired w seen₁ seen₂ l₁ l₂)
    (hf : ∀ w g l, f (l.rewired w g) = ((f l).1, (f l).2.rewired w g)) :
    SameResult w seen₁ seen₂ (f l₁) (f l₂) where
  result := by
    obtain ⟨g, rfl, _⟩ := h
    rw [hf]
  link := h.of_commutes (f := fun l => (f l).2) fun w g l => congrArg Prod.snd (hf w g l)

theorem Rewired.setDataReady (h : Rewired w seen₁ seen₂ l₁ l₂) (asserted : Bool) :
    Rewired w seen₁ seen₂ (l₁.setDataReady asserted) (l₂.setDataReady asserted) := by
  obtain ⟨g, rfl, hagree⟩ := h
  exact ⟨_, rfl, hagree.setDataReady asserted⟩

theorem Rewired.load (h : Rewired w seen₁ seen₂ l₁ l₂) (t : Transaction) :
    SameResult w seen₁ seen₂ (l₁.load t) (l₂.load t) := by
  obtain ⟨g, rfl, hagree⟩ := h
  have hrefusals : (l₁.rewired w g).refusals = l₁.refusals := rfl
  unfold Link.load
  rw [hrefusals, bus_rewired]
  split
  · exact ⟨rfl, g, rfl, hagree⟩
  · cases hsubmit : l₁.bus.submit? t with
    | none => exact ⟨rfl, g, rfl, hagree⟩
    | some accepted =>
      obtain ⟨events, bus⟩ := accepted
      obtain ⟨_, ⟨rfl, _⟩ | ⟨rfl, _⟩⟩ := announced_submit? hsubmit
      · exact ⟨rfl, _, rfl, hagree.ready⟩
      · exact ⟨rfl, _, rfl, hagree⟩

theorem Rewired.bindAndLoad (h : Rewired w seen₁ seen₂ l₁ l₂) (tx rx : Block) (t : Transaction) :
    SameResult w seen₁ seen₂ (l₁.bindAndLoad tx rx t) (l₂.bindAndLoad tx rx t) := by
  obtain ⟨g, rfl, hagree⟩ := h
  have hbound : Rewired w seen₁ seen₂
      { l₁ with memory := (l₁.memory.bind tx rx l₁.config.frame.blockSize t).2 }
      { l₁.rewired w g with memory := (l₁.memory.bind tx rx l₁.config.frame.blockSize t).2 } :=
    ⟨g, rfl, hagree⟩
  exact hbound.load _

theorem Rewired.takeOutgoing (h : Rewired w seen₁ seen₂ l₁ l₂) :
    SameResult w seen₁ seen₂ l₁.takeOutgoing l₂.takeOutgoing := by
  obtain ⟨g, rfl, hagree⟩ := h
  unfold Link.takeOutgoing
  rw [mux_rewired, memory_rewired]
  cases l₁.mux.next? with
  | some due => exact ⟨rfl, g, rfl, hagree⟩
  | none =>
    cases l₁.memory.acquire true with
    | error e => exact ⟨rfl, g, rfl, hagree⟩
    | ok taken =>
      have htaken : Rewired w seen₁ seen₂ { l₁ with memory := taken.2 }
          { l₁.rewired w g with memory := taken.2 } := ⟨g, rfl, hagree⟩
      exact ⟨rfl, htaken.setDataReady false⟩

theorem Rewired.arm (h : Rewired w seen₁ seen₂ l₁ l₂) (preset : Option Block) :
    SameResult w seen₁ seen₂ (l₁.arm preset) (l₂.arm preset) := by
  obtain ⟨g, rfl, hagree⟩ := h
  unfold Link.arm
  rw [memory_rewired]
  cases l₁.memory.acquire false with
  | error e => exact ⟨rfl, g, rfl, hagree⟩
  | ok taken =>
    obtain ⟨rx, memory⟩ := taken
    simp only
    cases memory.acquireTransaction true with
    | error e => exact ⟨rfl, g, rfl, hagree⟩
    | ok taken =>
      obtain ⟨t, memory⟩ := taken
      have htaken : Rewired w seen₁ seen₂ { l₁ with memory } { l₁.rewired w g with memory } :=
        ⟨g, rfl, hagree⟩
      cases preset with
      | some tx => exact htaken.bindAndLoad tx rx t
      | none =>
        obtain ⟨out, m₁, m₂, hout₁, hout₂, hm⟩ := htaken.takeOutgoing.split
        simp only [hout₁, hout₂]
        cases out with
        | error e =>
          exact ⟨rfl, hm.of_commutes (f := fun l => (l.giveBackTransaction t).giveBack [rx])
            fun _ _ _ => rfl⟩
        | ok tx => exact hm.bindAndLoad tx rx t

theorem Rewired.armNext (h : Rewired w seen₁ seen₂ l₁ l₂) :
    Rewired w seen₁ seen₂ l₁.armNext l₂.armNext := by
  obtain ⟨result, m₁, m₂, harm₁, harm₂, hm⟩ := (h.arm none).split
  unfold Link.armNext
  rw [harm₁, harm₂]
  cases result with
  | error e =>
    exact hm.of_commutes (f := fun l => { l with rearmPending := true }.count (armFailure e))
      fun _ _ _ => rfl
  | ok _ => exact hm

theorem Rewired.armStartup (h : Rewired w seen₁ seen₂ l₁ l₂) :
    SameResult w seen₁ seen₂ l₁.armStartup l₂.armStartup := by
  obtain ⟨g, rfl, hagree⟩ := h
  have hstartup : (l₁.rewired w g).startup = l₁.startup := rfl
  cases hsent : l₁.startup.isSent with
  | true =>
    simp only [Link.armStartup, takeSequence, Startup.takeFrame, hstartup, hsent, if_true]
    exact ⟨rfl, g, rfl, hagree⟩
  | false =>
    rw [armStartup_of_unsent hsent, armStartup_of_unsent (l := l₁.rewired w g) hsent]
    have hevent : (l₁.rewired w g).event = l₁.event := rfl
    rw [memory_rewired, frame_rewired, hevent]
    cases l₁.memory.acquire true with
    | error e => exact ⟨rfl, g, rfl, hagree⟩
    | ok taken =>
      obtain ⟨b, memory⟩ := taken
      simp only
      cases l₁.event.encode l₁.config.frame b.bytes with
      | mk result bytes =>
        cases result with
        | error e => exact ⟨rfl, g, rfl, hagree⟩
        | ok n =>
          have htaken : Rewired w seen₁ seen₂ { l₁.eventTaken with memory }
              { (l₁.rewired w g).eventTaken with memory } := ⟨g, rfl, hagree⟩
          obtain ⟨result, m₁, m₂, harm₁, harm₂, hm⟩ := (htaken.arm (some { b with bytes })).split
          simp only [harm₁, harm₂]
          cases result with
          | error e => exact ⟨rfl, hm⟩
          | ok _ => exact ⟨rfl, hm.setDataReady true⟩

theorem Rewired.start (h : Rewired w seen₁ seen₂ l₁ l₂) :
    SameResult w seen₁ seen₂ l₁.start l₂.start := by
  obtain ⟨g, rfl, hagree⟩ := h
  unfold Link.start
  rw [phase_rewired]
  cases l₁.phase with
  | initialized =>
    have hactive : Rewired w seen₁ seen₂ { l₁ with phase := .active }
        { l₁.rewired w g with phase := .active } := ⟨g, rfl, hagree⟩
    obtain ⟨result, m₁, m₂, harm₁, harm₂, hm⟩ := hactive.armStartup.split
    simp only [harm₁, harm₂]
    cases result with
    | error e =>
      exact ⟨rfl, hm.of_commutes (f := fun l => { l with phase := .initialized }) fun _ _ _ => rfl⟩
    | ok _ =>
      exact ⟨rfl, hm.of_commutes (f := fun l => { l with worker := .parked }) fun _ _ _ => rfl⟩
  | active | draining | deinit => exact ⟨rfl, g, rfl, hagree⟩

theorem Rewired.enqueue (h : Rewired w seen₁ seen₂ l₁ l₂) (header : Header) (payload : Bytes) :
    SameResult w seen₁ seen₂ (l₁.enqueue header payload) (l₂.enqueue header payload) := by
  obtain ⟨g, rfl, hagree⟩ := h
  have hflow : (l₁.rewired w g).flow = l₁.flow := rfl
  unfold Link.enqueue
  simp only [memory_rewired, frame_rewired, mux_rewired, hflow]
  cases l₁.memory.acquire false with
  | error e => exact ⟨rfl, g, rfl, hagree⟩
  | ok taken =>
    obtain ⟨b, memory⟩ := taken
    simp only
    cases encodeFrame l₁.config.frame { header with throttle := l₁.flow.throttle } payload
        b.bytes with
    | mk result bytes =>
      cases result with
      | error e => exact ⟨rfl, g, rfl, hagree⟩
      | ok n =>
        simp only
        cases l₁.mux.send? ⟨{ b with bytes }, header.interface⟩ with
        | none => exact ⟨rfl, g, rfl, hagree⟩
        | some mux =>
          have hqueued : Rewired w seen₁ seen₂ { l₁ with memory, mux }
              { l₁.rewired w g with memory, mux } := ⟨g, rfl, hagree⟩
          exact ⟨rfl, hqueued.setDataReady true⟩

theorem Rewired.submitHeader (h : Rewired w seen₁ seen₂ l₁ l₂) (header : Header)
    (payload : Bytes) :
    SameResult w seen₁ seen₂ (l₁.submitHeader header payload) (l₂.submitHeader header payload) := by
  have hqueued := h.enqueue header payload
  obtain ⟨g, rfl, hagree⟩ := h
  unfold Link.submitHeader
  rw [isOpen_rewired]
  split
  · exact ⟨rfl, g, rfl, hagree⟩
  · split
    · exact ⟨rfl, g, rfl, hagree⟩
    · exact hqueued

theorem Rewired.submitNext (h : Rewired w seen₁ seen₂ l₁ l₂) (interface : Interface)
    (number : UInt8) (payload : Bytes) :
    SameResult w seen₁ seen₂ (l₁.submitNext interface number payload)
      (l₂.submitNext interface number payload) := by
  obtain ⟨g, rfl, hagree⟩ := h
  have htaken : Rewired w seen₁ seen₂ l₁.takeSequence.2 (l₁.rewired w g).takeSequence.2 :=
    ⟨g, rfl, hagree⟩
  exact htaken.submitHeader _ payload

theorem Rewired.turnAround (h : Rewired w seen₁ seen₂ l₁ l₂) (t : Transaction) :
    Rewired w seen₁ seen₂ (l₁.turnAround t) (l₂.turnAround t) := by
  have harmed := h.armNext
  have hdraining := h.same isDraining isDraining_rewired
  have hreadied : Rewired w seen₁ seen₂ l₁.readied l₂.readied := by
    unfold readied
    rw [hdraining]
    split
    · exact h
    · exact harmed
  exact hreadied.of_commutes (f := fun l => l.finish t) fun w g l => finish_rewired w g l t

theorem Rewired.tick (h : Rewired w seen₁ seen₂ l₁ l₂) : Rewired w seen₁ seen₂ l₁.tick l₂.tick := by
  obtain ⟨g, rfl, hagree⟩ := h
  have hretries : (¬ (l₁.rewired w g).isDraining ∧ (l₁.rewired w g).rearmPending) =
      (¬ l₁.isDraining ∧ l₁.rearmPending) := rfl
  have hcleared : Rewired w seen₁ seen₂ { l₁ with rearmPending := false }
      { l₁.rewired w g with rearmPending := false } := ⟨g, rfl, hagree⟩
  unfold Link.tick
  simp only [hretries]
  split
  · exact hcleared.armNext
  · exact Rewired.of_commutes ⟨g, rfl, hagree⟩ leaveIfDrained_rewired

theorem Rewired.windDown (h : Rewired w seen₁ seen₂ l₁ l₂) :
    Rewired w seen₁ seen₂ l₁.windDown l₂.windDown := by
  obtain ⟨g, rfl, hagree⟩ := h
  unfold Link.windDown
  rw [worker_rewired, bus_rewired]
  cases l₁.worker with
  | absent => exact ⟨g, rfl, hagree⟩
  | waiting t =>
    exact Rewired.of_commutes ⟨g, rfl, hagree⟩ (f := fun l => l.finish t)
      fun w g l => finish_rewired w g l t
  | parked =>
    cases l₁.bus.collect? with
    | none => exact ⟨g, rfl, hagree⟩
    | some taken =>
      obtain ⟨t, bus⟩ := taken
      have htaken : Rewired w seen₁ seen₂
          { l₁ with bus, inFlight := l₁.inFlight - 1, worker := .parked }
          { l₁.rewired w g with bus, inFlight := l₁.inFlight - 1, worker := .parked } :=
        ⟨g, rfl, hagree⟩
      exact htaken.of_commutes (f := fun l => l.finish t) fun w g l => finish_rewired w g l t

theorem Rewired.dismantle (h : Rewired w seen₁ seen₂ l₁ l₂) :
    Rewired w seen₁ seen₂ l₁.dismantle l₂.dismantle := by
  obtain ⟨g, rfl, hagree⟩ := h
  exact ⟨_, rfl, hagree.deactivate⟩

theorem Rewired.finishDrain (h : Rewired w seen₁ seen₂ l₁ l₂) :
    Rewired w seen₁ seen₂ l₁.finishDrain l₂.finishDrain := by
  have hdismantled := h.windDown.dismantle
  obtain ⟨g, rfl, hagree⟩ := h
  unfold Link.finishDrain
  rw [phase_rewired]
  cases l₁.phase with
  | draining => exact hdismantled
  | initialized | active | deinit => exact ⟨g, rfl, hagree⟩

/-- Nothing keeps the worker from a completed transfer: if it has to wait for a release of
chip-select, that has happened. -/
structure Unhindered (l : Link) : Prop where
  held : l.worker.held = []
  released : l.config.policy = .onChipSelect → l.bus.completed ≠ [] →
    l.signals.releaseSeen = true ∧ l.signals.lines.chipSelect.level = .high

theorem completedTurn?_of_unhindered {l : Link} {t : Transaction} {bus : Bus}
    (h : l.Unhindered) (hparked : l.worker = .parked) (hcollect : l.bus.collect? = some (t, bus)) :
    ∃ seen, l.completedTurn? = some (t, { l with
      bus, inFlight := l.inFlight - 1, signals := { l.signals with releaseSeen := seen } }) := by
  unfold completedTurn?
  rw [hcollect]
  cases hpolicy : l.config.policy with
  | onTransactionEnd =>
    simp only [hpolicy]
    exact ⟨l.signals.releaseSeen, rfl⟩
  | onChipSelect =>
    have hcompleted : l.bus.completed ≠ [] := by
      intro hnil
      simp [Bus.collect?, hnil] at hcollect
    obtain ⟨hseen, hlevel⟩ := h.released hpolicy hcompleted
    have htake : l.signals.takeRelease = (true, { l.signals with releaseSeen := false }) := by
      simp [Signals.takeRelease, hseen, hlevel]
    simp only [hpolicy, releaseTurn?, htake, if_true, ← hparked]
    exact ⟨false, rfl⟩

theorem settle_of_unhindered {l : Link} {withheld : Bool} (h : l.Unhindered)
    (hone : l.unfinished.length ≤ 1) (hturn : l.turn? withheld = none) :
    l.settle withheld = l := by
  rw [settle_of_unturned hone hturn]
  unfold rested
  cases hworker : l.worker with
  | absent => rfl
  | waiting t =>
    have hheld := h.held
    simp [hworker, Worker.held] at hheld
  | parked =>
    cases withheld with
    | true => rfl
    | false =>
      cases hcollect : l.bus.collect? with
      | none => rfl
      | some taken =>
        obtain ⟨seen, hfound⟩ := completedTurn?_of_unhindered h hworker hcollect
        simp [turn?, hworker, hfound] at hturn

/-- Under either wiring the worker finds the same transfer to turn around, or none. -/
theorem Rewired.turn? (h : Rewired w seen₁ seen₂ l₁ l₂) (h₁ : l₁.Unhindered) (h₂ : l₂.Unhindered)
    (withheld : Bool) :
    l₁.turn? withheld = none ∧ l₂.turn? withheld = none ∨ ∃ t m₁ m₂ seen₁ seen₂,
      l₁.turn? withheld = some (t, m₁) ∧ l₂.turn? withheld = some (t, m₂) ∧
        Rewired w seen₁ seen₂ m₁ m₂ := by
  obtain ⟨g, rfl, hagree⟩ := h
  unfold Link.turn?
  rw [worker_rewired]
  cases hstands : l₁.worker with
  | absent => exact .inl ⟨rfl, rfl⟩
  | waiting t =>
    have hheld := h₁.held
    simp [hstands, Worker.held] at hheld
  | parked =>
    cases withheld with
    | true => exact .inl ⟨rfl, rfl⟩
    | false =>
      cases hcollect : l₁.bus.collect? with
      | none => exact .inl (by simp [completedTurn?, rewired, hcollect])
      | some taken =>
        obtain ⟨t, bus⟩ := taken
        obtain ⟨seen₁, hfound₁⟩ := completedTurn?_of_unhindered h₁ hstands hcollect
        obtain ⟨seen₂, hfound₂⟩ := completedTurn?_of_unhindered h₂ hstands hcollect
        exact .inr ⟨t, _, _, seen₁, seen₂, hfound₁, hfound₂, _, rfl,
          hagree.state, hagree.isDataReady, rfl, rfl⟩

theorem unhindered_turnAround {l : Link} {t : Transaction} (h : l.Steady [t]) (hidle : l.Idle)
    (hshaped : t.Shaped l.config.frame.blockSize) : (l.turnAround t).Unhindered := by
  obtain ⟨hheld, hcompleted⟩ :=
    List.append_eq_nil_iff.mp (unfinished_turnAround h hidle hshaped)
  exact ⟨hheld, fun _ hnot => absurd hcompleted hnot⟩

theorem unhindered_settle {l : Link} (hsteady : l.Steady []) (h : l.Unhindered)
    (withheld : Bool) : (l.settle withheld).Unhindered := by
  cases hturn : l.turn? withheld with
  | none =>
    rw [settle_of_unhindered h hsteady.unfinished_le_one hturn]
    exact h
  | some turn =>
    obtain ⟨t, m⟩ := turn
    obtain ⟨hnext, hidle, hshaped⟩ := steady_of_turn? hsteady hturn
    rw [settle_of_turn hsteady hturn]
    exact unhindered_turnAround hnext hidle hshaped

theorem Rewired.settle (h : Rewired w seen₁ seen₂ l₁ l₂) (hsteady₁ : l₁.Steady [])
    (hsteady₂ : l₂.Steady []) (h₁ : l₁.Unhindered) (h₂ : l₂.Unhindered) (withheld : Bool) :
    ∃ seen₁ seen₂, Rewired w seen₁ seen₂ (l₁.settle withheld) (l₂.settle withheld) := by
  rcases h.turn? h₁ h₂ withheld with ⟨hnone₁, hnone₂⟩ | ⟨t, m₁, m₂, _, _, hturn₁, hturn₂, hm⟩
  · rw [settle_of_unhindered h₁ hsteady₁.unfinished_le_one hnone₁,
      settle_of_unhindered h₂ hsteady₂.unfinished_le_one hnone₂]
    exact ⟨_, _, h⟩
  · rw [settle_of_turn hsteady₁ hturn₁, settle_of_turn hsteady₂ hturn₂]
    exact ⟨_, _, hm.turnAround t⟩

end Link
end SlaveLink
