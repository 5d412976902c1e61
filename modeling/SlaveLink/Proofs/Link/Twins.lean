import SlaveLink.Proofs.Link.Alike
import SlaveLink.Proofs.Link.Teardown

/-! # Links that differ in what a transfer brought
Two links that differ in the block of the transfer under way, and not in what is read of it, go on
alike: the worker and a teardown do the same to both. -/

namespace SlaveLink

def Worker.rewritten (bytes : Bytes) : Worker → Worker
  | .absent => .absent
  | .parked => .parked
  | .waiting t => .waiting (t.rewritten bytes)

theorem Worker.held_rewritten (bytes : Bytes) (w : Worker) :
    (w.rewritten bytes).held = w.held.map (·.rewritten bytes) := by
  cases w <;> rfl

theorem Worker.rewritten_of_held {w : Worker} (h : w.held = []) (bytes : Bytes) :
    w.rewritten bytes = w := by
  cases w with
  | absent | parked => rfl
  | waiting t => simp [held] at h

def Bus.rewritten (bytes : Bytes) (b : Bus) : Bus :=
  { b with completed := b.completed.map (·.rewritten bytes) }

namespace Link

variable {l l' l₁ l₂ : Link} {withheld : Bool}

def rewritten (bytes : Bytes) (l : Link) : Link :=
  l.swapped (l.worker.rewritten bytes) (l.bus.rewritten bytes)

theorem unfinished_rewritten (bytes : Bytes) (l : Link) :
    (l.rewritten bytes).unfinished = l.unfinished.map (·.rewritten bytes) := by
  rw [unfinished_eq, unfinished_eq, List.map_append, ← Worker.held_rewritten]
  rfl

theorem rewritten_of_idle (h : l.Idle) (bytes : Bytes) : l.rewritten bytes = l := by
  have hworker : l.worker.rewritten bytes = l.worker := Worker.rewritten_of_held h.held bytes
  have hcompleted : l.bus.completed = [] := h.completed
  have hbus : l.bus.rewritten bytes = l.bus := by
    rw [Bus.rewritten, hcompleted, List.map_nil, ← hcompleted]
  rw [rewritten, hworker, hbus]
  rfl

theorem idle_rewritten (h : l.Idle) (bytes : Bytes) : (l.rewritten bytes).Idle := by
  rw [rewritten_of_idle h]
  exact h

theorem steady_rewritten (h : l.Steady []) (bytes : Bytes) : (l.rewritten bytes).Steady [] := by
  have hunfinished : (l.rewritten bytes).traffic.unfinished =
      l.traffic.unfinished.map (·.rewritten bytes) := unfinished_rewritten bytes l
  have hcompleted : (l.rewritten bytes).traffic.bus.completed =
      l.bus.completed.map (·.rewritten bytes) := rfl
  exact
    { header := h.header
      word := h.word
      depth := h.depth
      room := h.room
      queued := h.queued
      single := by
        rw [hunfinished, List.length_map]
        exact h.single
      counted := by
        rw [hcompleted, List.length_map]
        exact h.counted
      retry := fun hpending => idle_rewritten (h.retry hpending) bytes
      dormant := fun hphase => by
        obtain ⟨hidle, habsent, hretry⟩ := h.dormant hphase
        refine ⟨idle_rewritten hidle bytes, ?_, hretry⟩
        have hworker : l.worker = .absent := habsent
        show l.worker.rewritten bytes = .absent
        rw [hworker]
        rfl
      blank := h.blank
      conserved := by
        rw [hunfinished, List.length_map]
        exact h.conserved
      shaped := by
        intro t ht
        rw [hunfinished] at ht
        rcases List.mem_append.mp ht with ht | ht
        · exact h.shaped t (List.mem_append_left _ ht)
        · obtain ⟨u, hu, rfl⟩ := List.mem_map.mp ht
          exact (h.shaped u (List.mem_append_right _ hu)).rewritten bytes
      intact := h.intact }

theorem releaseTurn?_rewritten (bytes : Bytes) (t : Transaction) (l : Link) :
    (l.rewritten bytes).releaseTurn? (t.rewritten bytes) =
      (l.releaseTurn? t).map fun turn => (turn.1.rewritten bytes, turn.2.rewritten bytes) := by
  have hsignals : (l.rewritten bytes).signals = l.signals := rfl
  unfold releaseTurn?
  rw [hsignals]
  generalize l.signals.takeRelease = taken
  obtain ⟨released, signals⟩ := taken
  cases released <;> rfl

theorem completedTurn?_rewritten (bytes : Bytes) (l : Link) :
    (l.rewritten bytes).completedTurn? =
      l.completedTurn?.map fun turn => (turn.1.rewritten bytes, turn.2.rewritten bytes) := by
  have hcollect : (l.rewritten bytes).bus.collect? =
      l.bus.collect?.map fun next => (next.1.rewritten bytes, next.2.rewritten bytes) := by
    simp only [rewritten, swapped, Bus.rewritten, Bus.collect?]
    cases l.bus.completed <;> rfl
  have hpolicy : (l.rewritten bytes).config = l.config := rfl
  unfold completedTurn?
  rw [hcollect]
  cases l.bus.collect? with
  | none => rfl
  | some next =>
    obtain ⟨t, bus⟩ := next
    simp only [Option.map_some, hpolicy]
    cases l.config.policy with
    | onTransactionEnd => rfl
    | onChipSelect =>
      exact releaseTurn?_rewritten bytes t { l with bus, inFlight := l.inFlight - 1 }

theorem turn?_rewritten (bytes : Bytes) (l : Link) (withheld : Bool) :
    (l.rewritten bytes).turn? withheld =
      (l.turn? withheld).map fun turn => (turn.1.rewritten bytes, turn.2.rewritten bytes) := by
  have hsame : (l.rewritten bytes).worker = l.worker.rewritten bytes := rfl
  unfold turn?
  rw [hsame]
  cases hworker : l.worker with
  | absent => rfl
  | waiting t => exact releaseTurn?_rewritten bytes t l
  | parked =>
    simp only [Worker.rewritten]
    cases withheld with
    | true => rfl
    | false => exact completedTurn?_rewritten bytes l

theorem lastTurn?_rewritten (bytes : Bytes) (l : Link) : (l.rewritten bytes).lastTurn? =
    l.lastTurn?.map fun turn => (turn.1.rewritten bytes, turn.2.rewritten bytes) := by
  have hsame : (l.rewritten bytes).worker = l.worker.rewritten bytes := rfl
  unfold lastTurn?
  rw [hsame]
  cases hworker : l.worker with
  | absent | waiting t => rfl
  | parked =>
    simp only [Worker.rewritten, rewritten, swapped, Bus.rewritten, Bus.collect?]
    cases l.bus.completed with
    | nil => rfl
    | cons t rest => rfl

theorem rested_rewritten (bytes : Bytes) (l : Link) :
    (l.rewritten bytes).rested withheld = (l.rested withheld).rewritten bytes := by
  have hsame : (l.rewritten bytes).worker = l.worker.rewritten bytes := rfl
  unfold rested
  rw [hsame]
  cases hworker : l.worker with
  | absent => rfl
  | waiting t => rfl
  | parked =>
    simp only [Worker.rewritten]
    cases withheld with
    | true => rfl
    | false =>
      simp only [Bool.false_eq_true, if_false, rewritten, swapped, Bus.rewritten, Bus.collect?]
      cases hcompleted : l.bus.completed with
      | nil => simp [hcompleted]
      | cons t rest => rfl

theorem rested_frame (withheld : Bool) (l : Link) :
    (l.rested withheld).unfinished = l.unfinished ∧ (l.rested withheld).config = l.config := by
  unfold rested
  cases hworker : l.worker with
  | absent => exact ⟨rfl, rfl⟩
  | waiting t => simp [unfinished_eq, hworker]
  | parked =>
    simp only
    split
    · exact ⟨rfl, rfl⟩
    · cases hcompleted : l.bus.completed with
      | nil => simp [Bus.collect?, hcompleted]
      | cons t rest => simp [Bus.collect?, hcompleted, unfinished_eq, hworker, Worker.held]

/-- The second link is the first with other bytes in the transfer under way, of which as much is
read. -/
structure Twins (bytes : Bytes) (l₁ l₂ : Link) : Prop where
  rewritten : l₂ = l₁.rewritten bytes
  agree : ∀ t ∈ l₁.unfinished, ∀ b, t.rx = some b → l₁.config.frame.Agree b.bytes bytes

theorem Twins.alike {bytes : Bytes} (h : l₁.Twins bytes l₂) : l₁.Alike l₂ := by
  rw [h.rewritten]
  exact ⟨rfl, rfl, rfl, rfl, fun _ => rfl⟩

inductive Parting (bytes : Bytes) (l₁ l₂ : Link) : Prop
  | twins (twins : l₁.Twins bytes l₂) : Parting bytes l₁ l₂
  | finished (finished : l₁.unfinished = []) (alike : l₁.Alike l₂) : Parting bytes l₁ l₂

theorem Twins.turnAround {bytes : Bytes} {t : Transaction} (hsteady : l.Steady [t])
    (hidle : l.Idle) (hshaped : t.Shaped l.config.frame.blockSize)
    (hagree : ∀ b, t.rx = some b → l.config.frame.Agree b.bytes bytes) :
    (l.turnAround t).Alike (l.turnAround (t.rewritten bytes)) := by
  obtain ⟨tx, htx⟩ := hshaped.tx
  obtain ⟨b, hrx⟩ := hshaped.rx
  have hconfig := (unmoved_readied (hsteady.vacant hidle (Nat.le_refl _))).config
  rw [turnAround_eq, turnAround_eq]
  refine alike_finish htx hrx ?_
  rw [hconfig]
  exact hagree b hrx

theorem Twins.settle {bytes : Bytes} (hsteady : l₁.Steady []) (h : l₁.Twins bytes l₂)
    (withheld : Bool) : (l₁.settle withheld).Parting bytes (l₂.settle withheld) := by
  have hsteady₂ := steady_rewritten hsteady bytes
  rw [← h.rewritten] at hsteady₂
  have hturn₂ := turn?_rewritten bytes l₁ withheld
  rw [← h.rewritten] at hturn₂
  cases hturn : l₁.turn? withheld with
  | none =>
    rw [hturn, Option.map_none] at hturn₂
    rw [settle_of_unturned hsteady.unfinished_le_one hturn,
      settle_of_unturned hsteady₂.unfinished_le_one hturn₂, h.rewritten, rested_rewritten]
    obtain ⟨hunfinished, hconfig⟩ := rested_frame withheld l₁
    refine .twins ⟨rfl, ?_⟩
    rw [hunfinished, hconfig]
    exact h.agree
  | some turn =>
    obtain ⟨t, l'⟩ := turn
    rw [hturn, Option.map_some] at hturn₂
    obtain ⟨hsteady', hidle, hshaped⟩ := steady_of_turn? hsteady hturn
    rw [settle_of_turn hsteady hturn, settle_of_turn hsteady₂ hturn₂, rewritten_of_idle hidle]
    refine .finished (unfinished_turnAround hsteady' hidle hshaped) ?_
    refine Twins.turnAround hsteady' hidle hshaped ?_
    intro b hrx
    obtain ⟨hone, signals, rfl⟩ := turn?_eq_some hsteady.unfinished_le_one hturn
    exact h.agree t (by simp [hone]) b hrx

theorem alike_dismantle (h : l₁.Alike l₂) : l₁.dismantle.Alike l₂.dismantle := by
  have hclear : l₁.mux.rx.clear = l₂.mux.rx.clear := by
    rw [PriorityQueues.clear, PriorityQueues.clear, h.depths]
  refine ⟨h.stats, h.notices, h.flow, h.depths, ?_⟩
  intro p
  show (l₁.mux.rx.clear.get p).map (·.toFrame) = (l₂.mux.rx.clear.get p).map (·.toFrame)
  rw [hclear]

/-- A teardown takes twins apart alike. -/
theorem Twins.dismantle {bytes : Bytes} (hsteady : l₁.Steady []) (h : l₁.Twins bytes l₂) :
    l₁.windDown.dismantle.Alike l₂.windDown.dismantle := by
  rw [dismantle_windDown, dismantle_windDown]
  refine alike_dismantle ?_
  have hlast₂ := lastTurn?_rewritten bytes l₁
  rw [← h.rewritten] at hlast₂
  unfold parted
  cases hlast : l₁.lastTurn? with
  | none =>
    rw [hlast, Option.map_none] at hlast₂
    rw [hlast₂]
    exact h.alike
  | some last =>
    obtain ⟨t, l'⟩ := last
    rw [hlast, Option.map_some] at hlast₂
    obtain ⟨_, hidle, ⟨tx, htx⟩, ⟨b, hrx⟩, _⟩ := steady_of_lastTurn? hsteady hlast
    obtain ⟨hone, hl'⟩ := lastTurn?_eq_some hsteady.unfinished_le_one hlast
    rw [hlast₂]
    simp only [rewritten_of_idle hidle]
    refine alike_finish htx hrx ?_
    rw [hl']
    exact h.agree t (by simp [hone]) b hrx

end Link
end SlaveLink
