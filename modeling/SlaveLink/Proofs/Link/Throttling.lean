import SlaveLink.Proofs.Link.Attempt
import SlaveLink.Proofs.Link.Orderly
import SlaveLink.Proofs.Link.Reception
import SlaveLink.Proofs.Link.Startup

/-! # When flow control looks at the queue
The bulk receive queue gains a frame when a transfer is finished and loses one when the application
receives. Flow control looks at the occupancy there and then, also if the frame was of another
priority or found the queue full, and nothing else touches what it has decided or counted. -/

namespace SlaveLink

namespace FlowControl

variable {f : FlowControl} {occupied capacity : Nat}

/-- Flow control with marks that lie apart and within a queue which is not too deep to reckon with
in words. -/
structure Suits (capacity : Nat) (f : FlowControl) : Prop where
  marks : f.low.toNat < f.high.toNat
  within : f.high.toNat ≤ 100
  room : 0 < capacity
  words : capacity * 100 ≤ maxWord64

/-- A queue that suits is judged by the products as they are. -/
theorem Suits.decide?_eq (h : f.Suits capacity) (hoccupied : occupied ≤ capacity) :
    f.decide? occupied capacity =
      if f.high.toNat * capacity < occupied * 100 then some true
      else if occupied * 100 < f.low.toNat * capacity then some false else none := by
  obtain ⟨hmarks, hwithin, hroom, hwords⟩ := h
  have henabled : f.high ≠ 0 := by
    rintro hzero
    simp [hzero] at hmarks
  have hproduct : ∀ n ≤ 100, n * capacity ≤ maxWord64 := fun n hn =>
    Nat.le_trans (Nat.mul_le_mul_right _ hn) (Nat.mul_comm .. ▸ hwords)
  refine decide?_of_words (by simp [isEnabled, henabled]; omega) (by omega) (hproduct _ hwithin)
    fun _ => hproduct _ (by omega)

theorem Suits.decide?_of_above (h : f.Suits capacity) (hoccupied : occupied ≤ capacity)
    (habove : f.high.toNat * capacity < occupied * 100) :
    f.decide? occupied capacity = some true := by
  rw [h.decide?_eq hoccupied, if_pos habove]

/-- No occupancy is below the lower mark and above the higher one. -/
theorem Suits.decide?_of_below (h : f.Suits capacity) (hoccupied : occupied ≤ capacity)
    (hbelow : occupied * 100 < f.low.toNat * capacity) :
    f.decide? occupied capacity = some false := by
  have hle : f.low.toNat * capacity ≤ f.high.toNat * capacity :=
    Nat.mul_le_mul_right _ (Nat.le_of_lt h.marks)
  have hunder : ¬ f.high.toNat * capacity < occupied * 100 := by omega
  rw [h.decide?_eq hoccupied, if_neg hunder, if_pos hbelow]

theorem Suits.decide?_of_between (h : f.Suits capacity) (hoccupied : occupied ≤ capacity)
    (habove : ¬ f.high.toNat * capacity < occupied * 100)
    (hbelow : ¬ occupied * 100 < f.low.toNat * capacity) : f.decide? occupied capacity = none := by
  rw [h.decide?_eq hoccupied, if_neg habove, if_neg hbelow]

theorem decide?_of_disabled (h : f.high = 0) : f.decide? occupied capacity = none :=
  decide?_of_idle (.inl (by simp [isEnabled, h]))

end FlowControl

structure Reading where
  occupancy : Nat
  isThrottling : Bool
deriving DecidableEq, Repr

/-- The bulk receive queue as flow control sees it, with what flow control has counted. -/
structure Gauge where
  occupancy : Nat
  depth : Nat
  flow : FlowControl
  /-- How often throttling started. -/
  started : Nat
  /-- How often throttling stopped. -/
  stopped : Nat

namespace Gauge

variable {g g' : Gauge}

def reading (g : Gauge) : Reading := ⟨g.occupancy, g.flow.isThrottling⟩

def looked (g : Gauge) : Gauge :=
  let on := (g.flow.decide? g.occupancy g.depth).getD g.flow.isThrottling
  { g with
    flow := { g.flow with isThrottling := on }
    started := g.started + (on && !g.flow.isThrottling).toNat
    stopped := g.stopped + (!on && g.flow.isThrottling).toNat }

/-- All that happens to a gauge: at most one frame enters or leaves the queue, and flow control
looks at it. -/
inductive Moves (g : Gauge) : Gauge → Prop
  | kept : Moves g g
  | looked (n : Nat) (near : n ≤ g.occupancy + 1 ∧ g.occupancy ≤ n + 1)
      (room : n ≤ g.occupancy ∨ n ≤ g.depth) : Moves g { g with occupancy := n }.looked

theorem Moves.of_eq (h : g' = g) : g.Moves g' := by
  rw [h]
  exact .kept

theorem Moves.seen (g : Gauge) : g.Moves g.looked :=
  .looked g.occupancy ⟨Nat.le_succ _, Nat.le_succ _⟩ (.inl (Nat.le_refl _))

def Alternates (g : Gauge) : Prop := g.started = g.stopped + g.flow.isThrottling.toNat

theorem Alternates.looked (h : g.Alternates) : g.looked.Alternates := by
  unfold Alternates at h ⊢
  simp only [Gauge.looked]
  generalize (g.flow.decide? g.occupancy g.depth).getD g.flow.isThrottling = on
  cases hthrottling : g.flow.isThrottling <;> rw [hthrottling] at h <;> cases on <;>
    simp at h ⊢ <;> omega

theorem Alternates.moves (h : g.Alternates) (hmoves : g.Moves g') : g'.Alternates := by
  cases hmoves with
  | kept => exact h
  | looked n => exact Alternates.looked (g := { g with occupancy := n }) h

def Disabled (g : Gauge) : Prop := g.flow.high = 0 ∧ g.flow.isThrottling = false

theorem Disabled.moves (h : g.Disabled) (hmoves : g.Moves g') : g'.Disabled := by
  cases hmoves with
  | kept => exact h
  | looked n =>
    refine ⟨h.1, ?_⟩
    simp only [Gauge.looked, FlowControl.decide?_of_disabled h.1]
    exact h.2

end Gauge

namespace Link

variable {l l' : Link} {t : Transaction}

def gauge (l : Link) : Gauge where
  occupancy := l.mux.rx.length .bulk
  depth := l.mux.rx.depths.get .bulk
  flow := l.flow
  started := l.stats.throttleOn
  stopped := l.stats.throttleOff

theorem gauge_updateFlow (l : Link) : l.updateFlow.gauge = l.gauge.looked := by
  unfold updateFlow FlowControl.update
  simp only [Gauge.looked, gauge]
  cases l.flow.decide? (l.mux.rx.length .bulk) (l.mux.rx.depths.get .bulk) with
  | none => simp
  | some on => cases on <;> cases l.flow.isThrottling <;> simp [count, Stats.bump]

theorem gauge_count (c : Counter) (h : ∀ on, c ≠ .throttleChanged on) (l : Link) :
    (l.count c).gauge = l.gauge := by
  cases c with
  | throttleChanged on => exact absurd rfl (h on)
  | dropped why => cases why <;> rfl
  | _ => rfl

theorem gauge_received (rx : PriorityQueues Incoming) (hdepths : rx.depths = l.mux.rx.depths) :
    gauge { l with mux := { l.mux with rx } } = { l.gauge with occupancy := rx.length .bulk } := by
  simp only [gauge, hdepths]

theorem transmission_ne_throttleChanged (tx : Block) (on : Bool) :
    transmission tx ≠ .throttleChanged on := by
  unfold transmission
  split
  · split <;> nofun
  · nofun

theorem rejection_ne_throttleChanged (e : FrameError) (on : Bool) :
    rejection e ≠ .throttleChanged on := by
  cases e <;> nofun

/-- A received frame enters the queue of its priority, or finds it full. -/
theorem moves_deliver (i : Incoming) (l : Link) : l.gauge.Moves (l.deliver i).gauge := by
  cases hdeliver : l.mux.deliver? i with
  | none =>
    rw [deliver_of_full hdeliver, gauge_updateFlow, gauge_count (.dropped .overrun) nofun]
    exact .seen l.gauge
  | some mux =>
    obtain ⟨rx, hpush, rfl⟩ := deliver?_eq_some hdeliver
    rw [deliver_of_room hdeliver, gauge_updateFlow, gauge_count (.frameReceived i.priority) nofun,
      gauge_received rx (PriorityQueues.depths_push? hpush)]
    have hget := PriorityQueues.get_push? hpush .bulk
    by_cases hbulk : .bulk = i.priority
    · have hroom : l.mux.rx.length .bulk < l.mux.rx.depths.get .bulk := by
        simp only [PriorityQueues.push?, ← hbulk, Option.ite_none_right_eq_some] at hpush
        exact hpush.1
      have hlength : rx.length .bulk = l.mux.rx.length .bulk + 1 := by
        simp [PriorityQueues.length, hget, ← hbulk]
      refine .looked _ ?_ (.inr ?_)
      · simp only [gauge]
        omega
      · simp only [gauge]
        omega
    · have hlength : rx.length .bulk = l.mux.rx.length .bulk := by
        simp [PriorityQueues.length, hget, hbulk]
      rw [hlength]
      exact .seen l.gauge

/-- A frame that is received by the application leaves the queue of its priority. -/
theorem moves_received {p : Priority} {i : Incoming} {rx : PriorityQueues Incoming}
    (hdue : l.mux.rx.pop? = some (p, i, rx)) :
    l.gauge.Moves (updateFlow { l with mux := { l.mux with rx } }).gauge := by
  rw [gauge_updateFlow, gauge_received rx (PriorityQueues.depths_pop? hdue)]
  obtain ⟨hhead, hothers, _⟩ := PriorityQueues.get_pop? hdue
  by_cases hbulk : .bulk = p
  · subst hbulk
    have hlength : l.mux.rx.length .bulk = rx.length .bulk + 1 := by
      simp [PriorityQueues.length, hhead]
    refine .looked _ ?_ (.inl ?_)
    · simp only [gauge]
      omega
    · simp only [gauge]
      omega
  · have hlength : rx.length .bulk = l.mux.rx.length .bulk := by
      simp [PriorityQueues.length, hothers _ hbulk]
    rw [hlength]
    exact .seen l.gauge

theorem gauge_heard (bytes : Bytes) (l : Link) : (l.heard bytes).gauge = l.gauge := by
  unfold heard
  split <;> rfl

theorem moves_process (b : Block) (l : Link) : l.gauge.Moves (l.process b).gauge := by
  rw [← gauge_heard b.bytes l]
  cases hdecode : decodeHeader l.config.frame b.bytes with
  | ok h =>
    rw [process_of_frame hdecode]
    exact moves_deliver ⟨h, b⟩ _
  | error e =>
    rw [process_of_rejected hdecode]
    exact .of_eq (gauge_count (rejection e) (rejection_ne_throttleChanged e) (l.heard b.bytes))

theorem moves_finish (t : Transaction) (l : Link) : l.gauge.Moves (l.finish t).gauge := by
  obtain ⟨tx, rx, length, fault⟩ := t
  cases fault with
  | some reason => exact .kept
  | none =>
    -- What went out is counted first, which is nothing to flow control.
    obtain ⟨l', hgauge, hfinish⟩ : ∃ l' : Link, l'.gauge = l.gauge ∧
        l.finish ⟨tx, rx, length, none⟩ = rx.elim l' l'.process := by
      cases tx with
      | none =>
        exact ⟨l.giveBackTransaction ⟨none, none, length, none⟩, rfl, by cases rx <;> rfl⟩
      | some tx =>
        exact ⟨(l.count (transmission tx)).giveBackTransaction ⟨some tx, none, length, none⟩,
          gauge_count _ (transmission_ne_throttleChanged tx) l, by cases rx <;> rfl⟩
    rw [hfinish, ← hgauge]
    cases rx with
    | none => exact .kept
    | some rx => exact moves_process rx l'

theorem gauge_armNext (h : l.Vacant) : l.armNext.gauge = l.gauge := by
  have hattempt := attempt h
  generalize l.armNext = l' at hattempt ⊢
  cases hattempt with
  | loaded willing loaded => cases loaded <;> rfl
  | starved | refusedFrame | refusedDummy => rfl

theorem gauge_readied (h : l.Vacant) : l.readied.gauge = l.gauge := by
  unfold readied
  split
  · rfl
  · exact gauge_armNext h

theorem moves_turnAround (h : l.Vacant) (t : Transaction) :
    l.gauge.Moves (l.turnAround t).gauge := by
  rw [turnAround_eq, ← gauge_readied h]
  exact moves_finish t _

theorem gauge_announcing {r : Except LinkError Unit} (h : l.Announcing (r, l')) :
    l'.gauge = l.gauge := by
  cases h <;> rfl

theorem gauge_starting {r : Except LinkError Unit} (h : l.Starting (r, l')) :
    l'.gauge = l.gauge := by
  cases h with
  | refused => rfl
  | up _ announced | failed _ _ announced =>
    have hannounced := gauge_announcing announced
    exact hannounced

theorem gauge_submission {header : Header} {payload : Bytes} {r : Except LinkError Unit}
    (h : l.Submission header payload (r, l')) : l'.gauge = l.gauge := by
  cases h with
  | queued _ _ _ room =>
    obtain ⟨tx, _, rfl⟩ := Option.map_eq_some_iff.mp room
    rfl
  | refused e scribbled counted =>
    simp only [List.mem_cons, List.not_mem_nil, or_false] at counted
    rcases counted with rfl | rfl | rfl <;> rfl

theorem moves_windDown (l : Link) : l.gauge.Moves l.windDown.gauge := by
  unfold windDown
  split
  · exact .kept
  · exact moves_finish _ l
  · split
    · exact .kept
    · next t bus _ => exact moves_finish t { l with bus, inFlight := l.inFlight - 1 }

end Link
end SlaveLink
