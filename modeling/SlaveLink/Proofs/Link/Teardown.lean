import SlaveLink.Link.Lifecycle
import SlaveLink.Proofs.Link.BlockSize
import SlaveLink.Proofs.Link.Transfers

/-! # What a teardown does
The transfer that has completed is finished, as the worker would have done. Then everything goes
back to the pools. -/

namespace SlaveLink

namespace Memory

theorem blanks_releaseTransactions (ts : List Transaction) (m : Memory) :
    (m.releaseTransactions ts).transactions.free =
      List.replicate ts.length .blank ++ m.transactions.free := by
  induction ts generalizing m with
  | nil => rfl
  | cons t ts ih =>
    have h := ih (m.releaseTransaction t)
    simp only [releaseTransactions, List.foldl_cons] at h ⊢
    rw [h]
    simp [releaseTransaction_eq, Pool.release, List.replicate_succ', List.append_assoc]

theorem mem_free_releaseTransactions {ts : List Transaction} {m : Memory} {b : Block}
    (hb : b ∈ (m.releaseTransactions ts).wire.free) :
    (∃ t ∈ ts, b ∈ t.blocks) ∨ b ∈ m.wire.free := by
  induction ts generalizing m with
  | nil => exact .inr hb
  | cons t ts ih =>
    simp only [releaseTransactions, List.foldl_cons] at hb
    rcases ih hb with ⟨u, hu, hb⟩ | hb
    · exact .inl ⟨u, List.mem_cons_of_mem _ hu, hb⟩
    · rw [releaseTransaction_eq] at hb
      rcases mem_free_releaseAll.mp hb with hb | hb
      · exact .inl ⟨t, List.mem_cons_self .., hb⟩
      · exact .inr hb

end Memory

namespace Link

variable {l l' : Link} {t : Transaction}

/-- The transfer that a teardown finishes, and the link at that moment. -/
def lastTurn? (l : Link) : Option (Transaction × Link) :=
  match l.worker with
  | .absent => none
  | .waiting t => some (t, { l with worker := .parked })
  | .parked =>
    match l.bus.collect? with
    | none => none
    | some (t, bus) => some (t, { l with bus, inFlight := l.inFlight - 1 })

def parted (l : Link) : Link :=
  match l.lastTurn? with
  | none => l
  | some (t, l) => l.finish t

theorem bus_finish (t : Transaction) (l : Link) : (l.finish t).bus = l.bus := by
  have hsame := finish_swapped l.worker l.bus l t
  rw [swapped_self] at hsame
  rw [hsame]
  rfl

theorem dismantle_windDown (l : Link) : l.windDown.dismantle = l.parted.dismantle := by
  unfold windDown parted lastTurn?
  cases l.worker with
  | absent => rfl
  -- The worker finishes with the transfer still in hand, but finishing looks at no worker.
  | waiting t =>
    calc (l.finish t).dismantle
        = ((l.finish t).swapped .parked (l.finish t).bus).dismantle := rfl
      _ = ((l.swapped .parked l.bus).finish t).dismantle := by rw [bus_finish, finish_swapped]
  | parked => cases l.bus.collect? <;> rfl

theorem lastTurn?_eq_some (hone : l.unfinished.length ≤ 1) (h : l.lastTurn? = some (t, l')) :
    l.unfinished = [t] ∧ l' = { l with
      bus := { l.bus with completed := [] }
      inFlight := l.inFlight - l.bus.completed.length
      worker := .parked } := by
  rw [unfinished_eq]
  unfold lastTurn? at h
  cases hworker : l.worker with
  | absent => simp [hworker] at h
  | waiting u =>
    simp only [hworker, Option.some.injEq, Prod.mk.injEq] at h
    obtain ⟨rfl, rfl⟩ := h
    have hnone := completed_of_waiting hone hworker
    have hbus : { l.bus with completed := [] } = l.bus := by rw [← hnone]
    refine ⟨by simp [Worker.held, hnone], ?_⟩
    rw [hbus, hnone]
    rfl
  | parked =>
    simp only [hworker, Worker.held, List.nil_append] at h ⊢
    cases hcompleted : l.bus.completed with
    | nil => simp [Bus.collect?, hcompleted] at h
    | cons u rest =>
      have hlist := completed_of_cons hone hcompleted
      rw [← hcompleted, hlist]
      simp only [Bus.collect?, hlist, Option.some.injEq, Prod.mk.injEq] at h
      obtain ⟨rfl, rfl⟩ := h
      exact ⟨rfl, by rw [← hworker]; rfl⟩

theorem held_of_lastTurn? (h : l.lastTurn? = none) : l.worker.held = [] := by
  unfold lastTurn? at h
  cases hworker : l.worker with
  | absent | parked => rfl
  | waiting t => simp [hworker] at h

/-- The transfer that a teardown finishes is in hand, and the link is idle. -/
theorem steady_of_lastTurn? (h : l.Steady []) (hlast : l.lastTurn? = some (t, l')) :
    l'.Steady [t] ∧ l'.Idle ∧ t.Shaped l'.config.frame.blockSize := by
  obtain ⟨hone, rfl⟩ := lastTurn?_eq_some h.unfinished_le_one hlast
  have hmem : t ∈ l.unfinished := by simp [hone]
  exact ⟨h.take hone, h.idle_take hone, h.shaped t (List.mem_append_right _ hmem)⟩

structure Parted (l l' : Link) : Prop where
  steady : l'.Steady []
  held : l'.worker.held = []
  config : l'.config = l.config
  refusals : l'.refusals = l.refusals

theorem parted_of_steady (h : l.Steady []) : Parted l l.parted := by
  unfold parted
  cases hlast : l.lastTurn? with
  | none => exact ⟨h, held_of_lastTurn? hlast, rfl, rfl⟩
  | some last =>
    obtain ⟨t, l'⟩ := last
    obtain ⟨hsteady, hidle, hshaped⟩ := steady_of_lastTurn? h hlast
    have hunmoved := unmoved_finish hshaped l'
    have hkept : l'.config = l.config ∧ l'.refusals = l.refusals := by
      rw [(lastTurn?_eq_some h.unfinished_le_one hlast).2]
      exact ⟨rfl, rfl⟩
    have hheld := (congrArg Worker.held hunmoved.worker).trans hidle.held
    exact ⟨steady_finish hsteady hshaped, hheld, hunmoved.config.trans hkept.1,
      (refusals_finish hshaped l').trans hkept.2⟩

theorem sized_parted (hsteady : l.Steady []) (h : l.Sized) : l.parted.Sized := by
  unfold parted
  cases hlast : l.lastTurn? with
  | none => exact h
  | some last =>
    obtain ⟨t, l'⟩ := last
    obtain ⟨_, hidle, hshaped⟩ := steady_of_lastTurn? hsteady hlast
    have hnone : l'.bus.loaded.toList ++ l'.unfinished = [] := by
      have hloaded : l'.bus.loaded = none := hidle.loaded
      simp only [hloaded, Option.toList_none, List.nil_append]
      exact hidle.unfinished
    obtain ⟨hone, rfl⟩ := lastTurn?_eq_some hsteady.unfinished_le_one hlast
    have htaken : Sized { l with
        bus := { l.bus with completed := [] }
        inFlight := l.inFlight - l.bus.completed.length
        worker := .parked } := by
      refine ⟨h.free, h.tx, h.rx, ?_⟩
      intro u hu
      rw [hnone] at hu
      cases hu
    exact sized_finish htaken hshaped (h.transfers t (by simp [hone]))

/-- Every transaction is back in its pool once a link is taken apart. -/
theorem steady_dismantle (h : l.Steady []) (hheld : l.worker.held = []) :
    l.dismantle.Steady [] := by
  have hidle : l.dismantle.Idle := ⟨rfl, rfl, rfl⟩
  have hqueued : l.bus.queued = [] := h.queued
  have hconserved := h.conserved
  have hunfinished : l.traffic.unfinished = l.bus.completed := congrArg (· ++ l.bus.completed) hheld
  have hblanks : l.dismantle.traffic.blanks =
      List.replicate (l.bus.loaded.toList.length + l.bus.completed.length) .blank ++
        l.memory.transactions.free := by
    simp [traffic, dismantle, Bus.cancel, Bus.pending, hqueued, Memory.blanks_releaseTransactions]
  exact
    { header := h.header
      word := h.word
      depth := h.depth
      room := h.room
      queued := rfl
      single := by simp [hidle.loaded, hidle.unfinished]
      counted := rfl
      retry := fun _ => hidle
      dormant := by simp [traffic, dismantle]
      blank := by
        intro t ht
        rw [hblanks] at ht
        rcases List.mem_append.mp ht with ht | ht
        · exact List.eq_of_mem_replicate ht
        · exact h.blank t ht
      conserved := by
        have hfree : l.traffic.blanks = l.memory.transactions.free := rfl
        have hloaded : l.traffic.bus.loaded = l.bus.loaded := rfl
        have hdepth : l.dismantle.traffic.config = l.traffic.config := rfl
        rw [hunfinished, hfree, hloaded] at hconserved
        rw [hblanks, hidle.loaded, hidle.unfinished, hdepth, List.length_append,
          List.length_replicate]
        simp only [Option.toList_none, List.length_nil] at hconserved ⊢
        omega
      shaped := by simp [hidle.loaded, hidle.unfinished]
      intact := by simp [hidle.loaded] }

/-- Every block is back in its pool with the size it had. -/
theorem sized_dismantle (hsteady : l.Steady []) (h : l.Sized) (hheld : l.worker.held = []) :
    l.dismantle.Sized := by
  have hqueued : l.bus.queued = [] := hsteady.queued
  have hunfinished : l.unfinished = l.bus.completed := congrArg (· ++ l.bus.completed) hheld
  have htransfers := h.transfers
  rw [hunfinished] at htransfers
  refine ⟨?_, ?_, ?_, nofun⟩
  · intro b hb
    have hfree : b ∈ ((l.memory.releaseTransactions
        (l.bus.pending ++ l.bus.completed)).releaseAll l.mux.blocks).wire.free := hb
    rw [Bus.pending, hqueued, List.append_nil] at hfree
    rcases Memory.mem_free_releaseAll.mp hfree with hb | hb
    · rcases List.mem_append.mp hb with hb | hb
      · obtain ⟨o, ho, rfl⟩ := List.mem_map.mp hb
        obtain ⟨p, ho⟩ := PriorityQueues.mem_items.mp ho
        exact h.tx p o ho
      · obtain ⟨i, hi, rfl⟩ := List.mem_map.mp hb
        obtain ⟨p, hi⟩ := PriorityQueues.mem_items.mp hi
        exact h.rx p i hi
    · rcases Memory.mem_free_releaseTransactions hb with ⟨t, ht, hb⟩ | hb
      · exact htransfers t ht b hb
      · exact h.free b hb
  · intro p o ho
    cases p <;> cases ho
  · intro p i hi
    cases p <;> cases hi

end Link
end SlaveLink
