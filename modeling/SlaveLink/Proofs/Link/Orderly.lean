import SlaveLink.Link.Worker
import SlaveLink.Proofs.Link.Arming
import SlaveLink.Proofs.Link.Reception
import SlaveLink.Proofs.Link.Startup

/-! # Orderly traffic
Until a link is torn down at most one transfer is under way. A retry is due only when none is, and
the pool of transactions never runs dry. A link may have one more transfer in hand: the one that the
worker has taken over and is about to finish. -/

namespace SlaveLink

def Worker.held : Worker → List Transaction
  | .waiting t => [t]
  | _ => []

/-- The transaction carries two blocks and is as long as a block. -/
structure Transaction.Shaped (size : Nat) (t : Transaction) : Prop where
  tx : ∃ b, t.tx = some b
  rx : ∃ b, t.rx = some b
  length : t.length = size

/-- The part of a link that transfers move through. -/
structure Traffic where
  config : LinkConfig
  phase : Phase
  refusals : Nat
  worker : Worker
  bus : Bus
  inFlight : Nat
  rearmPending : Bool
  /-- The transactions at hand. -/
  blanks : List Transaction

/-- Transfers that were clocked and that the worker has not finished. -/
def Traffic.unfinished (v : Traffic) : List Transaction := v.worker.held ++ v.bus.completed

structure Resting (b : Bus) (w : Worker) : Prop where
  loaded : b.loaded = none
  held : w.held = []
  completed : b.completed = []

def Traffic.Idle (v : Traffic) : Prop := Resting v.bus v.worker

/-- What holds of every link, torn down or not, with `hand` taken over by the worker. -/
structure Traffic.Steady (hand : List Transaction) (v : Traffic) : Prop where
  header : headerSize < v.config.frame.bufferSize
  word : v.config.frame.bufferSize ≤ 65535
  depth : 0 < v.config.busQueueSize
  room : 0 < v.bus.queueSize
  queued : v.bus.queued = []
  single : v.bus.loaded.toList.length + v.unfinished.length ≤ 1
  counted : v.inFlight = v.bus.loaded.toList.length + v.bus.completed.length
  retry : v.rearmPending = true → v.Idle
  dormant : v.phase = .initialized → v.Idle ∧ v.worker = .absent ∧ v.rearmPending = false
  blank : ∀ t ∈ v.blanks, t = .blank
  conserved : v.blanks.length + v.bus.loaded.toList.length + v.unfinished.length + hand.length =
    v.config.busQueueSize + 1
  shaped : ∀ t ∈ v.bus.loaded.toList ++ v.unfinished, t.Shaped v.config.frame.blockSize
  intact : ∀ t ∈ v.bus.loaded, t.fault = none

/-- The link is not torn down, and its driver refuses nothing. -/
structure Traffic.Orderly (hand : List Transaction) (v : Traffic) : Prop extends
    v.Steady hand where
  isOpen : v.phase.isOpen = true
  willing : v.refusals = 0

namespace Traffic

variable {v : Traffic} {hand : List Transaction} {t : Transaction}

theorem Idle.unfinished (h : v.Idle) : v.unfinished = [] := by
  simp [Traffic.unfinished, h.held, h.completed]

/-- An idle link has a transaction at hand, even while the worker holds one. -/
theorem Steady.blank_at_hand (h : v.Steady hand) (hidle : v.Idle) (hhand : hand.length ≤ 1) :
    ∃ ts, v.blanks = .blank :: ts := by
  -- There are more transactions than the worker can hold, and the others are in their pool.
  have hconserved := h.conserved
  have hdepth := h.depth
  rw [hidle.loaded, hidle.unfinished] at hconserved
  cases hblanks : v.blanks with
  | nil =>
    simp only [hblanks, Option.toList_none, List.length_nil] at hconserved
    omega
  | cons t ts =>
    have ht : t = .blank := h.blank t (by simp [hblanks])
    exact ⟨ts, by rw [ht]⟩

def load (t : Transaction) (v : Traffic) : Traffic :=
  { v with
    bus := { v.bus with loaded := some t }
    inFlight := v.inFlight + 1
    blanks := v.blanks.tail }

theorem Steady.load (h : v.Steady hand) (hidle : v.Idle) (hhand : hand.length ≤ 1)
    (hretry : v.rearmPending = false) (hphase : v.phase ≠ .initialized)
    (hshaped : t.Shaped v.config.frame.blockSize) (hfault : t.fault = none) :
    (v.load t).Steady hand := by
  obtain ⟨ts, hblanks⟩ := h.blank_at_hand hidle hhand
  have hcounted := h.counted
  have hconserved := h.conserved
  simp only [hidle.loaded, hidle.completed, hidle.unfinished, hblanks, Option.toList_none,
    List.length_nil, List.length_cons] at hcounted hconserved
  exact { h with
    single := by simp [Traffic.load, Traffic.unfinished, hidle.held, hidle.completed]
    counted := by simp [Traffic.load, hidle.completed, hcounted]
    retry := fun hpending => by simp [Traffic.load, hretry] at hpending
    dormant := fun hinitialized => absurd hinitialized hphase
    blank := fun u hu => h.blank u (List.mem_of_mem_tail hu)
    conserved := by
      simp [Traffic.load, Traffic.unfinished, hidle.held, hidle.completed, hblanks]
      omega
    shaped := by
      simpa [Traffic.load, Traffic.unfinished, hidle.held, hidle.completed] using hshaped
    intact := by simpa [Traffic.load] using hfault }

def clock (t : Transaction) (v : Traffic) : Traffic :=
  { v with bus := { v.bus with
      loaded := none, completed := [t], clocked := v.bus.clocked + 1 } }

theorem Steady.nothing_unfinished (h : v.Steady hand) (hloaded : v.bus.loaded = some t) :
    v.worker.held = [] ∧ v.bus.completed = [] := by
  have hsingle := h.single
  simp only [hloaded, Option.toList_some, List.length_singleton] at hsingle
  have hlength : v.unfinished.length = 0 := by omega
  exact List.append_eq_nil_iff.mp (List.length_eq_zero_iff.mp hlength)

theorem Steady.clock {u : Transaction} (h : v.Steady hand) (hloaded : v.bus.loaded = some t)
    (hshaped : u.Shaped v.config.frame.blockSize) : (v.clock u).Steady hand := by
  obtain ⟨hheld, hcompleted⟩ := h.nothing_unfinished hloaded
  have hbusy : ¬ v.Idle := fun hidle => by simp [hidle.loaded] at hloaded
  have hcounted := h.counted
  have hconserved := h.conserved
  simp only [hloaded, hheld, hcompleted, Traffic.unfinished] at hcounted hconserved
  exact { h with
    single := by simp [Traffic.clock, Traffic.unfinished, hheld]
    counted := by simpa [Traffic.clock] using hcounted
    retry := fun hpending => absurd (h.retry hpending) hbusy
    dormant := fun hinitialized => absurd (h.dormant hinitialized).1 hbusy
    conserved := by simpa [Traffic.clock, Traffic.unfinished, hheld] using hconserved
    shaped := by simpa [Traffic.clock, Traffic.unfinished, hheld] using hshaped
    intact := by simp [Traffic.clock] }

def take (v : Traffic) : Traffic :=
  { v with
    bus := { v.bus with completed := [] }
    inFlight := v.inFlight - v.bus.completed.length
    worker := .parked }

theorem Steady.idle_take (h : v.Steady []) (hone : v.unfinished = [t]) : v.take.Idle := by
  have hsingle := h.single
  simp only [hone, List.length_singleton] at hsingle
  refine ⟨?_, rfl, rfl⟩
  cases hloaded : v.bus.loaded with
  | none => simpa [Traffic.take] using hloaded
  | some u => simp [hloaded] at hsingle

theorem Steady.take (h : v.Steady []) (hone : v.unfinished = [t]) : v.take.Steady [t] := by
  have hidle := h.idle_take hone
  have hloaded : v.bus.loaded = none := hidle.loaded
  have hbusy : ¬ v.Idle := fun hidle => by simp [hidle.unfinished] at hone
  have hcounted := h.counted
  have hconserved := h.conserved
  rw [hloaded] at hcounted
  rw [hloaded, hone] at hconserved
  exact { h with
    single := by simp [hidle.loaded, hidle.unfinished]
    counted := by simp [Traffic.take, hloaded, hcounted]
    retry := fun hpending => absurd (h.retry hpending) hbusy
    dormant := fun hinitialized => absurd (h.dormant hinitialized).1 hbusy
    conserved := by
      rw [hidle.loaded, hidle.unfinished]
      simpa [Traffic.take] using hconserved
    shaped := by simp [hidle.loaded, hidle.unfinished]
    intact := by simp [hidle.loaded] }

theorem Steady.hold (h : v.Steady []) (hparked : v.worker = .parked)
    (hcompleted : v.bus.completed = [t]) :
    Steady [] { v with
      bus := { v.bus with completed := [] }
      inFlight := v.inFlight - 1
      worker := .waiting t } := by
  have hone : v.unfinished = [t] := by simp [Traffic.unfinished, hparked, Worker.held, hcompleted]
  have hbusy : ¬ v.Idle := fun hidle => by simp [hidle.unfinished] at hone
  have hcounted := h.counted
  have hsingle := h.single
  have hconserved := h.conserved
  have hshaped := h.shaped
  rw [hcompleted] at hcounted
  rw [hone] at hsingle hconserved hshaped
  exact { h with
    single := by simpa [Traffic.unfinished, Worker.held] using hsingle
    counted := by simp [hcounted]
    retry := fun hpending => absurd (h.retry hpending) hbusy
    dormant := fun hinitialized => absurd (h.dormant hinitialized).1 hbusy
    conserved := by simpa [Traffic.unfinished, Worker.held] using hconserved
    shaped := by simpa [Traffic.unfinished, Worker.held] using hshaped }

theorem Steady.setWorker {w : Worker} (h : v.Steady hand) (hheld : v.worker.held = [])
    (hw : w.held = []) (hphase : v.phase = .initialized → w = .absent) :
    Steady hand { v with worker := w } := by
  have hunfinished : unfinished { v with worker := w } = v.unfinished := by
    simp only [Traffic.unfinished, hheld, hw]
  have hsame (hidle : v.Idle) : Idle { v with worker := w } := ⟨hidle.loaded, hw, hidle.completed⟩
  exact { h with
    single := by simpa only [hunfinished] using h.single
    retry := fun hpending => hsame (h.retry hpending)
    dormant := fun hinitialized =>
      ⟨hsame (h.dormant hinitialized).1, hphase hinitialized, (h.dormant hinitialized).2.2⟩
    conserved := by simpa only [hunfinished] using h.conserved
    shaped := by simpa only [hunfinished] using h.shaped }

theorem Steady.activate (h : v.Steady hand) (hidle : v.Idle) :
    Steady hand { v with phase := .active } :=
  { h with
    retry := fun _ => hidle
    dormant := nofun }

theorem Steady.finish (h : v.Steady [t]) :
    Steady [] { v with blanks := .blank :: v.blanks } := by
  have hconserved : v.blanks.length + v.bus.loaded.toList.length + v.unfinished.length + 1 =
    v.config.busQueueSize + 1 := h.conserved
  exact { h with
    blank := by
      intro u hu
      rcases List.mem_cons.mp hu with rfl | hu
      · rfl
      · exact h.blank u hu
    conserved := by
      have hunfinished : unfinished { v with blanks := .blank :: v.blanks } = v.unfinished := rfl
      simp only [hunfinished, List.length_cons, List.length_nil]
      omega }

theorem Steady.setRetry (h : v.Steady hand) (hidle : v.Idle) (hphase : v.phase ≠ .initialized)
    (pending : Bool) : Steady hand { v with rearmPending := pending } :=
  { h with
    retry := fun _ => hidle
    dormant := fun hinitialized => absurd hinitialized hphase }

theorem Steady.setRefusals (h : v.Steady hand) (n : Nat) : Steady hand { v with refusals := n } :=
  { h with }

theorem Steady.setPhase {phase : Phase} (h : v.Steady hand) (hphase : phase ≠ .initialized) :
    Steady hand { v with phase } :=
  { h with dormant := fun hinitialized => absurd hinitialized hphase }

end Traffic

namespace Link

variable {l l' : Link} {hand : List Transaction} {t : Transaction}

def traffic (l : Link) : Traffic :=
  ⟨l.config, l.phase, l.refusals, l.worker, l.bus, l.inFlight, l.rearmPending,
    l.memory.transactions.free⟩

def unfinished (l : Link) : List Transaction := l.traffic.unfinished

theorem Unmoved.unfinished (h : l.Unmoved l') : l'.unfinished = l.unfinished := by
  show l'.worker.held ++ l'.bus.completed = l.worker.held ++ l.bus.completed
  rw [h.worker, h.completed]

def Idle (l : Link) : Prop := l.traffic.Idle

def Steady (hand : List Transaction) (l : Link) : Prop := l.traffic.Steady hand

def Orderly (hand : List Transaction) (l : Link) : Prop := l.traffic.Orderly hand

theorem Orderly.steady (h : l.Orderly hand) : l.Steady hand := Traffic.Orderly.toSteady h

theorem Orderly.not_draining (h : l.Orderly hand) : l.isDraining = false := by
  have hopen : l.isOpen = true := h.isOpen
  simp [isDraining, hopen]

/-- The block size is rounded up from one that holds the header. -/
theorem headerSize_le_blockSize (h : l.Steady hand) : headerSize ≤ l.config.frame.blockSize :=
  Nat.le_trans (Nat.le_of_lt h.header) (le_alignUp _ _)

theorem Steady.unfinished_le_one (h : l.Steady hand) : l.unfinished.length ≤ 1 :=
  Nat.le_trans (Nat.le_add_left _ _) h.single

theorem Steady.vacant (h : l.Steady hand) (hidle : l.Idle) (hhand : hand.length ≤ 1) :
    l.Vacant := by
  have hloaded : l.bus.loaded = none := hidle.loaded
  have hqueued : l.bus.queued = [] := h.queued
  exact ⟨by simp [Bus.pending, hloaded, hqueued], h.room, h.blank_at_hand hidle hhand⟩

theorem Orderly.canArm (h : l.Orderly hand) (hidle : l.Idle) (hhand : hand.length ≤ 1) :
    l.CanArm :=
  ⟨h.steady.vacant hidle hhand, h.willing⟩

theorem shaped_carrier (tx rx : Block) (l : Link) :
    (l.carrier tx rx).Shaped l.config.frame.blockSize := ⟨⟨tx, rfl⟩, ⟨rx, rfl⟩, rfl⟩

theorem steady_loading (h : l.Steady hand) (hidle : l.Idle) (hhand : hand.length ≤ 1)
    (hretry : l.rearmPending = false) (hphase : l.phase ≠ .initialized) (tx rx : Block) :
    (l.loading tx rx).Steady hand :=
  h.load hidle hhand hretry hphase (shaped_carrier tx rx l) rfl

theorem steady_loaded (h : l.Steady hand) (hidle : l.Idle) (hhand : hand.length ≤ 1)
    (hretry : l.rearmPending = false) (hphase : l.phase ≠ .initialized) (hloaded : l.Loaded l') :
    l'.Steady hand := by
  cases hloaded with
  | @frame rx rest p o tx _ _ =>
    exact steady_loading (l := { l.withoutBlock with mux := { l.mux with tx } }) h hidle hhand
      hretry hphase o.block rx
  | @dummy rx b rest _ _ =>
    exact steady_loading (l := l.withoutBlock.withoutBlock.setDataReady false) h hidle hhand
      hretry hphase (l.dummyIn b) rx

theorem steady_armNext (h : l.Steady hand) (hidle : l.Idle) (hhand : hand.length ≤ 1)
    (hretry : l.rearmPending = false) (hphase : l.phase ≠ .initialized) :
    l.armNext.Steady hand := by
  have hvacant := h.vacant hidle hhand
  by_cases hwilling : l.refusals = 0
  · rcases armNext_loaded_or_starved ⟨hvacant, hwilling⟩ with hloaded | hstarved
    · exact steady_loaded h hidle hhand hretry hphase hloaded
    · rw [hstarved]
      exact Traffic.Steady.setRetry h hidle hphase true
  · obtain ⟨l', stats, harmed, hturned, _⟩ := armNext_of_unwilling hvacant hwilling
    obtain ⟨_, _, _, refusals, rfl⟩ := hturned.frame
    rw [harmed]
    exact (Traffic.Steady.setRetry h hidle hphase true).setRefusals refusals

theorem refusals_armNext (h : l.CanArm) : l.armNext.refusals = 0 := by
  rcases armNext_loaded_or_starved h with hloaded | hstarved
  · generalize l.armNext = l' at hloaded ⊢
    cases hloaded <;> exact h.willing
  · rw [hstarved]
    exact h.willing

/-- Finishing a transfer with both of its blocks changes no more than this. -/
theorem finish_frame {size : Nat} (hshaped : t.Shaped size) (l : Link) :
    ∃ wire rx stats flow notices, l.finish t = { l with
      memory := { l.memory with wire, transactions := l.memory.transactions.release .blank }
      mux := { l.mux with rx }, stats, flow, notices } := by
  obtain ⟨tx, htx⟩ := hshaped.tx
  obtain ⟨rx, hrx⟩ := hshaped.rx
  exact (finish_finished htx hrx l).frame

theorem steady_finish (h : l.Steady [t]) (hshaped : t.Shaped l.config.frame.blockSize) :
    (l.finish t).Steady [] := by
  obtain ⟨wire, q, stats, flow, notices, hframe⟩ := finish_frame hshaped l
  rw [hframe]
  exact Traffic.Steady.finish h

def readied (l : Link) : Link := if l.isDraining then l else l.armNext

theorem turnAround_eq (t : Transaction) (l : Link) : l.turnAround t = l.readied.finish t := rfl

theorem readied_of_orderly (h : l.Orderly hand) : l.readied = l.armNext := by
  simp [readied, h.not_draining]

theorem unmoved_readied (h : l.Vacant) : l.Unmoved l.readied := by
  unfold readied
  split
  · exact unmoved_refl l
  · exact unmoved_armNext h

theorem rx_readied (h : l.Vacant) : l.readied.mux.rx = l.mux.rx := by
  unfold readied
  split
  · rfl
  · exact rx_armNext h

theorem droppedOverrun_readied (h : l.Vacant) :
    l.readied.stats.droppedOverrun = l.stats.droppedOverrun := by
  unfold readied
  split
  · rfl
  · exact droppedOverrun_armNext h

theorem unmoved_finish {size : Nat} (hshaped : t.Shaped size) (l : Link) :
    l.Unmoved (l.finish t) := by
  obtain ⟨_, _, _, _, _, hframe⟩ := finish_frame hshaped l
  rw [hframe]
  exact ⟨rfl, rfl, rfl, rfl, rfl⟩

theorem refusals_finish {size : Nat} (hshaped : t.Shaped size) (l : Link) :
    (l.finish t).refusals = l.refusals := by
  obtain ⟨_, _, _, _, _, hframe⟩ := finish_frame hshaped l
  rw [hframe]

/-- A turn leaves alone what only the application and the host change. -/
theorem unmoved_turnAround (h : l.Steady [t]) (hidle : l.Idle)
    (hshaped : t.Shaped l.config.frame.blockSize) : l.Unmoved (l.turnAround t) :=
  (unmoved_readied (h.vacant hidle (Nat.le_refl _))).trans (unmoved_finish hshaped l.readied)

theorem turnAround_of_orderly (h : l.Orderly hand) (t : Transaction) :
    l.turnAround t = l.armNext.finish t := by
  rw [turnAround_eq, readied_of_orderly h]

theorem steady_readied (h : l.Steady hand) (hidle : l.Idle) (hhand : hand.length ≤ 1)
    (hretry : l.rearmPending = false) (hphase : l.phase ≠ .initialized) :
    l.readied.Steady hand := by
  unfold readied
  split
  · exact h
  · exact steady_armNext h hidle hhand hretry hphase

theorem steady_turnAround (h : l.Steady [t]) (hidle : l.Idle) (hretry : l.rearmPending = false)
    (hphase : l.phase ≠ .initialized) (hshaped : t.Shaped l.config.frame.blockSize) :
    (l.turnAround t).Steady [] := by
  have hone : [t].length ≤ 1 := Nat.le_refl _
  have hconfig := (unmoved_readied (h.vacant hidle hone)).config
  rw [turnAround_eq]
  rw [← hconfig] at hshaped
  exact steady_finish (steady_readied h hidle hone hretry hphase) hshaped

theorem announcing_frame {r : Except LinkError Unit} (ha : l.Announcing (r, l')) :
    l'.worker = l.worker ∧ l'.phase = l.phase ∧ l'.config = l.config ∧ l'.mux.rx = l.mux.rx ∧
      l'.stats = l.stats ∧ l'.bus.completed = l.bus.completed := by
  cases ha <;> exact ⟨rfl, rfl, rfl, rfl, rfl, rfl⟩

theorem steady_announcing {r : Except LinkError Unit} (h : l.Steady []) (hidle : l.Idle)
    (hretry : l.rearmPending = false) (hphase : l.phase ≠ .initialized)
    (ha : l.Announcing (r, l')) : l'.Steady [] := by
  cases ha with
  | spent => exact h
  | @armed b rx rest n out _ _ _ =>
    exact steady_loading (l := l.eventTaken.withoutBlock.withoutBlock) h hidle (Nat.zero_le _)
      hretry hphase { b with bytes := out } rx
  | failed e hunsent hscribbled =>
    rcases hscribbled with rfl | ⟨b, rest, bytes, _, _, rfl⟩
    · exact h
    · exact h
  | turnedAway => exact Traffic.Steady.setRefusals h _

theorem steady_starting {r : Except LinkError Unit} (h : l.Steady [])
    (hstarting : l.Starting (r, l')) : l'.Steady [] := by
  cases hstarting with
  | refused => exact h
  | @up l₁ early announced =>
    obtain ⟨hidle, habsent, hretry⟩ := h.dormant early
    obtain ⟨hworker, hphase, _⟩ := announcing_frame announced
    have hheld : l₁.traffic.worker.held = [] := (congrArg Worker.held hworker).trans hidle.held
    have hup : l₁.Steady [] := steady_announcing (l := { l with phase := .active })
      (h.activate hidle) hidle hretry nofun announced
    exact Traffic.Steady.setWorker hup hheld rfl fun hinitialized => by
      simp [traffic, hphase] at hinitialized
  | failed e early announced =>
    have hback : Traffic.Steady [] { l.traffic with phase := .initialized } := by
      rw [← early]
      exact h
    cases announced with
    | failed _ _ scribbled =>
      rcases scribbled with rfl | ⟨_, _, _, _, _, rfl⟩
      · exact hback
      · exact hback
    | turnedAway => exact hback.setRefusals _

end Link
end SlaveLink
