import SlaveLink.Proofs.Link.Orderly

/-! # How the worker comes to rest
With at most one transfer clocked and not yet finished, the worker has four ways to spend a step: it
stays where it is, goes on waiting for chip-select, takes a transfer over and waits with it, or
turns one transfer around. -/

namespace SlaveLink.Link

variable {l : Link} {withheld : Bool}

def releaseTurn? (t : Transaction) (l : Link) : Option (Transaction × Link) :=
  let (released, signals) := l.signals.takeRelease
  if released then some (t, { l with signals, worker := .parked }) else none

def completedTurn? (l : Link) : Option (Transaction × Link) :=
  match l.bus.collect? with
  | none => none
  | some (t, bus) =>
    let l := { l with bus, inFlight := l.inFlight - 1 }
    match l.config.policy with
    | .onTransactionEnd => some (t, l)
    | .onChipSelect => l.releaseTurn? t

/-- The transfer that the worker turns around when it runs, and the link at that moment. -/
def turn? (withheld : Bool) (l : Link) : Option (Transaction × Link) :=
  match l.worker with
  | .absent => none
  | .waiting t => l.releaseTurn? t
  | .parked => if withheld then none else l.completedTurn?

inductive Settling (withheld : Bool) (l : Link) : Link → Prop
  | rest (none : l.turn? withheld = none) : Settling withheld l l
  | wait {t : Transaction} (none : l.turn? withheld = none) (waiting : l.worker = .waiting t) :
      Settling withheld l { l with signals := l.signals.takeRelease.2 }
  | hold {t : Transaction} (none : l.turn? withheld = none) (parked : l.worker = .parked)
      (completed : l.bus.completed = [t]) (reached : withheld = false) :
      Settling withheld l { l with
        bus := { l.bus with completed := [] }
        inFlight := l.inFlight - 1
        signals := l.signals.takeRelease.2
        worker := .waiting t }
  | turn {t : Transaction} {l' : Link} (turn : l.turn? withheld = some (t, l')) :
      Settling withheld l (l'.turnAround t)

theorem unfinished_eq (l : Link) : l.unfinished = l.worker.held ++ l.bus.completed := rfl

theorem completed_le_one (hone : l.unfinished.length ≤ 1) : l.bus.completed.length ≤ 1 := by
  rw [unfinished_eq, List.length_append] at hone
  omega

theorem completed_of_cons {t : Transaction} {rest : List Transaction}
    (hone : l.unfinished.length ≤ 1) (h : l.bus.completed = t :: rest) :
    l.bus.completed = [t] := by
  have hlength := completed_le_one hone
  rw [h, List.length_cons] at hlength
  have hrest : rest = [] := List.length_eq_zero_iff.mp (by omega)
  rw [h, hrest]

theorem completed_of_waiting {t : Transaction} (hone : l.unfinished.length ≤ 1)
    (hworker : l.worker = .waiting t) : l.bus.completed = [] := by
  rw [unfinished_eq, hworker, List.length_append, Worker.held, List.length_singleton] at hone
  exact List.length_eq_zero_iff.mp (by omega)

theorem unfinished_setWorker {w : Worker} (h : l.worker.held = []) (hw : w.held = []) :
    unfinished { l with worker := w } = l.unfinished := by
  simp only [unfinished_eq, h, hw]

theorem unfinished_stopWorker (h : l.worker = .parked) :
    l.stopWorker.unfinished = l.unfinished :=
  unfinished_setWorker (congrArg Worker.held h) rfl

/-- A link comes up with a worker that holds nothing. -/
theorem unfinished_up {l' : Link} {r : Except LinkError Unit} (hidle : l.Idle)
    (announced : { l with phase := .active }.Announcing (r, l')) :
    unfinished { l' with worker := .parked } = l'.unfinished := by
  have hheld : l'.worker.held = [] := by
    rw [(announcing_frame announced).1]
    exact hidle.held
  exact unfinished_setWorker hheld rfl

theorem awaitRelease_eq (t : Transaction) (l : Link) : l.awaitRelease t =
    match l.releaseTurn? t with
    | some (t, l) => l.turnAround t
    | none => { l with signals := l.signals.takeRelease.2, worker := .waiting t } := by
  unfold awaitRelease releaseTurn?
  cases hr : l.signals.takeRelease with
  | mk released signals => cases released <;> rfl

theorem releaseTurn?_eq_some {t t' : Transaction} {l' : Link}
    (h : l.releaseTurn? t = some (t', l')) :
    t' = t ∧ ∃ signals, l' = { l with signals, worker := .parked } := by
  simp only [releaseTurn?, Option.ite_none_right_eq_some, Option.some.injEq, Prod.mk.injEq] at h
  obtain ⟨_, rfl, rfl⟩ := h
  exact ⟨rfl, _, rfl⟩

theorem takeRelease_of_releaseTurn? {t t' : Transaction} {l' : Link}
    (h : l.releaseTurn? t = some (t', l')) : l.signals.takeRelease = (true, l'.signals) := by
  unfold releaseTurn? at h
  cases hseen : l.signals.takeRelease with
  | mk released signals =>
    simp only [hseen, Option.ite_none_right_eq_some, Option.some.injEq, Prod.mk.injEq] at h
    obtain ⟨rfl, _, rfl⟩ := h
    rfl

theorem completedTurn?_eq_some {t : Transaction} {l' : Link} (hone : l.unfinished.length ≤ 1)
    (hparked : l.worker = .parked) (h : l.completedTurn? = some (t, l')) :
    l.bus.completed = [t] ∧ ∃ signals, l' = { l with
      bus := { l.bus with completed := [] }, inFlight := l.inFlight - 1, signals
      worker := .parked } := by
  unfold completedTurn? at h
  cases hcompleted : l.bus.completed with
  | nil => simp [Bus.collect?, hcompleted] at h
  | cons u rest =>
    have hlist := hcompleted.symm.trans (completed_of_cons hone hcompleted)
    obtain rfl := List.tail_eq_of_cons_eq hlist
    simp only [Bus.collect?, hcompleted] at h
    cases hpolicy : l.config.policy with
    | onTransactionEnd =>
      simp only [hpolicy, Option.some.injEq, Prod.mk.injEq] at h
      obtain ⟨rfl, rfl⟩ := h
      exact ⟨rfl, l.signals, by rw [← hparked]⟩
    | onChipSelect =>
      simp only [hpolicy] at h
      obtain ⟨rfl, signals, rfl⟩ := releaseTurn?_eq_some h
      exact ⟨rfl, signals, rfl⟩

/-- The transfer that is turned around is the only one there was. -/
theorem turn?_eq_some {t : Transaction} {l' : Link} (hone : l.unfinished.length ≤ 1)
    (h : l.turn? withheld = some (t, l')) : l.unfinished = [t] ∧ ∃ signals, l' = { l with
      bus := { l.bus with completed := [] }
      inFlight := l.inFlight - l.bus.completed.length
      signals
      worker := .parked } := by
  rw [unfinished_eq]
  unfold turn? at h
  cases hworker : l.worker with
  | absent => simp [hworker] at h
  | waiting u =>
    simp only [hworker] at h
    obtain ⟨rfl, signals, rfl⟩ := releaseTurn?_eq_some h
    have hnone := completed_of_waiting hone hworker
    have hbus : { l.bus with completed := [] } = l.bus := by rw [← hnone]
    refine ⟨by simp [Worker.held, hnone], signals, ?_⟩
    rw [hbus, hnone]
    rfl
  | parked =>
    simp only [hworker, Option.ite_none_left_eq_some] at h
    simp only [Worker.held, List.nil_append]
    obtain ⟨hlist, signals, rfl⟩ := completedTurn?_eq_some hone hworker h.2
    exact ⟨hlist, signals, by rw [hlist]; rfl⟩

/-- A transfer is turned around at once, or once a release of chip-select was taken. -/
theorem signals_of_turn? {t : Transaction} {l' : Link} (h : l.turn? withheld = some (t, l')) :
    l.config.policy = .onTransactionEnd ∧ l'.signals = l.signals ∨
      l.signals.takeRelease = (true, l'.signals) := by
  unfold turn? at h
  cases hworker : l.worker with
  | absent => simp [hworker] at h
  | waiting u =>
    simp only [hworker] at h
    exact .inr (takeRelease_of_releaseTurn? h)
  | parked =>
    simp only [hworker, Option.ite_none_left_eq_some, completedTurn?] at h
    cases hcollect : l.bus.collect? with
    | none => simp [hcollect] at h
    | some taken =>
      cases hpolicy : l.config.policy with
      | onTransactionEnd =>
        simp only [hcollect, hpolicy, Option.some.injEq, Prod.mk.injEq] at h
        obtain ⟨_, _, rfl⟩ := h
        exact .inl ⟨rfl, rfl⟩
      | onChipSelect =>
        simp only [hcollect, hpolicy] at h
        have hreleased := takeRelease_of_releaseTurn? h.2
        exact .inr hreleased

theorem collect_of_busy (n : Nat) (h : l.worker ≠ .parked) : l.collect n = l := by
  cases n with
  | zero => rfl
  | succ n => simp [collect, h]

/-- The transfer that the worker is about to turn around is in hand, and the link is idle. -/
theorem steady_of_turn? {t : Transaction} {l' : Link} (h : l.Steady [])
    (hturn : l.turn? withheld = some (t, l')) :
    l'.Steady [t] ∧ l'.Idle ∧ t.Shaped l'.config.frame.blockSize := by
  obtain ⟨hone, signals, rfl⟩ := turn?_eq_some h.unfinished_le_one hturn
  have hmem : t ∈ l.unfinished := by simp [hone]
  exact ⟨h.take hone, h.idle_take hone, h.shaped t (List.mem_append_right _ hmem)⟩

theorem orderly_of_turn? {t : Transaction} {l' : Link} (h : l.Orderly [])
    (hturn : l.turn? withheld = some (t, l')) :
    l'.Orderly [t] ∧ l'.Idle ∧ t.Shaped l'.config.frame.blockSize := by
  obtain ⟨hsteady, hidle, hshaped⟩ := steady_of_turn? h.steady hturn
  obtain ⟨_, signals, rfl⟩ := turn?_eq_some h.steady.unfinished_le_one hturn
  exact ⟨⟨hsteady, h.isOpen, h.willing⟩, hidle, hshaped⟩

/-- While a transfer is unfinished, nothing is loaded, no retry is due and the link was started. -/
theorem busy_of_unfinished (h : l.Steady []) (hbusy : l.unfinished ≠ []) :
    l.bus.loaded = none ∧ l.rearmPending = false ∧ l.phase ≠ .initialized := by
  have hnotIdle : ¬ l.Idle := fun hidle => hbusy hidle.unfinished
  refine ⟨?_, ?_, fun hphase => hnotIdle (h.dormant hphase).1⟩
  · cases hloaded : l.bus.loaded with
    | none => rfl
    | some t => exact absurd (List.append_eq_nil_iff.mpr (h.nothing_unfinished hloaded)) hbusy
  · cases hretry : l.rearmPending with
    | false => rfl
    | true => exact absurd (h.retry hretry) hnotIdle

theorem started_of_unfinished {t : Transaction} (h : l.Steady []) (hone : l.unfinished = [t]) :
    l.rearmPending = false ∧ l.phase ≠ .initialized :=
  (busy_of_unfinished h (by simp [hone])).2

theorem unfinished_turnAround {t : Transaction} (h : l.Steady [t]) (hidle : l.Idle)
    (hshaped : t.Shaped l.config.frame.blockSize) : (l.turnAround t).unfinished = [] := by
  rw [(unmoved_turnAround h hidle hshaped).unfinished]
  exact hidle.unfinished

theorem complete_eq {u : Transaction} {bus : Bus}
    (hcollect : l.bus.collect? = some (u, bus)) : { l with bus }.complete u =
      match l.completedTurn? with
      | some (t, l) => l.turnAround t
      | none => { l with
        bus
        inFlight := l.inFlight - 1
        signals := l.signals.takeRelease.2
        worker := .waiting u } := by
  unfold complete completedTurn?
  rw [hcollect]
  cases hpolicy : l.config.policy with
  | onTransactionEnd => simp only [hpolicy]
  | onChipSelect =>
    simp only [hpolicy]
    rw [awaitRelease_eq]

theorem collect_of_completed {t : Transaction} (h : l.worker = .parked)
    (hlist : l.bus.completed = [t]) : l.collect 1 =
      match l.completedTurn? with
      | some (t, l) => l.turnAround t
      | none => { l with
        bus := { l.bus with completed := [] }
        inFlight := l.inFlight - 1
        signals := l.signals.takeRelease.2
        worker := .waiting t } := by
  have hcollect : l.bus.collect? = some (t, { l.bus with completed := [] }) := by
    simp [Bus.collect?, hlist]
  rw [← complete_eq hcollect]
  simp [collect, h, hcollect]

theorem settle_of_turn {t : Transaction} {l' : Link} (h : l.Steady [])
    (hturn : l.turn? withheld = some (t, l')) : l.settle withheld = l'.turnAround t := by
  obtain ⟨hsteady, hidle, hshaped⟩ := steady_of_turn? h hturn
  have hcompleted : (l'.turnAround t).bus.completed = [] :=
    (unmoved_turnAround hsteady hidle hshaped).completed.trans hidle.completed
  have hone := turn?_eq_some h.unfinished_le_one hturn
  cases hworker : l.worker with
  | absent => simp [turn?, hworker] at hturn
  | waiting u =>
    have hresume : l.resume = l'.turnAround t := by
      simp only [turn?, hworker] at hturn
      simp only [resume, hworker, awaitRelease_eq, hturn]
    cases withheld
    · simp [settle, hresume, hcompleted, collect]
    · simp [settle, hresume]
  | parked =>
    have hresume : l.resume = l := by simp [resume, hworker]
    cases withheld with
    | true => simp [turn?, hworker] at hturn
    | false =>
      have hlist : l.bus.completed = [t] := by
        simpa [unfinished_eq, hworker, Worker.held] using hone.1
      simp only [turn?, hworker, Bool.false_eq_true, if_false] at hturn
      simp only [settle, hresume, hlist, List.length_singleton, Bool.false_eq_true, if_false,
        collect_of_completed hworker hlist, hturn]

/-- Where the worker comes to rest without turning a transfer around. -/
def rested (withheld : Bool) (l : Link) : Link :=
  match l.worker with
  | .absent => l
  | .waiting _ => { l with signals := l.signals.takeRelease.2 }
  | .parked =>
    if withheld then l
    else
      match l.bus.collect? with
      | none => l
      | some (t, bus) => { l with
        bus, inFlight := l.inFlight - 1, signals := l.signals.takeRelease.2, worker := .waiting t }

theorem settle_of_waiting {t : Transaction} (hone : l.unfinished.length ≤ 1)
    (hworker : l.worker = .waiting t) (hturn : l.turn? withheld = none) :
    l.settle withheld = { l with signals := l.signals.takeRelease.2 } := by
  have hcompleted := completed_of_waiting hone hworker
  have hresume : l.resume = { l with signals := l.signals.takeRelease.2 } := by
    simp only [turn?, hworker] at hturn
    simp only [resume, hworker, awaitRelease_eq, hturn]
  cases withheld
  · simp [settle, hresume, hcompleted, collect]
  · simp [settle, hresume]

theorem settle_of_parked (hone : l.unfinished.length ≤ 1) (hworker : l.worker = .parked)
    (hturn : l.turn? withheld = none) : l.settle withheld = l.rested withheld := by
  have hresume : l.resume = l := by simp [resume, hworker]
  cases withheld with
  | true => simp only [settle, hresume, rested, hworker, if_true]
  | false =>
    simp only [settle, hresume, rested, hworker, Bool.false_eq_true, if_false]
    cases hcompleted : l.bus.completed with
    | nil => simp [Bus.collect?, hcompleted, collect]
    | cons t rest =>
      have hlist := completed_of_cons hone hcompleted
      have hnone : l.completedTurn? = none := by simpa [turn?, hworker] using hturn
      rw [← hcompleted, hlist, List.length_singleton, collect_of_completed hworker hlist, hnone]
      simp only [Bus.collect?, hlist]

theorem settle_of_unturned (hone : l.unfinished.length ≤ 1) (hturn : l.turn? withheld = none) :
    l.settle withheld = l.rested withheld := by
  cases hworker : l.worker with
  | parked => exact settle_of_parked hone hworker hturn
  | waiting t =>
    rw [settle_of_waiting hone hworker hturn]
    simp only [rested, hworker]
  | absent =>
    simp only [rested, hworker]
    cases withheld
    · simpa [settle, resume, hworker] using collect_of_busy _ (by simp [hworker])
    · simp [settle, resume, hworker]

theorem settling (h : l.Steady []) (withheld : Bool) :
    l.Settling withheld (l.settle withheld) := by
  cases hturn : l.turn? withheld with
  | some turn =>
    rw [settle_of_turn h hturn]
    exact .turn hturn
  | none =>
    rw [settle_of_unturned h.unfinished_le_one hturn]
    cases hworker : l.worker with
    | absent =>
      simp only [rested, hworker]
      exact .rest hturn
    | waiting t =>
      simp only [rested, hworker]
      rw [← hworker]
      exact .wait hturn hworker
    | parked =>
      simp only [rested, hworker]
      split
      · exact .rest hturn
      · next hreached =>
        cases hcompleted : l.bus.completed with
        | nil =>
          simp only [Bus.collect?, hcompleted]
          exact .rest hturn
        | cons t rest =>
          have hlist := completed_of_cons h.unfinished_le_one hcompleted
          simp only [Bus.collect?, hlist]
          exact .hold hturn hworker hlist (by simpa using hreached)

theorem settle_of_finished (h : l.Steady []) (hnone : l.unfinished = []) :
    l.settle withheld = l := by
  generalize hend : l.settle withheld = l'
  have hsettling := settling h withheld
  rw [hend] at hsettling
  cases hsettling with
  | rest => rfl
  | wait _ hwaiting => simp [unfinished_eq, hwaiting, Worker.held] at hnone
  | hold _ _ hcompleted => simp [unfinished_eq, hcompleted] at hnone
  | turn hturn =>
    have hone := turn?_eq_some h.unfinished_le_one hturn
    simp [hnone] at hone

theorem steady_settle (h : l.Steady []) (withheld : Bool) : (l.settle withheld).Steady [] := by
  generalize hend : l.settle withheld = l'
  have hsettling := settling h withheld
  rw [hend] at hsettling
  cases hsettling with
  | rest _ => exact h
  | wait _ hworker => exact h
  | hold _ hparked hcompleted => exact Traffic.Steady.hold h hparked hcompleted
  | turn hturn =>
    obtain ⟨hsteady, hidle, hshaped⟩ := steady_of_turn? h hturn
    obtain ⟨hone, signals, rfl⟩ := turn?_eq_some h.unfinished_le_one hturn
    obtain ⟨hretry, hphase⟩ := started_of_unfinished h hone
    exact steady_turnAround hsteady hidle hretry hphase hshaped

/-- Settling leaves alone what only the application and the host change. -/
theorem settle_frame (h : l.Steady []) (withheld : Bool) :
    (l.settle withheld).phase = l.phase ∧ (l.settle withheld).startup = l.startup ∧
      (l.settle withheld).config = l.config := by
  generalize hend : l.settle withheld = l'
  have hsettling := settling h withheld
  rw [hend] at hsettling
  cases hsettling with
  | rest | wait | hold => exact ⟨rfl, rfl, rfl⟩
  | @turn t l₁ hturn =>
    obtain ⟨hsteady, hidle, hshaped⟩ := steady_of_turn? h hturn
    obtain ⟨_, signals, rfl⟩ := turn?_eq_some h.unfinished_le_one hturn
    have hunmoved := unmoved_turnAround hsteady hidle hshaped
    exact ⟨hunmoved.phase, hunmoved.startup, hunmoved.config⟩

theorem refusals_settle (h : l.Steady []) (hwilling : l.refusals = 0) (withheld : Bool) :
    (l.settle withheld).refusals = 0 := by
  generalize hend : l.settle withheld = l'
  have hsettling := settling h withheld
  rw [hend] at hsettling
  cases hsettling with
  | rest | wait | hold => exact hwilling
  | turn hturn =>
    obtain ⟨hsteady, hidle, hshaped⟩ := steady_of_turn? h hturn
    obtain ⟨_, signals, rfl⟩ := turn?_eq_some h.unfinished_le_one hturn
    rw [turnAround_eq, refusals_finish hshaped]
    unfold readied
    split
    · exact hwilling
    · exact refusals_armNext ⟨hsteady.vacant hidle (Nat.le_refl _), hwilling⟩

theorem orderly_settle (h : l.Orderly []) (withheld : Bool) : (l.settle withheld).Orderly [] := by
  refine ⟨steady_settle h.steady withheld, ?_, refusals_settle h.steady h.willing withheld⟩
  show (l.settle withheld).phase.isOpen = true
  rw [(settle_frame h.steady withheld).1]
  exact h.isOpen

end SlaveLink.Link
