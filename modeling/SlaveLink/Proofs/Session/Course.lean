import Mathlib.Data.List.Induction
import SlaveLink.Proofs.Link.Legible
import SlaveLink.Proofs.Session.Teardown

/-! # The course of a run
Beside what can be seen from outside, a run has a course: the transfers that the worker finishes,
and the transactions that reach the bus driver, whether it takes them or turns them down. Both are
read off the states before and after the two halves of a step, the act and the worker's rest. -/

namespace SlaveLink.Session

variable {s m : Session} {c : LinkConfig} {host : HostLevels} {step : Step} {r : Reply}
  {l l' : Link} {t : Transaction}

def gather {α : Type} (f : Step → Session → List α) (s : Session) : List Step → List α
  | [] => []
  | step :: steps => f step s ++ (s.step step).2.gather f steps

theorem gather_concat {α : Type} (f : Step → Session → List α) (s : Session) (steps : List Step)
    (step : Step) :
    s.gather f (steps ++ [step]) = s.gather f steps ++ f step (s.run steps).2 := by
  induction steps generalizing s with
  | nil => simp [gather, run]
  | cons first steps ih => simp [gather, ih, run, List.append_assoc]

theorem along_concat (h : History) (s : Session) (steps : List Step) (step : Step) :
    h.along s (steps ++ [step]) = (h.along s steps).note step (s.run steps).2 := by
  induction steps generalizing h s with
  | nil => rfl
  | cons first steps ih => exact ih _ _

theorem history_concat (s : Session) (steps : List Step) (step : Step) :
    s.history (steps ++ [step]) = (s.history steps).note step (s.run steps).2 :=
  along_concat {} s steps step

def finishing (step : Step) (s : Session) : List Transaction :=
  let acted := (s.quiet.act step).2
  acted.link.unfinished.take
    (acted.link.unfinished.length - acted.settle.link.unfinished.length)

structure Arm where
  /-- The host reads a frame in what it sends, and no dummy. -/
  carriesFrame : Bool
  /-- The driver took it. -/
  accepted : Bool
deriving DecidableEq, Repr

/-- What reached the driver while one link became another: a transaction that is loaded, or one for
which a refusal was used up, and with it the frame that was due if there was one. -/
def armed (l l' : Link) : List Arm :=
  match l.bus.loaded, l'.bus.loaded with
  | none, some t => [⟨(l.config.frame.priorityIn? t.outgoing).isSome, true⟩]
  | _, _ =>
    if l'.refusals < l.refusals then [⟨decide (l'.mux.tx.total < l.mux.tx.total), false⟩] else []

def armedBy (step : Step) (l l' : Link) : List Arm :=
  match step with
  | .start => (armed l l').filter (·.accepted)
  | .tick => armed l l'
  | _ => []

/-- What reached the driver in a step, handed to it by a start that succeeded or by the worker. -/
def arms (step : Step) (s : Session) : List Arm :=
  let acted := (s.quiet.act step).2
  armedBy step s.quiet.link acted.link ++ armed acted.link acted.settle.link

def declined (arms : List Arm) : Nat := arms.countP (!·.accepted)

theorem armed_of_same (hloaded : l'.bus.loaded = l.bus.loaded)
    (hrefusals : l'.refusals = l.refusals) : armed l l' = [] := by
  simp only [armed, hloaded, hrefusals, Nat.lt_irrefl, if_false]
  split
  · next hnone hsome => simp [hnone] at hsome
  · rfl

theorem armedBy_of_same (hloaded : l'.bus.loaded = l.bus.loaded)
    (hrefusals : l'.refusals = l.refusals) : armedBy step l l' = [] := by
  unfold armedBy
  split <;> simp [armed_of_same hloaded hrefusals]

theorem armedBy_of_offer {sequence : UInt16} {f : Frame} (h : step.offer? sequence = some f)
    (l l' : Link) : armedBy step l l' = [] := by
  cases step <;> simp_all [Step.offer?, armedBy]

theorem armedBy_of_clocks {data : Bytes} {fault : Option String}
    (h : step.clocks? = some (data, fault)) (l l' : Link) : armedBy step l l' = [] := by
  cases step <;> simp_all [Step.clocks?, armedBy]

/-- Nothing is turned down by a driver that refuses nothing. -/
theorem declined_of_willing (hwilling : l.refusals = 0) : declined (armed l l') = 0 := by
  unfold armed
  split
  · rfl
  · simp [hwilling, declined]

theorem armed_of_loaded {t : Transaction} (hnone : l.bus.loaded = none)
    (hloaded : l'.bus.loaded = some t) :
    armed l l' = [⟨(l.config.frame.priorityIn? t.outgoing).isSome, true⟩] := by
  simp only [armed, hnone, hloaded]

theorem armed_of_refused (hnone : l'.bus.loaded = none) (hrefusals : l'.refusals < l.refusals) :
    armed l l' = [⟨decide (l'.mux.tx.total < l.mux.tx.total), false⟩] := by
  unfold armed
  split
  · next hsome => simp [hnone] at hsome
  · exact if_pos hrefusals

theorem declined_append (xs ys : List Arm) : declined (xs ++ ys) = declined xs + declined ys :=
  List.countP_append

theorem declined_accepted (xs : List Arm) : declined (xs.filter (·.accepted)) = 0 := by
  rw [declined, List.countP_eq_zero]
  intro a ha
  simp [(List.mem_filter.mp ha).2]

/-- What the worker leaves alone when it turns no transfer around. -/
structure Idled (l l' : Link) : Prop where
  config : l'.config = l.config
  stats : l'.stats = l.stats
  mux : l'.mux = l.mux
  refusals : l'.refusals = l.refusals
  loaded : l'.bus.loaded = l.bus.loaded
  clocked : l'.bus.clocked = l.bus.clocked
  unfinished : l'.unfinished = l.unfinished
  signals : l'.signals = l.signals ∨ l'.signals = l.signals.takeRelease.2

theorem Idled.armed (h : Idled l l') : armed l l' = [] := armed_of_same h.loaded h.refusals

theorem idled_or_turned (h : s.link.Steady []) : Idled s.link s.settle.link ∨
    ∃ t l, s.link.turn? s.withheld = some (t, l) ∧ s.settle.link = l.turnAround t := by
  unfold settle
  split
  · exact .inl ⟨rfl, rfl, rfl, rfl, rfl, rfl, rfl, .inl rfl⟩
  · have hsettling := Link.settling h s.withheld
    simp only [onLink]
    generalize s.link.settle s.withheld = l' at hsettling ⊢
    cases hsettling with
    | rest => exact .inl ⟨rfl, rfl, rfl, rfl, rfl, rfl, rfl, .inl rfl⟩
    | wait => exact .inl ⟨rfl, rfl, rfl, rfl, rfl, rfl, rfl, .inr rfl⟩
    | @hold t _ parked completed =>
      have hsame : s.link.unfinished = [t] := by
        simp [Link.unfinished_eq, parked, completed, Worker.held]
      exact .inl ⟨rfl, rfl, rfl, rfl, rfl, rfl, hsame.symm, .inr rfl⟩
    | turn turn => exact .inr ⟨_, _, turn, rfl⟩

theorem unfinished_of_turned (h : s.link.Steady []) (hturn : s.link.turn? s.withheld = some (t, l))
    (hsettle : s.settle.link = l.turnAround t) :
    s.link.unfinished = [t] ∧ s.settle.link.unfinished = [] := by
  obtain ⟨hsteady, hidle, hshaped⟩ := Link.steady_of_turn? h hturn
  obtain ⟨hone, _⟩ := Link.turn?_eq_some h.unfinished_le_one hturn
  refine ⟨hone, ?_⟩
  rw [hsettle]
  exact Link.unfinished_turnAround hsteady hidle hshaped

/-- Before it finishes, the worker arms the next transfer, unless the link is closed. -/
theorem attempt_readied (h : l.Vacant) : l.readied = l ∨ l.Attempt l.readied := by
  unfold Link.readied
  split
  · exact .inl rfl
  · exact .inr (Link.attempt h)

/-- Finishing a transfer arms nothing. -/
theorem armed_turnAround {size : Nat} (hshaped : t.Shaped size) (l : Link) :
    armed l (l.turnAround t) = armed l l.readied := by
  obtain ⟨_, _, _, _, _, hframe⟩ := Link.finish_frame hshaped l.readied
  rw [Link.turnAround_eq, hframe]
  rfl

theorem armed_of_turn (h : s.link.Steady []) (hturn : s.link.turn? s.withheld = some (t, l))
    (hsettle : s.settle.link = l.turnAround t) :
    armed s.link s.settle.link = armed l l.readied := by
  have hshaped := (Link.steady_of_turn? h hturn).2.2
  obtain ⟨_, signals, heq⟩ := Link.turn?_eq_some h.unfinished_le_one hturn
  rw [hsettle, ← armed_turnAround hshaped, heq]
  rfl

theorem finishing_of_idled (h : Idled (s.quiet.act step).2.link (s.quiet.act step).2.settle.link) :
    finishing step s = [] := by
  simp [finishing, h.unfinished]

theorem finishing_of_turned (hone : (s.quiet.act step).2.link.unfinished = [t])
    (hnone : (s.quiet.act step).2.settle.link.unfinished = []) : finishing step s = [t] := by
  simp [finishing, hone, hnone]

theorem legible_acting (h : s.Steady) (hlegible : s.link.Legible) (hacting : s.Acting step (r, m)) :
    m.link.Legible := by
  cases hacting with
  | aside | received | dropped => exact hlegible
  | stopped parked =>
    refine ⟨hlegible.queued, fun t ht => hlegible.transfers t ?_⟩
    rwa [← Link.unfinished_stopWorker parked]
  | started starting => exact Link.legible_starting h.traffic h.sized hlegible starting
  | @submitted _ _ sequence _ _ _ submission =>
    exact Link.legible_submission (l := { s.link with sequence }) hlegible h.traffic.word submission
  | @clocked _ data fault t signals _ _ loaded =>
    refine ⟨hlegible.queued, ?_⟩
    intro u hu
    have hu' : u ∈ (clocking (t.clocked data fault) signals s.link).unfinished := hu
    rw [unfinished_clocking h.traffic loaded] at hu'
    have hout : u.outgoing = t.outgoing := by
      rw [List.mem_singleton.mp hu']
      cases fault <;> rfl
    rw [hout]
    exact hlegible.transfers t (by simp [loaded])
  | retried parked pending =>
    obtain ⟨hsteady, hidle⟩ := steady_retry h.traffic pending
    exact Link.legible_armNext (l := { s.link with rearmPending := false }) hlegible hidle h.sized
      (Link.headerSize_le_blockSize hsteady) (hsteady.vacant hidle (Nat.zero_le _))

theorem legible_ending (hlegible : s.link.Legible) (hending : s.Ending step (r, m)) :
    m.link.Legible := by
  cases hending with
  | closing | refusing => exact hlegible
  | left parked =>
    refine ⟨hlegible.queued, fun t ht => hlegible.transfers t ?_⟩
    rwa [← Link.unfinished_stopWorker parked]
  | dismantled =>
    refine ⟨?_, nofun⟩
    intro p o ho
    cases p <;> cases ho

theorem legible_act (step : Step) (h : s.Steady) (hlegible : s.link.Legible) :
    (s.act step).2.link.Legible := by
  rcases acting_or_ending h.traffic step with hacting | hending
  · exact legible_acting h hlegible hacting
  · exact legible_ending hlegible hending

theorem legible_rest (h : s.Steady) (hlegible : s.link.Legible) : s.settle.link.Legible := by
  unfold settle
  split
  · exact hlegible
  · exact Link.legible_settle h.traffic h.sized hlegible _

/-- Every step leaves what the link sends readable. -/
theorem legible_step (step : Step) (h : s.Steady) (hlegible : s.link.Legible) :
    (s.step step).2.link.Legible :=
  legible_rest (steady_act step (steady_quiet h)) (legible_act step (steady_quiet h) hlegible)

theorem legible_run (hcreate : create c host = .ok s) (steps : List Step) :
    (s.run steps).2.link.Legible :=
  (run_keeps (P := fun s => s.Steady ∧ s.link.Legible)
    (fun _ step h => ⟨steady_step step h.1, legible_step step h.1 h.2⟩)
    ⟨(sound_create hcreate).toSteady, Link.legible_create (create_eq_ok hcreate).1⟩ steps).2

/-- A link that is not torn down was not torn down before, and is not being taken apart. -/
theorem standing_of_step (h : s.Lasting c) (step : Step)
    (hstanding : (s.step step).2.link.phase ≠ .deinit) :
    s.link.phase ≠ .deinit ∧ ¬ s.quiet.Dismantles step := by
  refine ⟨?_, ?_⟩
  · intro hgone
    exact hstanding (lingering_step h.toSteady (h.final hgone) step).2.phase
  · intro hfinal
    have hrest := (phase_rest (steady_act step (steady_quiet h.toSteady)).traffic).1
    have hacted : (s.quiet.act step).2.link.phase = .deinit := by
      rw [act_of_dismantles hfinal]
      rfl
    exact hstanding (hrest.trans hacted)

/-- What every step keeps that does not take the link apart holds after every run that has not torn
the link down. The induction is from the end, where histories and logs grow. -/
theorem standing_induction {P : List Step → Prop} (hcreate : create c host = .ok s) (hnil : P [])
    (hconcat : ∀ steps step, (s.run steps).2.Lasting c →
      ¬ (s.run steps).2.quiet.Dismantles step → P steps → P (steps ++ [step]))
    {steps : List Step} (hstanding : (s.run steps).2.link.phase ≠ .deinit) : P steps := by
  induction steps using List.reverseRecOn with
  | nil => exact hnil
  | append_singleton steps step ih =>
    have hlasting := lasting_run (lasting_create hcreate) steps
    rw [run_concat] at hstanding
    obtain ⟨hbefore, hstays⟩ := standing_of_step hlasting step hstanding
    exact hconcat steps step hlasting hstays (ih hbefore)

theorem declined_step (hsteady : s.Steady) (hwilling : s.link.refusals = 0)
    (hunrefused : ∀ n, step ≠ .refuse n) : declined (arms step s) = 0 := by
  have hacted := willing_act (s := s.quiet) hsteady.traffic hunrefused hwilling
  rw [arms, declined_append, declined_of_willing hacted, Nat.add_zero]
  unfold armedBy
  split
  · exact declined_accepted _
  · exact declined_of_willing hwilling
  · rfl

/-- A driver that is never told to refuse turns nothing down. -/
theorem declined_run (hcreate : create c host = .ok s) {steps : List Step}
    (hunrefused : ∀ n, .refuse n ∉ steps) : declined (s.gather arms steps) = 0 := by
  have hsound := sound_create hcreate
  induction steps using List.reverseRecOn with
  | nil => rfl
  | append_singleton steps step ih =>
    have hbefore (n : Nat) : .refuse n ∉ steps :=
      fun hmem => hunrefused n (List.mem_append_left _ hmem)
    have hwilling := willing_run hsound.toSteady hsound.willing hbefore
    rw [gather_concat, declined_append, ih hbefore, Nat.zero_add]
    refine declined_step (steady_run hcreate steps).1 hwilling ?_
    rintro n rfl
    exact hunrefused n (by simp)

end SlaveLink.Session
