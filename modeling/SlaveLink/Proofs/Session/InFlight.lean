import SlaveLink.Proofs.Session.Sound

/-! # One transfer at a time
A link that came up has exactly one transfer somewhere between the bus and the worker, or waits to
try arming again. Nothing but a shortage of blocks can stop it from arming. -/

namespace SlaveLink.Session

variable {s m : Session} {c : LinkConfig} {host : HostLevels} {step : Step} {r : Reply}

/-- The link is up, and if it is idle a retry is due. -/
structure Engaged (l : Link) : Prop where
  active : l.phase = .active
  busy : l.Idle → l.rearmPending = true

theorem engaged_armNext {l : Link} (h : l.CanArm) (hactive : l.phase = .active) :
    Engaged l.armNext := by
  rcases Link.armNext_loaded_or_starved h with hloaded | hstarved
  · have hbusy : ∃ t, l.armNext.bus.loaded = some t := by
      generalize l.armNext = l' at hloaded ⊢
      cases hloaded <;> exact ⟨_, rfl⟩
    obtain ⟨t, ht⟩ := hbusy
    refine ⟨(Link.unmoved_armNext h.toVacant).phase.trans hactive, ?_⟩
    intro hidle
    have hnone : l.armNext.bus.loaded = none := hidle.loaded
    simp [ht] at hnone
  · rw [hstarved]
    exact ⟨hactive, fun _ => rfl⟩

theorem engaged_acting (h : s.link.Orderly []) (hengaged : Engaged s.link)
    (hacting : s.Acting step (r, m)) : Engaged m.link := by
  cases hacting with
  | aside => exact ⟨hengaged.active, hengaged.busy⟩
  | stopped parked =>
    have hheld : s.link.worker.held = [] := congrArg Worker.held parked
    exact ⟨hengaged.active, fun hidle => hengaged.busy ⟨hidle.loaded, hheld, hidle.completed⟩⟩
  | started starting =>
    cases starting with
    | refused => exact hengaged
    | up early | failed _ early => simp [hengaged.active] at early
  | submitted _ submission =>
    cases submission with
    | queued isOpen => exact ⟨hengaged.active, hengaged.busy⟩
    | refused e scribbled =>
      exact ⟨hengaged.active, hengaged.busy⟩
  | clocked => exact ⟨hengaged.active, fun hidle => absurd hidle.completed nofun⟩
  | retried parked pending =>
    obtain ⟨horderly, hidle⟩ := orderly_retry h pending
    exact engaged_armNext (horderly.canArm hidle (Nat.zero_le _)) hengaged.active
  | received | dropped => exact ⟨hengaged.active, hengaged.busy⟩

theorem engaged_settle {l : Link} (h : l.Orderly []) (hengaged : Engaged l) (withheld : Bool) :
    Engaged (l.settle withheld) := by
  have hphase := (Link.settle_frame h.steady withheld).1
  generalize hend : l.settle withheld = l' at hphase
  have hsettling := Link.settling h.steady withheld
  rw [hend] at hsettling
  cases hsettling with
  | rest => exact hengaged
  | wait => exact ⟨hengaged.active, hengaged.busy⟩
  | hold => exact ⟨hengaged.active, fun hidle => absurd hidle.held nofun⟩
  | @turn t l₁ hturn =>
    obtain ⟨horderly, hidle, hshaped⟩ := Link.orderly_of_turn? h hturn
    obtain ⟨_, signals, rfl⟩ := Link.turn?_eq_some h.steady.unfinished_le_one hturn
    have harmed := engaged_armNext (horderly.canArm hidle (Nat.le_refl _)) hengaged.active
    rw [Link.turnAround_of_orderly horderly]
    obtain ⟨_, _, _, _, _, hfinished⟩ := Link.finish_frame hshaped (Link.armNext _)
    rw [hfinished]
    exact ⟨harmed.active, harmed.busy⟩

theorem engaged_step (step : Step) (hlive : step.isLive = true)
    (h : s.Sound ∧ Engaged s.link) : (s.step step).2.Sound ∧ Engaged (s.step step).2.link := by
  have hquiet : s.quiet.link.Orderly [] := h.1.orderly
  have hacting := acting hquiet hlive
  have hacted : (s.quiet.act step).2.link.Orderly [] := orderly_acting hquiet hacting
  have hengaged : Engaged (s.quiet.act step).2.link :=
    engaged_acting hquiet ⟨h.2.active, h.2.busy⟩ hacting
  refine ⟨sound_step step hlive h.1, ?_⟩
  show Engaged (s.quiet.act step).2.settle.link
  rw [settle_of_orderly hacted]
  exact engaged_settle hacted hengaged _

structure Unstarted (l : Link) : Prop where
  initialized : l.phase = .initialized
  unsent : l.startup.isSent = false

theorem unstarted_acting (h : s.link.Orderly []) (hstep : step ≠ .start)
    (hunstarted : Unstarted s.link) (hacting : s.Acting step (r, m)) : Unstarted m.link := by
  cases hacting with
  | started => exact absurd rfl hstep
  | retried parked pending => exact absurd hunstarted.initialized (idle_of_retry h.steady pending).2
  | submitted _ submission =>
    cases submission <;> exact ⟨hunstarted.initialized, hunstarted.unsent⟩
  | aside | stopped | clocked | received | dropped =>
    exact ⟨hunstarted.initialized, hunstarted.unsent⟩

theorem unstarted_step (step : Step) (hallowed : step.isLive = true ∧ step ≠ .start)
    (h : s.Sound ∧ Unstarted s.link) :
    (s.step step).2.Sound ∧ Unstarted (s.step step).2.link := by
  have hquiet : s.quiet.link.Orderly [] := h.1.orderly
  have hacting := acting hquiet hallowed.1
  have hacted : (s.quiet.act step).2.link.Orderly [] := orderly_acting hquiet hacting
  have hunstarted : Unstarted (s.quiet.act step).2.link :=
    unstarted_acting hquiet hallowed.2 ⟨h.2.initialized, h.2.unsent⟩ hacting
  refine ⟨sound_step step hallowed.1 h.1, ?_⟩
  show Unstarted (s.quiet.act step).2.settle.link
  obtain ⟨hphase, hstartup, _⟩ := Link.settle_frame hacted.steady (s.quiet.act step).2.withheld
  rw [settle_of_orderly hacted]
  exact ⟨hphase.trans hunstarted.initialized, by rw [hstartup]; exact hunstarted.unsent⟩

theorem act_start (s : Session) :
    s.act .start = (answer s.link.start.1, { s with link := s.link.start.2 }) := by
  simp only [act, request]
  rcases s.link.start with ⟨_ | _, l⟩ <;> rfl

theorem engaged_started {l l' : Link} {result : Except LinkError Unit} (hunstarted : Unstarted l)
    (hstarting : l.Starting (result, l')) (hdone : answer result = .done) : Engaged l' := by
  cases hstarting with
  | refused _ late => exact absurd hunstarted.initialized late
  | failed e => simp [answer] at hdone
  | up early announced =>
    cases announced with
    | spent sent => exact absurd (hunstarted.unsent.symm.trans sent) nofun
    | armed => exact ⟨rfl, fun hidle => absurd hidle.loaded nofun⟩

theorem engaged_start (h : s.link.Orderly []) (hunstarted : Unstarted s.link)
    (hdone : (s.step .start).1 = .done) : Engaged (s.step .start).2.link := by
  have hquiet : s.quiet.link.Orderly [] := h
  have hstarting := Link.starting fun hphase =>
    hquiet.steady.vacant (hquiet.dormant hphase).1 (Nat.zero_le _)
  have hacting : s.quiet.Acting .start (s.quiet.act .start) := acting hquiet rfl
  have hacted : (s.quiet.act .start).2.link.Orderly [] := orderly_acting hquiet hacting
  have hstep : (s.step .start).1 = answer s.quiet.link.start.1 := congrArg Prod.fst (act_start _)
  have hengaged : Engaged (s.quiet.act .start).2.link := by
    rw [act_start]
    exact engaged_started (l := s.quiet.link) ⟨hunstarted.initialized, hunstarted.unsent⟩
      hstarting (hstep.symm.trans hdone)
  show Engaged (s.quiet.act .start).2.settle.link
  rw [settle_of_orderly hacted]
  exact engaged_settle hacted hengaged _

def IsArmed (l : Link) : Prop :=
  (∃ t, l.bus.pending = [t]) ∧ l.unfinished = [] ∧ l.rearmPending = false

/-- One completed transfer waits for the worker, or the worker waits with it. -/
def IsTurning (l : Link) : Prop :=
  l.bus.pending = [] ∧ (∃ t, l.unfinished = [t]) ∧ l.rearmPending = false

def IsStalled (l : Link) : Prop :=
  l.bus.pending = [] ∧ l.unfinished = [] ∧ l.rearmPending = true

def InOneSituation (l : Link) : Prop :=
  IsArmed l ∧ ¬ IsTurning l ∧ ¬ IsStalled l ∨ ¬ IsArmed l ∧ IsTurning l ∧ ¬ IsStalled l ∨
    ¬ IsArmed l ∧ ¬ IsTurning l ∧ IsStalled l

structure Accounted (l : Link) : Prop where
  outstanding : l.bus.outstanding ≤ 1
  inFlight : l.inFlight = l.bus.outstanding + l.bus.completed.length

/-- Nothing but a shortage of blocks can keep the link from arming. -/
structure ArmsFreely (l : Link) : Prop where
  descriptor : ∃ t m, l.memory.acquireTransaction true = .ok (t, m)
  accepted : l.refusals = 0 ∧ ∀ t, (l.bus.submit? t).isSome
  result : (l.arm none).1 = .ok () ∨ (l.arm none).1 = .error l.memory.wire.exhausted

/-- The link at every moment of a step at which it is to arm its next transfer. -/
def armings (step : Step) (s : Session) : List Link :=
  let acted := (s.quiet.act step).2
  let retried := step = .tick ∧ s.link.worker = .parked ∧ s.link.rearmPending = true
  (if retried then [{ s.quiet.link with rearmPending := false }] else []) ++
    (acted.link.turn? acted.withheld).toList.map (·.2)

/-- A step arms in a retry, or when the worker turns a transfer around. -/
theorem forall_mem_armings {P : Link → Prop}
    (hretry : s.link.rearmPending = true → P { s.quiet.link with rearmPending := false })
    (hturn : ∀ t l, (s.quiet.act step).2.link.turn? (s.quiet.act step).2.withheld = some (t, l) →
      P l) : ∀ l ∈ s.armings step, P l := by
  intro l hl
  rcases List.mem_append.mp hl with hl | hl
  · split at hl
    · next hretried =>
      rw [List.mem_singleton.mp hl]
      exact hretry hretried.2.2
    · simp at hl
  · obtain ⟨⟨t, l'⟩, hfound, rfl⟩ := List.mem_map.mp hl
    exact hturn t l' (Option.mem_toList.mp hfound)

structure ArmsOnly (step : Step) (s : Session) : Prop where
  freely : ∀ l ∈ s.armings step, ArmsFreely l
  complete : s.armings step = [] → (s.step step).2.link.bus.loaded = none ∨
    (s.step step).2.link.bus.loaded = s.link.bus.loaded

theorem inOneSituation {l : Link} (h : l.Orderly []) (hengaged : Engaged l) :
    InOneSituation l := by
  have hqueued : l.bus.queued = [] := h.queued
  have hpending : l.bus.pending = l.bus.loaded.toList := by simp [Bus.pending, hqueued]
  unfold InOneSituation IsArmed IsTurning IsStalled
  cases hloaded : l.bus.loaded with
  | some t =>
    have hnone : l.unfinished = [] := List.append_eq_nil_iff.mpr (h.nothing_unfinished hloaded)
    have hretry : l.rearmPending = false := by
      cases hpending : l.rearmPending with
      | false => rfl
      | true =>
        have hidle : l.bus.loaded = none := (h.retry hpending).loaded
        simp [hloaded] at hidle
    left
    simp [hpending, hloaded, hnone, hretry]
  | none =>
    have hsingle := h.steady.unfinished_le_one
    cases hunfinished : l.unfinished with
    | nil =>
      obtain ⟨hheld, hcompleted⟩ := List.append_eq_nil_iff.mp hunfinished
      have hretry : l.rearmPending = true := hengaged.busy ⟨hloaded, hheld, hcompleted⟩
      right; right
      simp [hpending, hloaded, hretry]
    | cons t rest =>
      have hrest : rest = [] := by
        rw [hunfinished, List.length_cons] at hsingle
        exact List.length_eq_zero_iff.mp (by omega)
      subst hrest
      have hretry := (Link.started_of_unfinished h.steady hunfinished).1
      right; left
      simp [hpending, hloaded, hretry]

theorem accounted {l : Link} (h : l.Orderly []) : Accounted l := by
  have hqueued : l.bus.queued = [] := h.queued
  have hpending : l.bus.pending = l.bus.loaded.toList := by simp [Bus.pending, hqueued]
  refine ⟨?_, ?_⟩
  · rw [Bus.outstanding, hpending]
    exact Nat.le_trans (Nat.le_add_right _ _) h.single
  · rw [Bus.outstanding, hpending]
    exact h.counted

theorem armsFreely {l : Link} (h : l.CanArm) : ArmsFreely l := by
  obtain ⟨ts, hblank⟩ := h.blank
  refine ⟨⟨_, _, Memory.acquireTransaction_of_blank hblank⟩, ⟨h.willing, ?_⟩, ?_⟩
  · intro t
    simp [Link.submit?_of_empty t h.empty h.room]
  · have harming := Link.arming h
    generalize l.arm none = ended at harming ⊢
    cases harming
    · exact .inl rfl
    · exact .inr rfl

theorem armsFreely_of_mem_armings (h : s.link.Orderly []) (hlive : step.isLive = true) :
    ∀ l ∈ s.armings step, ArmsFreely l := by
  have hquiet : s.quiet.link.Orderly [] := h
  have hacted : (s.quiet.act step).2.link.Orderly [] :=
    orderly_acting hquiet (acting hquiet hlive)
  refine forall_mem_armings (fun hpending => ?_) (fun t l hturn => ?_)
  · obtain ⟨horderly, hidle⟩ := orderly_retry hquiet hpending
    exact armsFreely (horderly.canArm hidle (Nat.zero_le _))
  · obtain ⟨horderly, hidle, _⟩ := Link.orderly_of_turn? hacted hturn
    exact armsFreely (horderly.canArm hidle (Nat.le_refl _))

theorem loaded_acting (hactive : s.link.phase = .active)
    (hkept : ¬ (step = .tick ∧ s.link.worker = .parked ∧ s.link.rearmPending = true))
    (hacting : s.Acting step (r, m)) :
    m.link.bus.loaded = none ∨ m.link.bus.loaded = s.link.bus.loaded := by
  cases hacting with
  | aside | stopped | received | dropped => exact .inr rfl
  | started starting =>
    cases starting with
    | refused => exact .inr rfl
    | up early | failed _ early => simp [hactive] at early
  | submitted _ submission => cases submission <;> exact .inr rfl
  | clocked => exact .inl rfl
  | retried parked pending => exact absurd ⟨rfl, parked, pending⟩ hkept

theorem loaded_of_unarmed (h : s.link.Orderly []) (hactive : s.link.phase = .active)
    (hlive : step.isLive = true) (hnone : s.armings step = []) :
    (s.step step).2.link.bus.loaded = none ∨
      (s.step step).2.link.bus.loaded = s.link.bus.loaded := by
  have hquiet : s.quiet.link.Orderly [] := h
  have hacting := acting hquiet hlive
  have hacted : (s.quiet.act step).2.link.Orderly [] := orderly_acting hquiet hacting
  obtain ⟨hretried, hturned⟩ := List.append_eq_nil_iff.mp hnone
  have hkept : ¬ (step = .tick ∧ s.link.worker = .parked ∧ s.link.rearmPending = true) := by
    intro hretry
    simp [hretry] at hretried
  have hrest : (s.step step).2.link.bus.loaded = (s.quiet.act step).2.link.bus.loaded := by
    show (s.quiet.act step).2.settle.link.bus.loaded = _
    rw [settle_of_orderly hacted]
    have hsettling := Link.settling hacted.steady (s.quiet.act step).2.withheld
    generalize Link.settle _ _ = l at hsettling ⊢
    cases hsettling with
    | rest | wait | hold => rfl
    | turn hturn => simp [hturn] at hturned
  rw [hrest]
  exact loaded_acting (s := s.quiet) hactive hkept hacting

theorem armsOnly (h : s.link.Orderly []) (hactive : s.link.phase = .active)
    (hlive : step.isLive = true) : ArmsOnly step s where
  freely := armsFreely_of_mem_armings h hlive
  complete := loaded_of_unarmed h hactive hlive

/-- Once the first start has succeeded, one transfer is under way or a retry is due. -/
theorem one_transfer_under_way (hcreate : create c host = .ok s) (before after : List Step)
    (hlive : ∀ step ∈ before ++ after, step.isLive = true) (hfirst : Step.start ∉ before)
    (hdone : ((s.run before).2.step .start).1 = .done) :
    Accounted (s.run before).2.link ∧
      Accounted (s.run (before ++ .start :: after)).2.link ∧
      InOneSituation (s.run (before ++ .start :: after)).2.link ∧
      ∀ step : Step, step.isLive = true → ArmsOnly step (s.run (before ++ .start :: after)).2 := by
  have hunstarted : Unstarted s.link := by
    obtain ⟨_, hl⟩ := Link.create_eq_ok (create_eq_ok hcreate).1
    rw [hl]
    exact ⟨rfl, rfl⟩
  have hbefore := run_induction
    (P := fun s => s.Sound ∧ Unstarted s.link) (fun _ step => unstarted_step step)
    (fun step hmem => ⟨hlive step (List.mem_append_left _ hmem),
      fun heq => hfirst (heq ▸ hmem)⟩) ⟨sound_create hcreate, hunstarted⟩
  have hengaged := engaged_start hbefore.1.orderly hbefore.2 hdone
  have hafter := run_induction (P := fun s => s.Sound ∧ Engaged s.link)
    (fun _ step => engaged_step step)
    (fun step hmem => hlive step (List.mem_append_right _ hmem))
    ⟨sound_step .start rfl hbefore.1, hengaged⟩
  have hrun : (s.run (before ++ .start :: after)).2 =
      (((s.run before).2.step .start).2.run after).2 := by
    rw [run_append]
    rfl
  rw [hrun]
  exact ⟨accounted hbefore.1.orderly, accounted hafter.1.orderly,
    inOneSituation hafter.1.orderly hafter.2,
    fun step hstep => armsOnly hafter.1.orderly hafter.2.active hstep⟩

def smallConfig : LinkConfig :=
  { frame := { bufferSize := 64 }, txDepths := .fill 1, rxDepths := .fill 1, busQueueSize := 1 }

theorem one_transfer_under_way_small :
    ∃ s, create smallConfig (matchingHost smallConfig) = .ok s ∧
      InOneSituation (s.run ([.select] ++ .start :: [.clock [] true])).2.link :=
  ⟨_, rfl, (one_transfer_under_way (c := smallConfig) rfl [.select] [.clock [] true] (by decide)
    (by decide) (by decide)).2.2.1⟩

end SlaveLink.Session
