import Mathlib.Data.List.Chain
import SlaveLink.Proofs.Link.Throttling
import SlaveLink.Proofs.Session.Course
import SlaveLink.Proofs.Session.InFlight

/-! # Throttling follows the bulk receive queue
Before and after the worker runs, a step moves the gauge of flow control at most once. So the
readings taken there miss no occupancy, and whether the host is asked to hold back follows from the
last of them that lies outside the band between the marks. -/

namespace SlaveLink

namespace LinkConfig

def isOutside (c : LinkConfig) (n : Nat) : Bool :=
  decide (c.throttleHigh.toNat * c.rxDepths.bulk < n * 100) ||
    decide (n * 100 < c.throttleLow.toNat * c.rxDepths.bulk)

def flow (c : LinkConfig) : FlowControl := ⟨c.throttleHigh, c.throttleLow, false⟩

/-- Outside the band the occupancy alone decides, and no more frames wait than there is room for. -/
structure Heeds (c : LinkConfig) (r : Reading) : Prop where
  above : c.throttleHigh.toNat * c.rxDepths.bulk < r.occupancy * 100 → r.isThrottling = true
  below : r.occupancy * 100 < c.throttleLow.toNat * c.rxDepths.bulk → r.isThrottling = false
  within : r.occupancy ≤ c.rxDepths.bulk

end LinkConfig

def Reading.Near (r r' : Reading) : Prop :=
  r'.occupancy ≤ r.occupancy + 1 ∧ r.occupancy ≤ r'.occupancy + 1

/-- What throttling was when the occupancy was last outside the band; off if it never was. -/
def lastAsked (c : LinkConfig) (rs : List Reading) : Bool :=
  (rs.filter fun r => c.isOutside r.occupancy).getLast?.any (·.isThrottling)

variable {c : LinkConfig} {rs : List Reading} {g g' : Gauge}

theorem lastAsked_concat (r : Reading) : lastAsked c (rs ++ [r]) =
    if c.isOutside r.occupancy then r.isThrottling else lastAsked c rs := by
  unfold lastAsked
  rw [List.filter_append]
  cases houtside : c.isOutside r.occupancy <;> simp [houtside]

structure Gauge.Follows (c : LinkConfig) (rs : List Reading) (g : Gauge) : Prop where
  flow : g.flow = ⟨c.throttleHigh, c.throttleLow, lastAsked c rs⟩
  depth : g.depth = c.rxDepths.bulk
  last : rs.getLast? = some g.reading
  heeds : ∀ r ∈ rs, c.Heeds r
  gapless : rs.IsChain Reading.Near

namespace Gauge

theorem Follows.heeds_now (h : g.Follows c rs) : c.Heeds g.reading :=
  h.heeds _ (List.mem_of_getLast? h.last)

/-- A reading more, for which throttling changes outside the band only. -/
theorem Follows.concat (h : g.Follows c rs) (on : Bool)
    (hflow : g'.flow = { g.flow with isThrottling := on }) (hdepth : g'.depth = g.depth)
    (hnear : g.reading.Near g'.reading) (hheeds : c.Heeds g'.reading)
    (hinside : c.isOutside g'.occupancy = false → on = g.flow.isThrottling) :
    g'.Follows c (rs ++ [g'.reading]) := by
  have hasked : on = lastAsked c (rs ++ [g'.reading]) := by
    have hon : g'.reading.isThrottling = on := by rw [reading, hflow]
    rw [lastAsked_concat, hon]
    split
    · rfl
    · next houtside =>
      rw [hinside (Bool.eq_false_iff.mpr houtside), h.flow]
  refine ⟨?_, hdepth.trans h.depth, by simp, ?_, ?_⟩
  · rw [hflow, h.flow, ← hasked]
  · intro r hr
    rcases List.mem_append.mp hr with hr | hr
    · exact h.heeds r hr
    · rw [List.mem_singleton.mp hr]
      exact hheeds
  · refine List.isChain_append.mpr ⟨h.gapless, List.isChain_singleton _, ?_⟩
    intro r hr r' hr'
    rw [h.last] at hr
    simp only [Option.mem_def, Option.some.injEq, List.head?_cons] at hr hr'
    rw [← hr, ← hr']
    exact hnear

theorem Follows.looked {n : Nat} (hsuits : c.flow.Suits c.rxDepths.bulk) (h : g.Follows c rs)
    (hnear : n ≤ g.occupancy + 1 ∧ g.occupancy ≤ n + 1) (hfits : n ≤ g.occupancy ∨ n ≤ g.depth) :
    { g with occupancy := n }.looked.Follows c
      (rs ++ [{ g with occupancy := n }.looked.reading]) := by
  have hhigh : g.flow.high = c.throttleHigh := by rw [h.flow]
  have hlow : g.flow.low = c.throttleLow := by rw [h.flow]
  have hdepth := h.depth
  have hwithin : g.occupancy ≤ c.rxDepths.bulk := h.heeds_now.within
  have hsuits : g.flow.Suits g.depth := by
    rw [hdepth]
    exact ⟨by rw [hhigh, hlow]; exact hsuits.marks, by rw [hhigh]; exact hsuits.within,
      hsuits.room, hsuits.words⟩
  have hn : n ≤ g.depth := by omega
  refine h.concat _ rfl rfl hnear ⟨?_, ?_, ?_⟩ ?_
  · intro habove
    rw [← hhigh, ← hdepth] at habove
    have hasked : g.flow.decide? n g.depth = some true :=
      hsuits.decide?_of_above hn habove
    simp [reading, Gauge.looked, hasked]
  · intro hbelow
    rw [← hlow, ← hdepth] at hbelow
    have hasked : g.flow.decide? n g.depth = some false :=
      hsuits.decide?_of_below hn hbelow
    simp [reading, Gauge.looked, hasked]
  · show n ≤ c.rxDepths.bulk
    omega
  · intro hinside
    have hinside' : c.isOutside n = false := hinside
    simp only [LinkConfig.isOutside, Bool.or_eq_false_iff, decide_eq_false_iff_not] at hinside'
    rw [← hhigh, ← hlow, ← hdepth] at hinside'
    have hasked : g.flow.decide? n g.depth = none :=
      hsuits.decide?_of_between hn hinside'.1 hinside'.2
    simp [hasked]

theorem Follows.moves (hsuits : c.flow.Suits c.rxDepths.bulk) (h : g.Follows c rs)
    (hmoves : g.Moves g') : g'.Follows c (rs ++ [g'.reading]) := by
  cases hmoves with
  | kept =>
    exact h.concat g.flow.isThrottling rfl rfl ⟨Nat.le_succ _, Nat.le_succ _⟩ h.heeds_now
      fun _ => rfl
  | looked n near room => exact h.looked hsuits near room

end Gauge

namespace Session

variable {s : Session} {host : HostLevels} {step : Step}

theorem gauge_leaveIfDrained (l : Link) : l.leaveIfDrained.gauge = l.gauge := by
  unfold Link.leaveIfDrained
  split <;> rfl

theorem gauge_clock (data : Bytes) (fault : Option String) (s : Session) :
    (s.clock data fault).2.link.gauge = s.link.gauge := by
  unfold clock
  split
  · rfl
  · split <;> rfl

theorem gauge_transferred (hold : Bool) (ended : Except DeviceError Bytes × Session) :
    (transferred hold ended).2.link.gauge = ended.2.link.gauge := by
  obtain ⟨_ | _, s⟩ := ended <;> rfl

theorem gauge_exchange (data : Bytes) (limit : Duration) (fault : Option String) (s : Session) :
    (s.exchange data limit fault).2.link.gauge = s.link.gauge := by
  unfold exchange
  split
  · rfl
  · exact gauge_clock data fault (s.onSignals Signals.select)

theorem gauge_handOver (hold : Bool) (i : Incoming) (s : Session) :
    (s.handOver hold i).link.gauge = s.link.gauge := by
  cases hold <;> rfl

theorem moves_wakeWorker {f : Link → Link} (hf : (f s.link).gauge = s.link.gauge) :
    s.link.gauge.Moves (s.wakeWorker f).2.link.gauge := by
  unfold wakeWorker
  split
  · exact .of_eq hf
  · exact .kept

theorem gauge_tick (h : s.link.Steady []) : s.link.tick.gauge = s.link.gauge := by
  unfold Link.tick
  split
  · next hretry =>
    obtain ⟨hsteady, hidle⟩ := steady_retry h hretry.2
    have hkept := Link.gauge_armNext (hsteady.vacant hidle (Nat.zero_le _))
    exact hkept
  · exact gauge_leaveIfDrained s.link

theorem moves_submitted (header : Header) (payload : Bytes) (sequence : UInt16) :
    s.link.gauge.Moves ({ s.link with sequence }.submitHeader header payload).2.gauge := by
  have hkept := Link.gauge_submission (Link.submission header payload { s.link with sequence })
  exact .of_eq hkept

/-- A frame that the application receives is looked at as it leaves. -/
theorem moves_receives {hold : Bool}
    (hstep : step = .tryReceive hold ∨ ∃ limit, step = .receive limit hold) :
    s.link.gauge.Moves (s.act step).2.link.gauge := by
  rcases act_of_receives hstep with ⟨r, _, _, hact⟩ | ⟨p, i, rx, hdue, hact⟩
  · rw [hact]
    exact .kept
  · rw [hact, gauge_handOver]
    exact Link.moves_received hdue

/-- Before the worker runs, only a request to receive makes flow control look at the queue. -/
theorem moves_act (h : s.link.Steady []) (hstays : ¬ s.Dismantles step) :
    s.link.gauge.Moves (s.act step).2.link.gauge := by
  cases step with
  | start =>
    simp only [act, request_snd]
    have hstarting := Link.starting fun hphase =>
      h.vacant (h.dormant hphase).1 (Nat.zero_le _)
    exact .of_eq (Link.gauge_starting hstarting)
  | drain =>
    simp only [act, onLink, Link.beginDrain]
    split <;> exact .kept
  | finishDrain =>
    rw [act_of_stays (.inl rfl) hstays]
    exact .kept
  | deinit =>
    rw [act_of_stays (.inr rfl) hstays]
    exact .kept
  | submitNext interface number payload =>
    simp only [act, request_snd]
    exact moves_submitted _ payload (s.link.sequence + 1)
  | submit f =>
    simp only [act, request_snd]
    exact moves_submitted f.header f.payload s.link.sequence
  | burn n =>
    obtain ⟨sequence, hburn⟩ := burn_eq n s.link
    simp only [act, onLink, hburn]
    exact .kept
  | exchange data limit fault hold =>
    exact .of_eq ((gauge_transferred hold _).trans (gauge_exchange data limit fault s))
  | clock data hold =>
    exact .of_eq ((gauge_transferred hold _).trans (gauge_clock data none s))
  | waitReady limit =>
    simp only [act]
    split <;> exact .kept
  | tick => exact moves_wakeWorker (gauge_tick h)
  | busError => exact moves_wakeWorker (gauge_leaveIfDrained s.link)
  | busShutdown => exact moves_wakeWorker rfl
  | tryReceive hold => exact moves_receives (.inl rfl)
  | receive limit hold => exact moves_receives (.inr ⟨limit, rfl⟩)
  | dropHeld n =>
    simp only [act]
    split <;> exact .kept
  | deliver | select | deselect | refuse | showHeld | register => exact .kept

/-- The worker finishes at most one transfer, which brings at most one frame. -/
theorem moves_settle (h : s.link.Steady []) : s.link.gauge.Moves s.settle.link.gauge := by
  unfold settle
  split
  · exact .kept
  · have hsettling := Link.settling h s.withheld
    simp only [onLink]
    generalize s.link.settle s.withheld = l' at hsettling ⊢
    cases hsettling with
    | rest | wait | hold => exact .kept
    | @turn t l turn =>
      obtain ⟨hsteady, hidle, _⟩ := Link.steady_of_turn? h turn
      have hmoves := Link.moves_turnAround (hsteady.vacant hidle (Nat.le_refl _)) t
      obtain ⟨_, signals, rfl⟩ := Link.turn?_eq_some h.unfinished_le_one turn
      exact hmoves

/-- What can be read off the link at the start of a run, and in each step before and after the
worker runs. -/
def readings (s : Session) (steps : List Step) : List Reading :=
  s.link.gauge.reading :: s.gather (fun step s =>
    [(s.quiet.act step).2.link.gauge.reading, (s.step step).2.link.gauge.reading]) steps

theorem readings_concat (s : Session) (steps : List Step) (step : Step) :
    s.readings (steps ++ [step]) = s.readings steps ++
      [((s.run steps).2.quiet.act step).2.link.gauge.reading] ++
      [((s.run steps).2.step step).2.link.gauge.reading] := by
  simp [readings, gather_concat]

theorem follows_step (hsuits : c.flow.Suits c.rxDepths.bulk)
    (hsteady : s.Steady) (hstays : ¬ s.quiet.Dismantles step) (h : s.link.gauge.Follows c rs) :
    (s.quiet.act step).2.link.gauge.Follows c
        (rs ++ [(s.quiet.act step).2.link.gauge.reading]) ∧
      (s.step step).2.link.gauge.Follows c
        (rs ++ [(s.quiet.act step).2.link.gauge.reading] ++
          [(s.step step).2.link.gauge.reading]) := by
  have hquiet := steady_quiet hsteady
  have hacted := Gauge.Follows.moves hsuits (g := s.quiet.link.gauge) h
    (moves_act hquiet.traffic hstays)
  exact ⟨hacted, hacted.moves hsuits (moves_settle (steady_act step hquiet).traffic)⟩

theorem validate_of_create (hcreate : create c host = .ok s) : c.validate = .ok () :=
  (Link.create_eq_ok (create_eq_ok hcreate).1).1

theorem room_of_create (hcreate : create c host = .ok s) : 0 < c.rxDepths.bulk :=
  LinkConfig.depth_of_validate (validate_of_create hcreate) .rx .bulk

theorem suits_of_create (hcreate : create c host = .ok s) (henabled : c.throttleHigh ≠ 0) :
    c.flow.Suits c.rxDepths.bulk := by
  obtain ⟨hmarks, hwithin⟩ :=
    LinkConfig.marks_of_validate (validate_of_create hcreate) henabled
  exact ⟨UInt8.lt_iff_toNat_lt.mp hmarks, hwithin, room_of_create hcreate,
    Link.words_of_create (create_eq_ok hcreate).1⟩

theorem gauge_create (hcreate : create c host = .ok s) :
    s.link.gauge = ⟨0, c.rxDepths.bulk, ⟨c.throttleHigh, c.throttleLow, false⟩, 0, 0⟩ := by
  obtain ⟨_, hl⟩ := Link.create_eq_ok (create_eq_ok hcreate).1
  rw [hl]
  rfl

theorem follows_create (hcreate : create c host = .ok s) :
    s.link.gauge.Follows c [s.link.gauge.reading] := by
  rw [gauge_create hcreate]
  have hasked : false = lastAsked c ([] ++ [⟨0, false⟩]) := by
    rw [lastAsked_concat]
    split <;> rfl
  refine ⟨congrArg (FlowControl.mk c.throttleHigh c.throttleLow) hasked, rfl, rfl, ?_,
    List.isChain_singleton _⟩
  intro r hr
  rw [List.mem_singleton.mp hr]
  exact ⟨fun habove => by simp [Gauge.reading] at habove, fun _ => rfl, Nat.zero_le _⟩

theorem follows_run (hcreate : create c host = .ok s) (henabled : c.throttleHigh ≠ 0)
    {steps : List Step} (hstanding : (s.run steps).2.link.phase ≠ .deinit) :
    (s.run steps).2.link.gauge.Follows c (s.readings steps) := by
  have hsuits := suits_of_create hcreate henabled
  refine standing_induction (P := fun steps =>
    (s.run steps).2.link.gauge.Follows c (s.readings steps)) hcreate (follows_create hcreate) ?_
    hstanding
  intro steps step hlasting hstays hfollows
  rw [readings_concat, run_concat]
  exact (follows_step hsuits hlasting.toSteady hstays hfollows).2

/-- What every move of the gauge keeps, and the loss of all frames, a run keeps. -/
theorem gauge_keeps {P : Gauge → Prop} (hmoves : ∀ g g', P g → g.Moves g' → P g')
    (hemptied : ∀ g, P g → P { g with occupancy := 0 }) (hsteady : s.Steady)
    (h : P s.link.gauge) (steps : List Step) : P (s.run steps).2.link.gauge := by
  refine (run_keeps (P := fun s => s.Steady ∧ P s.link.gauge) ?_ ⟨hsteady, h⟩ steps).2
  intro s step ⟨hsteady, h⟩
  have hquiet := steady_quiet hsteady
  have hacted : P (s.quiet.act step).2.link.gauge := by
    by_cases hfinal : s.quiet.Dismantles step
    · -- The teardown may finish a last transfer before it drops what is queued.
      rw [act_of_dismantles hfinal]
      exact hemptied _ (hmoves _ _ h (Link.moves_windDown { s.quiet.link with phase := .draining }))
    · exact hmoves _ _ h (moves_act hquiet.traffic hfinal)
  exact ⟨steady_step step hsteady,
    hmoves _ _ hacted (moves_settle (steady_act step hquiet).traffic)⟩

structure Throttled (c : LinkConfig) (rs : List Reading) (l : Link) : Prop where
  depth : l.mux.rx.depths.get .bulk = c.rxDepths.bulk
  above : c.throttleHigh.toNat * c.rxDepths.bulk < l.mux.rx.length .bulk * 100 →
    l.flow.isThrottling = true
  below : l.mux.rx.length .bulk * 100 < c.throttleLow.toNat * c.rxDepths.bulk →
    l.flow.isThrottling = false
  /-- Wherever the occupancy lies, and so in the band between the marks. -/
  asked : l.flow.isThrottling = lastAsked c rs
  /-- The readings miss no occupancy. -/
  gapless : rs.IsChain Reading.Near
  switches : l.stats.throttleOn = l.stats.throttleOff + l.flow.isThrottling.toNat

/-- Whatever happens to a link, until it is torn down: with more frames in the bulk receive queue
than the higher mark says the host is asked to hold back, with fewer than the lower mark says it is
not, and in between it is asked what it was asked when the occupancy was last outside. Without a
higher mark it is never asked. -/
theorem throttling_follows_occupancy (hcreate : create c host = .ok s) (steps : List Step) :
    (c.throttleHigh ≠ 0 → (s.run steps).2.link.phase ≠ .deinit →
      Throttled c (s.readings steps) (s.run steps).2.link) ∧
    (c.throttleHigh = 0 → (s.run steps).2.link.flow.isThrottling = false) := by
  have hsteady := (sound_create hcreate).toSteady
  refine ⟨?_, ?_⟩
  · intro henabled hstanding
    have hfollows := follows_run hcreate henabled hstanding
    have hswitches : (s.run steps).2.link.gauge.Alternates :=
      gauge_keeps (fun _ _ h hmoves => h.moves hmoves) (fun _ h => h) hsteady
        (by rw [gauge_create hcreate]; rfl) steps
    exact ⟨hfollows.depth, hfollows.heeds_now.above, hfollows.heeds_now.below,
      congrArg FlowControl.isThrottling hfollows.flow, hfollows.gapless, hswitches⟩
  · intro hdisabled
    have hnever : (s.run steps).2.link.gauge.Disabled :=
      gauge_keeps (fun _ _ h hmoves => h.moves hmoves) (fun _ h => h) hsteady
        (by rw [gauge_create hcreate]; exact ⟨hdisabled, rfl⟩) steps
    exact hnever.2

def bandConfig : LinkConfig := { smallConfig with rxDepths := .fill 2, throttleLow := 40 }

def sendBulk : Step :=
  .clock ((Frame.ofPayload .station [7]).encode bandConfig.frame (Bytes.zeros 64)).2 false

/-- One frame of two is left: the host is still asked to hold back. -/
theorem throttling_follows_occupancy_band :
    ∃ s, create bandConfig (matchingHost bandConfig) = .ok s ∧
      (s.run [.start, sendBulk, sendBulk, .tryReceive false]).2.link.mux.rx.length .bulk = 1 ∧
      (s.run [.start, sendBulk, sendBulk, .tryReceive false]).2.link.flow.isThrottling = true ∧
      Throttled bandConfig (s.readings [.start, sendBulk, sendBulk, .tryReceive false])
        (s.run [.start, sendBulk, sendBulk, .tryReceive false]).2.link :=
  ⟨_, rfl, by decide +kernel, by decide +kernel,
    (throttling_follows_occupancy (c := bandConfig) rfl
      [.start, sendBulk, sendBulk, .tryReceive false]).1 (by decide) (by decide +kernel)⟩

end Session
end SlaveLink
