import SlaveLink.Proofs.Session.Activation
import SlaveLink.Proofs.Session.Lines
import SlaveLink.Proofs.Session.Ownership

/-! # What a teardown leaves
A link that is torn down holds no frame and no transfer, its lines have dropped, and it stays like
that. It refuses every call; all that still happens is that the application gives back the blocks
that it holds. -/

namespace SlaveLink

namespace Signals

variable {s : Signals}

theorem isDataReady_onChipSelect (level : Level) (s : Signals) :
    (s.onChipSelect level).isDataReady = s.isDataReady := by
  cases level with
  | low => rfl
  | high =>
    simp only [onChipSelect]
    split
    · split <;> rfl
    · rfl

/-- Whatever the host does to its line, the slave does not latch DataReady for it. -/
theorem isDataReady_drive (level : Level) (hwatched : s.watchers = 1) :
    (s.drive .chipSelect level).isDataReady = s.isDataReady := by
  rw [drive_of_watched level hwatched]
  split
  · exact isDataReady_onChipSelect level _
  · rfl

end Signals

namespace Session

variable {s m : Session} {c : LinkConfig} {host : HostLevels} {step : Step} {r : Reply}

/-- The application asks something of the link that only an open link does. -/
def Step.isCall : Step → Bool
  | .start | .submitNext .. | .submit .. | .tryReceive _ | .receive .. => true
  | _ => false

structure Lifeless (c : LinkConfig) (s : Session) : Prop where
  phase : s.link.phase = .deinit
  worker : s.link.worker = .absent
  loaded : s.link.bus.loaded = none
  completed : s.link.bus.completed = []
  sending : s.link.mux.tx.items = []
  received : s.link.mux.rx.items = []
  shows : ∃ chipSelect, s.link.signals.Shows c chipSelect false
  dataReady : s.link.signals.isDataReady = false

inductive Lingering (s : Session) : Step → Reply × Session → Prop
  | aside {step : Step} {r : Reply} {sequence : UInt16} {refusals : Nat} {listener : Option Nat}
      {withheld : Bool} (refused : step.isCall = true → r = .refused .inactive) :
      Lingering s step
        (r, { s with link := { s.link with sequence, refusals, listener }, withheld })
  | moved {step : Step} {r : Reply} {signals : Signals} (other : step.isCall = false)
      (edges : signals ∈
        [s.link.signals.select, s.link.signals.deselect, s.link.signals.select.deselect]) :
      Lingering s step (r, s.onSignals fun _ => signals)
  | dropped {n : Nat} {i : Incoming} (held : s.held[n]? = some (some i)) :
      Lingering s (.dropHeld n) (.dropped true, { s with
        link := s.link.giveBack [i.block], held := s.held.set n none })

theorem Lifeless.closed (h : s.Lifeless c) : s.link.isOpen = false := by
  rw [Link.isOpen, h.phase]
  rfl

theorem Lifeless.not_dismantles (h : s.Lifeless c) : ¬ s.Dismantles step := by
  simp [Dismantles, h.closed, h.phase]

theorem lingering_aside {sequence : UInt16} {refusals : Nat} {listener : Option Nat}
    {withheld : Bool} (hother : step.isCall = false) : s.Lingering step
      (r, { s with link := { s.link with sequence, refusals, listener }, withheld }) := by
  refine .aside fun hcall => ?_
  simp [hother] at hcall

theorem lingering_exchange (h : s.Lifeless c) (data : Bytes) (limit : Duration)
    (fault : Option String) (hold : Bool) :
    s.Lingering (.exchange data limit fault hold) (s.act (.exchange data limit fault hold)) := by
  simp only [act, exchange]
  cases s.host.waitReady limit s.lines with
  | error e => exact lingering_aside rfl
  | ok _ =>
    have hunloaded := clock_of_unloaded (s := s.onSignals Signals.select) data fault h.loaded
    simp only [hunloaded]
    exact .moved rfl (by simp [onSignals, onLink])

theorem lingering_dropHeld (n : Nat) : s.Lingering (.dropHeld n) (s.act (.dropHeld n)) := by
  simp only [act]
  cases hheld : s.held[n]? with
  | none => exact lingering_aside rfl
  | some kept =>
    cases kept with
    | none => exact lingering_aside rfl
    | some i => exact .dropped hheld

theorem lingering_refused {f : Link → Except LinkError Unit × Link} {sequence : UInt16}
    (hf : f s.link = (.error .inactive, { s.link with sequence })) :
    s.Lingering step (s.request f) := by
  unfold request
  rw [hf]
  exact .aside fun _ => rfl

theorem submitHeader_of_closed {l : Link} (hclosed : l.isOpen = false) (h : Header)
    (payload : Bytes) : l.submitHeader h payload = (.error .inactive, l) := by
  simp [Link.submitHeader, hclosed]

theorem lingering_wakeWorker {f : Link → Link} (h : s.Lifeless c) (hother : step.isCall = false) :
    s.Lingering step (s.wakeWorker f) := by
  simp only [wakeWorker, h.worker, reduceCtorEq, if_false]
  exact lingering_aside hother

/-- A step of a link that is torn down does one of three things. -/
theorem lingering (h : s.Lifeless c) (step : Step) : s.Lingering step (s.act step) := by
  have hclosed := h.closed
  cases step with
  | start =>
    have hstart : s.link.start = (.error .inactive, s.link) := by simp only [Link.start, h.phase]
    exact lingering_refused hstart
  | submitNext interface number payload =>
    exact lingering_refused
      (submitHeader_of_closed (l := { s.link with sequence := s.link.sequence + 1 }) hclosed _ _)
  | submit f => exact lingering_refused (submitHeader_of_closed hclosed _ f.payload)
  | burn n =>
    obtain ⟨sequence, hburn⟩ := burn_eq n s.link
    simp only [act, onLink, hburn]
    exact lingering_aside rfl
  | drain =>
    simp only [act, onLink, Link.beginDrain, hclosed]
    exact lingering_aside rfl
  | finishDrain =>
    rw [act_of_stays (.inl rfl) h.not_dismantles]
    exact lingering_aside rfl
  | deinit =>
    rw [act_of_stays (.inr rfl) h.not_dismantles]
    exact lingering_aside rfl
  | exchange data limit fault hold => exact lingering_exchange h data limit fault hold
  | clock data hold =>
    simp only [act, clock_of_unloaded data none h.loaded]
    exact lingering_aside rfl
  | select => exact .moved rfl (by simp)
  | deselect => exact .moved rfl (by simp)
  | waitReady limit =>
    simp only [act]
    split <;> exact lingering_aside rfl
  | tick | busError | busShutdown => exact lingering_wakeWorker h rfl
  | tryReceive hold =>
    simp only [act, Link.tryReceive, hclosed]
    exact .aside fun _ => rfl
  | receive limit hold =>
    simp only [act, Link.receive, hclosed]
    exact .aside fun _ => rfl
  | dropHeld n => exact lingering_dropHeld n
  | deliver | refuse | showHeld | register => exact lingering_aside rfl

theorem shows_edges {signals : Signals} {chipSelect : Level}
    (h : s.link.signals.Shows c chipSelect false) (hedges : signals ∈
      [s.link.signals.select, s.link.signals.deselect, s.link.signals.select.deselect]) :
    (∃ chipSelect, signals.Shows c chipSelect false) ∧
      signals.isDataReady = s.link.signals.isDataReady := by
  have hselected := Signals.shows_select h
  have hsame := Signals.isDataReady_drive .low h.watched
  simp only [List.mem_cons, List.not_mem_nil, or_false] at hedges
  rcases hedges with rfl | rfl | rfl
  · exact ⟨⟨_, hselected⟩, hsame⟩
  · exact ⟨⟨_, Signals.shows_deselect h⟩, Signals.isDataReady_drive .high h.watched⟩
  · exact ⟨⟨_, Signals.shows_deselect hselected⟩,
      (Signals.isDataReady_drive .high hselected.watched).trans hsame⟩

theorem lifeless_lingering (h : s.Lifeless c) (hlingering : s.Lingering step (r, m)) :
    m.Lifeless c := by
  cases hlingering with
  | aside | dropped => exact { h with }
  | moved _ edges =>
    obtain ⟨chipSelect, hshows⟩ := h.shows
    obtain ⟨hshows', hdataReady⟩ := shows_edges hshows edges
    exact { h with shows := hshows', dataReady := hdataReady.trans h.dataReady }

theorem Lifeless.unfinished (h : s.Lifeless c) : s.link.unfinished = [] := by
  rw [Link.unfinished_eq, h.worker, h.completed]
  rfl

theorem settle_of_lifeless (hsteady : s.Steady) (h : s.Lifeless c) : s.settle = s :=
  settle_of_finished hsteady.traffic h.unfinished

/-- The worker is gone, so a step of a link that is torn down ends where it acted. -/
theorem lingering_step (hsteady : s.Steady) (h : s.Lifeless c) (step : Step) :
    s.quiet.Lingering step (s.step step) ∧ (s.step step).2.Lifeless c := by
  have hquiet : s.quiet.Lifeless c := { h with }
  have hlingering := lingering hquiet step
  have hacted : (s.quiet.act step).2.Lifeless c := lifeless_lingering hquiet hlingering
  have hsettled := settle_of_lifeless (steady_act step (steady_quiet hsteady)) hacted
  have hstep : s.step step = s.quiet.act step := congrArg (Prod.mk _) hsettled
  rw [hstep]
  exact ⟨hlingering, hacted⟩

theorem lifeless_dismantled (h : s.Wired c) :
    (s.onLink fun l => { l with phase := .draining }.windDown.dismantle).Lifeless c := by
  obtain ⟨chipSelect, asserted, hshows⟩ := h
  exact
    { phase := rfl
      worker := rfl
      loaded := rfl
      completed := rfl
      sending := rfl
      received := rfl
      shows := ⟨_, shows_dismantled hshows⟩
      dataReady := Signals.isDataReady_setDataReady false _ }

/-- Nothing but a teardown takes a link apart. -/
theorem dismantles_of_gone (h : s.link.Steady []) (hbefore : s.link.phase ≠ .deinit)
    (hgone : (s.act step).2.link.phase = .deinit) : s.Dismantles step := by
  by_cases hstart : step = .start
  · subst hstart
    have hstarting := Link.starting fun hphase => h.vacant (h.dormant hphase).1 (Nat.zero_le _)
    rw [act_start] at hgone
    generalize s.link.start = started at hstarting hgone
    have hgone : started.2.phase = .deinit := hgone
    rcases phase_started hstarting with hsame | hopen
    · exact absurd (hsame.symm.trans hgone) hbefore
    · simp [Link.isOpen, hgone, Phase.isOpen] at hopen
  · have hcases := acting_or_ending h step
    generalize s.act step = out at hcases hgone
    obtain ⟨r, m⟩ := out
    rcases hcases with hacting | hending
    · exact absurd ((phase_acting h hstart hacting).1.symm.trans hgone) hbefore
    · cases hending with
      | closing => cases hgone
      | left | refusing => exact absurd hgone hbefore
      | dismantled final => exact final

/-- What holds of a session after every run: its lines are in order, and once the link is torn down
it stays so. -/
structure Lasting (c : LinkConfig) (s : Session) : Prop extends s.Steady where
  config : s.link.config = c
  balanced : s.Balanced
  wired : s.Wired c
  final : s.link.phase = .deinit → s.Lifeless c

theorem config_acted (h : s.Lasting c) (step : Step) : (s.quiet.act step).2.link.config = c :=
  (config_act step (steady_quiet h.toSteady).traffic).trans h.config

theorem lifeless_step (step : Step) (h : s.Lasting c)
    (hgone : (s.step step).2.link.phase = .deinit) : (s.step step).2.Lifeless c := by
  by_cases hbefore : s.link.phase = .deinit
  · exact (lingering_step h.toSteady (h.final hbefore) step).2
  · have hquiet := steady_quiet h.toSteady
    have hacted := steady_act step hquiet
    have hsame := (phase_rest hacted.traffic).1
    have hfinal := dismantles_of_gone (s := s.quiet) hquiet.traffic hbefore (hsame.symm.trans hgone)
    have hlifeless : (s.quiet.act step).2.Lifeless c := by
      rw [act_of_dismantles hfinal]
      exact lifeless_dismantled h.wired
    show (s.quiet.act step).2.settle.Lifeless c
    rwa [settle_of_lifeless hacted hlifeless]

theorem lasting_step (step : Step) (h : s.Lasting c) : (s.step step).2.Lasting c where
  toSteady := steady_step step h.toSteady
  config := (config_step step h.toSteady).trans h.config
  balanced := balanced_step step h.toSteady h.balanced
  wired := wired_step step h.toSteady h.wired
  final := lifeless_step step h

theorem lasting_create (hcreate : create c host = .ok s) : s.Lasting c := by
  obtain ⟨hlink, _⟩ := create_eq_ok hcreate
  obtain ⟨_, hl⟩ := Link.create_eq_ok hlink
  have hshows : s.link.signals.Shows c .high false := by
    rw [hl]
    exact Signals.shows_init c
  refine ⟨(sound_create hcreate).toSteady, Link.config_create hlink, balanced_create hcreate,
    ⟨_, _, hshows⟩, ?_⟩
  rw [hl]
  nofun

theorem lasting_run (h : s.Lasting c) (steps : List Step) : (s.run steps).2.Lasting c :=
  run_keeps (fun _ step h => lasting_step step h) h steps

/-- What a teardown leaves: nothing is armed or waits, both lines are inactive, and the blocks in
use are those that the application holds. -/
structure Vacated (c : LinkConfig) (s : Session) : Prop where
  phase : s.link.phase = .deinit
  handshake : s.lines.level .handshake = c.handshake.inactive
  dataReady : s.lines.level .dataReady = c.dataReady.inactive
  pending : s.link.bus.pending = []
  completed : s.link.bus.completed = []
  sending : s.link.mux.tx.items = []
  received : s.link.mux.rx.items = []
  transactions : s.link.memory.transactions.inUse = 0
  blocks : s.link.memory.wire.inUse = s.kept.length

def dropAll (s : Session) : List Step := (List.range s.held.length).map .dropHeld

/-- The link is torn down and refuses every call. The blocks in use are given back one by one by the
application, and in no other way. -/
structure Inert (c : LinkConfig) (s : Session) : Prop extends s.Vacated c where
  refused : ∀ step : Step, step.isCall = true → (s.step step).1 = .refused .inactive
  again : s.step .deinit = (.done, s.quiet)
  lent : ∀ step, (∀ n i, step = .dropHeld n → s.held[n]? ≠ some (some i)) →
    (s.step step).2.link.memory.wire.inUse = s.link.memory.wire.inUse
  dropped : ∀ n i, s.held[n]? = some (some i) →
    (s.step (.dropHeld n)).2.link.memory.wire.inUse + 1 = s.link.memory.wire.inUse
  emptied : (s.run s.dropAll).2.link.memory.wire.inUse = 0

theorem vacated (h : s.Lasting c) (hlifeless : s.Lifeless c) : s.Vacated c := by
  obtain ⟨chipSelect, hshows⟩ := hlifeless.shows
  have howned := ownedOnce h.traffic h.balanced
  have hqueued : s.link.bus.queued = [] := h.traffic.queued
  have hnone : s.underWay = [] := by
    simp [underWay, hlifeless.loaded, hlifeless.completed, hlifeless.worker, Worker.held]
  have hsending : s.link.mux.tx.total = 0 := by
    rw [← PriorityQueues.length_items, hlifeless.sending]
    rfl
  have hreceived : s.link.mux.rx.total = 0 := by
    rw [← PriorityQueues.length_items, hlifeless.received]
    rfl
  have hblocks := howned.blocks
  have htransactions := howned.transactions
  have hdataReady := hshows.dataReady
  rw [hlifeless.dataReady] at hdataReady
  exact
    { phase := hlifeless.phase
      handshake := hshows.handshake
      dataReady := hdataReady
      pending := by simp [Bus.pending, hlifeless.loaded, hqueued]
      completed := hlifeless.completed
      sending := hlifeless.sending
      received := hlifeless.received
      transactions := by simpa [hnone] using htransactions
      blocks := by simpa [hnone, hsending, hreceived] using hblocks }

theorem vacated_step (h : s.Lasting c) (hlifeless : s.Lifeless c) (step : Step) :
    (s.step step).2.Vacated c :=
  vacated (lasting_step step h) (lingering_step h.toSteady hlifeless step).2

theorem held_lingering (h : s.Lingering step (r, m))
    (hother : ∀ n i, step = .dropHeld n → s.held[n]? ≠ some (some i)) : m.held = s.held := by
  cases h with
  | aside | moved => rfl
  | dropped held => exact absurd held (hother _ _ rfl)

theorem set_none_of_unheld {xs : List (Option Incoming)} {n : Nat}
    (h : ∀ i, xs[n]? ≠ some (some i)) : xs.set n none = xs := by
  cases hx : xs[n]? with
  | none => exact List.set_eq_of_length_le (List.getElem?_eq_none_iff.mp hx)
  | some x =>
    cases x with
    | none =>
      obtain ⟨hn, hx⟩ := List.getElem?_eq_some_iff.mp hx
      rw [← hx]
      exact List.set_getElem_self hn
    | some i => exact absurd hx (h i)

theorem held_dropHeld (n : Nat) (s : Session) :
    (s.step (.dropHeld n)).2.held = s.held.set n none := by
  have hacted : (s.quiet.act (.dropHeld n)).2.held = s.held.set n none := by
    have hquiet : s.quiet.held = s.held := rfl
    simp only [act, hquiet]
    cases hheld : s.held[n]?.join with
    | none =>
      have hnone : ∀ i, s.held[n]? ≠ some (some i) := by
        intro i hi
        simp [hi] at hheld
      exact (set_none_of_unheld hnone).symm
    | some i => rfl
  exact (held_rest _).trans hacted

theorem held_drops (s : Session) {n : Nat} (h : n ≤ s.held.length) :
    (s.run ((List.range n).map .dropHeld)).2.held = List.replicate n none ++ s.held.drop n := by
  induction n with
  | zero => rfl
  | succ n ih =>
    have hdrop : (s.held.drop n).set 0 none = none :: s.held.drop (n + 1) := by
      rw [List.drop_eq_getElem_cons h]
      rfl
    rw [List.range_succ, List.map_append, List.map_singleton, run_concat, held_dropHeld,
      ih (Nat.le_of_lt h), List.replicate_succ']
    simp [hdrop]

theorem kept_dropAll (s : Session) : (s.run s.dropAll).2.kept = [] := by
  have hheld := held_drops s (Nat.le_refl _)
  rw [List.drop_length, List.append_nil] at hheld
  rw [kept, dropAll, hheld]
  exact List.filterMap_replicate_of_none rfl

theorem lifeless_run (h : s.Lasting c) (hlifeless : s.Lifeless c) (steps : List Step) :
    (s.run steps).2.Lifeless c :=
  (run_keeps (P := fun s => s.Lasting c ∧ s.Lifeless c) (fun _ step h =>
    ⟨lasting_step step h.1, (lingering_step h.1.toSteady h.2 step).2⟩) ⟨h, hlifeless⟩ steps).2

theorem inert (h : s.Lasting c) (hlifeless : s.Lifeless c) : s.Inert c where
  toVacated := vacated h hlifeless
  refused := by
    intro step hcall
    have hlingering := (lingering_step h.toSteady hlifeless step).1
    generalize s.step step = ended at hlingering ⊢
    cases hlingering with
    | aside refused => exact refused hcall
    | moved other => simp [hcall] at other
    | dropped => cases hcall
  again := by
    have hquiet : s.quiet.Lifeless c := { hlifeless with }
    have hsettled := settle_of_lifeless (steady_quiet h.toSteady) hquiet
    simp only [Session.step]
    rw [act_of_stays (.inr rfl) hquiet.not_dismantles]
    exact congrArg (Prod.mk _) hsettled
  lent := by
    intro step hother
    have hheld : (s.step step).2.held = s.held :=
      held_lingering (s := s.quiet) (lingering_step h.toSteady hlifeless step).1 hother
    rw [(vacated_step h hlifeless step).blocks, (vacated h hlifeless).blocks, kept, hheld, kept]
  dropped := by
    intro n i hi
    have hcount := (filterMap_set_none hi).length_eq
    rw [(vacated_step h hlifeless _).blocks, (vacated h hlifeless).blocks, kept, held_dropHeld,
      kept, hcount]
    rfl
  emptied := by
    have hlifeless' := lifeless_run h hlifeless s.dropAll
    rw [(vacated (lasting_run h _) hlifeless').blocks, kept_dropAll]
    rfl

structure TornDown (c : LinkConfig) (ended : Reply × Session) : Prop where
  done : ended.1 = .done
  state : ended.2.link.signals.state = .inactive
  inert : ∀ steps, (ended.2.run steps).2.Inert c

/-- What a teardown comes to in every phase of a link. One that is under way already makes a second
one return at once; it comes to the same end when the worker has been let go. -/
structure TearsDown (c : LinkConfig) (s : Session) : Prop where
  opened : s.link.isOpen = true → TornDown c (s.step .deinit)
  draining : s.link.phase = .draining →
    s.step .deinit = (.done, s.quiet) ∧ TornDown c (s.step .finishDrain)
  gone : s.link.phase = .deinit → ∀ steps, (s.run steps).2.Inert c

theorem state_dismantle (l : Link) : l.dismantle.signals.state = .inactive := by
  simp only [Link.dismantle, Signals.deactivate, Signals.setDataReady]
  split <;> rfl

theorem inert_run (h : s.Lasting c) (hgone : s.link.phase = .deinit) (steps : List Step) :
    (s.run steps).2.Inert c :=
  inert (lasting_run h steps) (lifeless_run h (h.final hgone) steps)

theorem tornDown (h : s.Lasting c) (hfinal : s.Dismantles step) : TornDown c (s.step step) := by
  have hfinal' : s.quiet.Dismantles step := hfinal
  have hacted := steady_act step (steady_quiet h.toSteady)
  have hlifeless : (s.quiet.act step).2.Lifeless c := by
    rw [act_of_dismantles hfinal']
    exact lifeless_dismantled h.wired
  have hstep : s.step step = s.quiet.act step :=
    congrArg (Prod.mk _) (settle_of_lifeless hacted hlifeless)
  have hlasting := lasting_step step h
  rw [hstep] at hlasting ⊢
  refine ⟨?_, ?_, inert_run hlasting hlifeless.phase⟩
  · rw [act_of_dismantles hfinal']
  · rw [act_of_dismantles hfinal']
    exact state_dismantle _

theorem tearsDown (h : s.Lasting c) : s.TearsDown c where
  opened := fun hopen => tornDown h (.inr ⟨rfl, hopen⟩)
  draining := by
    intro hdraining
    have hstays : ¬ s.quiet.Dismantles .deinit := by
      simp [Dismantles, Link.isOpen, quiet, onLink, hdraining, Phase.isOpen]
    refine ⟨?_, tornDown h (.inl ⟨rfl, hdraining⟩)⟩
    simp only [Session.step]
    rw [act_of_stays (.inr rfl) hstays]
    exact congrArg (Prod.mk _) (if_pos hdraining)
  gone := inert_run h

/-- After every run, a teardown leaves nothing but the blocks that the application holds, whatever
the link was doing, and nothing ever comes back. -/
theorem deinit_tears_down (hcreate : create c host = .ok s) (steps : List Step) :
    (s.run steps).2.TearsDown c :=
  tearsDown (lasting_run (lasting_create hcreate) steps)

theorem deinit_tears_down_small : ∃ s, create smallConfig (matchingHost smallConfig) = .ok s ∧
    TornDown smallConfig
      ((s.run [.start, .submitNext .station 1 [7], .clock [] true]).2.step .deinit) :=
  ⟨_, rfl, (deinit_tears_down (c := smallConfig) rfl
    [.start, .submitNext .station 1 [7], .clock [] true]).opened (by decide +kernel)⟩

/-- While a teardown is under way another one returns at once, and leaves all as it is. -/
theorem second_deinit_returns : ∃ s, create smallConfig (matchingHost smallConfig) = .ok s ∧
    ((s.run [.start, .drain]).2.step .deinit).1 = .done ∧
    ((s.run [.start, .drain]).2.step .deinit).2.link.phase = .draining ∧
    ((s.run [.start, .drain]).2.step .deinit).2.link.bus.loaded.isSome = true ∧
    ((s.run [.start, .drain]).2.step .deinit).2.link.signals.state = .ready :=
  ⟨_, rfl, by decide +kernel⟩

end Session
end SlaveLink
