import SlaveLink.Proofs.Link.Inbound
import SlaveLink.Proofs.Session.Course
import SlaveLink.Proofs.Session.Transmission

/-! # Frames on their way in
As long as the host clocks whole blocks, the frames that it sent in transfers that succeeded are
received in order, each priority for itself. Only those that found their queue full are missing, and
every one of them is counted. A driver that refuses what the worker arms changes nothing of this. -/

namespace SlaveLink.Session

variable {s m : Session} {c : LinkConfig} {host : HostLevels} {step : Step} {r : Reply}
  {history : History} {l : Link}

def Step.isWhole (size : Nat) (step : Step) : Bool :=
  match step.clocks? with
  | some (data, _) => decide (size ≤ data.length)
  | none => true

def Handled.frame? (c : LinkConfig) (e : Handled) : Option Frame :=
  match e.exchange.fault with
  | some _ => none
  | none => (Frame.decode c.frame (e.exchange.sent.take c.frame.blockSize)).toOption

def Handled.isCrowded (c : LinkConfig) (p : Priority) (e : Handled) : Bool :=
  decide (c.rxDepths.get p ≤ e.waiting.get p)

/-- The frames of a priority that came in, without those that found their queue full. -/
def arrivals (c : LinkConfig) (p : Priority) (handled : List Handled) : List Frame :=
  handled.filterMap fun e => (e.frame? c).filter fun f =>
    f.interface.priority = p ∧ e.isCrowded c p = false

def overruns (c : LinkConfig) (handled : List Handled) : Nat :=
  handled.countP fun e => (e.frame? c).any fun f => e.isCrowded c f.interface.priority

theorem arrivals_append (c : LinkConfig) (p : Priority) (xs ys : List Handled) :
    arrivals c p (xs ++ ys) = arrivals c p xs ++ arrivals c p ys := List.filterMap_append ..

theorem overruns_append (c : LinkConfig) (xs ys : List Handled) :
    overruns c (xs ++ ys) = overruns c xs + overruns c ys := List.countP_append ..

theorem arrivals_frame {e : Handled} {f : Frame} (p : Priority) (h : e.frame? c = some f) :
    arrivals c p [e] =
      if f.interface.priority = p ∧ e.isCrowded c p = false then [f] else [] := by
  rw [arrivals, List.filterMap_cons, h, Option.filter_some, List.filterMap_nil]
  by_cases hkept : f.interface.priority = p ∧ e.isCrowded c p = false
  · rw [if_pos hkept, if_pos (decide_eq_true hkept)]
  · rw [if_neg hkept, if_neg (by simpa using hkept)]

theorem overruns_frame {e : Handled} {f : Frame} (h : e.frame? c = some f) :
    overruns c [e] = if e.isCrowded c f.interface.priority then 1 else 0 := by
  simp [overruns, h, List.countP_cons]

/-- What came in is what the application was given and what still waits. -/
structure Collected (c : LinkConfig) (h : History) (rx : PriorityQueues Incoming)
    (dropped : Nat) : Prop where
  depths : rx.depths = c.rxDepths
  priority : ∀ p, ∀ i ∈ rx.get p, i.priority = p
  inOrder : ∀ p, arrivals c p h.handled =
    (h.received.filter (·.priority = p) ++ rx.get p).map (·.toFrame)
  overrun : dropped = overruns c h.handled

/-- The transfers that were clocked are the finished ones and then the unfinished ones. -/
structure Tracked (c : LinkConfig) (h : History) (unfinished : List Transaction) : Prop where
  finished : h.handled.map (·.exchange) = h.exchanges.take h.handled.length
  pending : (h.exchanges.drop h.handled.length).map (fun e =>
    (some (e.sent.take c.frame.blockSize), e.fault)) =
      unfinished.map fun t => (t.rx.map (·.bytes), t.fault)

structure Receives (c : LinkConfig) (h : History) (l : Link) : Prop where
  config : l.config = c
  collected : Collected c h l.mux.rx l.stats.droppedOverrun
  tracked : Tracked c h l.unfinished

theorem receives_create (h : Link.create c = .ok l) : Receives c {} l := by
  obtain ⟨_, rfl⟩ := Link.create_eq_ok h
  refine ⟨rfl, ⟨rfl, ?_, ?_, rfl⟩, ⟨rfl, rfl⟩⟩
  · intro p i hi
    cases p <;> cases hi
  · intro p
    cases p <;> rfl

theorem frame?_of_fault {e : Handled} {reason : String} (h : e.exchange.fault = some reason) :
    e.frame? c = none := by
  simp [Handled.frame?, h]

theorem frame?_of_clean {e : Handled} {b : Block} (hfault : e.exchange.fault = none)
    (hbytes : b.bytes = e.exchange.sent.take c.frame.blockSize) : e.frame? c =
      ((decodeHeader c.frame b.bytes).toOption.map fun h => Incoming.toFrame ⟨h, b⟩) := by
  simp only [Handled.frame?, hfault, ← hbytes, Frame.decode]
  cases decodeHeader c.frame b.bytes <;> rfl

theorem collected_nothing {rx : PriorityQueues Incoming} {dropped : Nat} {e : Handled}
    (h : Collected c history rx dropped) (hnone : e.frame? c = none) :
    Collected c { history with handled := history.handled ++ [e] } rx dropped := by
  refine ⟨h.depths, h.priority, ?_, ?_⟩
  · intro p
    have hempty : arrivals c p [e] = [] := by simp [arrivals, hnone]
    rw [arrivals_append, hempty, List.append_nil]
    exact h.inOrder p
  · have hzero : overruns c [e] = 0 := by simp [overruns, hnone]
    rw [overruns_append, hzero]
    exact h.overrun

theorem collected_queued {rx rx' : PriorityQueues Incoming} {dropped : Nat} {e : Handled}
    {i : Incoming} (h : Collected c history rx dropped) (hframe : e.frame? c = some i.toFrame)
    (hwaiting : ∀ p, e.waiting.get p = rx.length p) (hpush : rx.push? i.priority i = some rx') :
    Collected c { history with handled := history.handled ++ [e] } rx' dropped := by
  have hroom : e.isCrowded c i.priority = false := by
    have hsome : rx.push? i.priority i ≠ none := by simp [hpush]
    rw [ne_eq, PriorityQueues.push?_eq_none_iff, h.depths] at hsome
    simpa [Handled.isCrowded, hwaiting] using hsome
  refine ⟨(PriorityQueues.depths_push? hpush).trans h.depths, ?_, ?_, ?_⟩
  · intro p j hj
    rw [PriorityQueues.get_push? hpush] at hj
    split at hj
    · next hp =>
      subst hp
      rcases List.mem_append.mp hj with hj | hj
      · exact h.priority _ j hj
      · rw [List.mem_singleton.mp hj]
    · exact h.priority p j hj
  · intro p
    rw [arrivals_append, h.inOrder p, PriorityQueues.get_push? hpush]
    have hpriority : i.toFrame.interface.priority = i.priority := rfl
    by_cases hp : p = i.priority
    · subst hp
      rw [if_pos rfl, arrivals_frame _ hframe, if_pos ⟨hpriority, hroom⟩]
      simp
    · have hother : ¬ (i.toFrame.interface.priority = p ∧ e.isCrowded c p = false) :=
        fun hkept => hp hkept.1.symm
      rw [if_neg hp, arrivals_frame p hframe, if_neg hother, List.append_nil]
  · have hzero : overruns c [e] = 0 := by
      rw [overruns_frame hframe]
      exact if_neg (Bool.eq_false_iff.mp hroom)
    rw [overruns_append, hzero]
    exact h.overrun

theorem collected_overrun {rx : PriorityQueues Incoming} {dropped : Nat} {e : Handled}
    {i : Incoming} (h : Collected c history rx dropped) (hframe : e.frame? c = some i.toFrame)
    (hwaiting : ∀ p, e.waiting.get p = rx.length p) (hpush : rx.push? i.priority i = none) :
    Collected c { history with handled := history.handled ++ [e] } rx (dropped + 1) := by
  have hfull : e.isCrowded c i.priority = true := by
    rw [PriorityQueues.push?_eq_none_iff, h.depths] at hpush
    simpa [Handled.isCrowded, hwaiting] using hpush
  refine ⟨h.depths, h.priority, ?_, ?_⟩
  · intro p
    have hleft : ¬ (i.toFrame.interface.priority = p ∧ e.isCrowded c p = false) := by
      rintro ⟨rfl, hroom⟩
      exact absurd (hfull.symm.trans hroom) nofun
    rw [arrivals_append, arrivals_frame p hframe, if_neg hleft, List.append_nil]
    exact h.inOrder p
  · have hone : overruns c [e] = 1 := by
      rw [overruns_frame hframe]
      exact if_pos hfull
    rw [overruns_append, hone, h.overrun]

theorem collected_brought {b : Block} {e : Handled} {rx : PriorityQueues Incoming} {dropped : Nat}
    (h : Collected c history l.mux.rx l.stats.droppedOverrun) (hconfig : l.config = c)
    (hwaiting : ∀ p, e.waiting.get p = l.mux.rx.length p)
    (hbytes : b.bytes = e.exchange.sent.take c.frame.blockSize)
    (hbrought : l.Brought b e.exchange.fault rx dropped) :
    Collected c { history with handled := history.handled ++ [e] } rx dropped := by
  cases hbrought with
  | faulted hfault => exact collected_nothing h (frame?_of_fault hfault)
  | rejected hclean hdecode =>
    rw [hconfig] at hdecode
    exact collected_nothing h (by rw [frame?_of_clean hclean hbytes, hdecode]; rfl)
  | queued hclean hdecode hroom =>
    rw [hconfig] at hdecode
    exact collected_queued (i := ⟨_, b⟩) h (by rw [frame?_of_clean hclean hbytes, hdecode]; rfl)
      hwaiting hroom
  | overrun hclean hdecode hfull =>
    rw [hconfig] at hdecode
    exact collected_overrun (i := ⟨_, b⟩) h (by rw [frame?_of_clean hclean hbytes, hdecode]; rfl)
      hwaiting hfull

theorem settled_of_same {before after : Session}
    (h : after.link.unfinished.length = before.link.unfinished.length) (history : History) :
    history.settled before after = history := by
  simp [History.settled, h]

theorem settled_of_one {before after : Session} {t : Transaction} {e : Exchange}
    (hbefore : before.link.unfinished = [t]) (hafter : after.link.unfinished = [])
    (hpending : history.exchanges.drop history.handled.length = [e]) :
    history.settled before after = { history with
      handled := history.handled ++ [⟨e, before.link.mux.rx.lengths⟩] } := by
  simp [History.settled, hbefore, hafter, hpending]

/-- The only unfinished transfer is the last one that was clocked. -/
theorem pending_of_tracked {t : Transaction} {b : Block} (h : Tracked c history [t])
    (hrx : t.rx = some b) : ∃ e, history.exchanges.drop history.handled.length = [e] ∧
      b.bytes = e.sent.take c.frame.blockSize ∧ e.fault = t.fault := by
  have hpending := h.pending
  rw [List.map_singleton, hrx] at hpending
  obtain ⟨e, hlast, he⟩ := List.map_eq_singleton_iff.mp hpending
  simp only [Option.map_some, Prod.mk.injEq, Option.some.injEq] at he
  exact ⟨e, hlast, he.1.symm, he.2⟩

theorem tracked_finished {t : Transaction} {e : Exchange} {waiting : PerPriority Nat}
    (h : Tracked c history [t])
    (hpending : history.exchanges.drop history.handled.length = [e]) :
    Tracked c { history with handled := history.handled ++ [⟨e, waiting⟩] } [] := by
  have hsplit := List.take_append_drop history.handled.length history.exchanges
  have hlength : history.exchanges.length = history.handled.length + 1 := by
    have hone := congrArg List.length hpending
    simp only [List.length_drop, List.length_singleton] at hone
    omega
  constructor
  · rw [List.map_append, h.finished, List.length_append, List.length_singleton, ← hlength,
      List.take_length]
    rw [hpending] at hsplit
    exact hsplit
  · rw [List.length_append, List.length_singleton, ← hlength, List.drop_length]
    rfl

theorem lengths_get {α : Type} (q : PriorityQueues α) (p : Priority) :
    q.lengths.get p = q.length p := by
  cases p <;> rfl

/-- The inbox is as it was when the worker arms before it finishes. -/
theorem collected_readied (hvacant : l.Vacant)
    (h : Collected c history l.mux.rx l.stats.droppedOverrun) :
    Collected c history l.readied.mux.rx l.readied.stats.droppedOverrun := by
  rw [Link.rx_readied hvacant, Link.droppedOverrun_readied hvacant]
  exact h

theorem receives_turn {t : Transaction} {l' : Link} (hsteady : s.link.Steady [])
    (h : Receives c history s.link) (hturn : s.link.turn? s.withheld = some (t, l'))
    (hsettle : s.settle.link = l'.turnAround t) :
    Receives c (history.settled s s.settle) s.settle.link := by
  obtain ⟨hsteady', hidle, hshaped⟩ := Link.steady_of_turn? hsteady hturn
  obtain ⟨tx, htx⟩ := hshaped.tx
  obtain ⟨b, hrx⟩ := hshaped.rx
  have hvacant := hsteady'.vacant hidle (Nat.le_refl _)
  obtain ⟨hone, hafter⟩ := unfinished_of_turned hsteady hturn hsettle
  obtain ⟨_, signals, heq⟩ := Link.turn?_eq_some hsteady.unfinished_le_one hturn
  have htracked := h.tracked
  rw [hone] at htracked
  obtain ⟨e, hpending, hbytes, hfault⟩ := pending_of_tracked htracked hrx
  have hconfig : l'.readied.config = c :=
    (Link.unmoved_readied hvacant).config.trans (by rw [heq]; exact h.config)
  -- The worker arms before it finishes, and what it finds waiting is what waited before.
  have hqueue : l'.readied.mux.rx = s.link.mux.rx := by
    rw [Link.rx_readied hvacant, heq]
  have hbefore : Collected c history l'.mux.rx l'.stats.droppedOverrun := by
    rw [heq]
    exact h.collected
  have hreadied := collected_readied hvacant hbefore
  obtain ⟨rx, dropped, hbrought, hbox⟩ := Link.brought_finish htx hrx l'.readied
  rw [← hfault] at hbrought
  have hcollected := collected_brought (e := ⟨e, s.link.mux.rx.lengths⟩) hreadied hconfig
    (fun p => by rw [hqueue]; exact lengths_get _ p) hbytes hbrought
  rw [settled_of_one hone hafter hpending]
  refine ⟨?_, ?_, ?_⟩
  · rw [hsettle, Link.turnAround_eq]
    exact (Link.unmoved_finish hshaped l'.readied).config.trans hconfig
  · rw [hsettle, Link.turnAround_eq, hbox.rx, hbox.dropped]
    exact hcollected
  · rw [hafter]
    exact tracked_finished htracked hpending

theorem receives_congr {history' : History} {l' : Link} (h : Receives c history l)
    (hhistory : history'.exchanges = history.exchanges ∧ history'.handled = history.handled ∧
      history'.received = history.received) (hconfig : l'.config = l.config)
    (hrx : l'.mux.rx = l.mux.rx) (hdropped : l'.stats.droppedOverrun = l.stats.droppedOverrun)
    (hunfinished : l'.unfinished = l.unfinished) : Receives c history' l' := by
  obtain ⟨hexchanges, hhandled, hreceived⟩ := hhistory
  obtain ⟨hdepths, hpriority, horder, hoverrun⟩ := h.collected
  obtain ⟨hfinished, hpending⟩ := h.tracked
  refine ⟨hconfig.trans h.config, ⟨?_, ?_, ?_, ?_⟩, ⟨?_, ?_⟩⟩ <;>
    simpa only [hrx, hdropped, hunfinished, hexchanges, hhandled, hreceived]

theorem receives_rest (hsteady : s.link.Steady []) (h : Receives c history s.link) :
    Receives c (history.settled s s.settle) s.settle.link := by
  rcases idled_or_turned hsteady with hidled | ⟨t, l, hturn, hsettle⟩
  · rw [settled_of_same (by rw [hidled.unfinished])]
    exact receives_congr h ⟨rfl, rfl, rfl⟩ hidled.config (congrArg Multiplexer.rx hidled.mux)
      (by rw [hidled.stats]) hidled.unfinished
  · exact receives_turn hsteady h hturn hsettle

/-- A whole block that the host clocks replaces everything in the block that is filled. -/
theorem receive_whole {t : Transaction} {b : Block} {data : Bytes} (hrx : t.rx = some b)
    (hlength : t.length = b.bytes.length) (hwhole : b.bytes.length ≤ data.length)
    (fault : Option String) : (t.clocked data fault).rx.map (·.bytes) =
      some (data.take b.bytes.length) := by
  have hbytes : Bytes.overwrite (data.take b.bytes.length) b.bytes =
      data.take b.bytes.length := by
    have hnone : b.bytes.drop (data.take b.bytes.length).length = [] := by
      rw [List.length_take, Nat.min_eq_left hwhole, List.drop_length]
    rw [Bytes.overwrite, hnone, List.append_nil, List.take_take, Nat.min_self]
  cases fault <;>
    simp [Transaction.clocked, Transaction.failWith, Transaction.receive, hrx, Block.receive,
      hlength, hbytes]

theorem tracked_clocked {t : Transaction} {e : Exchange} (h : Tracked c history [])
    (hseen : (t.rx.map (·.bytes), t.fault) =
      (some (e.sent.take c.frame.blockSize), e.fault)) :
    Tracked c { history with exchanges := history.exchanges ++ [e] } [t] := by
  have hdrop : history.exchanges.drop history.handled.length = [] := by
    have hpending := h.pending
    rwa [List.map_nil, List.map_eq_nil_iff] at hpending
  have hall : history.handled.length = history.exchanges.length := by
    have hfinished := congrArg List.length h.finished
    rw [List.length_map, List.length_take] at hfinished
    rw [List.drop_eq_nil_iff] at hdrop
    omega
  constructor
  · rw [hall, List.take_left', h.finished, hall, List.take_length]
    rfl
  · rw [hall, List.drop_left', List.map_singleton, List.map_singleton, hseen]
    rfl

theorem receives_clocked {t : Transaction} {data : Bytes} {fault : Option String}
    {signals : Signals} (hsteady : s.Steady) (h : Receives c history s.link)
    (hclocks : step.clocks? = some (data, fault)) (hloaded : s.link.bus.loaded = some t)
    (hwhole : c.frame.blockSize ≤ data.length) :
    Receives c (history.answered step s.link.sequence (.read t.outgoing))
      (clocking (t.clocked data fault) signals s.link) := by
  have hshaped := shaped_loaded hsteady.traffic hloaded
  obtain ⟨b, hrx⟩ := hshaped.rx
  have hmem : t ∈ s.link.bus.loaded.toList := by simp [hloaded]
  have hb : b.bytes.length = c.frame.blockSize := by
    rw [← h.config]
    refine hsteady.sized.transfers t (List.mem_append_left _ hmem) b ?_
    exact List.mem_append_right _ (by simp [hrx])
  have hlength : t.length = b.bytes.length := by rw [hb, ← h.config]; exact hshaped.length
  have hclean : t.fault = none := hsteady.traffic.intact t hloaded
  have hfits : b.bytes.length ≤ data.length := by rw [hb]; exact hwhole
  have hseen := receive_whole hrx hlength hfits fault
  have hfault : (t.clocked data fault).fault = fault := by
    cases fault
    · exact hclean
    · rfl
  have hexchanges : history.answered step s.link.sequence (.read t.outgoing) =
      { history with exchanges := history.exchanges ++ [⟨data, t.outgoing, fault⟩] } := by
    simp [History.answered, hclocks]
  have htracked := h.tracked
  have hnone : s.link.unfinished = [] :=
    List.append_eq_nil_iff.mpr (hsteady.traffic.nothing_unfinished hloaded)
  rw [hnone] at htracked
  rw [hexchanges]
  refine ⟨h.config, ⟨h.collected.depths, h.collected.priority, h.collected.inOrder,
    h.collected.overrun⟩, ?_⟩
  rw [unfinished_clocking hsteady.traffic hloaded]
  exact tracked_clocked htracked (by rw [hseen, hfault, hb])

theorem collected_received {rx rx' : PriorityQueues Incoming} {dropped : Nat} {p : Priority}
    {i : Incoming} (h : Collected c history rx dropped) (hdue : rx.pop? = some (p, i, rx')) :
    Collected c { history with received := history.received ++ [i] } rx' dropped := by
  obtain ⟨hhead, hothers, _⟩ := PriorityQueues.get_pop? hdue
  obtain ⟨hi, hsub⟩ := PriorityQueues.mem_of_pop? hdue
  have hp : i.priority = p := h.priority p i hi
  refine ⟨(PriorityQueues.depths_pop? hdue).trans h.depths,
    fun q j hj => h.priority q j (hsub q j hj), ?_, h.overrun⟩
  intro q
  rw [h.inOrder q, List.filter_append]
  by_cases hq : q = p
  · subst hq
    rw [hhead]
    simp [hp]
  · have hnot : ¬ i.priority = q := fun heq => hq (heq.symm.trans hp)
    rw [hothers q hq]
    simp [hnot]

theorem tracked_received {i : Incoming} {ts : List Transaction} (h : Tracked c history ts) :
    Tracked c { history with received := history.received ++ [i] } ts := ⟨h.finished, h.pending⟩

theorem inbound_starting {l' : Link} {result : Except LinkError Unit} (hsteady : l.Steady [])
    (hstarting : l.Starting (result, l')) :
    l'.mux.rx = l.mux.rx ∧ l'.stats = l.stats ∧ l'.unfinished = l.unfinished := by
  cases hstarting with
  | refused => exact ⟨rfl, rfl, rfl⟩
  | @up l₁ early announced =>
    obtain ⟨hidle, habsent, _⟩ := hsteady.dormant early
    obtain ⟨_, _, _, hmux, hstats, hcompleted⟩ := Link.announcing_frame announced
    refine ⟨hmux, hstats, ?_⟩
    have hnone : l₁.bus.completed = [] := hcompleted.trans hidle.completed
    have hup : Link.unfinished { l₁ with worker := .parked } = [] := hnone
    exact hup.trans hidle.unfinished.symm
  | @failed e l₁ early announced =>
    obtain ⟨hworker, _, _, hmux, hstats, hcompleted⟩ := Link.announcing_frame announced
    refine ⟨hmux, hstats, ?_⟩
    simp only [Link.unfinished_eq, hworker, hcompleted]

theorem receives_submission {l' : Link} {h : Header} {payload : Bytes}
    {result : Except LinkError Unit} (hr : Receives c history l)
    (hsubmission : l.Submission h payload (result, l')) : Receives c history l' := by
  cases hsubmission with
  | queued isOpen free written room =>
    obtain ⟨tx, _, rfl⟩ := Option.map_eq_some_iff.mp room
    exact ⟨hr.config, hr.collected, hr.tracked⟩
  | refused e scribbled counted =>
    refine ⟨hr.config, ?_, hr.tracked⟩
    simp only [List.mem_cons, List.not_mem_nil, or_false] at counted
    rcases counted with rfl | rfl | rfl <;> exact hr.collected

theorem answered_answer {sequence : UInt16} (result : Except LinkError Unit) :
    (history.answered step sequence (answer result)).exchanges = history.exchanges ∧
      (history.answered step sequence (answer result)).handled = history.handled ∧
      (history.answered step sequence (answer result)).received = history.received := by
  cases result <;> exact ⟨rfl, rfl, rfl⟩

theorem receives_acting (hsteady : s.Steady) (h : Receives c history s.link)
    (hwhole : step.isWhole c.frame.blockSize = true) (hacting : s.Acting step (r, m)) :
    Receives c (history.answered step s.link.sequence r) m.link := by
  cases hacting with
  | aside mute =>
    rw [mute]
    exact receives_congr h ⟨rfl, rfl, rfl⟩ rfl rfl rfl rfl
  | stopped parked =>
    exact receives_congr h ⟨rfl, rfl, rfl⟩ rfl rfl rfl (Link.unfinished_stopWorker parked)
  | @started result l starting =>
    obtain ⟨hrx, hstats, hunfinished⟩ := inbound_starting hsteady.traffic starting
    exact receives_congr h (answered_answer result) (config_starting starting) hrx
      (by rw [hstats]) hunfinished
  | @submitted _ f sequence result l offer submission =>
    have hsubmitted := receives_submission (l := { s.link with sequence })
      ⟨h.config, h.collected, h.tracked⟩ submission
    exact receives_congr hsubmitted (answered_answer result) rfl rfl rfl rfl
  | @clocked _ data fault t signals withheld clocks loaded =>
    have hsize : c.frame.blockSize ≤ data.length := by
      simpa [Step.isWhole, clocks] using hwhole
    exact receives_clocked hsteady h clocks loaded hsize
  | retried parked pending =>
    obtain ⟨hretry, hidle⟩ := steady_retry hsteady.traffic pending
    have hvacant := hretry.vacant hidle (Nat.zero_le _)
    have hunmoved := Link.unmoved_armNext hvacant
    exact receives_congr h ⟨by rw [mute_done rfl], by rw [mute_done rfl], by rw [mute_done rfl]⟩
      hunmoved.config (Link.rx_armNext hvacant) (Link.droppedOverrun_armNext hvacant)
      hunmoved.unfinished
  | @received _ p i rx flow stats memory held due counted kept =>
    have hdropped : stats.droppedOverrun = s.link.stats.droppedOverrun := by
      simp only [List.mem_cons, List.not_mem_nil, or_false] at counted
      rcases counted with rfl | rfl | rfl <;> rfl
    have hcollected := collected_received h.collected due
    rw [← hdropped] at hcollected
    exact ⟨h.config, hcollected, tracked_received h.tracked⟩
  | dropped => exact receives_congr h ⟨rfl, rfl, rfl⟩ rfl rfl rfl rfl

/-- Until the link is dismantled, neither its teardown nor a refusal touches what was received. -/
theorem receives_ending (h : Receives c history s.link) (hstays : ¬ s.Dismantles step)
    (hending : s.Ending step (r, m)) :
    Receives c (history.answered step s.link.sequence r) m.link := by
  cases hending with
  | closing => exact receives_congr h ⟨rfl, rfl, rfl⟩ rfl rfl rfl rfl
  | left parked =>
    exact receives_congr h ⟨rfl, rfl, rfl⟩ rfl rfl rfl (Link.unfinished_stopWorker parked)
  | dismantled final => exact absurd final hstays
  | refusing => exact receives_congr h ⟨rfl, rfl, rfl⟩ rfl rfl rfl rfl

theorem receives_step (step : Step) (hsteady : s.Steady)
    (hwhole : step.isWhole c.frame.blockSize = true) (hstays : ¬ s.quiet.Dismantles step)
    (h : Receives c history s.link) :
    Receives c (history.note step s) (s.step step).2.link := by
  have hquiet := steady_quiet hsteady
  have hreceives : Receives c history s.quiet.link := ⟨h.config, h.collected, h.tracked⟩
  have hacted : Receives c (history.answered step s.quiet.link.sequence (s.quiet.act step).1)
      (s.quiet.act step).2.link := by
    rcases acting_or_ending hquiet.traffic step with hacting | hending
    · exact receives_acting hquiet hreceives hwhole hacting
    · exact receives_ending hreceives hstays hending
  exact receives_rest (steady_act step hquiet).traffic hacted

/-- What was received in a run that has not torn the link down. -/
theorem receives_run (hcreate : create c host = .ok s) {steps : List Step}
    (hwhole : ∀ step ∈ steps, step.isWhole c.frame.blockSize = true)
    (hstanding : (s.run steps).2.link.phase ≠ .deinit) :
    Receives c (s.history steps) (s.run steps).2.link := by
  refine standing_induction (P := fun steps =>
    (∀ step ∈ steps, step.isWhole c.frame.blockSize = true) →
      Receives c (s.history steps) (s.run steps).2.link) hcreate
    (fun _ => receives_create (create_eq_ok hcreate).1) ?_ hstanding hwhole
  intro steps step hlasting hstays hreceives hwhole
  have hearlier := hreceives fun x hx => hwhole x (List.mem_append_left _ hx)
  rw [history_concat, run_concat]
  exact receives_step step hlasting.toSteady (hwhole step (by simp)) hstays hearlier

/-- The frames received are those that came in, and every transfer that was clocked is finished or
still to be. -/
structure Received (c : LinkConfig) (h : History) (l : Link) : Prop where
  finished : h.handled.map (·.exchange) =
    h.exchanges.take (h.exchanges.length - l.unfinished.length)
  inOrder : ∀ p, arrivals c p h.handled =
    (h.received.filter (·.priority = p) ++ l.mux.rx.get p).map (·.toFrame)
  overrun : l.stats.droppedOverrun = overruns c h.handled

theorem received (h : Receives c history l) : Received c history l := by
  refine ⟨?_, h.collected.inOrder, h.collected.overrun⟩
  have hlength := congrArg List.length h.tracked.pending
  simp only [List.length_map, List.length_drop] at hlength
  have hfinished := congrArg List.length h.tracked.finished
  rw [List.length_map, List.length_take] at hfinished
  have hcount : history.exchanges.length - l.unfinished.length = history.handled.length := by
    omega
  rw [hcount]
  exact h.tracked.finished

/-- The reply to a request to receive: the frame that is due, or none if none waits. -/
def GivesDue (step : Step) (s : Session) : Prop :=
  (∃ p i rx, s.link.mux.rx.Takes p i rx ∧ (s.step step).1 = .received (some i)) ∨
    (∀ p, s.link.mux.rx.get p = []) ∧ ∀ i, (s.step step).1 ≠ .received (some i)

theorem givesDue_tryReceive (h : s.link.isOpen = true) (hold : Bool) :
    GivesDue (.tryReceive hold) s := by
  have hopen : s.quiet.link.isOpen = true := h
  cases hdue : s.link.mux.rx.pop? with
  | none =>
    refine .inr ⟨(PriorityQueues.pop?_eq_none_iff _).mp hdue, fun i => ?_⟩
    have hidle := Link.tryReceive_of_idle hopen hdue
    simp [Session.step, act, hidle]
  | some due =>
    obtain ⟨p, i, rx⟩ := due
    refine .inl ⟨p, i, rx, takes_of_pop? hdue, ?_⟩
    have hreceived := Link.tryReceive_of_due hopen hdue
    simp [Session.step, act, hreceived]

theorem givesDue_receive (h : s.link.isOpen = true) (limit : Option Duration) (hold : Bool) :
    GivesDue (.receive limit hold) s := by
  have hopen : s.quiet.link.isOpen = true := h
  cases hdue : s.link.mux.rx.pop? with
  | none =>
    refine .inr ⟨(PriorityQueues.pop?_eq_none_iff _).mp hdue, fun i => ?_⟩
    have hidle := Link.receive_of_idle limit hopen hdue
    cases limit <;> simp [Session.step, act, hidle]
  | some due =>
    obtain ⟨p, i, rx⟩ := due
    refine .inl ⟨p, i, rx, takes_of_pop? hdue, ?_⟩
    have hreceived := Link.receive_of_due limit hopen hdue
    simp [Session.step, act, hreceived]

/-- A run that asks for no teardown leaves the link open. -/
theorem open_run (hcreate : create c host = .ok s) {steps : List Step}
    (hstays : ∀ step ∈ steps, step.closes = false) : (s.run steps).2.link.isOpen = true := by
  have hsound := sound_create hcreate
  have hrun := run_induction (P := fun s => s.Steady ∧ s.link.isOpen = true)
    (fun s step hstep h => ⟨steady_step step h.1, open_step h.1 h.2 hstep⟩) hstays
    ⟨hsound.toSteady, hsound.isOpen⟩
  exact hrun.2

/-- While the host clocks whole blocks and the link is not torn down, nothing that the host sent is
lost unnoticed or reordered, whether or not the driver refuses now and then. The application is
given the frame that is due as long as the link is open, as it is until it is told to close. -/
theorem reception_in_order (hcreate : create c host = .ok s) (steps : List Step)
    (hwhole : ∀ step ∈ steps, step.isWhole c.frame.blockSize = true) :
    ((s.run steps).2.link.phase ≠ .deinit →
        Received c (s.history steps) (s.run steps).2.link) ∧
      ((s.run steps).2.link.isOpen = true → ∀ hold, GivesDue (.tryReceive hold) (s.run steps).2 ∧
        ∀ limit, GivesDue (.receive limit hold) (s.run steps).2) ∧
      ((∀ step ∈ steps, step.closes = false) → (s.run steps).2.link.isOpen = true) := by
  refine ⟨fun hstanding => received (receives_run hcreate hwhole hstanding), ?_, open_run hcreate⟩
  intro hopen hold
  exact ⟨givesDue_tryReceive hopen hold, fun limit => givesDue_receive hopen limit hold⟩

/-- The host sends one frame, which the application then receives, while the driver refuses what
the worker arms. -/
def smallReception : List Step :=
  [.start, .refuse 1,
    .clock ((Frame.ofPayload .serial [7]).encode smallConfig.frame (Bytes.zeros 64)).2 false,
    .tryReceive false]

theorem reception_in_order_small :
    ∃ s, create smallConfig (matchingHost smallConfig) = .ok s ∧
      (s.history smallReception).received.length = 1 ∧
      Received smallConfig (s.history smallReception) (s.run smallReception).2.link :=
  ⟨_, rfl, by decide +kernel, (reception_in_order (c := smallConfig) rfl smallReception
    (by decide +kernel)).1 (by decide +kernel)⟩

end SlaveLink.Session
