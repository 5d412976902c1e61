import SlaveLink.Proofs.Link.Attempt
import SlaveLink.Proofs.Link.Outbound

/-! # What a block was made for
A transaction that reaches the driver was made for the startup event, for the frame that was due, or
for want of a frame. The throttle field of a frame is written when the frame is accepted and that of
a dummy when it is armed, so a block is followed from where it is written to where it is sent: what
left the queues and what still waits are the accepted frames, and what the driver took is what the
host was handed and what is loaded. -/

namespace SlaveLink

/-- What a transaction was made to send. -/
inductive Choice where
  | announcement
  | frame (p : Priority) (o : Outgoing)
  /-- Whether the link was throttling when the dummy was armed. -/
  | dummy (throttling : Bool)
deriving DecidableEq, Repr

namespace Choice

def Shows (c : LinkConfig) (bs : Bytes) : Choice → Prop
  | announcement => ∃ sequence, Frame.decode c.frame bs =
      .ok { c.slaveCapabilities.toFrame with sequence, throttle := .off }
  | frame _ o => bs = o.block.bytes
  | dummy throttling => Frame.decode c.frame bs = .error .dummyFrame ∧
      Header.parse bs = .ok (.dummy (.ofBool throttling))

def frameOf? (p : Priority) : Choice → Option Outgoing
  | frame q o => if q = p then some o else none
  | _ => none

end Choice

/-- A transaction that reached the driver. -/
structure Despatch where
  choice : Choice
  /-- What it sends, unless the driver turned it down. -/
  block : Option Bytes
deriving DecidableEq, Repr

/-- A frame as it is written when the link accepts it. -/
def Frame.stamped (throttling : Bool) (f : Frame) : Frame :=
  { f.carried with throttle := .ofBool throttling }

theorem ofHeader_stamped (f : Frame) (throttling : Bool) :
    Frame.ofHeader { f.header with throttle := .ofBool throttling }.trimmed f.payload =
      f.stamped throttling := by
  simp [Frame.stamped, Frame.carried, Frame.ofHeader, Header.trimmed, Frame.header, Header.blank]

theorem filterMap_concat {α β : Type} (f : α → Option β) (xs : List α) (x : α) :
    (xs ++ [x]).filterMap f = xs.filterMap f ++ (f x).toList := List.filterMap_append

namespace Link

def due (l : Link) : Choice :=
  match l.mux.tx.pop? with
  | some (p, o, _) => .frame p o
  | none => .dummy l.flow.isThrottling

/-- What reached the driver while one link became another, if it was made for this: a transaction
that is loaded, or one for which a refusal was used up. -/
def despatched (choice : Choice) (l l' : Link) : List Despatch :=
  match l.bus.loaded, l'.bus.loaded with
  | none, some t => [⟨choice, some t.outgoing⟩]
  | _, _ => if l'.refusals < l.refusals then [⟨choice, none⟩] else []

/-- The outgoing side of a link that has accepted some frames, from which some transactions reached
the driver and some blocks the host. -/
structure Outbox (c : LinkConfig) (handed : List Bytes) (accepted : List Frame)
    (log : List Despatch) (l : Link) : Prop where
  config : l.config = c
  capabilities : l.startup.capabilities = c.slaveCapabilities
  wire : Outbound.wire handed l.bus.loaded = log.filterMap (·.block)
  queues : ∀ p, (log.filterMap (·.choice.frameOf? p) ++ l.mux.tx.get p).map
      (fun o => Frame.decode c.frame o.block.bytes) =
    (accepted.filter (·.interface.priority = p)).map .ok
  shows : ∀ d ∈ log, ∀ bs, d.block = some bs → d.choice.Shows c bs

variable {l l' : Link} {c : LinkConfig} {handed : List Bytes} {accepted : List Frame}
  {log : List Despatch} {t : Transaction} {choice : Choice} {p : Priority} {o : Outgoing}

theorem due_of_pop? {tx : PriorityQueues Outgoing} (h : l.mux.tx.pop? = some (p, o, tx)) :
    l.due = .frame p o := by
  rw [due, h]

theorem due_of_idle (h : l.mux.tx.pop? = none) : l.due = .dummy l.flow.isThrottling := by
  rw [due, h]

/-- The frame that is taken was the first of its queue, and the other queues stay as they are. -/
theorem frameOf?_append_get {tx : PriorityQueues Outgoing} (h : l.mux.tx.pop? = some (p, o, tx))
    (q : Priority) :
    ((Choice.frame p o).frameOf? q).toList ++ tx.get q = l.mux.tx.get q := by
  obtain ⟨hhead, hothers, _⟩ := PriorityQueues.get_pop? h
  by_cases hq : p = q
  · subst hq
    simp [Choice.frameOf?, hhead]
  · simp [Choice.frameOf?, hq, hothers q (Ne.symm hq)]

theorem despatched_of_same (hloaded : l'.bus.loaded = l.bus.loaded)
    (hrefusals : l'.refusals = l.refusals) : despatched choice l l' = [] := by
  simp only [despatched, hloaded, hrefusals, Nat.lt_irrefl, if_false]
  split
  · next hnone hsome => simp [hnone] at hsome
  · rfl

theorem despatched_of_loaded (hnone : l.bus.loaded = none) (hloaded : l'.bus.loaded = some t) :
    despatched choice l l' = [⟨choice, some t.outgoing⟩] := by
  simp only [despatched, hnone, hloaded]

theorem despatched_of_unloaded (hnone : l'.bus.loaded = none) : despatched choice l l' =
    if l'.refusals < l.refusals then [⟨choice, none⟩] else [] := by
  unfold despatched
  split
  · next hsome => simp [hnone] at hsome
  · rfl

theorem outbox_create (h : create c = .ok l) : l.Outbox c [] [] [] := by
  obtain ⟨_, rfl⟩ := create_eq_ok h
  refine ⟨rfl, rfl, rfl, ?_, nofun⟩
  intro p
  cases p <;> rfl

namespace Outbox

variable (h : l.Outbox c handed accepted log) (hconfig : l'.config = l.config)
  (hstartup : l'.startup.capabilities = l.startup.capabilities)

include h hconfig hstartup

/-- The outbox looks at no more of the link than this. -/
theorem congr (hloaded : l'.bus.loaded = l.bus.loaded) (htx : l'.mux.tx = l.mux.tx) :
    l'.Outbox c handed accepted log where
  config := hconfig.trans h.config
  capabilities := hstartup.trans h.capabilities
  wire := by rw [hloaded, h.wire]
  queues := by rw [htx]; exact h.queues
  shows := h.shows

theorem undisturbed (hloaded : l'.bus.loaded = l.bus.loaded) (htx : l'.mux.tx = l.mux.tx)
    (hrefusals : l'.refusals = l.refusals) :
    l'.Outbox c handed accepted (log ++ despatched choice l l') := by
  rw [despatched_of_same hloaded hrefusals, List.append_nil]
  exact h.congr hconfig hstartup hloaded htx

/-- One more transaction reaches the driver. What is loaded then is what it sends, and the frame in
it has left its queue. -/
theorem despatch {d : Despatch} (hnone : l.bus.loaded = none)
    (hblock : l'.bus.loaded.map (·.outgoing) = d.block)
    (hqueues : ∀ p, (d.choice.frameOf? p).toList ++ l'.mux.tx.get p = l.mux.tx.get p)
    (hshows : ∀ bs, d.block = some bs → d.choice.Shows c bs) :
    l'.Outbox c handed accepted (log ++ [d]) where
  config := hconfig.trans h.config
  capabilities := hstartup.trans h.capabilities
  wire := by
    have hwire := h.wire
    rw [hnone, Outbound.wire, Option.toList_none, List.map_nil, List.append_nil] at hwire
    rw [filterMap_concat, ← hwire, ← hblock, Option.toList_map]
    rfl
  queues p := by
    rw [filterMap_concat, List.append_assoc, hqueues p]
    exact h.queues p
  shows e he := by
    rcases List.mem_append.mp he with he | he
    · exact h.shows e he
    · rw [List.mem_singleton.mp he]
      exact hshows

/-- The driver takes a transaction, which sends what it was made for. -/
theorem load (hnone : l.bus.loaded = none) (hloaded : l'.bus.loaded = some t)
    (hqueues : ∀ p, (choice.frameOf? p).toList ++ l'.mux.tx.get p = l.mux.tx.get p)
    (hshows : choice.Shows c t.outgoing) :
    l'.Outbox c handed accepted (log ++ despatched choice l l') := by
  rw [despatched_of_loaded hnone hloaded]
  refine h.despatch hconfig hstartup hnone (by rw [hloaded]; rfl) hqueues ?_
  rintro bs ⟨⟩
  exact hshows

/-- The driver turns a transaction down, but the frame in it has left its queue all the same. -/
theorem decline (hnone : l.bus.loaded = none) (hloaded : l'.bus.loaded = none)
    (hless : l'.refusals < l.refusals)
    (hqueues : ∀ p, (choice.frameOf? p).toList ++ l'.mux.tx.get p = l.mux.tx.get p) :
    l'.Outbox c handed accepted (log ++ despatched choice l l') := by
  rw [despatched_of_unloaded hloaded, if_pos hless]
  exact h.despatch hconfig hstartup hnone (by rw [hloaded]; rfl) hqueues nofun

/-- The host is handed what is loaded. -/
theorem clock (hloaded : l.bus.loaded = some t) (hnone : l'.bus.loaded = none)
    (htx : l'.mux.tx = l.mux.tx) :
    l'.Outbox c (handed ++ [t.outgoing]) accepted log where
  config := hconfig.trans h.config
  capabilities := hstartup.trans h.capabilities
  wire := by
    rw [← h.wire, hloaded, hnone]
    simp [Outbound.wire]
  queues := by rw [htx]; exact h.queues
  shows := h.shows

/-- A frame that is accepted is the last of its queue. -/
theorem accept {f : Frame} (hloaded : l'.bus.loaded = l.bus.loaded)
    (hpush : l.mux.tx.push? o.priority o = some l'.mux.tx)
    (hdecode : Frame.decode c.frame o.block.bytes = .ok f)
    (hpriority : o.priority = f.interface.priority) :
    l'.Outbox c handed (accepted ++ [f]) log where
  config := hconfig.trans h.config
  capabilities := hstartup.trans h.capabilities
  wire := by rw [hloaded, h.wire]
  queues p := by
    have hqueues := h.queues p
    rw [PriorityQueues.get_push? hpush, List.filter_append]
    by_cases hp : p = o.priority
    · have hmine : f.interface.priority = p := (hp.trans hpriority).symm
      have hlast : [f].filter (·.interface.priority = p) = [f] := by simp [hmine]
      rw [if_pos hp, ← hp, ← List.append_assoc, List.map_append, hqueues, hlast, List.map_append,
        List.map_singleton, List.map_singleton, hdecode]
    · have hother : ¬ f.interface.priority = p := fun heq => hp (heq.symm.trans hpriority.symm)
      have hnone : [f].filter (·.interface.priority = p) = [] := by simp [hother]
      rw [if_neg hp, hnone, List.append_nil]
      exact hqueues
  shows := h.shows

end Outbox

theorem parse_dummyIn {b : Block} (hb : headerSize ≤ b.bytes.length) :
    Header.parse (l.dummyIn b).bytes = .ok (.dummy (.ofBool l.flow.isThrottling)) := by
  have htrimmed : (Header.dummy l.flow.throttle).trimmed = .dummy l.flow.throttle := rfl
  rw [bytes_dummyIn hb, Header.parse_encode_append, htrimmed]
  rfl

/-- The transaction that an attempt hands to the driver was made for what was due. -/
theorem outbox_attempt (h : l.Outbox c handed accepted log) (hidle : l.Idle) (hsized : l.Sized)
    (hsize : headerSize ≤ l.config.frame.blockSize) (hattempt : l.Attempt l') :
    l'.Outbox c handed accepted (log ++ despatched l.due l l') := by
  have hnone : l.bus.loaded = none := hidle.loaded
  cases hattempt with
  | loaded _ hloaded =>
    cases hloaded with
    | @frame rx rest p o tx free due =>
      have ho := (PriorityQueues.mem_of_pop? due).1
      have hout := outgoing_carrier (l := l) rx (hsized.tx p o ho)
      rw [due_of_pop? due]
      exact h.load rfl rfl hnone rfl (frameOf?_append_get due) hout
    | @dummy rx b rest free idle =>
      have hb : b.bytes.length = l.config.frame.blockSize := hsized.free b (by simp [free])
      have hroom : headerSize ≤ b.bytes.length := by rw [hb]; exact hsize
      have hout : (l.carrier (l.dummyIn b) rx).outgoing = (l.dummyIn b).bytes :=
        outgoing_carrier rx ((length_dummyIn b l).trans hb)
      have hshows : Choice.Shows c (l.carrier (l.dummyIn b) rx).outgoing
          (.dummy l.flow.isThrottling) := by
        rw [hout]
        exact ⟨decode_dummyIn c.frame hroom, parse_dummyIn hroom⟩
      rw [due_of_idle idle]
      exact h.load rfl rfl hnone rfl (fun _ => rfl) hshows
  | starved => exact h.undisturbed rfl rfl rfl rfl rfl
  | refusedFrame unwilling _ due =>
    rw [due_of_pop? due]
    exact h.decline rfl rfl hnone hnone (Nat.sub_one_lt unwilling) (frameOf?_append_get due)
  | refusedDummy unwilling _ idle =>
    rw [due_of_idle idle]
    exact h.decline rfl rfl hnone hnone (Nat.sub_one_lt unwilling) fun _ => rfl

/-- What reaches the driver before the worker is up was made for the startup event. -/
theorem outbox_announcing {r : Except LinkError Unit} (h : l.Outbox c handed accepted log)
    (hword : l.config.frame.bufferSize ≤ 65535) (hidle : l.Idle) (hsized : l.Sized)
    (ha : l.Announcing (r, l')) :
    l'.Outbox c handed accepted (log ++ despatched .announcement l l') := by
  have hnone : l.bus.loaded = none := hidle.loaded
  cases ha with
  | spent | failed => exact h.undisturbed rfl rfl rfl rfl rfl
  | @armed b rx rest n out unsent free written =>
    have hlength : out.length = l.config.frame.blockSize :=
      (length_of_encodeFrame_ok written).trans
        ((Bytes.length_zeros _).trans (hsized.free b (by simp [free])))
    have hdecode := decode_event hword written
    rw [h.config, h.capabilities] at hdecode
    have hshows : Choice.Shows c (l.carrier { b with bytes := out } rx).outgoing .announcement := by
      rw [outgoing_carrier rx hlength]
      exact ⟨l.sequence, hdecode⟩
    exact h.load rfl rfl hnone rfl (fun _ => rfl) hshows
  | @turnedAway e wire refusals unwilling =>
    by_cases hless : refusals < l.refusals
    · exact h.decline rfl rfl hnone hnone hless fun _ => rfl
    · rw [despatched_of_unloaded (by exact hnone), if_neg hless, List.append_nil]
      exact h.congr rfl rfl rfl rfl

theorem outbox_starting {r : Except LinkError Unit} (hsteady : l.Steady []) (hsized : l.Sized)
    (h : l.Outbox c handed accepted log) (hstarting : l.Starting (r, l')) :
    l'.Outbox c handed accepted (log ++ despatched .announcement l l') := by
  have hactive : { l with phase := .active }.Outbox c handed accepted log :=
    h.congr rfl rfl rfl rfl
  cases hstarting with
  | refused => exact h.undisturbed rfl rfl rfl rfl rfl
  | @up l₁ early announced | @failed e l₁ early announced =>
    obtain ⟨hidle, _, _⟩ := hsteady.dormant early
    have hdone := outbox_announcing hactive hsteady.word hidle hsized announced
    exact hdone.congr rfl rfl rfl rfl

/-- A frame is stamped when it joins the queue of its priority, whatever its throttle field was. -/
theorem outbox_submission {f : Frame} {r : Except LinkError Unit}
    (h : l.Outbox c handed accepted log) (hword : l.config.frame.bufferSize ≤ 65535)
    (hsubmission : l.Submission f.header f.payload (r, l')) :
    l'.Outbox c handed (accepted ++ (taken f r).map (·.stamped l.flow.isThrottling)) log := by
  cases hsubmission with
  | @queued b rest n out mux _ _ written room =>
    obtain ⟨tx, hpush, rfl⟩ := Option.map_eq_some_iff.mp room
    have hdecode := decode_of_encodeFrame_ok hword written
    have hstamped : Frame.decode c.frame out = .ok (f.stamped l.flow.isThrottling) := by
      rw [← h.config, hdecode]
      exact congrArg _ (ofHeader_stamped f _)
    have hpriority : (⟨{ b with bytes := out }, f.header.interface⟩ : Outgoing).priority =
        (f.stamped l.flow.isThrottling).interface.priority := rfl
    rw [taken, List.map_singleton]
    refine h.accept ?_ ?_ ?_ hpush hstamped hpriority <;> rfl
  | refused e =>
    rw [taken, List.map_nil, List.append_nil]
    exact h.congr rfl rfl rfl rfl

end Link
end SlaveLink
