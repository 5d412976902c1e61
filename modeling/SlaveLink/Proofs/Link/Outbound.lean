import SlaveLink.Proofs.Link.BlockSize

/-! # What goes out
For each priority the frames on the wire, the loaded one last, and then the waiting ones are the
accepted ones in order. Arming moves a frame from the queue to the wire, clocking does not move any,
and the startup event stands alone at the front. -/

namespace SlaveLink

/-- What of a frame reaches the other side: four bits of its number, and no throttle of its own. -/
def Frame.carried (f : Frame) : Frame :=
  { f with number := UInt8.ofNat (f.number.toNat % 16), throttle := .off }

def framesOf (c : FrameConfig) (p : Priority) (blocks : List Bytes) : List Frame :=
  blocks.filterMap fun bs =>
    match Frame.decode c bs with
    | .ok f => if f.interface.priority = p then some f.carried else none
    | .error _ => none

theorem framesOf_append (c : FrameConfig) (p : Priority) (as bs : List Bytes) :
    framesOf c p (as ++ bs) = framesOf c p as ++ framesOf c p bs :=
  List.filterMap_append ..

theorem framesOf_frame {c : FrameConfig} {f : Frame} {bs : Bytes} (p : Priority)
    (h : Frame.decode c bs = .ok f) :
    framesOf c p [bs] = if f.interface.priority = p then [f.carried] else [] := by
  by_cases hp : f.interface.priority = p
  · simp [framesOf, h, hp]
  · simp [framesOf, h, hp]

theorem framesOf_error {c : FrameConfig} {e : FrameError} {bs : Bytes} (p : Priority)
    (h : Frame.decode c bs = .error e) : framesOf c p [bs] = [] := by
  simp [framesOf, h]

/-- What is read back of a written frame is what it carries. -/
theorem carried_ofHeader (f : Frame) (t : Throttle) :
    (Frame.ofHeader { f.header with throttle := t }.trimmed f.payload).carried = f.carried := by
  have hmod : f.number.toNat % 16 % 256 % 16 = f.number.toNat % 16 := by omega
  simp [Frame.carried, Frame.ofHeader, Header.trimmed, Frame.header, Header.blank,
    UInt8.toNat_ofNat', hmod]

namespace Outbound

variable {c : LinkConfig} {handed : List Bytes} {accepted : List Frame}
  {loaded : Option Transaction} {tx : PriorityQueues Outgoing} {t : Transaction}

/-- The blocks that the host was handed, and the one it is handed next. -/
def wire (handed : List Bytes) (loaded : Option Transaction) : List Bytes :=
  handed ++ loaded.toList.map (·.outgoing)

def waiting (tx : PriorityQueues Outgoing) (p : Priority) : List Bytes :=
  (tx.get p).map (·.block.bytes)

/-- The blocks on the wire and in the queues hold what was accepted. -/
structure Faithful (c : LinkConfig) (handed : List Bytes) (accepted : List Frame)
    (loaded : Option Transaction) (tx : PriorityQueues Outgoing) : Prop where
  queued : ∀ p, ∀ o ∈ tx.get p, ∃ f,
    Frame.decode c.frame o.block.bytes = .ok f ∧ f.interface.priority = p
  readable : ∀ bs ∈ wire handed loaded,
    Frame.decode c.frame bs = .error .dummyFrame ∨ ∃ f, Frame.decode c.frame bs = .ok f
  announced : ∀ bs, (wire handed loaded).head? = some bs → ∃ sequence,
    Frame.decode c.frame bs = .ok { c.slaveCapabilities.toFrame with sequence }
  inOrder : ∀ p, framesOf c.frame p ((wire handed loaded).drop 1 ++ waiting tx p) =
    (accepted.filter (·.interface.priority = p)).map (·.carried)

theorem wire_some (handed : List Bytes) (t : Transaction) :
    wire handed (some t) = wire handed none ++ [t.outgoing] := by simp [wire]

theorem Faithful.extend {tx' : PriorityQueues Outgoing} (h : Faithful c handed accepted none tx)
    (hspoken : handed ≠ [])
    (hqueued : ∀ p, ∀ o ∈ tx'.get p, ∃ f,
      Frame.decode c.frame o.block.bytes = .ok f ∧ f.interface.priority = p)
    (hreadable : Frame.decode c.frame t.outgoing = .error .dummyFrame ∨
      ∃ f, Frame.decode c.frame t.outgoing = .ok f)
    (hmoved : ∀ p, framesOf c.frame p [t.outgoing] ++ framesOf c.frame p (waiting tx' p) =
      framesOf c.frame p (waiting tx p)) : Faithful c handed accepted (some t) tx' := by
  have hwire : wire handed none = handed := by simp [wire]
  obtain ⟨first, rest, rfl⟩ := List.exists_cons_of_ne_nil hspoken
  refine ⟨hqueued, ?_, ?_, ?_⟩
  · intro bs hbs
    rw [wire_some] at hbs
    rcases List.mem_append.mp hbs with hbs | hbs
    · exact h.readable bs hbs
    · rw [List.mem_singleton.mp hbs]
      exact hreadable
  · intro bs hbs
    rw [wire_some, hwire] at hbs
    exact h.announced bs (by rw [hwire]; exact hbs)
  · intro p
    have horder := h.inOrder p
    rw [hwire, framesOf_append, ← hmoved p] at horder
    have hdrop : (first :: rest ++ [t.outgoing]).drop 1 =
        (first :: rest).drop 1 ++ [t.outgoing] := rfl
    rw [wire_some, hwire, hdrop, List.append_assoc, framesOf_append, framesOf_append]
    exact horder

theorem Faithful.frame {p : Priority} {o : Outgoing} {tx' : PriorityQueues Outgoing}
    (h : Faithful c handed accepted none tx) (hspoken : handed ≠ [])
    (hdue : tx.pop? = some (p, o, tx')) (hout : t.outgoing = o.block.bytes) :
    Faithful c handed accepted (some t) tx' := by
  obtain ⟨hhead, hothers, _⟩ := PriorityQueues.get_pop? hdue
  obtain ⟨ho, hsub⟩ := PriorityQueues.mem_of_pop? hdue
  obtain ⟨f, hdecode, hpriority⟩ := h.queued p o ho
  refine h.extend hspoken (fun q x hx => h.queued q x (hsub q x hx)) ?_ ?_
  · exact .inr ⟨f, by rw [hout]; exact hdecode⟩
  · intro q
    rw [hout]
    by_cases hq : q = p
    · subst hq
      rw [← framesOf_append]
      simp [waiting, hhead]
    · have hnot : f.interface.priority ≠ q := fun heq => hq (heq.symm.trans hpriority)
      rw [framesOf_frame q hdecode, if_neg hnot, waiting, hothers q hq]
      rfl

theorem Faithful.dummy (h : Faithful c handed accepted none tx) (hspoken : handed ≠ [])
    (hout : Frame.decode c.frame t.outgoing = .error .dummyFrame) :
    Faithful c handed accepted (some t) tx := by
  refine h.extend hspoken h.queued (.inl hout) ?_
  intro p
  rw [framesOf_error p hout]
  rfl

theorem Faithful.announce {sequence : UInt16} (h : Faithful c [] accepted none tx)
    (hout : Frame.decode c.frame t.outgoing =
      .ok { c.slaveCapabilities.toFrame with sequence }) :
    Faithful c [] accepted (some t) tx := by
  have hwire : wire [] (some t) = [t.outgoing] := rfl
  refine ⟨h.queued, ?_, ?_, ?_⟩
  · intro bs hbs
    rw [hwire] at hbs
    rw [List.mem_singleton.mp hbs]
    exact .inr ⟨_, hout⟩
  · intro bs hbs
    rw [hwire] at hbs
    rw [← Option.some.inj hbs]
    exact ⟨sequence, hout⟩
  · exact h.inOrder

theorem Faithful.clock (h : Faithful c handed accepted (some t) tx) :
    Faithful c (handed ++ [t.outgoing]) accepted none tx := by
  have hwire : wire (handed ++ [t.outgoing]) none = wire handed (some t) := by simp [wire]
  exact ⟨h.queued, by rw [hwire]; exact h.readable, by rw [hwire]; exact h.announced,
    by rw [hwire]; exact h.inOrder⟩

theorem Faithful.accept {f g : Frame} {o : Outgoing} {tx' : PriorityQueues Outgoing}
    (h : Faithful c handed accepted loaded tx) (hpush : tx.push? o.priority o = some tx')
    (hdecode : Frame.decode c.frame o.block.bytes = .ok g) (hcarried : g.carried = f.carried)
    (hpriority : o.priority = f.interface.priority) :
    Faithful c handed (accepted ++ [f]) loaded tx' := by
  have hinterface : g.carried.interface = f.carried.interface := by rw [hcarried]
  have hsame : g.interface = f.interface := hinterface
  refine ⟨?_, h.readable, h.announced, ?_⟩
  · intro p x hx
    rw [PriorityQueues.get_push? hpush] at hx
    split at hx
    · next hp =>
      rcases List.mem_append.mp hx with hx | hx
      · rw [hp]
        exact h.queued _ x hx
      · rw [List.mem_singleton.mp hx, hp, hpriority, ← hsame]
        exact ⟨g, hdecode, rfl⟩
    · exact h.queued p x hx
  · intro p
    have horder := h.inOrder p
    simp only [waiting, PriorityQueues.get_push? hpush]
    by_cases hp : p = o.priority
    · have hmine : f.interface.priority = p := (hp.trans hpriority).symm
      rw [if_pos hp, ← hp, List.map_append, ← List.append_assoc, framesOf_append]
      rw [waiting] at horder
      rw [horder, List.map_singleton, framesOf_frame p hdecode, hsame, if_pos hmine, hcarried]
      simp [hmine]
    · have hother : f.interface.priority ≠ p := fun heq => hp (heq.symm.trans hpriority.symm)
      rw [if_neg hp]
      rw [waiting] at horder
      rw [horder]
      simp [hother]

theorem faithful_empty (c : LinkConfig) : Faithful c [] [] none (.empty c.txDepths) := by
  refine ⟨?_, nofun, nofun, ?_⟩
  · intro p o ho
    cases p <;> cases ho
  · intro p
    cases p <;> rfl

end Outbound

namespace Link

variable {l l' : Link} {c : LinkConfig} {handed : List Bytes} {accepted : List Frame}
  {t : Transaction}

open Outbound (Faithful)

/-- The outgoing side of a link that has handed the host some blocks and accepted some frames. -/
structure Sends (c : LinkConfig) (handed : List Bytes) (accepted : List Frame) (l : Link) :
    Prop where
  config : l.config = c
  capabilities : l.startup.capabilities = c.slaveCapabilities
  /-- Before the startup event nothing goes out. -/
  fresh : l.startup.isSent = false → handed = [] ∧ l.bus.loaded = none
  /-- The worker arms after a transfer only, so there was one whenever it may arm. -/
  silent : handed = [] → l.unfinished = [] ∧ l.rearmPending = false
  faithful : Faithful c handed accepted l.bus.loaded l.mux.tx

theorem sends_create (h : create c = .ok l) : l.Sends c [] [] := by
  obtain ⟨_, rfl⟩ := create_eq_ok h
  exact ⟨rfl, rfl, fun _ => ⟨rfl, rfl⟩, fun _ => ⟨rfl, rfl⟩, Outbound.faithful_empty c⟩

theorem outgoing_carrier {tx : Block} (rx : Block)
    (htx : tx.bytes.length = l.config.frame.blockSize) :
    (l.carrier tx rx).outgoing = tx.bytes := by
  simp [carrier, Transaction.outgoing, ← htx]

theorem bytes_dummyIn {b : Block} (hb : headerSize ≤ b.bytes.length) :
    (l.dummyIn b).bytes = (Header.dummy l.flow.throttle).encode ++
      (Bytes.zeros b.bytes.length).drop headerSize := by
  simp only [dummyIn, Block.receive, Block.zeroed, Bytes.overwrite, Bytes.length_zeros,
    Header.length_encode]
  rw [List.take_of_length_le hb]

/-- The block that goes out for want of a frame is read as a dummy. -/
theorem decode_dummyIn {b : Block} (frame : FrameConfig) (hb : headerSize ≤ b.bytes.length) :
    Frame.decode frame (l.dummyIn b).bytes = .error .dummyFrame := by
  rw [bytes_dummyIn hb]
  exact decode_dummy frame _ _

theorem sends_loaded (h : l.Sends c handed accepted) (hspoken : handed ≠ []) (hsized : l.Sized)
    (hidle : l.Idle) (hsize : headerSize ≤ l.config.frame.blockSize) (hloaded : l.Loaded l') :
    l'.Sends c handed accepted := by
  have hnone : l.bus.loaded = none := hidle.loaded
  have hfaithful := h.faithful
  rw [hnone] at hfaithful
  have hfresh (hunsent : l.startup.isSent = false) : False := hspoken (h.fresh hunsent).1
  cases hloaded with
  | @frame rx rest p o tx free due =>
    have ho := (PriorityQueues.mem_of_pop? due).1
    have hout := outgoing_carrier (l := l) rx (hsized.tx p o ho)
    exact ⟨h.config, h.capabilities, fun hunsent => (hfresh hunsent).elim,
      fun hnil => absurd hnil hspoken, hfaithful.frame hspoken due hout⟩
  | @dummy rx b rest free idle =>
    have hb : b.bytes.length = l.config.frame.blockSize := hsized.free b (by simp [free])
    have hout : (l.carrier (l.dummyIn b) rx).outgoing = (l.dummyIn b).bytes :=
      outgoing_carrier rx ((length_dummyIn b l).trans hb)
    have hdummy : Frame.decode c.frame (l.carrier (l.dummyIn b) rx).outgoing =
        .error .dummyFrame := by
      rw [hout]
      exact decode_dummyIn c.frame (by rw [hb]; exact hsize)
    exact ⟨h.config, h.capabilities, fun hunsent => (hfresh hunsent).elim,
      fun hnil => absurd hnil hspoken, hfaithful.dummy hspoken hdummy⟩

theorem sends_armNext (h : l.Sends c handed accepted) (hspoken : handed ≠ []) (hsized : l.Sized)
    (hidle : l.Idle) (hsize : headerSize ≤ l.config.frame.blockSize) (hcan : l.CanArm) :
    l.armNext.Sends c handed accepted := by
  rcases armNext_loaded_or_starved hcan with hloaded | hstarved
  · exact sends_loaded h hspoken hsized hidle hsize hloaded
  · rw [hstarved]
    exact ⟨h.config, h.capabilities, h.fresh, fun hnil => absurd hnil hspoken, h.faithful⟩

/-- When the worker turns a transfer around, the host was handed a block before. -/
theorem sends_of_turn? {withheld : Bool} (horderly : l.Orderly []) (h : l.Sends c handed accepted)
    (hturn : l.turn? withheld = some (t, l')) : l'.Sends c handed accepted ∧ handed ≠ [] := by
  obtain ⟨hone, signals, rfl⟩ := turn?_eq_some horderly.steady.unfinished_le_one hturn
  have hspoken : handed ≠ [] := fun hnil => by simp [(h.silent hnil).1] at hone
  exact ⟨⟨h.config, h.capabilities, h.fresh, fun hnil => absurd hnil hspoken, h.faithful⟩, hspoken⟩

theorem sends_settle (horderly : l.Orderly []) (hsized : l.Sized)
    (h : l.Sends c handed accepted) (withheld : Bool) :
    (l.settle withheld).Sends c handed accepted := by
  generalize hend : l.settle withheld = l'
  have hsettling := settling horderly.steady withheld
  rw [hend] at hsettling
  cases hsettling with
  | rest => exact h
  | wait => exact ⟨h.config, h.capabilities, h.fresh, h.silent, h.faithful⟩
  | @hold t _ hparked hcompleted =>
    have hone : l.unfinished = [t] := by simp [unfinished_eq, hparked, hcompleted, Worker.held]
    have hspoken : handed ≠ [] := fun hnil => by simp [(h.silent hnil).1] at hone
    exact ⟨h.config, h.capabilities, h.fresh, fun hnil => absurd hnil hspoken, h.faithful⟩
  | @turn t l₁ hturn =>
    obtain ⟨horderly₁, hidle, hshaped⟩ := orderly_of_turn? horderly hturn
    obtain ⟨hsends, hspoken⟩ := sends_of_turn? horderly h hturn
    have hsized₁ := sized_of_turn? horderly.steady hsized hturn
    have harmed := sends_armNext hsends hspoken hsized₁.1 hidle
      (headerSize_le_blockSize horderly₁.steady) (horderly₁.canArm hidle (Nat.le_refl _))
    obtain ⟨_, _, _, _, _, hfinished⟩ := finish_frame hshaped l₁.armNext
    rw [turnAround_of_orderly horderly₁, hfinished]
    exact ⟨harmed.config, harmed.capabilities, harmed.fresh, harmed.silent, harmed.faithful⟩

theorem decode_event {n : Nat} {dst out : Bytes} (hword : l.config.frame.bufferSize ≤ 65535)
    (hwritten : l.event.encode l.config.frame dst = (.ok n, out)) :
    Frame.decode l.config.frame out = .ok { l.startup.capabilities.toFrame with
      sequence := l.sequence } :=
  decode_of_encodeFrame_ok hword hwritten

theorem sends_announcing {r : Except LinkError Unit} (horderly : l.Orderly []) (hsized : l.Sized)
    (hidle : l.Idle) (hretry : l.rearmPending = false) (h : l.Sends c handed accepted)
    (ha : l.Announcing (r, l')) : l'.Sends c handed accepted := by
  have hnone : l.bus.loaded = none := hidle.loaded
  have hsilent (_ : handed = []) : l.unfinished = [] ∧ l.rearmPending = false :=
    ⟨hidle.unfinished, hretry⟩
  cases ha with
  | spent => exact ⟨h.config, h.capabilities, h.fresh, h.silent, h.faithful⟩
  | @armed b rx rest n out unsent free written =>
    obtain ⟨rfl, _⟩ := h.fresh unsent
    have hfaithful := h.faithful
    rw [hnone] at hfaithful
    have hlength : out.length = l.config.frame.blockSize :=
      (length_of_encodeFrame_ok written).trans
        ((Bytes.length_zeros _).trans (hsized.free b (by simp [free])))
    have hdecode := decode_event horderly.word written
    have hout : Frame.decode c.frame (l.carrier { b with bytes := out } rx).outgoing =
        .ok { c.slaveCapabilities.toFrame with sequence := l.sequence } := by
      rw [outgoing_carrier rx hlength, ← h.capabilities, ← h.config]
      exact hdecode
    exact ⟨h.config, h.capabilities, nofun, hsilent, hfaithful.announce hout⟩
  | failed e unsent => exact ⟨h.config, h.capabilities, nofun, hsilent, h.faithful⟩
  | turnedAway _ unwilling => exact absurd horderly.willing unwilling

theorem sends_starting {r : Except LinkError Unit} (horderly : l.Orderly []) (hsized : l.Sized)
    (h : l.Sends c handed accepted) (hstarting : l.Starting (r, l')) :
    l'.Sends c handed accepted := by
  have hactive (hidle : l.Idle) : { l with phase := .active }.Orderly [] :=
    ⟨horderly.activate hidle, rfl, horderly.willing⟩
  have hsends : { l with phase := .active }.Sends c handed accepted :=
    ⟨h.config, h.capabilities, h.fresh, h.silent, h.faithful⟩
  cases hstarting with
  | refused => exact h
  | @up l₁ early announced =>
    obtain ⟨hidle, _, hretry⟩ := horderly.dormant early
    have hup : l₁.Sends c handed accepted :=
      sends_announcing (l := { l with phase := .active }) (hactive hidle) hsized hidle hretry
        hsends announced
    refine ⟨hup.config, hup.capabilities, hup.fresh, ?_, hup.faithful⟩
    intro hnil
    rw [unfinished_up hidle announced]
    exact hup.silent hnil
  | @failed e l₁ early announced =>
    obtain ⟨hidle, _, hretry⟩ := horderly.dormant early
    have hdown : l₁.Sends c handed accepted :=
      sends_announcing (l := { l with phase := .active }) (hactive hidle) hsized hidle hretry
        hsends announced
    exact ⟨hdown.config, hdown.capabilities, hdown.fresh, hdown.silent, hdown.faithful⟩

def taken (f : Frame) : Except LinkError Unit → List Frame
  | .ok () => [f]
  | .error _ => []

/-- A frame that is accepted joins the queue of its priority; a refused one leaves no trace. -/
theorem sends_submission {f : Frame} {r : Except LinkError Unit}
    (hword : l.config.frame.bufferSize ≤ 65535) (h : l.Sends c handed accepted)
    (hsubmission : l.Submission f.header f.payload (r, l')) :
    l'.Sends c handed (accepted ++ taken f r) := by
  cases hsubmission with
  | @queued b rest n out mux _ _ written room =>
    obtain ⟨tx, hpush, rfl⟩ := Option.map_eq_some_iff.mp room
    have hdecode := decode_of_encodeFrame_ok hword written
    rw [h.config] at hdecode
    exact ⟨h.config, h.capabilities, h.fresh, h.silent,
      h.faithful.accept hpush hdecode (carried_ofHeader f l.flow.throttle) rfl⟩
  | refused e =>
    rw [taken, List.append_nil]
    exact ⟨h.config, h.capabilities, h.fresh, h.silent, h.faithful⟩

end Link
end SlaveLink
