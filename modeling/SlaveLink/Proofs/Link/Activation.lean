import SlaveLink.Proofs.Capability
import SlaveLink.Proofs.Link.Handshake

/-! # What a start arms
A start that gets past the check of the phase hands the startup event out before anything can fail.
If the event fits the buffer it is loaded. If the start fails, the link looks as before, but the
event is gone: the next start succeeds, arms nothing, and nothing ever will be armed. -/

namespace SlaveLink

def Block.IsEvent (config : FrameConfig) (capabilities : Capabilities) (b : Block) : Prop :=
  ∃ h, decodeHeader config b.bytes = .ok h ∧ h.interface = .internal ∧
    h.packetType = eventPacketType ∧ h.payloadOf b.bytes = capabilities.toEvent ∧
    Capabilities.ofEvent (h.payloadOf b.bytes) = .ok capabilities

namespace Link

variable {l l' : Link} {e : LinkError} {r : Except LinkError Unit}

/-- The link is up, and all that is under way is the startup event. -/
structure Announces (l : Link) : Prop where
  active : l.phase = .active
  event : ∃ t b, l.bus.pending = [t] ∧ t.tx = some b ∧ b.IsEvent l.config.frame l.capabilities
  unfinished : l.unfinished = []
  dataReady : l.signals.isDataReady = true

/-- The link looks as if it was never started, but its startup event is gone. -/
structure Spent (l : Link) : Prop where
  initialized : l.phase = .initialized
  absent : l.worker = .absent
  pending : l.bus.pending = []
  unfinished : l.unfinished = []
  sent : l.startup.isSent = true

/-- The link is past its start; nothing is under way, and nothing would arm. -/
structure Mute (l : Link) : Prop where
  late : l.phase ≠ .initialized
  idle : l.Idle
  settled : l.rearmPending = false

theorem toEvent_ne_nil (c : Capabilities) : c.toEvent ≠ [] := nofun

theorem isEvent_of_written {b : Block} {n : Nat} {dst out : Bytes}
    (hword : l.config.frame.bufferSize ≤ 65535)
    (hwritten : l.event.encode l.config.frame dst = (.ok n, out)) :
    { b with bytes := out }.IsEvent l.config.frame l.capabilities := by
  obtain ⟨h, hheader, hframe⟩ := Frame.decode_eq_ok (decode_of_encodeFrame_ok hword hwritten)
  have hpayload : h.payloadOf out = l.capabilities.toEvent := congrArg Frame.payload hframe
  have hinterface : h.interface = .internal := congrArg Frame.interface hframe
  have htype : h.packetType = eventPacketType := congrArg Frame.packetType hframe
  refine ⟨h, hheader, hinterface, htype, hpayload, ?_⟩
  rw [hpayload]
  exact l.capabilities.ofEvent_toEvent

theorem pending_loading (tx rx : Block) (h : l.bus.pending = []) :
    (l.loading tx rx).bus.pending = [l.carrier tx rx] := by
  obtain ⟨_, hqueued⟩ := List.append_eq_nil_iff.mp h
  show [l.carrier tx rx] ++ l.bus.queued = _
  rw [hqueued]
  rfl

theorem announces_of_announcing (hword : l.config.frame.bufferSize ≤ 65535) (hidle : l.Idle)
    (hempty : l.bus.pending = []) (hunsent : l.startup.isSent = false)
    (h : Announcing { l with phase := .active } (.ok (), l')) :
    { l' with worker := .parked }.Announces := by
  cases h with
  | spent sent => simp [hunsent] at sent
  | @armed b rx rest n out _ free written =>
    have hevent : { b with bytes := out }.IsEvent l.config.frame l.capabilities :=
      isEvent_of_written (l := { l with phase := .active }) hword written
    have hpending := pending_loading { b with bytes := out } rx
      (l := { l with phase := .active }.eventTaken.withoutBlock.withoutBlock) hempty
    have hcompleted : l.bus.completed = [] := hidle.completed
    exact ⟨rfl, ⟨_, { b with bytes := out }, hpending, rfl, hevent⟩, hcompleted,
      Signals.isDataReady_setDataReady true _⟩

theorem mute_of_announcing (hidle : l.Idle) (hretry : l.rearmPending = false)
    (hsent : l.startup.isSent = true) (h : Announcing { l with phase := .active } (.ok (), l')) :
    l'.phase = .active ∧ { l' with worker := .parked }.Mute := by
  cases h with
  | spent => exact ⟨rfl, nofun, ⟨hidle.loaded, rfl, hidle.completed⟩, hretry⟩
  | armed unsent => simp [hsent] at unsent

theorem spent_of_announcing (hidle : l.Idle) (hempty : l.bus.pending = [])
    (hworker : l.worker = .absent) (h : Announcing { l with phase := .active } (.error e, l')) :
    { l' with phase := .initialized }.Spent := by
  cases h <;> exact ⟨rfl, hworker, hempty, hidle.unfinished, rfl⟩

/-- Arming the startup event fails at the pool, at the bus or at the codec. -/
theorem error_of_armStartup (h : l.armStartup.1 = .error e) : l.startup.isSent = false ∧
    ((∃ cause, e = .device cause) ∨ ∃ cause, e = .frame cause) := by
  cases hsent : l.startup.isSent with
  | true => simp [armStartup, takeSequence, Startup.takeFrame, hsent] at h
  | false =>
    refine ⟨rfl, ?_⟩
    rw [armStartup_of_unsent hsent] at h
    split at h
    · exact .inl ⟨_, (Except.error.inj h).symm⟩
    · split at h
      · exact .inr ⟨_, (Except.error.inj h).symm⟩
      · split at h
        · exact .inl ⟨_, (Except.error.inj h).symm⟩
        · cases h

theorem armStartup_of_armed {b : Block} {memory : Memory} {n : Nat} {out : Bytes}
    (hunsent : l.startup.isSent = false) (hacquire : l.memory.acquire true = .ok (b, memory))
    (hwritten : l.event.encode l.config.frame b.bytes = (.ok n, out))
    (harm : { l.eventTaken with memory }.arm (some { b with bytes := out }) = (.ok (), l')) :
    l.armStartup = (.ok (), l'.setDataReady true) := by
  rw [armStartup_of_unsent hunsent, hacquire]
  simp only [hwritten, harm]

/-- The event is loaded if it fits the buffer and two blocks are at hand. -/
theorem armStartup_of_fit {b rx : Block} {rest : List Block} (h : l.CanArm)
    (hunsent : l.startup.isSent = false) (hfree : l.memory.wire.free = b :: rx :: rest)
    (hsize : b.bytes.length = l.config.frame.blockSize)
    (hfit : headerSize + l.capabilities.toEvent.length ≤ l.config.frame.bufferSize) :
    l.armStartup.1 = .ok () := by
  obtain ⟨out, hwritten⟩ : ∃ out, l.event.encode l.config.frame b.zeroed.bytes = (.ok _, out) :=
    encodeFrame_of_fit (toEvent_ne_nil _) rfl hfit ((Bytes.length_zeros _).trans hsize)
  have hcan : l.eventTaken.withoutBlock.CanArm := ⟨⟨h.empty, h.room, h.blank⟩, h.willing⟩
  have hrest : l.eventTaken.withoutBlock.memory.wire.free = rx :: rest := by
    simp [eventTaken, withoutBlock, Memory.blockTaken, Pool.popped, hfree]
  have harm := arm_preset { b.zeroed with bytes := out } hcan hrest
  rw [armStartup_of_armed hunsent (Memory.acquire_of_cons true hfree) hwritten harm]

/-- The event is not written if it does not fit the buffer. -/
theorem armStartup_of_unfit {b : Block} {rest : List Block}
    (hunsent : l.startup.isSent = false) (hfree : l.memory.wire.free = b :: rest)
    (hunfit : l.config.frame.bufferSize < headerSize + l.capabilities.toEvent.length) :
    l.armStartup.1 = .error (.frame (.payloadTooLarge l.capabilities.toEvent.length
      l.config.frame.maxPayload)) := by
  have hwritten : l.event.encode l.config.frame b.zeroed.bytes = (.error _, _) :=
    encodeFrame_of_unfit _ (toEvent_ne_nil _) rfl hunfit
  rw [armStartup_of_unsent hunsent, Memory.acquire_of_cons true hfree]
  simp only [if_true, hwritten]
  rfl

inductive Activating (l : Link) : Except LinkError Unit × Link → Prop
  | late (e : LinkError) (late : l.phase ≠ .initialized)
      (cause : e = .alreadyStarted ∨ e = .inactive) : Activating l (.error e, l)
  | announced {l' : Link} (early : l.phase = .initialized) (unsent : l.startup.isSent = false)
      (announces : l'.Announces) : Activating l (.ok (), l')
  | muted {l' : Link} (early : l.phase = .initialized) (sent : l.startup.isSent = true)
      (active : l'.phase = .active) (mute : l'.Mute) : Activating l (.ok (), l')
  | failed (e : LinkError) {l' : Link} (early : l.phase = .initialized)
      (unsent : l.startup.isSent = false)
      (cause : (∃ cause, e = .device cause) ∨ ∃ cause, e = .frame cause) (spent : l'.Spent) :
      Activating l (.error e, l')

theorem unfinished_activating (hearly : l.phase = .initialized) (h : l.Activating (r, l')) :
    l'.unfinished = [] := by
  cases h with
  | late _ late => exact absurd hearly late
  | announced _ _ announces => exact announces.unfinished
  | muted _ _ _ mute => exact mute.idle.unfinished
  | failed _ _ _ _ spent => exact spent.unfinished

theorem start_of_early (h : l.phase = .initialized) :
    l.start.1 = { l with phase := .active }.armStartup.1 := by
  simp only [start, h]
  generalize armStartup _ = ended
  obtain ⟨_ | _, l'⟩ := ended <;> rfl

theorem activating (h : l.Steady []) : l.Activating l.start := by
  unfold start
  cases hphase : l.phase with
  | initialized =>
    obtain ⟨hidle, habsent, hretry⟩ := h.dormant hphase
    obtain ⟨hempty, hroom, hblank⟩ := h.vacant hidle (Nat.zero_le _)
    have hvacant : { l with phase := .active }.Vacant := ⟨hempty, hroom, hblank⟩
    have hannounced := announcing hvacant
    have herror {e : LinkError} := error_of_armStartup (l := { l with phase := .active }) (e := e)
    simp only
    generalize armStartup _ = ended at hannounced herror ⊢
    obtain ⟨e | _, l'⟩ := ended
    · obtain ⟨hunsent, hcause⟩ := herror rfl
      exact .failed e hphase hunsent hcause (spent_of_announcing hidle hempty habsent hannounced)
    · cases hsent : l.startup.isSent with
      | false =>
        exact .announced hphase hsent
          (announces_of_announcing h.word hidle hempty hsent hannounced)
      | true =>
        obtain ⟨hactive, hmute⟩ := mute_of_announcing hidle hretry hsent hannounced
        exact .muted hphase hsent hactive hmute
  | active => exact .late _ (by simp [hphase]) (.inl rfl)
  | draining | deinit => exact .late _ (by simp [hphase]) (.inr rfl)

end Link
end SlaveLink
