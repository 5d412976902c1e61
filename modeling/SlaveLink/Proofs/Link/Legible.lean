import SlaveLink.Proofs.Frame.Prefix
import SlaveLink.Proofs.Link.Attempt
import SlaveLink.Proofs.Link.Outbound

/-! # What the host can read
Whatever the slave sends, the host reads a frame in it or knows it for a dummy: a frame is readable
from the moment it is queued, and nothing else is loaded but the startup event and dummies. So the
slave, which looks at no more than the length in a header, counts what it sent as the host would. -/

namespace SlaveLink

namespace FrameConfig

variable {c : FrameConfig} {bs : Bytes}

def priorityIn? (c : FrameConfig) (bs : Bytes) : Option Priority :=
  (decodeHeader c bs).toOption.map (·.interface.priority)

def readsDummy (c : FrameConfig) (bs : Bytes) : Bool :=
  match decodeHeader c bs with
  | .error .dummyFrame => true
  | _ => false

def Reads (c : FrameConfig) (bs : Bytes) : Prop :=
  decodeHeader c bs = .error .dummyFrame ∨ ∃ h, decodeHeader c bs = .ok h

theorem priorityIn?_of_ok {h : Header} (hok : decodeHeader c bs = .ok h) :
    c.priorityIn? bs = some h.interface.priority := by
  rw [priorityIn?, hok]
  rfl

theorem priorityIn?_of_error {e : FrameError} (herror : decodeHeader c bs = .error e) :
    c.priorityIn? bs = none := by
  rw [priorityIn?, herror]
  rfl

theorem readsDummy_of_ok {h : Header} (hok : decodeHeader c bs = .ok h) :
    c.readsDummy bs = false := by
  rw [readsDummy, hok]

theorem readsDummy_of_dummy (hdummy : decodeHeader c bs = .error .dummyFrame) :
    c.readsDummy bs = true := by
  rw [readsDummy, hdummy]

theorem decodeHeader_of_decode {f : Frame} (h : Frame.decode c bs = .ok f) :
    ∃ header, decodeHeader c bs = .ok header := by
  rw [Frame.decode] at h
  cases hdecode : decodeHeader c bs with
  | ok header => exact ⟨header, rfl⟩
  | error e => simp [hdecode, Except.map] at h

theorem decodeHeader_of_decode_error {e : FrameError} (h : Frame.decode c bs = .error e) :
    decodeHeader c bs = .error e := by
  rw [Frame.decode] at h
  cases hdecode : decodeHeader c bs with
  | ok header => simp [hdecode, Except.map] at h
  | error e' => simpa [hdecode, Except.map] using h

/-- What the host takes for a dummy has no length. -/
theorem word16At_of_dummy (h : decodeHeader c bs = .error .dummyFrame) : bs.word16At 2 = 0 := by
  unfold decodeHeader at h
  split at h
  · cases h
  · next hlong =>
    split at h
    · assumption
    · cases hcode : Interface.ofCode? (Header.codeIn bs) with
      | none => simp [Header.parse_of_unknown hlong hcode] at h
      | some i =>
        obtain ⟨header, hparse, _⟩ := Header.parse_of_known hlong hcode
        simp only [hparse] at h
        split at h
        · cases h
        · split at h
          · cases h
          · split at h <;> cases h

end FrameConfig

theorem Header.length_of_parse {bs : Bytes} {h : Header} (hparse : Header.parse bs = .ok h) :
    h.length = bs.word16At 2 := by
  unfold Header.parse at hparse
  split at hparse
  · cases hparse
  · simp only at hparse
    split at hparse
    · cases hparse
    · rw [← Except.ok.inj hparse]

structure Readable (c : FrameConfig) (tx : PriorityQueues Outgoing) (transfers : List Transaction) :
    Prop where
  queued : ∀ p, ∀ o ∈ tx.get p, ∃ h, decodeHeader c o.block.bytes = .ok h
  transfers : ∀ t ∈ transfers, c.Reads t.outgoing

namespace Link

variable {l l' : Link} {t : Transaction} {c : LinkConfig}

/-- Whatever the link sends or is about to send can be read. -/
def Legible (l : Link) : Prop :=
  Readable l.config.frame l.mux.tx (l.bus.loaded.toList ++ l.unfinished)

theorem transmission_of_frame {c : FrameConfig} {b : Block} {h : Header}
    (hok : decodeHeader c b.bytes = .ok h) : transmission b = .frameSent h.interface.priority := by
  obtain ⟨_, hnonzero, hparse, _⟩ := decodeHeader_eq_ok hok
  rw [← Header.length_of_parse hparse] at hnonzero
  simp [transmission, hparse, Header.isDummy, hnonzero]

theorem transmission_of_dummy {c : FrameConfig} {b : Block}
    (hdummy : decodeHeader c b.bytes = .error .dummyFrame) : transmission b = .dummySent := by
  have hzero := FrameConfig.word16At_of_dummy hdummy
  unfold transmission
  split
  · next h hparse =>
    rw [← Header.length_of_parse hparse] at hzero
    simp [Header.isDummy, hzero]
  · rfl

theorem legible_create (h : create c = .ok l) : l.Legible := by
  obtain ⟨_, rfl⟩ := create_eq_ok h
  refine ⟨?_, nofun⟩
  intro p o ho
  cases p <;> cases ho

theorem Idle.transfers (h : l.Idle) : l.bus.loaded.toList ++ l.unfinished = [] := by
  have hloaded : l.bus.loaded = none := h.loaded
  rw [hloaded]
  exact h.unfinished

theorem legible_loading {tx : Block} (rx : Block) (h : l.Legible) (hidle : l.Idle)
    (htx : tx.bytes.length = l.config.frame.blockSize) (hreads : l.config.frame.Reads tx.bytes) :
    (l.loading tx rx).Legible := by
  have hunfinished : (l.loading tx rx).unfinished = [] := hidle.unfinished
  refine ⟨h.queued, ?_⟩
  intro t ht
  rw [hunfinished] at ht
  have heq : t = l.carrier tx rx := by simpa [loading] using ht
  rw [heq, outgoing_carrier rx htx]
  exact hreads

/-- The block that goes out for want of a frame is no frame to the host. -/
theorem decodeHeader_dummyIn {b : Block} (h : headerSize ≤ l.config.frame.blockSize)
    (hb : b.bytes.length = l.config.frame.blockSize) :
    decodeHeader l.config.frame (l.dummyIn b).bytes = .error .dummyFrame :=
  FrameConfig.decodeHeader_of_decode_error (decode_dummyIn l.config.frame (by rw [hb]; exact h))

theorem outgoing_dummy {b : Block} (rx : Block) (hb : b.bytes.length = l.config.frame.blockSize) :
    (l.carrier (l.dummyIn b) rx).outgoing = (l.dummyIn b).bytes :=
  outgoing_carrier rx ((length_dummyIn b l).trans hb)

theorem legible_loaded (h : l.Legible) (hidle : l.Idle) (hsized : l.Sized)
    (hsize : headerSize ≤ l.config.frame.blockSize) (hloaded : l.Loaded l') : l'.Legible := by
  cases hloaded with
  | @frame rx rest p o tx free due =>
    obtain ⟨ho, hsub⟩ := PriorityQueues.mem_of_pop? due
    have htaken : Legible { l.withoutBlock with mux := { l.mux with tx } } :=
      ⟨fun p o ho => h.queued p o (hsub p o ho), h.transfers⟩
    exact legible_loading rx htaken hidle (hsized.tx p o ho) (.inr (h.queued p o ho))
  | @dummy rx b rest free idle =>
    have hb : b.bytes.length = l.config.frame.blockSize := hsized.free b (by simp [free])
    exact legible_loading (l := l.withoutBlock.withoutBlock.setDataReady false) rx h hidle
      ((length_dummyIn b l).trans hb) (.inl (decodeHeader_dummyIn hsize hb))

theorem legible_armNext (h : l.Legible) (hidle : l.Idle) (hsized : l.Sized)
    (hsize : headerSize ≤ l.config.frame.blockSize) (hvacant : l.Vacant) : l.armNext.Legible := by
  have hattempt := attempt hvacant
  generalize l.armNext = l' at hattempt ⊢
  cases hattempt with
  | loaded _ hloaded => exact legible_loaded h hidle hsized hsize hloaded
  | starved | refusedDummy => exact h
  | refusedFrame _ _ due =>
    exact ⟨fun p o ho => h.queued p o ((PriorityQueues.mem_of_pop? due).2 p o ho), h.transfers⟩

theorem legible_announcing {r : Except LinkError Unit} (h : l.Legible) (hidle : l.Idle)
    (hsized : l.Sized) (hword : l.config.frame.bufferSize ≤ 65535) (ha : l.Announcing (r, l')) :
    l'.Legible := by
  cases ha with
  | spent | failed | turnedAway => exact h
  | @armed b rx rest n out _ free written =>
    have hlength : out.length = l.config.frame.blockSize :=
      (length_of_encodeFrame_ok written).trans
        ((Bytes.length_zeros _).trans (hsized.free b (by simp [free])))
    have hreads := FrameConfig.decodeHeader_of_decode (decode_event hword written)
    have hloading : (l.eventTaken.withoutBlock.withoutBlock.loading { b with bytes := out }
        rx).Legible :=
      legible_loading (l := l.eventTaken.withoutBlock.withoutBlock) rx h hidle hlength
        (.inr hreads)
    exact hloading

theorem legible_starting {r : Except LinkError Unit} (hsteady : l.Steady []) (hsized : l.Sized)
    (h : l.Legible) (hstarting : l.Starting (r, l')) : l'.Legible := by
  cases hstarting with
  | refused => exact h
  | @up l₁ early announced =>
    obtain ⟨hidle, _, _⟩ := hsteady.dormant early
    have hup : l₁.Legible := legible_announcing (l := { l with phase := .active }) h hidle hsized
      hsteady.word announced
    refine ⟨hup.queued, fun t ht => hup.transfers t ?_⟩
    rwa [unfinished_up hidle announced] at ht
  | @failed e l₁ early announced =>
    obtain ⟨hidle, _, _⟩ := hsteady.dormant early
    have hdown : l₁.Legible := legible_announcing (l := { l with phase := .active }) h hidle hsized
      hsteady.word announced
    exact hdown

theorem legible_submission {h : Header} {payload : Bytes} {r : Except LinkError Unit}
    (hlegible : l.Legible) (hword : l.config.frame.bufferSize ≤ 65535)
    (hsubmission : l.Submission h payload (r, l')) : l'.Legible := by
  cases hsubmission with
  | queued _ _ written room =>
    obtain ⟨tx, hpush, rfl⟩ := Option.map_eq_some_iff.mp room
    refine ⟨?_, hlegible.transfers⟩
    intro p o ho
    rcases PriorityQueues.mem_of_push? hpush p ho with ho | rfl
    · exact hlegible.queued p o ho
    · exact FrameConfig.decodeHeader_of_decode (decode_of_encodeFrame_ok hword written)
  | refused => exact hlegible

theorem legible_finish (h : l.Legible) (hshaped : t.Shaped l.config.frame.blockSize) :
    (l.finish t).Legible := by
  obtain ⟨_, _, _, _, _, hframe⟩ := finish_frame hshaped l
  rw [hframe]
  exact h

theorem legible_turnAround (hsteady : l.Steady [t]) (h : l.Legible) (hsized : l.Sized)
    (hidle : l.Idle) (hshaped : t.Shaped l.config.frame.blockSize) :
    (l.turnAround t).Legible := by
  have hvacant := hsteady.vacant hidle (Nat.le_refl _)
  have hreadied : l.readied.Legible := by
    unfold readied
    split
    · exact h
    · exact legible_armNext h hidle hsized (headerSize_le_blockSize hsteady) hvacant
  rw [← (unmoved_readied hvacant).config] at hshaped
  exact legible_finish hreadied hshaped

theorem legible_of_turn? {withheld : Bool} (hsteady : l.Steady []) (h : l.Legible)
    (hturn : l.turn? withheld = some (t, l')) : l'.Legible := by
  have hnone := (steady_of_turn? hsteady hturn).2.1.transfers
  obtain ⟨_, signals, rfl⟩ := turn?_eq_some hsteady.unfinished_le_one hturn
  refine ⟨h.queued, ?_⟩
  rw [hnone]
  nofun

theorem legible_settle (hsteady : l.Steady []) (hsized : l.Sized) (h : l.Legible)
    (withheld : Bool) : (l.settle withheld).Legible := by
  generalize hend : l.settle withheld = l'
  have hsettling := settling hsteady withheld
  rw [hend] at hsettling
  cases hsettling with
  | rest | wait => exact h
  | @hold t _ hparked hcompleted =>
    have hsame : l.unfinished = [t] := by
      simp [unfinished_eq, hparked, hcompleted, Worker.held]
    have htransfers := h.transfers
    rw [hsame] at htransfers
    exact ⟨h.queued, htransfers⟩
  | @turn t l₁ hturn =>
    obtain ⟨hsteady₁, hidle, hshaped⟩ := steady_of_turn? hsteady hturn
    have hsized₁ := (sized_of_turn? hsteady hsized hturn).1
    have hlegible := legible_of_turn? hsteady h hturn
    exact legible_turnAround hsteady₁ hlegible hsized₁ hidle hshaped

end Link
end SlaveLink
