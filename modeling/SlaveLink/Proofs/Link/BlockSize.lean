import SlaveLink.Proofs.Link.Creation
import SlaveLink.Proofs.Link.Worker

/-! # Blocks keep their size
Every block of the wire pool is as long as a block, wherever it is: free, in a waiting frame or in a
transfer. -/

namespace SlaveLink

structure Stock (size : Nat) (free : List Block) (mux : Multiplexer)
    (transfers : List Transaction) : Prop where
  free : ∀ b ∈ free, b.bytes.length = size
  tx : ∀ p, ∀ o ∈ mux.tx.get p, o.block.bytes.length = size
  rx : ∀ p, ∀ i ∈ mux.rx.get p, i.block.bytes.length = size
  transfers : ∀ t ∈ transfers, ∀ b ∈ t.blocks, b.bytes.length = size

namespace Link

variable {l l' : Link} {t : Transaction} {c : LinkConfig}

/-- The blocks of the link that are not in the application's hands have the size of a block. -/
def Sized (l : Link) : Prop :=
  Stock l.config.frame.blockSize l.memory.wire.free l.mux (l.bus.loaded.toList ++ l.unfinished)

theorem sized_create (h : create c = .ok l) : l.Sized := by
  obtain ⟨_, rfl⟩ := create_eq_ok h
  refine ⟨?_, ?_, ?_, ?_⟩
  · intro b hb
    obtain ⟨n, _, rfl⟩ := List.mem_map.mp hb
    exact Bytes.length_zeros _
  · intro p o ho
    cases p <;> cases ho
  · intro p i hi
    cases p <;> cases hi
  · intro t ht
    cases ht

theorem blocks_carrier (tx rx : Block) (l : Link) : (l.carrier tx rx).blocks = [tx, rx] := rfl

theorem sized_loading {tx rx : Block} (h : l.Sized) (hidle : l.Idle)
    (htx : tx.bytes.length = l.config.frame.blockSize)
    (hrx : rx.bytes.length = l.config.frame.blockSize) : (l.loading tx rx).Sized := by
  have hunfinished : (l.loading tx rx).unfinished = [] := hidle.unfinished
  refine ⟨h.free, h.tx, h.rx, ?_⟩
  intro t ht b hb
  rw [hunfinished] at ht
  have heq : t = l.carrier tx rx := by simpa [loading] using ht
  rw [heq, blocks_carrier] at hb
  rcases List.mem_cons.mp hb with rfl | hb
  · exact htx
  · rw [List.mem_singleton.mp hb]
    exact hrx

theorem sized_withoutBlock (h : l.Sized) : l.withoutBlock.Sized :=
  ⟨fun b hb => h.free b (List.mem_of_mem_tail hb), h.tx, h.rx, h.transfers⟩

theorem sized_loaded (h : l.Sized) (hidle : l.Idle) (hloaded : l.Loaded l') : l'.Sized := by
  cases hloaded with
  | @frame rx rest p o tx free due =>
    obtain ⟨ho, hsub⟩ := PriorityQueues.mem_of_pop? due
    have htaken : Sized { l.withoutBlock with mux := { l.mux with tx } } :=
      ⟨(sized_withoutBlock h).free, fun p o ho => h.tx p o (hsub p o ho), h.rx, h.transfers⟩
    exact sized_loading htaken hidle (h.tx p o ho) (h.free rx (by simp [free]))
  | @dummy rx b rest free idle =>
    have htaken : Sized (l.withoutBlock.withoutBlock.setDataReady false) :=
      sized_withoutBlock (sized_withoutBlock h)
    exact sized_loading htaken hidle ((length_dummyIn b l).trans (h.free b (by simp [free])))
      (h.free rx (by simp [free]))

/-- A refused block goes back with the size it had. -/
theorem sized_turnedAway (h : l.Sized) (hturned : l.TurnedAway l') : l'.Sized := by
  obtain ⟨_, _, _, _, hframe⟩ := hturned.frame
  have hfree := hturned.free
  have htx := hturned.tx
  rw [hframe] at hfree htx ⊢
  refine ⟨?_, fun p o ho => h.tx p o (htx p o ho), h.rx, h.transfers⟩
  intro b hb
  rcases hfree b hb with ⟨x, hx, hlength⟩ | ⟨p, o, ho, rfl⟩
  · exact hlength.trans (h.free x hx)
  · exact h.tx p o ho

theorem sized_armNext (h : l.Sized) (hidle : l.Idle) (hvacant : l.Vacant) :
    l.armNext.Sized := by
  by_cases hwilling : l.refusals = 0
  · rcases armNext_loaded_or_starved ⟨hvacant, hwilling⟩ with hloaded | hstarved
    · exact sized_loaded h hidle hloaded
    · rw [hstarved]
      exact h
  · obtain ⟨l', stats, harmed, hturned, _⟩ := armNext_of_unwilling hvacant hwilling
    have hsized : l'.Sized := sized_turnedAway h hturned
    rw [harmed]
    exact hsized

theorem sized_readied (h : l.Sized) (hidle : l.Idle) (hvacant : l.Vacant) : l.readied.Sized := by
  unfold readied
  split
  · exact h
  · exact sized_armNext h hidle hvacant

theorem sized_finish (h : l.Sized) (hshaped : t.Shaped l.config.frame.blockSize)
    (ht : ∀ b ∈ t.blocks, b.bytes.length = l.config.frame.blockSize) : (l.finish t).Sized := by
  obtain ⟨tx, htx⟩ := hshaped.tx
  obtain ⟨rx, hrx⟩ := hshaped.rx
  have hfinished := finish_finished htx hrx l
  obtain ⟨wire, q, stats, flow, notices, hframe⟩ := hfinished.frame
  have hwire := hfinished.wire
  have hq := hfinished.rx
  rw [hframe] at hwire hq ⊢
  refine ⟨?_, h.tx, ?_, h.transfers⟩
  · intro b hb
    rcases hwire b hb with hb | hb
    · exact h.free b hb
    · exact ht b hb
  · intro p i hi
    rcases hq p i hi with hi | hi
    · exact h.rx p i hi
    · exact ht _ hi

theorem sized_of_turn? {withheld : Bool} (hsteady : l.Steady []) (h : l.Sized)
    (hturn : l.turn? withheld = some (t, l')) :
    l'.Sized ∧ ∀ b ∈ t.blocks, b.bytes.length = l'.config.frame.blockSize := by
  have hidle := (steady_of_turn? hsteady hturn).2.1
  have hnone : l'.bus.loaded.toList ++ l'.unfinished = [] := by
    have hloaded : l'.bus.loaded = none := hidle.loaded
    simp only [hloaded, Option.toList_none, List.nil_append]
    exact hidle.unfinished
  obtain ⟨hone, signals, rfl⟩ := turn?_eq_some hsteady.unfinished_le_one hturn
  refine ⟨⟨h.free, h.tx, h.rx, ?_⟩, h.transfers t (by simp [hone])⟩
  intro t ht
  rw [hnone] at ht
  cases ht

theorem sized_turnAround (hsteady : l.Steady [t]) (h : l.Sized) (hidle : l.Idle)
    (hshaped : t.Shaped l.config.frame.blockSize)
    (ht : ∀ b ∈ t.blocks, b.bytes.length = l.config.frame.blockSize) :
    (l.turnAround t).Sized := by
  have hvacant := hsteady.vacant hidle (Nat.le_refl _)
  have hconfig := (unmoved_readied hvacant).config
  rw [← hconfig] at hshaped ht
  exact sized_finish (sized_readied h hidle hvacant) hshaped ht

theorem sized_settle (hsteady : l.Steady []) (h : l.Sized) (withheld : Bool) :
    (l.settle withheld).Sized := by
  generalize hend : l.settle withheld = l'
  have hsettling := settling hsteady withheld
  rw [hend] at hsettling
  cases hsettling with
  | rest => exact h
  | wait => exact h
  | @hold t _ hparked hcompleted =>
    have hsame : l.unfinished = [t] := by
      simp [unfinished_eq, hparked, hcompleted, Worker.held]
    refine ⟨h.free, h.tx, h.rx, ?_⟩
    have htransfers := h.transfers
    rw [hsame] at htransfers
    exact htransfers
  | @turn t l₁ hturn =>
    obtain ⟨hsteady₁, hidle, hshaped⟩ := steady_of_turn? hsteady hturn
    obtain ⟨hsized, ht⟩ := sized_of_turn? hsteady h hturn
    exact sized_turnAround hsteady₁ hsized hidle hshaped ht

theorem free_of_scribbled {size : Nat} {m m' : Memory} (hs : m.Scribbled m')
    (h : ∀ b ∈ m.wire.free, b.bytes.length = size) :
    ∀ b ∈ m'.wire.free, b.bytes.length = size := by
  rcases hs with rfl | ⟨b, rest, bytes, hfree, hlength, rfl⟩
  · exact h
  · intro x hx
    have hx' : x ∈ { b with bytes } :: m.wire.free.tail := hx
    rcases List.mem_cons.mp hx' with rfl | hx'
    · exact hlength.trans (h b (by simp [hfree]))
    · exact h x (List.mem_of_mem_tail hx')

theorem sized_announcing {r : Except LinkError Unit} (h : l.Sized) (hidle : l.Idle)
    (ha : l.Announcing (r, l')) : l'.Sized := by
  cases ha with
  | spent => exact h
  | @armed b rx rest n out _ free written =>
    have hout : out.length = l.config.frame.blockSize :=
      (length_of_encodeFrame_ok written).trans
        ((Bytes.length_zeros _).trans (h.free b (by simp [free])))
    have htaken : Sized l.eventTaken.withoutBlock.withoutBlock :=
      sized_withoutBlock (sized_withoutBlock (l := l.eventTaken) h)
    have hloading : (l.eventTaken.withoutBlock.withoutBlock.loading { b with bytes := out }
        rx).Sized := sized_loading htaken hidle hout (h.free rx (by simp [free]))
    exact hloading
  | failed e _ scribbled => exact ⟨free_of_scribbled scribbled h.free, h.tx, h.rx, h.transfers⟩
  | turnedAway _ _ sized =>
    refine ⟨?_, h.tx, h.rx, h.transfers⟩
    intro b hb
    obtain ⟨x, hx, hlength⟩ := sized b hb
    exact hlength.trans (h.free x hx)

theorem sized_starting {r : Except LinkError Unit} (hsteady : l.Steady []) (h : l.Sized)
    (hstarting : l.Starting (r, l')) : l'.Sized := by
  cases hstarting with
  | refused => exact h
  | @up l₁ early announced =>
    obtain ⟨hidle, _, _⟩ := hsteady.dormant early
    have hup : l₁.Sized := sized_announcing (l := { l with phase := .active }) h hidle announced
    refine ⟨hup.free, hup.tx, hup.rx, fun t ht => hup.transfers t ?_⟩
    rwa [unfinished_up hidle announced] at ht
  | @failed e l₁ early announced =>
    obtain ⟨hidle, _, _⟩ := hsteady.dormant early
    have hdown : l₁.Sized := sized_announcing (l := { l with phase := .active }) h hidle announced
    exact hdown

end Link
end SlaveLink
