import SlaveLink.Proofs.Memory.Custody

/-! # The pool is a stack
Of the blocks at hand the one that was given back last is handed out next, as it was left or zeroed;
blocks that nobody ever had come last, and are blank. No block is handed out twice, and what a holder
has changes only at the holder's will. -/

namespace SlaveLink

theorem Block.length_write (start : Nat) (data : Bytes) (b : Block) :
    (b.write start data).bytes.length = b.bytes.length := by
  simp only [Block.write, List.length_append, List.length_take, Bytes.length_overwrite,
    List.length_drop]
  omega

namespace Custody

variable {c c' : Custody} {step : Step} {r : Reply} {slot : String} {b : Block} {blocks size : Nat}

/-- A block changes hands: it is handed out, or given back as its holder left it. -/
inductive Movement where
  | out (b : Block)
  | back (b : Block)
deriving DecidableEq, Repr

def Movement.index : Movement → Nat
  | .out b => b.index
  | .back b => b.index

def Step.isPlain : Step → Bool
  | .acquire .. | .write .. | .read .. | .release .. => true
  | _ => false

def movements (step : Step) (r : Reply) (c : Custody) : List Movement :=
  match step, r with
  | .acquire _ _, .block (some b) => [.out b]
  | .release slot, .done => (c.buffers.lookup slot).toList.map .back
  | _, _ => []

def history (c : Custody) : List Step → List Movement
  | [] => []
  | step :: steps => movements step (c.step step).1 c ++ (c.step step).2.history steps

/-- Of all blocks but those in `lent` the block was given back last, and is as it was left; or none
of them was ever given back, and the block was never lent and is blank. -/
def DueNext (size : Nat) (past : List Movement) (lent : List Nat) (b : Block) : Prop :=
  (∃ before after, past = before ++ .back b :: after ∧ (∀ m ∈ after, m.index ≠ b.index) ∧
    ∀ x, .back x ∈ after → x.index ∈ lent) ∨
  (∀ m ∈ past, m.index ≠ b.index) ∧ (∀ x, .back x ∈ past → x.index ∈ lent) ∧
    b.bytes = Bytes.zeros size

/-- The block stays where it is while others change hands. -/
theorem DueNext.later {past since : List Movement} {lent lent' : List Nat}
    (h : DueNext size past lent b) (hothers : ∀ m ∈ since, m.index ≠ b.index)
    (hlent : lent ⊆ lent') (hback : ∀ x, .back x ∈ since → x.index ∈ lent') :
    DueNext size (past ++ since) lent' b := by
  rcases h with ⟨before, after, rfl, hafter, hlast⟩ | ⟨hnever, hlast, hblank⟩
  · refine .inl ⟨before, after ++ since, by simp, ?_, ?_⟩
    · intro m hm
      exact (List.mem_append.mp hm).elim (hafter m) (hothers m)
    · intro x hx
      exact (List.mem_append.mp hx).elim (fun hx => hlent (hlast x hx)) (hback x)
  · refine .inr ⟨?_, ?_, hblank⟩
    · intro m hm
      exact (List.mem_append.mp hm).elim (hnever m) (hothers m)
    · intro x hx
      exact (List.mem_append.mp hx).elim (fun hx => hlent (hlast x hx)) (hback x)

theorem dueNext_of_back (past : List Movement) (lent : List Nat) (b : Block) :
    DueNext size (past ++ [.back b]) lent b :=
  .inl ⟨past, [], rfl, by simp, by simp⟩

/-- Every block at hand is due once those above it are lent. -/
structure Stacked (name : String) (blocks size : Nat) (past : List Movement) (c : Custody) :
    Prop where
  due : ∀ above b below, c.memory.wire.free = above ++ b :: below →
    DueNext size past (above.map (·.index) ++ indices c.buffers) b
  free : ∀ b ∈ c.memory.wire.free, b.bytes.length = size
  held : ∀ entry ∈ c.buffers, entry.2.bytes.length = size
  plain : c.transactions = []
  name : c.memory.wire.name = name
  capacity : c.memory.wire.capacity = blocks

variable {name : String} {past : List Movement}

/-- No place is at hand twice, or both at hand and with a holder. -/
theorem Sound.nodup (h : Sound blocks c) :
    (c.memory.wire.free.map (·.index) ++ c.lent).Nodup :=
  h.lends.once.nodup_iff.mpr List.nodup_range

theorem Sound.unheld {x : Block} (h : Sound blocks c) (hfree : x ∈ c.memory.wire.free) :
    x.index ∉ indices c.buffers := by
  have hapart := (List.nodup_append.mp h.nodup).2.2
  intro hmem
  exact hapart _ (List.mem_map_of_mem hfree) _ (List.mem_append_left _ hmem) rfl

theorem Sound.distinct (h : Sound blocks c) : (indices c.buffers).Nodup :=
  (List.nodup_append.mp (List.nodup_append.mp h.nodup).2.1).1

theorem Sound.available (h : Sound blocks c) :
    c.memory.wire.inUse + c.memory.wire.available = blocks := by
  rw [h.lends.blocks, Nat.add_comm]
  exact h.lends.available

theorem Stacked.acquired {zero : Bool} {memory : Memory} (hsound : Sound blocks c)
    (h : Stacked name blocks size past c) (vacant : c.buffers.lookup slot = none)
    (acquire : c.memory.acquire zero = .ok (b, memory)) :
    Stacked name blocks size (past ++ [.out b])
      { c with memory, buffers := put slot b c.buffers } := by
  obtain ⟨x, rest, hfree, hplace, hlength, rfl⟩ := Memory.of_acquire acquire
  have hrest : (c.memory.blockTaken).wire.free = rest := by
    simp [Memory.blockTaken, Pool.popped, hfree]
  rw [put_eq, remove_of_unheld vacant]
  refine { h with due := ?due, free := ?free, held := ?kept }
  case due =>
    intro above y below hsplit
    rw [hrest] at hsplit
    subst hsplit
    -- The block on top leaves: it was above `y`, and now it is lent.
    have hdue := h.due (x :: above) y below hfree
    rw [List.map_cons, ← hplace] at hdue
    refine hdue.later ?_ List.perm_middle.symm.subset (by simp)
    simp only [List.mem_singleton, forall_eq, Movement.index, hplace]
    have hnodup := (List.nodup_append.mp hsound.nodup).1
    rw [hfree, List.map_cons, List.nodup_cons] at hnodup
    intro heq
    exact hnodup.1 (List.mem_map.mpr ⟨y, by simp, heq.symm⟩)
  case free =>
    intro y hy
    rw [hrest] at hy
    exact h.free y (by simp [hfree, hy])
  case kept =>
    intro entry hentry
    rcases List.mem_cons.mp hentry with rfl | hentry
    · exact hlength.trans (h.free x (by simp [hfree]))
    · exact h.held entry hentry

theorem Stacked.wrote {b' : Block} (hsound : Sound blocks c)
    (h : Stacked name blocks size past c) (held : c.buffers.lookup slot = some b)
    (hplace : b'.index = b.index) (hlength : b'.bytes.length = b.bytes.length) :
    Stacked name blocks size past { c with buffers := put slot b' c.buffers } := by
  have hperm := perm_cons_remove hsound.buffers held
  refine { h with due := ?due, held := ?kept }
  case due =>
    intro above y below hsplit
    have hdue := h.due above y below hsplit
    rw [← List.append_nil past]
    have hindices := indices_of_lookup hsound.buffers held
    rw [← hplace] at hindices
    exact hdue.later (by simp) (hindices.append_left _).subset (by simp)
  case kept =>
    intro entry hentry
    rcases List.mem_cons.mp hentry with rfl | hentry
    · rw [hlength]
      exact h.held _ (hperm.mem_iff.mpr List.mem_cons_self)
    · exact h.held entry (hperm.mem_iff.mpr (List.mem_cons_of_mem _ hentry))

theorem Stacked.released (hsound : Sound blocks c) (h : Stacked name blocks size past c)
    (held : c.buffers.lookup slot = some b) :
    Stacked name blocks size (past ++ [.back b])
      { c with memory := c.memory.release b, buffers := remove slot c.buffers } := by
  have hperm := perm_cons_remove hsound.buffers held
  refine { h with due := ?due, free := ?free, held := ?kept }
  case due =>
    intro above y below hsplit
    rcases List.cons_eq_append_iff.mp hsplit with ⟨rfl, hcons⟩ | ⟨above, rfl, hrest⟩
    · obtain ⟨rfl, -⟩ := List.cons.inj hcons
      exact dueNext_of_back ..
    · have hdue := h.due above y below hrest
      refine hdue.later ?_ ?_ ?_
      · simp only [List.mem_singleton, forall_eq, Movement.index]
        intro heq
        have hmem := (indices_of_lookup hsound.buffers held).mem_iff.mpr List.mem_cons_self
        rw [heq] at hmem
        exact hsound.unheld (by simp [hrest]) hmem
      · have hindices := indices_of_lookup hsound.buffers held
        exact ((hindices.append_left _).trans List.perm_middle).subset
      · simp
  case free =>
    intro y hy
    rcases List.mem_cons.mp hy with rfl | hy
    · exact h.held _ (hperm.mem_iff.mpr List.mem_cons_self)
    · exact h.free y hy
  case kept =>
    intro entry hentry
    exact h.held entry (hperm.mem_iff.mpr (List.mem_cons_of_mem _ hentry))

theorem movements_failed (step : Step) (e : CustodyError) (c : Custody) :
    movements step (.failed e) c = [] := by
  cases step <;> rfl

theorem stacked_handling (hsound : Sound blocks c) (h : Stacked name blocks size past c)
    (hplain : step.isPlain) (hhandling : Handling c step (r, c')) :
    Stacked name blocks size (past ++ movements step r c) c' := by
  cases hhandling with
  | failed => rwa [movements_failed, List.append_nil]
  | read => simpa [movements] using h
  | acquired vacant acquire => exact h.acquired hsound vacant acquire
  | wrote held =>
    rw [movements, List.append_nil]
    · exact h.wrote hsound held rfl (Block.length_write ..)
    all_goals simp
  | released held =>
    simp only [movements, held]
    exact h.released hsound held
  | viewed | opened | bound => simp [Step.isPlain] at hplain
  -- There is no transaction to act on.
  | taken _ _ held | changed held | cleared held | closed held => simp [h.plain] at held

/-- What happened before, and then what happens in the run. -/
theorem stacked_run (hsound : Sound blocks c) (h : Stacked name blocks size past c)
    (steps : List Step) (hplain : ∀ step ∈ steps, step.isPlain) :
    Stacked name blocks size (past ++ c.history steps) (c.run steps) := by
  induction steps generalizing past c with
  | nil => simpa [history, run] using h
  | cons step steps ih =>
    rw [history, ← List.append_assoc]
    refine ih (sound_handling hsound (handling c step)) ?_ fun s hs =>
      hplain s (List.mem_cons_of_mem _ hs)
    exact stacked_handling hsound h (hplain step List.mem_cons_self) (handling c step)

theorem stacked_new {wire : Pool Block} {transactions : Pool Transaction} {heap : Nat}
    (hwire : Memory.createWire name blocks size heap = .ok wire) :
    Stacked name blocks size [] { memory := ⟨wire, transactions⟩ } := by
  rw [Memory.eq_of_createWire hwire]
  have hblank : ∀ x ∈ (List.range blocks).map (Block.mk · (Bytes.zeros size)),
      x.bytes = Bytes.zeros size := by
    intro x hx
    obtain ⟨i, -, rfl⟩ := List.mem_map.mp hx
    rfl
  refine ⟨?_, ?_, by simp, rfl, rfl, rfl⟩
  · intro above x below hsplit
    refine .inr ⟨by simp, by simp, hblank x ?_⟩
    rw [show (List.range blocks).map _ = above ++ x :: below from hsplit]
    exact List.mem_append_right _ List.mem_cons_self
  · intro x hx
    simp [hblank x hx]

/-- The pool hands out its blocks as a stack, and holders keep theirs. -/
structure LendsFromStack (name : String) (blocks size : Nat) (past : List Movement)
    (c : Custody) : Prop where
  inUse : c.memory.wire.inUse = c.buffers.length
  available : c.memory.wire.inUse + c.memory.wire.available = c.memory.wire.capacity
  capacity : c.memory.wire.capacity = blocks
  distinct : (indices c.buffers).Nodup
  exhausted : ∀ slot zero, c.buffers.lookup slot = none →
    (c.step (.acquire slot zero) = (.failed (.device (.poolExhausted name)), c) ↔
      c.buffers.length = blocks)
  next : ∀ slot zero, c.buffers.lookup slot = none → c.buffers.length ≠ blocks →
    ∃ b rest, c.memory.wire.free = b :: rest ∧ b.index ∉ indices c.buffers ∧
      DueNext size past (indices c.buffers) b ∧
      c.step (.acquire slot zero) =
        (.block (some (if zero then ⟨b.index, Bytes.zeros size⟩ else b)), {
          memory := ⟨{ c.memory.wire with free := rest, inUse := c.buffers.length + 1 },
            c.memory.transactions⟩
          buffers := put slot (if zero then ⟨b.index, Bytes.zeros size⟩ else b) c.buffers
          transactions := [] })
  kept : ∀ slot b step, c.buffers.lookup slot = some b → step.isPlain → step ≠ .release slot →
    (∀ start data, step ≠ .write slot start data) →
    (c.step step).2.buffers.lookup slot = some b

/-- Whoever has a block has it as it is until he writes to it or gives it back. -/
theorem kept_handling (hhandling : Handling c step (r, c')) (held : c.buffers.lookup slot = some b)
    (hplain : step.isPlain) (hrelease : step ≠ .release slot)
    (hwrite : ∀ start data, step ≠ .write slot start data) :
    c'.buffers.lookup slot = some b := by
  cases hhandling with
  | failed | read => exact held
  | acquired vacant =>
    rw [lookup_put_of_ne, held]
    rintro rfl
    simp [held] at vacant
  | wrote =>
    rw [lookup_put_of_ne, held]
    rintro rfl
    exact hwrite _ _ rfl
  | released =>
    rw [lookup_remove_of_ne, held]
    rintro rfl
    exact hrelease rfl
  | viewed | opened | bound => simp [Step.isPlain] at hplain
  | taken takes => rcases takes with rfl | rfl <;> simp [Step.isPlain] at hplain
  | changed | cleared | closed => exact held

theorem Stacked.inUse (hsound : Sound blocks c) (h : Stacked name blocks size past c) :
    c.memory.wire.inUse = c.buffers.length := by
  rw [hsound.lends.blocks, lent, h.plain]
  simp [indices, carried]

theorem Stacked.step_acquire (hsound : Sound blocks c) (h : Stacked name blocks size past c)
    {rest : List Block} (hfree : c.memory.wire.free = b :: rest) (zero : Bool)
    (vacant : c.buffers.lookup slot = none) :
    c.step (.acquire slot zero) =
      (.block (some (if zero then ⟨b.index, Bytes.zeros size⟩ else b)), {
        memory := ⟨{ c.memory.wire with free := rest, inUse := c.buffers.length + 1 },
          c.memory.transactions⟩
        buffers := put slot (if zero then ⟨b.index, Bytes.zeros size⟩ else b) c.buffers
        transactions := [] }) := by
  have hzeroed : b.zeroed = ⟨b.index, Bytes.zeros size⟩ := by
    rw [Block.zeroed, h.free b (by simp [hfree])]
  simp only [Custody.step, vacant, Memory.acquire_of_cons zero hfree, hzeroed]
  simp [Memory.blockTaken, Pool.popped, hfree, h.inUse hsound, h.plain]

theorem lendsFromStack_of_stacked (hsound : Sound blocks c)
    (h : Stacked name blocks size past c) : LendsFromStack name blocks size past c where
  inUse := h.inUse hsound
  available := hsound.available.trans h.capacity.symm
  capacity := h.capacity
  distinct := hsound.distinct
  exhausted slot zero vacant := by
    have havailable := hsound.available
    rw [h.inUse hsound, Pool.available] at havailable
    cases hfree : c.memory.wire.free with
    | nil =>
      rw [hfree] at havailable
      refine iff_of_true ?_ havailable
      simp [Custody.step, vacant, Memory.acquire_of_nil zero hfree, Pool.exhausted, h.name]
    | cons b rest =>
      rw [hfree, List.length_cons] at havailable
      refine iff_of_false ?_ (by omega)
      rw [h.step_acquire hsound hfree zero vacant]
      simp
  next slot zero vacant hroom := by
    have havailable := hsound.available
    rw [h.inUse hsound, Pool.available] at havailable
    cases hfree : c.memory.wire.free with
    | nil => simp [hfree, hroom] at havailable
    | cons b rest =>
      exact ⟨b, rest, rfl, hsound.unheld (by simp [hfree]), h.due [] b rest hfree,
        h.step_acquire hsound hfree zero vacant⟩
  kept _ _ step := kept_handling (handling c step)

/-- Whatever is acquired, written and given back, the pool is a stack of `blocks` blocks. -/
theorem lends_from_stack {title : String} {count heap rest : Nat} {wire : Pool Block}
    {transactions : Pool Transaction}
    (hwire : Memory.createWire name blocks size heap = .ok wire)
    (htransactions : Memory.createTransactions title count rest = .ok transactions)
    (steps : List Step) (hplain : ∀ step ∈ steps, step.isPlain) :
    LendsFromStack name blocks size
      (({ memory := ⟨wire, transactions⟩ } : Custody).history steps)
      (({ memory := ⟨wire, transactions⟩ } : Custody).run steps) :=
  have hsound := sound_new hwire htransactions
  lendsFromStack_of_stacked (sound_run hsound steps)
    (stacked_run hsound (stacked_new hwire) steps hplain)

theorem lends_from_stack_small :
    ∃ wire transactions steps, Memory.createWire "wire" 2 2 Heap.maxRequest = .ok wire ∧
      Memory.createTransactions "transaction" 1 Heap.maxRequest = .ok transactions ∧
      (∀ step ∈ steps, Step.isPlain step) ∧
      LendsFromStack "wire" 2 2 (({ memory := ⟨wire, transactions⟩ } : Custody).history steps)
        (({ memory := ⟨wire, transactions⟩ } : Custody).run steps) :=
  ⟨_, _, [.acquire "a" true, .write "a" 0 [1, 2], .acquire "b" false, .acquire "c" false,
      .release "a", .release "b", .acquire "c" true, .acquire "a" false],
    rfl, rfl, by decide,
    lends_from_stack (show Memory.createWire "wire" 2 2 Heap.maxRequest = .ok _ from rfl)
      (show Memory.createTransactions "transaction" 1 Heap.maxRequest = .ok _ from rfl)
      _ (by decide)⟩

end Custody
end SlaveLink
