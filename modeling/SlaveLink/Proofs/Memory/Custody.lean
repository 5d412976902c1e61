import SlaveLink.Memory.Custody
import SlaveLink.Proofs.Memory

/-! # Who has which block
A block is at hand, with a holder, or on one side of a transaction that somebody holds, and it is in
one of these places only. A transaction that nobody holds is blank, so what it last carried is
neither kept from others nor seen again. -/

namespace SlaveLink

namespace Custody

open scoped List

variable {α : Type} {held : List (String × α)} {slot other : String} {x y : α}

theorem put_eq (slot : String) (x : α) (held : List (String × α)) :
    put slot x held = (slot, x) :: remove slot held := rfl

theorem remove_of_fresh (h : ∀ entry ∈ held, entry.1 ≠ slot) : remove slot held = held := by
  rw [remove, List.filter_eq_self]
  intro entry hentry
  simpa using h entry hentry

theorem remove_of_unheld (h : held.lookup slot = none) : remove slot held = held := by
  apply remove_of_fresh
  rintro entry hentry rfl
  simpa using List.lookup_eq_none_iff.mp h entry hentry

theorem remove_cons_self (slot : String) (x : α) (held : List (String × α)) :
    remove slot ((slot, x) :: held) = remove slot held := by
  simp [remove]

theorem remove_cons_of_ne (h : other ≠ slot) (x : α) (held : List (String × α)) :
    remove slot ((other, x) :: held) = (other, x) :: remove slot held := by
  simp [remove, h]

/-- The entry of a holder comes to the front, and no other entry has its name. -/
theorem perm_cons_remove (hnames : (held.map (·.1)).Nodup) (h : held.lookup slot = some x) :
    held.Perm ((slot, x) :: remove slot held) := by
  induction held with
  | nil => simp at h
  | cons entry rest ih =>
    obtain ⟨name, y⟩ := entry
    obtain ⟨hfresh, hrest⟩ := List.nodup_cons.mp hnames
    by_cases hname : slot = name
    · subst hname
      obtain rfl : y = x := by simpa using h
      have hfresh : ∀ entry ∈ rest, entry.1 ≠ slot := by
        rintro entry hentry rfl
        exact hfresh (List.mem_map.mpr ⟨entry, hentry, rfl⟩)
      rw [remove_cons_self, remove_of_fresh hfresh]
    · rw [List.lookup_cons, beq_false_of_ne hname] at h
      rw [remove_cons_of_ne (Ne.symm hname)]
      exact ((ih hrest h).cons _).trans (List.Perm.swap ..)

theorem nodup_remove (slot : String) (h : (held.map (·.1)).Nodup) :
    ((remove slot held).map (·.1)).Nodup :=
  h.sublist (List.filter_sublist.map _)

theorem nodup_put (slot : String) (x : α) (h : (held.map (·.1)).Nodup) :
    ((put slot x held).map (·.1)).Nodup := by
  rw [put_eq, List.map_cons, List.nodup_cons]
  refine ⟨?_, nodup_remove slot h⟩
  intro hmem
  obtain ⟨entry, hentry, hname⟩ := List.mem_map.mp hmem
  simp [remove, hname] at hentry

theorem lookup_remove_of_ne (h : other ≠ slot) (held : List (String × α)) :
    (remove slot held).lookup other = held.lookup other := by
  induction held with
  | nil => rfl
  | cons entry rest ih =>
    obtain ⟨name, y⟩ := entry
    by_cases hname : name = slot
    · subst hname
      rw [remove_cons_self, ih, List.lookup_cons, beq_false_of_ne h]
    · rw [remove_cons_of_ne hname, List.lookup_cons, List.lookup_cons, ih]

theorem lookup_put_of_ne (h : other ≠ slot) (x : α) (held : List (String × α)) :
    (put slot x held).lookup other = held.lookup other := by
  rw [put_eq, List.lookup_cons, beq_false_of_ne h]
  exact lookup_remove_of_ne h held

variable {c c' : Custody} {step : Step} {r : Reply} {t : Transaction} {b : Block} {blocks : Nat}

def indices (held : List (String × Block)) : List Nat := held.map (·.2.index)

def carried (held : List (String × Transaction)) : List Nat :=
  held.flatMap (·.2.blocks.map (·.index))

theorem indices_of_lookup {held : List (String × Block)} (hnames : (held.map (·.1)).Nodup)
    (h : held.lookup slot = some b) :
    (indices held).Perm (b.index :: indices (remove slot held)) :=
  (perm_cons_remove hnames h).map _

theorem carried_of_lookup {held : List (String × Transaction)} (hnames : (held.map (·.1)).Nodup)
    (h : held.lookup slot = some t) :
    (carried held).Perm (t.blocks.map (·.index) ++ carried (remove slot held)) :=
  (perm_cons_remove hnames h).flatMap_right _

inductive Handling (c : Custody) : Step → Reply × Custody → Prop
  | failed {step : Step} {e : CustodyError} : Handling c step (.failed e, c)
  | read {slot : String} {r : Reply} : Handling c (.read slot) (r, c)
  | viewed {slot : String} {r : Reply} : Handling c (.view slot) (r, c)
  | acquired {slot : String} {zero : Bool} {b : Block} {memory : Memory}
      (vacant : c.buffers.lookup slot = none) (acquire : c.memory.acquire zero = .ok (b, memory)) :
      Handling c (.acquire slot zero)
        (.block (some b), { c with memory, buffers := put slot b c.buffers })
  | wrote {slot : String} {start : Nat} {data : Bytes} {b : Block}
      (held : c.buffers.lookup slot = some b) :
      Handling c (.write slot start data) (.block (some (b.write start data)),
        { c with buffers := put slot (b.write start data) c.buffers })
  | released {slot : String} {b : Block} (held : c.buffers.lookup slot = some b) :
      Handling c (.release slot)
        (.done, { c with memory := c.memory.release b, buffers := remove slot c.buffers })
  | opened {slot : String} {zero : Bool} {t : Transaction} {memory : Memory}
      (vacant : c.transactions.lookup slot = none)
      (acquire : c.memory.acquireTransaction zero = .ok (t, memory)) :
      Handling c (.acquireTransaction slot zero)
        (.transaction t, { c with memory, transactions := put slot t c.transactions })
  | bound {slot tx rx : String} {length : Nat} {t : Transaction} {b₁ b₂ : Block}
      (held : c.transactions.lookup slot = some t) (sent : c.buffers.lookup tx = some b₁)
      (received : c.buffers.lookup rx = some b₂) (distinct : tx ≠ rx) :
      Handling c (.bind slot tx rx length) (.transaction ⟨some b₁, some b₂, length, none⟩,
        { c with
          memory := c.memory.releaseAll t.blocks
          buffers := remove tx (remove rx c.buffers)
          transactions := put slot ⟨some b₁, some b₂, length, none⟩ c.transactions })
  /-- A block leaves a transaction. -/
  | taken {step : Step} {slot target : String} {t t' : Transaction} {b : Block}
      (takes : step = .takeTx slot target ∨ step = .takeRx slot target)
      (vacant : c.buffers.lookup target = none) (held : c.transactions.lookup slot = some t)
      (split : t.blocks.Perm (b :: t'.blocks)) :
      Handling c step (.block (some b), { c with
        buffers := put target b c.buffers
        transactions := put slot t' c.transactions })
  /-- A transaction keeps its blocks, perhaps with other bytes. -/
  | changed {step : Step} {slot : String} {t t' : Transaction} {r : Reply}
      (held : c.transactions.lookup slot = some t)
      (same : t'.blocks.map (·.index) = t.blocks.map (·.index)) :
      Handling c step (r, { c with transactions := put slot t' c.transactions })
  | cleared {slot : String} {t : Transaction} (held : c.transactions.lookup slot = some t) :
      Handling c (.clear slot) (.transaction .blank, { c with
        memory := c.memory.releaseAll t.blocks
        transactions := put slot .blank c.transactions })
  | closed {slot : String} {t : Transaction} (held : c.transactions.lookup slot = some t) :
      Handling c (.releaseTransaction slot) (.done, { c with
        memory := c.memory.releaseTransaction t
        transactions := remove slot c.transactions })

theorem withTransaction_of_held {k : Transaction → Reply × Custody}
    (h : c.transactions.lookup slot = some t) : c.withTransaction slot k = k t := by
  simp [withTransaction, h]

/-- Without a holder nothing happens. -/
theorem handling_withBuffer {k : Block → Reply × Custody}
    (h : ∀ b, c.buffers.lookup slot = some b → Handling c step (k b)) :
    Handling c step (c.withBuffer slot k) := by
  unfold withBuffer
  split
  · exact .failed
  · next b hheld => exact h b hheld

theorem handling_withTransaction {k : Transaction → Reply × Custody}
    (h : ∀ t, c.transactions.lookup slot = some t → Handling c step (k t)) :
    Handling c step (c.withTransaction slot k) := by
  unfold withTransaction
  split
  · exact .failed
  · next t hheld => exact h t hheld

theorem handling_bind (c : Custody) (slot tx rx : String) (length : Nat) :
    Handling c (.bind slot tx rx length) (c.step (.bind slot tx rx length)) := by
  simp only [Custody.step]
  split
  · next t b₁ b₂ held sent received =>
    split
    · exact .failed
    · next distinct => exact .bound held sent received distinct
  · exact .failed

theorem handling_takeTx (c : Custody) (slot target : String) :
    Handling c (.takeTx slot target) (c.step (.takeTx slot target)) := by
  simp only [Custody.step]
  split
  · exact .failed
  · next hvacant =>
    have vacant : c.buffers.lookup target = none := Option.not_isSome_iff_eq_none.mp hvacant
    refine handling_withTransaction fun t held => ?_
    obtain ⟨tx, rx, length, fault⟩ := t
    cases tx with
    | none => exact .changed held rfl
    | some b => exact .taken (.inl rfl) vacant held (List.Perm.refl _)

theorem handling_takeRx (c : Custody) (slot target : String) :
    Handling c (.takeRx slot target) (c.step (.takeRx slot target)) := by
  simp only [Custody.step]
  split
  · exact .failed
  · next hvacant =>
    have vacant : c.buffers.lookup target = none := Option.not_isSome_iff_eq_none.mp hvacant
    refine handling_withTransaction fun t held => ?_
    obtain ⟨tx, rx, length, fault⟩ := t
    cases rx with
    | none => exact .changed held rfl
    | some b =>
      refine .taken (.inr rfl) vacant held ?_
      change (tx.toList ++ [b]).Perm (b :: (tx.toList ++ []))
      rw [List.append_nil]
      exact List.perm_append_singleton b tx.toList

theorem handling (c : Custody) (step : Step) : Handling c step (c.step step) := by
  cases step with
  | acquire slot zero =>
    simp only [Custody.step]
    split
    · exact .failed
    · next hvacant =>
      split
      · exact .failed
      · next acquire => exact .acquired (Option.not_isSome_iff_eq_none.mp hvacant) acquire
  | write slot start data => exact handling_withBuffer fun b held => .wrote held
  | read slot => exact handling_withBuffer fun b held => .read
  | release slot => exact handling_withBuffer fun b held => .released held
  | acquireTransaction slot zero =>
    simp only [Custody.step]
    split
    · exact .failed
    · next hvacant =>
      split
      · exact .failed
      · next acquire => exact .opened (Option.not_isSome_iff_eq_none.mp hvacant) acquire
  | bind slot tx rx length => exact handling_bind c slot tx rx length
  | takeTx slot target => exact handling_takeTx c slot target
  | takeRx slot target => exact handling_takeRx c slot target
  | receive slot data =>
    refine handling_withTransaction fun t held => .changed held ?_
    obtain ⟨tx, rx, length, fault⟩ := t
    cases rx <;> simp [Transaction.blocks, Block.receive]
  | fail slot reason => exact handling_withTransaction fun t held => .changed held rfl
  | clear slot => exact handling_withTransaction fun t held => .cleared held
  | view slot => exact handling_withTransaction fun t held => .viewed
  | releaseTransaction slot => exact handling_withTransaction fun t held => .closed held

def lent (c : Custody) : List Nat := indices c.buffers ++ carried c.transactions

/-- What the pools have lent is with somebody, and no name stands for two things. -/
structure Sound (blocks : Nat) (c : Custody) : Prop where
  lends : c.memory.Lends blocks c.lent c.transactions.length
  buffers : (c.buffers.map (·.1)).Nodup
  transactions : (c.transactions.map (·.1)).Nodup

theorem length_of_lookup {held : List (String × α)} (hnames : (held.map (·.1)).Nodup)
    (h : held.lookup slot = some x) : held.length = (remove slot held).length + 1 :=
  (perm_cons_remove hnames h).length_eq

theorem Sound.acquired {zero : Bool} {memory : Memory} (h : Sound blocks c)
    (vacant : c.buffers.lookup slot = none) (acquire : c.memory.acquire zero = .ok (b, memory)) :
    Sound blocks { c with memory, buffers := put slot b c.buffers } := by
  refine ⟨?_, nodup_put slot b h.buffers, h.transactions⟩
  have hlent : lent { c with memory, buffers := put slot b c.buffers } = b.index :: c.lent := by
    rw [lent, put_eq, remove_of_unheld vacant]
    rfl
  rw [hlent]
  exact h.lends.acquire acquire

theorem Sound.released (h : Sound blocks c) (held : c.buffers.lookup slot = some b) :
    Sound blocks
      { c with memory := c.memory.release b, buffers := remove slot c.buffers } := by
  refine ⟨?_, nodup_remove slot h.buffers, h.transactions⟩
  apply Memory.Lends.release
  apply h.lends.perm
  exact ((indices_of_lookup h.buffers held).append_right _).symm

theorem Sound.wrote {b' : Block} (h : Sound blocks c) (held : c.buffers.lookup slot = some b)
    (hplace : b'.index = b.index) :
    Sound blocks { c with buffers := put slot b' c.buffers } := by
  refine ⟨?_, nodup_put slot b' h.buffers, h.transactions⟩
  apply h.lends.perm
  have hback := ((indices_of_lookup h.buffers held).append_right (carried c.transactions)).symm
  rw [← hplace] at hback
  exact hback

theorem Sound.opened {zero : Bool} {memory : Memory} (h : Sound blocks c)
    (vacant : c.transactions.lookup slot = none)
    (acquire : c.memory.acquireTransaction zero = .ok (t, memory)) :
    Sound blocks { c with memory, transactions := put slot t c.transactions } := by
  rw [h.lends.acquireTransaction_eq] at acquire
  obtain ⟨rfl, hlends⟩ := h.lends.acquireTransaction acquire
  refine ⟨?_, h.buffers, nodup_put slot .blank h.transactions⟩
  rw [put_eq, remove_of_unheld vacant]
  exact hlends

/-- Seen from one transaction, what is lent is what it holds and what all others hold. -/
theorem Sound.apart (h : Sound blocks c) (held : c.transactions.lookup slot = some t) :
    c.lent.Perm (t.blocks.map (·.index) ++
      (indices c.buffers ++ carried (remove slot c.transactions))) := by
  calc indices c.buffers ++ carried c.transactions
      ~ indices c.buffers ++
          (t.blocks.map (·.index) ++ carried (remove slot c.transactions)) :=
        (carried_of_lookup h.transactions held).append_left _
    _ ~ t.blocks.map (·.index) ++
          (indices c.buffers ++ carried (remove slot c.transactions)) :=
        List.perm_append_comm_assoc ..

theorem length_put_of_lookup (hnames : (held.map (·.1)).Nodup) (h : held.lookup slot = some x) :
    (put slot y held).length = held.length := by
  rw [put_eq, List.length_cons, length_of_lookup hnames h]

theorem Sound.closed (h : Sound blocks c) (held : c.transactions.lookup slot = some t) :
    Sound blocks { c with
      memory := c.memory.releaseTransaction t
      transactions := remove slot c.transactions } := by
  refine ⟨?_, h.buffers, nodup_remove slot h.transactions⟩
  apply Memory.Lends.releaseTransaction
  rw [← length_of_lookup h.transactions held]
  exact h.lends.perm (h.apart held).symm

theorem Sound.cleared (h : Sound blocks c) (held : c.transactions.lookup slot = some t) :
    Sound blocks { c with
      memory := c.memory.releaseAll t.blocks
      transactions := put slot .blank c.transactions } := by
  refine ⟨?_, h.buffers, nodup_put slot .blank h.transactions⟩
  apply Memory.Lends.releaseAll
  rw [length_put_of_lookup h.transactions held]
  exact h.lends.perm (h.apart held).symm

theorem Sound.changed {t' : Transaction} (h : Sound blocks c)
    (held : c.transactions.lookup slot = some t)
    (same : t'.blocks.map (·.index) = t.blocks.map (·.index)) :
    Sound blocks { c with transactions := put slot t' c.transactions } := by
  refine ⟨?_, h.buffers, nodup_put slot t' h.transactions⟩
  rw [length_put_of_lookup h.transactions held]
  apply h.lends.perm
  have hback := (carried_of_lookup h.transactions held).symm.append_left (indices c.buffers)
  rw [← same] at hback
  exact hback

theorem Sound.taken {target : String} {t' : Transaction} (h : Sound blocks c)
    (vacant : c.buffers.lookup target = none) (held : c.transactions.lookup slot = some t)
    (split : t.blocks.Perm (b :: t'.blocks)) :
    Sound blocks { c with
      buffers := put target b c.buffers
      transactions := put slot t' c.transactions } := by
  refine ⟨?_, nodup_put target b h.buffers, nodup_put slot t' h.transactions⟩
  rw [length_put_of_lookup h.transactions held]
  apply h.lends.perm
  rw [put_eq, remove_of_unheld vacant]
  calc b.index :: (indices c.buffers ++
        (t'.blocks.map (·.index) ++ carried (remove slot c.transactions)))
      ~ indices c.buffers ++ (b.index :: t'.blocks.map (·.index) ++
          carried (remove slot c.transactions)) := List.perm_middle.symm
    _ ~ indices c.buffers ++
          (t.blocks.map (·.index) ++ carried (remove slot c.transactions)) :=
        ((split.map (·.index)).symm.append_right _).append_left _
    _ ~ c.lent := (carried_of_lookup h.transactions held).symm.append_left _

theorem Sound.bound {tx rx : String} {b₁ b₂ : Block} {length : Nat} (h : Sound blocks c)
    (held : c.transactions.lookup slot = some t) (sent : c.buffers.lookup tx = some b₁)
    (received : c.buffers.lookup rx = some b₂) (distinct : tx ≠ rx) :
    Sound blocks { c with
      memory := c.memory.releaseAll t.blocks
      buffers := remove tx (remove rx c.buffers)
      transactions := put slot ⟨some b₁, some b₂, length, none⟩ c.transactions } := by
  have hnames := nodup_remove rx h.buffers
  have hsent : (remove rx c.buffers).lookup tx = some b₁ := by
    rw [lookup_remove_of_ne distinct]
    exact sent
  have hbuffers : (indices c.buffers).Perm
      (b₂.index :: b₁.index :: indices (remove tx (remove rx c.buffers))) :=
    (indices_of_lookup h.buffers received).trans ((indices_of_lookup hnames hsent).cons _)
  refine ⟨?_, nodup_remove tx hnames, nodup_put slot _ h.transactions⟩
  apply Memory.Lends.releaseAll
  rw [length_put_of_lookup h.transactions held]
  apply h.lends.perm
  refine (List.Perm.append_left _ ?_).trans (h.apart held).symm
  calc indices (remove tx (remove rx c.buffers)) ++
        ([b₁.index, b₂.index] ++ carried (remove slot c.transactions))
      ~ [b₁.index, b₂.index] ++ (indices (remove tx (remove rx c.buffers)) ++
          carried (remove slot c.transactions)) := List.perm_append_comm_assoc ..
    _ ~ b₂.index :: b₁.index :: (indices (remove tx (remove rx c.buffers)) ++
          carried (remove slot c.transactions)) := List.Perm.swap ..
    _ ~ indices c.buffers ++ carried (remove slot c.transactions) :=
        hbuffers.symm.append_right _

theorem sound_handling (h : Sound blocks c) (hhandling : Handling c step (r, c')) :
    Sound blocks c' := by
  cases hhandling with
  | failed | read | viewed => exact h
  | acquired vacant acquire => exact h.acquired vacant acquire
  | wrote held => exact h.wrote held rfl
  | released held => exact h.released held
  | opened vacant acquire => exact h.opened vacant acquire
  | bound held sent received distinct => exact h.bound held sent received distinct
  | taken _ vacant held split => exact h.taken vacant held split
  | changed held same => exact h.changed held same
  | cleared held => exact h.cleared held
  | closed held => exact h.closed held

theorem sound_run (h : Sound blocks c) (steps : List Step) : Sound blocks (c.run steps) := by
  induction steps generalizing c with
  | nil => exact h
  | cons step steps ih => exact ih (sound_handling h (handling c step))

theorem sound_new {name title : String} {wire : Pool Block} {transactions : Pool Transaction}
    {size count heap rest : Nat} (hwire : Memory.createWire name blocks size heap = .ok wire)
    (htransactions : Memory.createTransactions title count rest = .ok transactions) :
    Sound blocks { memory := ⟨wire, transactions⟩ } :=
  ⟨Memory.lends_new hwire htransactions, List.nodup_nil, List.nodup_nil⟩

/-- Where the blocks are: at hand, with a holder, or on either side of a held transaction. -/
def places (c : Custody) : List Nat :=
  c.memory.wire.free.map (·.index) ++ c.buffers.map (·.2.index) ++
    c.transactions.flatMap fun entry =>
      (entry.2.tx.toList ++ entry.2.rx.toList).map (·.index)

/-- Memory after a transaction gave back what it holds, the outgoing block first. -/
def regained (t : Transaction) (m : Memory) : Memory :=
  { m with wire := { m.wire with
      free := t.rx.toList ++ t.tx.toList ++ m.wire.free
      inUse := m.wire.inUse - t.blocks.length } }

theorem releaseAll_blocks (t : Transaction) (m : Memory) :
    m.releaseAll t.blocks = regained t m := by
  obtain ⟨tx, rx, length, fault⟩ := t
  cases tx <;> cases rx <;>
    simp [regained, Transaction.blocks, Memory.releaseAll, Memory.release, Pool.release,
      Nat.sub_sub]

/-- Every block is in one place, a transaction at hand is as new, and a transaction that is blanked,
bound anew or given back gives back the blocks that it still holds, the outgoing one first. -/
structure Accounted (blocks : Nat) (c : Custody) : Prop where
  once : c.places.Perm (List.range blocks)
  asNew : ∀ t ∈ c.memory.transactions.free, t = ⟨none, none, 0, none⟩
  zeroing : ∀ slot,
    c.step (.acquireTransaction slot true) = c.step (.acquireTransaction slot false)
  cleared : ∀ slot t, c.transactions.lookup slot = some t →
    c.step (.clear slot) = (.transaction ⟨none, none, 0, none⟩, { c with
      memory := regained t c.memory
      transactions := put slot ⟨none, none, 0, none⟩ c.transactions })
  bound : ∀ slot tx rx length t b₁ b₂, c.transactions.lookup slot = some t →
    c.buffers.lookup tx = some b₁ → c.buffers.lookup rx = some b₂ → tx ≠ rx →
    c.step (.bind slot tx rx length) = (.transaction ⟨some b₁, some b₂, length, none⟩, {
      memory := regained t c.memory
      buffers := remove tx (remove rx c.buffers)
      transactions := put slot ⟨some b₁, some b₂, length, none⟩ c.transactions })
  released : ∀ slot t, c.transactions.lookup slot = some t →
    c.step (.releaseTransaction slot) = (.done, { c with
      memory := { regained t c.memory with
        transactions := c.memory.transactions.release ⟨none, none, 0, none⟩ }
      transactions := remove slot c.transactions })

theorem accounted_of_sound (h : Sound blocks c) : Accounted blocks c where
  once := by
    rw [places, List.append_assoc]
    exact h.lends.once
  asNew := h.lends.blank
  zeroing slot := by
    simp only [Custody.step]
    rw [h.lends.acquireTransaction_eq false]
  cleared slot t held := by
    simp only [Custody.step, withTransaction_of_held held, Memory.clear, releaseAll_blocks]
    rfl
  bound slot tx rx length t b₁ b₂ held sent received distinct := by
    simp only [Custody.step, held, sent, received, if_neg distinct, Memory.bind,
      releaseAll_blocks]
  released slot t held := by
    simp only [Custody.step, withTransaction_of_held held, Memory.releaseTransaction,
      releaseAll_blocks]
    rfl

/-- Whatever is done with a wire pool and a pool of transactions together, no block is lost, doubled
or shared, and no transaction brings anything along from its last use. -/
theorem custody_accounted {name title : String} {wire : Pool Block}
    {transactions : Pool Transaction} {size count heap rest : Nat}
    (hwire : Memory.createWire name blocks size heap = .ok wire)
    (htransactions : Memory.createTransactions title count rest = .ok transactions)
    (steps : List Step) :
    Accounted blocks (({ memory := ⟨wire, transactions⟩ } : Custody).run steps) :=
  accounted_of_sound (sound_run (sound_new hwire htransactions) steps)

theorem custody_accounted_small :
    ∃ wire transactions, Memory.createWire "wire" 4 2 Heap.maxRequest = .ok wire ∧
      Memory.createTransactions "transaction" 1 Heap.maxRequest = .ok transactions ∧
      Accounted 4 (({ memory := ⟨wire, transactions⟩ } : Custody).run
        [.acquire "a" true, .acquire "b" false, .acquireTransaction "t" false,
          .bind "t" "a" "b" 2, .fail "t" "crc", .takeRx "t" "b", .acquire "c" false,
          .bind "t" "c" "b" 1, .releaseTransaction "t", .acquireTransaction "u" false]) :=
  ⟨_, _, rfl, rfl, custody_accounted
    (show Memory.createWire "wire" 4 2 Heap.maxRequest = .ok _ from rfl)
    (show Memory.createTransactions "transaction" 1 Heap.maxRequest = .ok _ from rfl) _⟩

end Custody
end SlaveLink
