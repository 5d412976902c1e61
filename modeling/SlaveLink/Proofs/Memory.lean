import SlaveLink.Memory.Basic

/-! # What the pools hand out and take back
Taking removes the front of a stack and giving back puts it there, so every operation on memory is
an equation about the two stacks. Seen from outside, every block is at hand or lent, and none is so
twice. -/

namespace SlaveLink

def Pool.popped {α : Type} (p : Pool α) : Pool α :=
  { p with free := p.free.tail, inUse := p.inUse + 1 }

theorem Pool.release_popped {α : Type} {p : Pool α} {slot : α} {rest : List α}
    (h : p.free = slot :: rest) : p.popped.release slot = p := by
  cases p
  simp_all [popped, release]

def Pool.refilled {α : Type} (slot : α) (p : Pool α) : Pool α :=
  { p with free := slot :: p.free.tail }

/-- A slot that was taken goes back on top with what it now holds. -/
theorem Pool.release_popped_eq {α : Type} (p : Pool α) (slot : α) :
    p.popped.release slot = p.refilled slot := by
  simp [popped, release, refilled]

/-- A new pool has every slot at hand. -/
theorem Pool.create_eq_ok_iff {α : Type} {name : String} {blocks slot heap : Nat}
    {make : Nat → α} {p : Pool α} : Pool.create name blocks slot make heap = .ok p ↔
      blocks ≠ 0 ∧ blocks * slot ≤ heap ∧
        p = { name, capacity := blocks, free := (List.range blocks).map make } := by
  unfold create
  split
  · next hnone => simp [hnone]
  · next hsome =>
    split
    · next hshort =>
      simp only [reduceCtorEq, false_iff]
      omega
    · next hroom =>
      rw [Except.ok.injEq, eq_comm]
      exact ⟨fun h => ⟨hsome, Nat.le_of_not_lt hroom, h⟩, fun h => h.2.2⟩

namespace Memory

variable {m : Memory} {name : String} {blocks size heap : Nat} {wire : Pool Block}

/-- A heap that has memory for the slots and the blocks of a pool gives it. -/
theorem createWire_eq_ok_iff : createWire name blocks size heap = .ok wire ↔
    size ≠ 0 ∧ blocks ≠ 0 ∧ size ≤ Heap.maxRequest ∧ wireBytes blocks size ≤ heap ∧ wire =
      { name, capacity := blocks, free := (List.range blocks).map (⟨·, Bytes.zeros size⟩) } := by
  have hslots : blocks * blockSlot ≤ wireBytes blocks size :=
    Nat.mul_le_mul_left blocks (Nat.le_add_right ..)
  unfold createWire
  split
  · next hempty => simp [hempty]
  next hsize =>
  cases hcreate : Pool.create name blocks blockSlot id heap with
  | error e =>
    simp only [reduceCtorEq, false_iff]
    rintro ⟨-, hblocks, -, hroom, -⟩
    have hcreated : Pool.create name blocks blockSlot id heap = .ok _ :=
      Pool.create_eq_ok_iff.mpr ⟨hblocks, Nat.le_trans hslots hroom, rfl⟩
    exact nomatch hcreate.symm.trans hcreated
  | ok slots =>
    obtain ⟨hblocks, -, rfl⟩ := Pool.create_eq_ok_iff.mp hcreate
    simp only
    split
    · simp only [reduceCtorEq, false_iff]
      omega
    · split
      · simp only [reduceCtorEq, false_iff]
        omega
      · next hfits hroom =>
        rw [Except.ok.injEq, eq_comm]
        simp only [Pool.map, List.map_id_fun, id_eq]
        exact ⟨fun h => ⟨hsize, hblocks, Nat.le_of_not_lt hfits, Nat.le_of_not_lt hroom, h⟩,
          fun h => h.2.2.2.2⟩

theorem eq_of_createWire (h : createWire name blocks size heap = .ok wire) : wire =
    { name, capacity := blocks, free := (List.range blocks).map (⟨·, Bytes.zeros size⟩) } :=
  (createWire_eq_ok_iff.mp h).2.2.2.2

/-- The same blocks in the same order, the next one perhaps with other bytes. -/
def Scribbled (m m' : Memory) : Prop :=
  m' = m ∨ ∃ b rest bytes, m.wire.free = b :: rest ∧ bytes.length = b.bytes.length ∧
    m' = { m with wire := m.wire.refilled { b with bytes } }

def blockTaken (m : Memory) : Memory := { m with wire := m.wire.popped }

def transactionTaken (m : Memory) : Memory := { m with transactions := m.transactions.popped }

theorem acquire_of_nil (zero : Bool) (h : m.wire.free = []) :
    m.acquire zero = .error m.wire.exhausted := by
  simp [acquire, Pool.acquire?, h]

theorem acquire_of_cons {b : Block} {rest : List Block} (zero : Bool)
    (h : m.wire.free = b :: rest) :
    m.acquire zero = .ok (if zero then b.zeroed else b, m.blockTaken) := by
  simp [acquire, Pool.acquire?, blockTaken, Pool.popped, h]

/-- A block comes off the top in its own place, zeroed or not. -/
theorem of_acquire {m' : Memory} {b : Block} {zero : Bool} (h : m.acquire zero = .ok (b, m')) :
    ∃ x rest, m.wire.free = x :: rest ∧ b.index = x.index ∧
      b.bytes.length = x.bytes.length ∧ m' = m.blockTaken := by
  cases hfree : m.wire.free with
  | nil => simp [acquire_of_nil zero hfree] at h
  | cons x rest =>
    rw [acquire_of_cons zero hfree] at h
    obtain ⟨rfl, rfl⟩ := Prod.mk.inj (Except.ok.inj h)
    exact ⟨x, rest, rfl, by cases zero <;> rfl, by cases zero <;> simp [Block.zeroed], rfl⟩

theorem acquireTransaction_of_blank {ts : List Transaction}
    (h : m.transactions.free = .blank :: ts) :
    m.acquireTransaction true = .ok (.blank, m.transactionTaken) := by
  simp [acquireTransaction, Pool.acquire?, h, clear, Transaction.blocks, Transaction.blank,
    releaseAll, transactionTaken, Pool.popped]

theorem bind_blank (tx rx : Block) (length : Nat) (m : Memory) :
    m.bind tx rx length .blank = (⟨some tx, some rx, length, none⟩, m) := rfl

@[simp] theorem transactions_releaseAll (bs : List Block) (m : Memory) :
    (m.releaseAll bs).transactions = m.transactions := by
  induction bs generalizing m with
  | nil => rfl
  | cons b bs ih => exact ih (m.release b)

/-- What is given back lies on top, the last one first. -/
@[simp] theorem free_releaseAll (bs : List Block) (m : Memory) :
    (m.releaseAll bs).wire.free = bs.reverse ++ m.wire.free := by
  induction bs generalizing m with
  | nil => rfl
  | cons b bs ih =>
    have h := ih (m.release b)
    simp only [releaseAll, List.foldl_cons] at h ⊢
    rw [h]
    simp [release, Pool.release]

theorem mem_free_releaseAll {bs : List Block} {b : Block} :
    b ∈ (m.releaseAll bs).wire.free ↔ b ∈ bs ∨ b ∈ m.wire.free := by
  simp

theorem releaseTransaction_eq (t : Transaction) (m : Memory) : m.releaseTransaction t =
    ⟨(m.releaseAll t.blocks).wire, m.transactions.release .blank⟩ := by
  simp [releaseTransaction]

variable {m' : Memory} {count : Nat} {lent : List Nat}

/-- The pool of `size` blocks has lent the blocks at the places in `lent` and has the others at
hand; `count` transactions are lent. -/
structure Lends (size : Nat) (lent : List Nat) (count : Nat) (m : Memory) : Prop where
  blocks : m.wire.inUse = lent.length
  transactions : m.transactions.inUse = count
  /-- Every block is at hand or lent, and no block is so twice. -/
  once : (m.wire.free.map (·.index) ++ lent).Perm (List.range size)
  blank : ∀ t ∈ m.transactions.free, t = .blank

theorem Lends.available (h : m.Lends size lent count) : m.wire.available + lent.length = size := by
  simpa [Pool.available] using h.once.length_eq

theorem lends_new {title : String} {transactions : Pool Transaction} {width rest : Nat}
    (hwire : createWire name size width heap = .ok wire)
    (htransactions : createTransactions title count rest = .ok transactions) :
    Lends size [] 0 ⟨wire, transactions⟩ := by
  rw [eq_of_createWire hwire, (Pool.create_eq_ok_iff.mp htransactions).2.2]
  refine ⟨rfl, rfl, ?_, ?_⟩
  · simp [Function.comp_def]
  · intro t ht
    obtain ⟨_, _, rfl⟩ := List.mem_map.mp ht
    rfl

theorem Lends.perm {other : List Nat} (h : m.Lends size lent count) (hperm : other.Perm lent) :
    m.Lends size other count :=
  { h with
    blocks := h.blocks.trans hperm.length_eq.symm
    once := (hperm.append_left _).trans h.once }

theorem Lends.acquire {b : Block} {zero : Bool} (h : m.Lends size lent count)
    (hacquire : m.acquire zero = .ok (b, m')) : m'.Lends size (b.index :: lent) count := by
  obtain ⟨x, rest, hfree, hplace, -, rfl⟩ := of_acquire hacquire
  have honce := h.once
  rw [hfree] at honce
  refine ⟨congrArg (· + 1) h.blocks, h.transactions, ?_, h.blank⟩
  simp only [blockTaken, Pool.popped, hfree, List.tail_cons, hplace]
  exact List.perm_middle.trans honce

theorem Lends.release {b : Block} (h : m.Lends size (b.index :: lent) count) :
    (m.release b).Lends size lent count := by
  refine ⟨?_, h.transactions, List.perm_middle.symm.trans h.once, h.blank⟩
  have hblocks := h.blocks
  simp only [List.length_cons] at hblocks
  simp [Memory.release, Pool.release, hblocks]

theorem Lends.releaseAll {bs : List Block} (h : m.Lends size (bs.map (·.index) ++ lent) count) :
    (m.releaseAll bs).Lends size lent count := by
  induction bs generalizing m with
  | nil => exact h
  | cons b bs ih => exact ih h.release

theorem Lends.acquireTransaction {t : Transaction} (h : m.Lends size lent count)
    (hacquire : m.acquireTransaction true = .ok (t, m')) :
    t = .blank ∧ m'.Lends size lent (count + 1) := by
  cases hfree : m.transactions.free with
  | nil => simp [Memory.acquireTransaction, Pool.acquire?, hfree] at hacquire
  | cons u rest =>
    obtain rfl : u = .blank := h.blank u (by simp [hfree])
    simp only [acquireTransaction_of_blank hfree, Except.ok.injEq, Prod.mk.injEq] at hacquire
    obtain ⟨rfl, rfl⟩ := hacquire
    refine ⟨rfl, h.blocks, congrArg (· + 1) h.transactions, h.once, ?_⟩
    intro t ht
    exact h.blank t (List.mem_of_mem_tail ht)

/-- Transactions at hand are blank already, so that blanking them makes no difference. -/
theorem Lends.acquireTransaction_eq (h : m.Lends size lent count) (zero : Bool) :
    m.acquireTransaction zero = m.acquireTransaction true := by
  cases zero with
  | true => rfl
  | false =>
    cases hfree : m.transactions.free with
    | nil => simp [Memory.acquireTransaction, Pool.acquire?, hfree]
    | cons t rest =>
      obtain rfl : t = .blank := h.blank t (by simp [hfree])
      rw [acquireTransaction_of_blank hfree]
      simp [Memory.acquireTransaction, Pool.acquire?, hfree, transactionTaken, Pool.popped]

theorem Lends.releaseTransaction {t : Transaction}
    (h : m.Lends size (t.blocks.map (·.index) ++ lent) (count + 1)) :
    (m.releaseTransaction t).Lends size lent count := by
  have hback := h.releaseAll
  refine ⟨hback.blocks, ?_, hback.once, ?_⟩
  · simp [Memory.releaseTransaction, Pool.release, h.transactions]
  · intro u hu
    rcases List.mem_cons.mp hu with rfl | hu
    · rfl
    · exact hback.blank u hu

theorem Lends.releaseTransactions {ts : List Transaction}
    (h : m.Lends size ((ts.flatMap (·.blocks)).map (·.index) ++ lent) (count + ts.length)) :
    (m.releaseTransactions ts).Lends size lent count := by
  induction ts generalizing m with
  | nil => exact h
  | cons t ts ih =>
    apply ih
    apply Lends.releaseTransaction
    simpa [Nat.add_assoc] using h

theorem Lends.scribbled (h : m.Lends size lent count) (hscribbled : m.Scribbled m') :
    m'.Lends size lent count := by
  rcases hscribbled with rfl | ⟨b, rest, bytes, hfree, _, rfl⟩
  · exact h
  · have honce := h.once
    rw [hfree] at honce
    exact ⟨h.blocks, h.transactions, by simpa [Pool.refilled, hfree] using honce, h.blank⟩

end Memory
end SlaveLink
