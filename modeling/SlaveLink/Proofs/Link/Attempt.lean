import SlaveLink.Proofs.Link.Arming

/-! # What an attempt to arm leaves
The worker's attempt to arm a vacant link ends in one of four ways, and each says what becomes of
DataReady, of the queues and of the counters: a transfer is loaded, a block is missing, or the
driver turns down the frame that was due or the dummy in its place. What the driver turns down is
given back, and the frame with it. -/

namespace SlaveLink.Link

variable {l : Link}

def turnedDown (tx rx : Block) (l : Link) : Link :=
  { l with
    memory := { l.memory with wire := (l.memory.releaseAll [tx, rx]).wire }
    refusals := l.refusals - 1
    rearmPending := true }.count .busFailure

inductive Attempt (l : Link) : Link → Prop
  | loaded {l' : Link} (willing : l.refusals = 0) (loaded : l.Loaded l') : Attempt l l'
  | starved : Attempt l l.starved
  | refusedFrame {rx : Block} {rest : List Block} {p : Priority} {o : Outgoing}
      {tx : PriorityQueues Outgoing} (unwilling : l.refusals ≠ 0)
      (free : l.memory.wire.free = rx :: rest) (due : l.mux.tx.pop? = some (p, o, tx)) :
      Attempt l ({ l.withoutBlock with mux := { l.mux with tx } }.turnedDown o.block rx)
  | refusedDummy {rx b : Block} {rest : List Block} (unwilling : l.refusals ≠ 0)
      (free : l.memory.wire.free = rx :: b :: rest) (idle : l.mux.tx.pop? = none) :
      Attempt l
        ((l.withoutBlock.withoutBlock.setDataReady false).turnedDown (l.dummyIn b) rx)

theorem armNext_of_error {e : DeviceError} {l' : Link} (h : l.arm none = (.error e, l')) :
    l.armNext = { l' with rearmPending := true }.count (armFailure e) := by
  rw [armNext, h]

theorem attempt_of_unwilling (h : l.Vacant) (hunwilling : l.refusals ≠ 0) :
    l.Attempt l.armNext := by
  cases hfree : l.memory.wire.free with
  | nil =>
    rw [armNext_of_error (arm_of_nil none hfree)]
    exact .starved
  | cons rx rest =>
    cases hpop : l.mux.tx.pop? with
    | some due =>
      obtain ⟨p, o, tx⟩ := due
      rw [armNext_of_error (arm_of_refused_due h hunwilling hfree hpop)]
      exact .refusedFrame hunwilling hfree hpop
    | none =>
      cases rest with
      | nil =>
        rw [armNext_of_error (arm_of_last h hfree hpop)]
        exact .starved
      | cons b rest =>
        rw [armNext_of_error (arm_of_refused_idle h hunwilling hfree hpop)]
        exact .refusedDummy hunwilling hfree hpop

theorem attempt (h : l.Vacant) : l.Attempt l.armNext := by
  by_cases hwilling : l.refusals = 0
  · rcases armNext_loaded_or_starved ⟨h, hwilling⟩ with hloaded | hstarved
    · exact .loaded hwilling hloaded
    · rw [hstarved]
      exact .starved
  · exact attempt_of_unwilling h hwilling

/-- An attempt that fails is counted: as a shortage, or as a failure of the bus if the driver turned
it down. -/
theorem Attempt.counted {l' : Link} (h : l.Attempt l') :
    l'.stats ∈ [l.stats, l.stats.bump .poolExhausted] ∧ l'.refusals = l.refusals ∨
      l'.stats = l.stats.bump .busFailure ∧ l'.refusals + 1 = l.refusals := by
  cases h with
  | loaded willing loaded => cases loaded <;> exact .inl ⟨List.mem_cons_self .., rfl⟩
  | starved => exact .inl ⟨List.mem_cons_of_mem _ (List.mem_cons_self ..), rfl⟩
  | refusedFrame unwilling | refusedDummy unwilling =>
    exact .inr ⟨rfl, Nat.succ_pred_eq_of_ne_zero unwilling⟩

end SlaveLink.Link
