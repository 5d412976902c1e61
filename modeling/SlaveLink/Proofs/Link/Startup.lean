import SlaveLink.Link.Lifecycle
import SlaveLink.Proofs.Frame.RoundTrip
import SlaveLink.Proofs.Link.Arming

/-! # What starting does
The startup event is used up by the first start that gets past the check of the phase. It is then
loaded, or the start fails and nothing is armed: a block was missing, or the driver refused. A later
start arms nothing at all. -/

namespace SlaveLink.Link

variable {l : Link}

theorem arm_preset {rx : Block} {rest : List Block} (tx : Block) (h : l.CanArm)
    (hfree : l.memory.wire.free = rx :: rest) :
    l.arm (some tx) = (.ok (), l.withoutBlock.loading tx rx) := by
  simp only [arm_of_cons (some tx) h.toVacant hfree]
  rw [bindAndLoad_of_empty _ _ (by exact h.willing) (by exact h.empty) (by exact h.room)]
  rfl

def event (l : Link) : Frame := { l.startup.capabilities.toFrame with sequence := l.sequence }

def eventTaken (l : Link) : Link :=
  { l with sequence := l.sequence + 1, startup := { l.startup with isSent := true } }

inductive Announcing (l : Link) : Except LinkError Unit × Link → Prop
  | spent (sent : l.startup.isSent = true) :
      Announcing l (.ok (), { l with sequence := l.sequence + 1 })
  | armed {b rx : Block} {rest : List Block} {n : Nat} {out : Bytes}
      (unsent : l.startup.isSent = false) (free : l.memory.wire.free = b :: rx :: rest)
      (written : l.event.encode l.config.frame b.zeroed.bytes = (.ok n, out)) :
      Announcing l (.ok (), (l.eventTaken.withoutBlock.withoutBlock.loading
        { b with bytes := out } rx).setDataReady true)
  | failed (e : LinkError) {memory : Memory} (unsent : l.startup.isSent = false)
      (scribbled : l.memory.Scribbled memory) :
      Announcing l (.error e, { l.eventTaken with memory })
  | turnedAway (e : LinkError) {wire : Pool Block} {refusals : Nat} (unwilling : l.refusals ≠ 0)
      (sized : ∀ b ∈ wire.free, ∃ x ∈ l.memory.wire.free, b.bytes.length = x.bytes.length) :
      Announcing l (.error e, { l.eventTaken with memory := { l.memory with wire }, refusals })

theorem armStartup_of_unsent (h : l.startup.isSent = false) : l.armStartup =
    match l.memory.acquire true with
    | .error e => (.error (.device e), l.eventTaken)
    | .ok (b, memory) =>
      match l.event.encode l.config.frame b.bytes with
      | (.error e, _) => (.error (.frame e), { l.eventTaken with memory }.giveBack [b])
      | (.ok _, bytes) =>
        match { l.eventTaken with memory }.arm (some { b with bytes }) with
        | (.error e, l) => (.error (.device e), l)
        | (.ok (), l) => (.ok (), l.setDataReady true) := by
  simp only [armStartup, takeSequence, Startup.takeFrame, h, Bool.false_eq_true, if_false]
  rfl

theorem announcing_of_unwilling {b rx : Block} {rest : List Block} {out : Bytes} (h : l.Vacant)
    (hunwilling : l.refusals ≠ 0) (hfree : l.memory.wire.free = b :: rx :: rest)
    (hlength : out.length = b.bytes.length) :
    l.Announcing (match l.eventTaken.withoutBlock.arm (some { b with bytes := out }) with
      | (.error e, l) => (.error (.device e), l)
      | (.ok (), l) => (.ok (), l.setDataReady true)) := by
  obtain ⟨ts, hblank⟩ := h.blank
  have hvacant : l.eventTaken.withoutBlock.Vacant := ⟨h.empty, h.room, h.blank⟩
  have hrest : l.eventTaken.withoutBlock.memory.wire.free = rx :: rest := by
    simp [eventTaken, withoutBlock, Memory.blockTaken, Pool.popped, hfree]
  have harm := bindAndLoad_of_unwilling (l := l.eventTaken.withoutBlock.withoutBlock)
    { b with bytes := out } rx hunwilling hblank
  rw [arm_of_cons _ hvacant hrest]
  simp only [withoutBlock] at harm ⊢
  simp only [harm]
  refine .turnedAway _ hunwilling ?_
  intro x hx
  simp only [Memory.free_releaseAll, List.reverse_cons, List.reverse_nil, List.nil_append,
    List.cons_append, List.mem_cons] at hx
  rcases hx with rfl | rfl | hx
  · exact ⟨x, by simp [hfree], rfl⟩
  · exact ⟨b, by simp [hfree], hlength⟩
  · exact ⟨x, List.mem_of_mem_tail (List.mem_of_mem_tail hx), rfl⟩

theorem announcing_of_written {b : Block} {rest : List Block} {n : Nat} {out : Bytes}
    (h : l.Vacant) (hunsent : l.startup.isSent = false) (hfree : l.memory.wire.free = b :: rest)
    (hwritten : l.event.encode l.config.frame b.zeroed.bytes = (.ok n, out)) :
    l.Announcing (match l.eventTaken.withoutBlock.arm (some { b with bytes := out }) with
      | (.error e, l) => (.error (.device e), l)
      | (.ok (), l) => (.ok (), l.setDataReady true)) := by
  have hlength : out.length = b.bytes.length :=
    (length_of_encodeFrame_ok hwritten).trans (Bytes.length_zeros _)
  have hrest : l.eventTaken.withoutBlock.memory.wire.free = rest := by
    simp [eventTaken, withoutBlock, Memory.blockTaken, Pool.popped, hfree]
  cases rest with
  | nil =>
    rw [arm_of_nil _ hrest, Option.toList_some, giveBack_rewritten]
    exact .failed _ hunsent (.inr ⟨b, [], out, hfree, hlength, rfl⟩)
  | cons rx rest =>
    by_cases hwilling : l.refusals = 0
    · have hcan : l.eventTaken.withoutBlock.CanArm := ⟨⟨h.empty, h.room, h.blank⟩, hwilling⟩
      rw [arm_preset _ hcan hrest]
      exact .armed hunsent hfree hwritten
    · exact announcing_of_unwilling h hwilling hfree hlength

theorem announcing_of_unsent (h : l.Vacant) (hunsent : l.startup.isSent = false) :
    l.Announcing l.armStartup := by
  rw [armStartup_of_unsent hunsent]
  cases hfree : l.memory.wire.free with
  | nil =>
    rw [Memory.acquire_of_nil true hfree]
    exact .failed _ hunsent (.inl rfl)
  | cons b rest =>
    rw [Memory.acquire_of_cons true hfree]
    simp only [if_true]
    cases hwritten : l.event.encode l.config.frame b.zeroed.bytes with
    | mk result out =>
      cases result with
      | error e =>
        have hback : { l.eventTaken with memory := l.memory.blockTaken }.giveBack [b.zeroed] =
            { l.eventTaken with
              memory := { l.memory with wire := l.memory.wire.refilled b.zeroed } } :=
          giveBack_rewritten _ l.eventTaken
        simp only [hback]
        exact .failed _ hunsent (.inr ⟨b, rest, _, hfree, Bytes.length_zeros _, rfl⟩)
      | ok n => exact announcing_of_written (b := b) h hunsent hfree hwritten

theorem announcing (h : l.Vacant) : l.Announcing l.armStartup := by
  cases hsent : l.startup.isSent with
  | false => exact announcing_of_unsent h hsent
  | true =>
    have hnone : l.armStartup = (.ok (), { l with sequence := l.sequence + 1 }) := by
      simp only [armStartup, takeSequence, Startup.takeFrame, hsent, if_true]
    rw [hnone]
    exact .spent hsent

inductive Starting (l : Link) : Except LinkError Unit × Link → Prop
  | refused (e : LinkError) (late : l.phase ≠ .initialized) : Starting l (.error e, l)
  | up {l' : Link} (early : l.phase = .initialized)
      (announced : Announcing { l with phase := .active } (.ok (), l')) :
      Starting l (.ok (), { l' with worker := .parked })
  | failed (e : LinkError) {l' : Link} (early : l.phase = .initialized)
      (announced : Announcing { l with phase := .active } (.error e, l')) :
      Starting l (.error e, { l' with phase := .initialized })

theorem starting (h : l.phase = .initialized → l.Vacant) : l.Starting l.start := by
  unfold start
  split
  · next hphase =>
    obtain ⟨hempty, hroom, hblank⟩ := h hphase
    have hvacant : { l with phase := .active }.Vacant := ⟨hempty, hroom, hblank⟩
    have hannounced := announcing hvacant
    generalize { l with phase := .active }.armStartup = ended at hannounced ⊢
    obtain ⟨result, l'⟩ := ended
    cases result with
    | ok _ => exact .up hphase hannounced
    | error e => exact .failed e hphase hannounced
  · next hphase => exact .refused _ (by simp [hphase])
  · next hphase => exact .refused _ (by simp [hphase])
  · next hphase => exact .refused _ (by simp [hphase])

end SlaveLink.Link
