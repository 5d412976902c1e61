import SlaveLink.Link.Application
import SlaveLink.Proofs.Frame.RoundTrip
import SlaveLink.Proofs.Link.Arming

/-! # What the application's requests do
A frame is queued in a block of its own, or refused with no more than a block scribbled on. A
received frame leaves its queue, and flow control takes the new occupancy into account. -/

namespace SlaveLink.Link

variable {l : Link}

inductive Submission (h : Header) (payload : Bytes) (l : Link) :
    Except LinkError Unit × Link → Prop
  | queued {b : Block} {rest : List Block} {n : Nat} {out : Bytes} {mux : Multiplexer}
      (isOpen : l.isOpen = true) (free : l.memory.wire.free = b :: rest)
      (written : encodeFrame l.config.frame { h with throttle := l.flow.throttle } payload b.bytes =
        (.ok n, out))
      (room : l.mux.send? ⟨{ b with bytes := out }, h.interface⟩ = some mux) :
      Submission h payload l (.ok (), { l.withoutBlock with mux }.setDataReady true)
  | refused (e : LinkError) {memory : Memory} {stats : Stats}
      (scribbled : l.memory.Scribbled memory)
      (counted : stats ∈ [l.stats, l.stats.bump .poolExhausted, l.stats.bump .txQueueFull]) :
      Submission h payload l (.error e, { l with memory, stats })

theorem submission_enqueue (h : Header) (payload : Bytes) (hopen : l.isOpen = true) :
    l.Submission h payload (l.enqueue h payload) := by
  unfold enqueue
  cases hfree : l.memory.wire.free with
  | nil =>
    rw [Memory.acquire_of_nil false hfree]
    exact .refused _ (.inl rfl) (by simp)
  | cons b rest =>
    rw [Memory.acquire_of_cons false hfree]
    simp only [Bool.false_eq_true, if_false]
    cases hwritten : encodeFrame l.config.frame { h with throttle := l.flow.throttle } payload
        b.bytes with
    | mk result out =>
      cases result with
      | error e =>
        have hback : { l with memory := l.memory.blockTaken }.giveBack [b] =
            { l with memory := { l.memory with wire := l.memory.wire.refilled b } } :=
          giveBack_rewritten b l
        rw [hback]
        exact .refused (.frame e) (.inr ⟨b, rest, b.bytes, hfree, rfl, rfl⟩)
          (List.mem_cons_self ..)
      | ok n =>
        have hback : { l with memory := l.memory.blockTaken }.giveBack [{ b with bytes := out }] =
            { l with memory :=
              { l.memory with wire := l.memory.wire.refilled { b with bytes := out } } } :=
          giveBack_rewritten _ l
        have hcounted : l.stats.bump .txQueueFull ∈
            [l.stats, l.stats.bump .poolExhausted, l.stats.bump .txQueueFull] := by simp
        cases hroom : l.mux.send? ⟨{ b with bytes := out }, h.interface⟩ with
        | none =>
          simp only [hroom, hback]
          exact .refused _ (.inr ⟨b, rest, out, hfree, length_of_encodeFrame_ok hwritten, rfl⟩)
            hcounted
        | some mux =>
          simp only [hroom]
          exact .queued hopen hfree hwritten hroom

theorem submission (h : Header) (payload : Bytes) (l : Link) :
    l.Submission h payload (l.submitHeader h payload) := by
  unfold submitHeader
  split
  · exact .refused _ (.inl rfl) (List.mem_cons_self ..)
  · next hopen =>
    split
    · exact .refused _ (.inl rfl) (List.mem_cons_self ..)
    · exact submission_enqueue h payload (by simpa using hopen)

theorem updateFlow_eq (l : Link) : ∃ flow stats, l.updateFlow = { l with flow, stats } ∧
    stats ∈ [l.stats, l.stats.bump (.throttleChanged true),
      l.stats.bump (.throttleChanged false)] := by
  unfold updateFlow
  split
  next change flow hupdate =>
  cases change with
  | none => exact ⟨_, _, rfl, List.mem_cons_self ..⟩
  | some on => exact ⟨flow, l.stats.bump (.throttleChanged on), rfl, by cases on <;> simp⟩

theorem updateFlow_taken (rx : PriorityQueues Incoming) (l : Link) :
    ∃ flow stats, { l with mux := { l.mux with rx } }.updateFlow =
        { l with mux := { l.mux with rx }, flow, stats } ∧
      stats ∈ [l.stats, l.stats.bump (.throttleChanged true),
        l.stats.bump (.throttleChanged false)] :=
  updateFlow_eq { l with mux := { l.mux with rx } }

theorem tryReceive_of_due {p : Priority} {i : Incoming} {rx : PriorityQueues Incoming}
    (hopen : l.isOpen = true) (hdue : l.mux.rx.pop? = some (p, i, rx)) :
    l.tryReceive = (.ok (some i), { l with mux := { l.mux with rx } }.updateFlow) := by
  simp [tryReceive, hopen, Multiplexer.receive?, hdue]

theorem tryReceive_of_idle (hopen : l.isOpen = true) (hidle : l.mux.rx.pop? = none) :
    l.tryReceive = (.ok none, l) := by
  simp [tryReceive, hopen, Multiplexer.receive?, hidle]

theorem receive_of_due {p : Priority} {i : Incoming} {rx : PriorityQueues Incoming}
    (limit : Option Duration) (hopen : l.isOpen = true)
    (hdue : l.mux.rx.pop? = some (p, i, rx)) :
    l.receive limit = (.found i, { l with mux := { l.mux with rx } }.updateFlow) := by
  simp [receive, hopen, PriorityQueues.popWithin, hdue]

theorem receive_of_idle (limit : Option Duration) (hopen : l.isOpen = true)
    (hidle : l.mux.rx.pop? = none) :
    l.receive limit = (limit.elim .waiting .timedOut, l) := by
  cases limit <;> simp [receive, hopen, PriorityQueues.popWithin, hidle]

end SlaveLink.Link
