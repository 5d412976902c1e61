import SlaveLink.Proofs.Link.Reception

/-! # What a finished transfer brings
The received queues and the count of overruns change in one of three ways: the transfer brought no
frame, it brought one that is queued, or it brought one for which there is no room. -/

namespace SlaveLink.Link

variable {l : Link} {t : Transaction} {tx b : Block} {h : Header} {c : Counter}

theorem droppedOverrun_bump (s : Stats) (hc : c ≠ .dropped .overrun) :
    (s.bump c).droppedOverrun = s.droppedOverrun := by
  cases c with
  | dropped why =>
    cases why with
    | overrun => exact absurd rfl hc
    | checksum | malformed => rfl
  | throttleChanged on => cases on <;> rfl
  | _ => rfl

theorem transmission_ne_overrun (tx : Block) : transmission tx ≠ .dropped .overrun := by
  unfold transmission
  split
  · split <;> simp
  · simp

theorem rejection_ne_overrun (e : FrameError) : rejection e ≠ .dropped .overrun := by
  cases e <;> simp [rejection]

theorem droppedOverrun_updateFlow (l : Link) :
    l.updateFlow.mux = l.mux ∧ l.updateFlow.stats.droppedOverrun = l.stats.droppedOverrun := by
  obtain ⟨flow, stats, heq, hstats⟩ := updateFlow_eq l
  rw [heq]
  refine ⟨rfl, ?_⟩
  simp only [List.mem_cons, List.not_mem_nil, or_false] at hstats
  rcases hstats with rfl | rfl | rfl <;> rfl

structure Inbox (l : Link) (rx : PriorityQueues Incoming) (dropped : Nat) : Prop where
  rx : l.mux.rx = rx
  dropped : l.stats.droppedOverrun = dropped

theorem inbox_heard (bytes : Bytes) (l : Link) :
    (l.heard bytes).Inbox l.mux.rx l.stats.droppedOverrun := by
  obtain ⟨stats, notices, heq, hstats⟩ := heard_eq bytes l
  rw [heq]
  refine ⟨rfl, ?_⟩
  simp only [List.mem_cons, List.not_mem_nil, or_false] at hstats
  rcases hstats with rfl | rfl <;> rfl

theorem inbox_process_of_rejected {e : FrameError}
    (hdecode : decodeHeader l.config.frame b.bytes = .error e) :
    (l.process b).Inbox l.mux.rx l.stats.droppedOverrun := by
  have hheard := inbox_heard b.bytes l
  rw [process_of_rejected hdecode]
  exact ⟨hheard.rx, (droppedOverrun_bump _ (rejection_ne_overrun e)).trans hheard.dropped⟩

theorem inbox_process_of_room {rx : PriorityQueues Incoming}
    (hdecode : decodeHeader l.config.frame b.bytes = .ok h)
    (hpush : l.mux.rx.push? h.interface.priority ⟨h, b⟩ = some rx) :
    (l.process b).Inbox rx l.stats.droppedOverrun := by
  have hheard := inbox_heard b.bytes l
  have hroom : (l.heard b.bytes).mux.deliver? ⟨h, b⟩ =
      some { (l.heard b.bytes).mux with rx } := by
    rw [Multiplexer.deliver?, hheard.rx]
    exact congrArg (Option.map _) hpush
  rw [process_of_frame hdecode, deliver_of_room hroom]
  obtain ⟨hmux, hdropped⟩ := droppedOverrun_updateFlow
    ({ l.heard b.bytes with mux := { (l.heard b.bytes).mux with rx } }.count
      (.frameReceived (Incoming.priority ⟨h, b⟩)))
  exact ⟨by rw [hmux]; rfl, hdropped.trans hheard.dropped⟩

theorem inbox_process_of_full
    (hdecode : decodeHeader l.config.frame b.bytes = .ok h)
    (hpush : l.mux.rx.push? h.interface.priority ⟨h, b⟩ = none) :
    (l.process b).Inbox l.mux.rx (l.stats.droppedOverrun + 1) := by
  have hheard := inbox_heard b.bytes l
  have hfull : (l.heard b.bytes).mux.deliver? ⟨h, b⟩ = none := by
    rw [Multiplexer.deliver?, hheard.rx]
    exact congrArg (Option.map _) hpush
  rw [process_of_frame hdecode, deliver_of_full hfull]
  obtain ⟨hmux, hdropped⟩ := droppedOverrun_updateFlow
    (((l.heard b.bytes).giveBack [b]).count (.dropped .overrun))
  refine ⟨by rw [hmux]; exact hheard.rx, hdropped.trans ?_⟩
  show (l.heard b.bytes).stats.droppedOverrun + 1 = _
  rw [hheard.dropped]

theorem inbox_finish_of_fault {reason : String} (hfault : t.fault = some reason) :
    (l.finish t).Inbox l.mux.rx l.stats.droppedOverrun := by
  rw [finish_of_fault hfault]
  exact ⟨rfl, rfl⟩

theorem finish_eq_process (hfault : t.fault = none) (htx : t.tx = some tx) (hrx : t.rx = some b) :
    ∃ l₁ : Link, l.finish t = l₁.process b ∧ l₁.config = l.config ∧
      l₁.Inbox l.mux.rx l.stats.droppedOverrun :=
  ⟨_, finish_of_success hfault htx hrx, rfl,
    ⟨rfl, droppedOverrun_bump _ (transmission_ne_overrun tx)⟩⟩

/-- What a transfer with a received block and perhaps a fault makes of the inbox. -/
inductive Brought (l : Link) (b : Block) (fault : Option String) :
    PriorityQueues Incoming → Nat → Prop
  | faulted {reason : String} (faulted : fault = some reason) :
      Brought l b fault l.mux.rx l.stats.droppedOverrun
  | rejected {e : FrameError} (clean : fault = none)
      (decode : decodeHeader l.config.frame b.bytes = .error e) :
      Brought l b fault l.mux.rx l.stats.droppedOverrun
  | queued {h : Header} {rx : PriorityQueues Incoming} (clean : fault = none)
      (decode : decodeHeader l.config.frame b.bytes = .ok h)
      (room : l.mux.rx.push? h.interface.priority ⟨h, b⟩ = some rx) :
      Brought l b fault rx l.stats.droppedOverrun
  | overrun {h : Header} (clean : fault = none)
      (decode : decodeHeader l.config.frame b.bytes = .ok h)
      (full : l.mux.rx.push? h.interface.priority ⟨h, b⟩ = none) :
      Brought l b fault l.mux.rx (l.stats.droppedOverrun + 1)

theorem brought_finish (htx : t.tx = some tx) (hrx : t.rx = some b) (l : Link) :
    ∃ rx dropped, l.Brought b t.fault rx dropped ∧ (l.finish t).Inbox rx dropped := by
  cases hfault : t.fault with
  | some reason => exact ⟨_, _, .faulted rfl, inbox_finish_of_fault hfault⟩
  | none =>
    obtain ⟨l₁, heq, hconfig, hbox⟩ := finish_eq_process (l := l) hfault htx hrx
    rw [heq]
    cases hdecode : decodeHeader l.config.frame b.bytes with
    | error e =>
      have hdecode₁ := hdecode
      rw [← hconfig] at hdecode₁
      have hbox₁ := inbox_process_of_rejected hdecode₁
      rw [hbox.rx, hbox.dropped] at hbox₁
      exact ⟨_, _, .rejected rfl hdecode, hbox₁⟩
    | ok h =>
      have hdecode₁ := hdecode
      rw [← hconfig] at hdecode₁
      cases hpush : l.mux.rx.push? h.interface.priority ⟨h, b⟩ with
      | some rx =>
        have hbox₁ := inbox_process_of_room hdecode₁ (by rw [hbox.rx]; exact hpush)
        rw [hbox.dropped] at hbox₁
        exact ⟨_, _, .queued rfl hdecode hpush, hbox₁⟩
      | none =>
        have hbox₁ := inbox_process_of_full hdecode₁ (by rw [hbox.rx]; exact hpush)
        rw [hbox.rx, hbox.dropped] at hbox₁
        exact ⟨_, _, .overrun rfl hdecode hpush, hbox₁⟩

end SlaveLink.Link
