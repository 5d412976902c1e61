import SlaveLink.Proofs.Frame.Prefix
import SlaveLink.Proofs.Link.Orderly

/-! # Links that received the same
Two blocks that agree in what is read of them make the same of a link, apart from bytes that nobody
reads. -/

namespace SlaveLink

def Transaction.rewritten (bytes : Bytes) (t : Transaction) : Transaction :=
  { t with rx := t.rx.map fun b => { b with bytes } }

theorem Transaction.Shaped.rewritten {size : Nat} {t : Transaction} (h : t.Shaped size)
    (bytes : Bytes) : (t.rewritten bytes).Shaped size := by
  obtain ⟨rx, hrx⟩ := h.rx
  exact ⟨h.tx, ⟨{ rx with bytes }, by simp [Transaction.rewritten, hrx]⟩, h.length⟩

namespace Link

variable {l l₁ l₂ : Link}

/-- Both links counted and told the same, and the same received frames wait in them. -/
structure Alike (l₁ l₂ : Link) : Prop where
  stats : l₁.stats = l₂.stats
  notices : l₁.notices = l₂.notices
  flow : l₁.flow = l₂.flow
  depths : l₁.mux.rx.depths = l₂.mux.rx.depths
  frames : ∀ p, (l₁.mux.rx.get p).map (·.toFrame) = (l₂.mux.rx.get p).map (·.toFrame)

theorem Alike.length (h : l₁.Alike l₂) (p : Priority) :
    l₁.mux.rx.length p = l₂.mux.rx.length p := by
  have hlength := congrArg List.length (h.frames p)
  rwa [List.length_map, List.length_map] at hlength

theorem alike_updateFlow (h : l₁.Alike l₂) : l₁.updateFlow.Alike l₂.updateFlow := by
  unfold updateFlow
  rw [h.flow, h.length .bulk, h.depths]
  generalize l₂.flow.update (l₂.mux.rx.length .bulk) (l₂.mux.rx.depths.get .bulk) = updated
  obtain ⟨_ | on, flow⟩ := updated
  · exact ⟨h.stats, h.notices, rfl, h.depths, h.frames⟩
  · exact ⟨congrArg (Stats.bump _) h.stats, h.notices, rfl, h.depths, h.frames⟩

/-- The same frame in another block is queued, or dropped, in the same way. -/
theorem alike_deliver {header : Header} {b₁ b₂ : Block}
    (h : header.payloadOf b₁.bytes = header.payloadOf b₂.bytes) :
    (l.deliver ⟨header, b₁⟩).Alike (l.deliver ⟨header, b₂⟩) := by
  have hframe : Incoming.toFrame ⟨header, b₁⟩ = Incoming.toFrame ⟨header, b₂⟩ :=
    congrArg (Frame.ofHeader header) h
  by_cases hroom : l.mux.rx.length header.interface.priority <
      l.mux.rx.depths.get header.interface.priority
  · have hpush (b : Block) : ∃ rx, l.mux.rx.push? header.interface.priority ⟨header, b⟩ = some rx :=
      ⟨_, if_pos hroom⟩
    obtain ⟨rx₁, hpush₁⟩ := hpush b₁
    obtain ⟨rx₂, hpush₂⟩ := hpush b₂
    have hdeliver₁ : l.mux.deliver? ⟨header, b₁⟩ = some { l.mux with rx := rx₁ } :=
      congrArg (Option.map _) hpush₁
    have hdeliver₂ : l.mux.deliver? ⟨header, b₂⟩ = some { l.mux with rx := rx₂ } :=
      congrArg (Option.map _) hpush₂
    rw [deliver_of_room hdeliver₁, deliver_of_room hdeliver₂]
    refine alike_updateFlow ⟨rfl, rfl, rfl, ?_, ?_⟩
    · exact (PriorityQueues.depths_push? hpush₁).trans (PriorityQueues.depths_push? hpush₂).symm
    · intro p
      show (rx₁.get p).map (·.toFrame) = (rx₂.get p).map (·.toFrame)
      rw [PriorityQueues.get_push? hpush₁, PriorityQueues.get_push? hpush₂]
      split
      · simp [hframe]
      · rfl
  · have hfull (b : Block) : l.mux.deliver? ⟨header, b⟩ = none :=
      congrArg (Option.map _) (if_neg hroom)
    rw [deliver_of_full (hfull b₁), deliver_of_full (hfull b₂)]
    exact alike_updateFlow ⟨rfl, rfl, rfl, rfl, fun _ => rfl⟩

theorem alike_process {b₁ b₂ : Block} (h : l.config.frame.Agree b₁.bytes b₂.bytes) :
    (l.process b₁).Alike (l.process b₂) := by
  have hheard : l.heard b₁.bytes = l.heard b₂.bytes := by rw [heard, heard, h.flags]
  cases hdecode : decodeHeader l.config.frame b₁.bytes with
  | error e =>
    have hdecode₂ := h.header.symm.trans hdecode
    rw [process_of_rejected hdecode, process_of_rejected hdecode₂, hheard]
    exact ⟨rfl, rfl, rfl, rfl, fun _ => rfl⟩
  | ok header =>
    have hdecode₂ := h.header.symm.trans hdecode
    rw [process_of_frame hdecode, process_of_frame hdecode₂, hheard]
    exact alike_deliver (h.payload header hdecode)

theorem alike_finish {t : Transaction} {tx b : Block} {bytes : Bytes} (htx : t.tx = some tx)
    (hrx : t.rx = some b) (h : l.config.frame.Agree b.bytes bytes) :
    (l.finish t).Alike (l.finish (t.rewritten bytes)) := by
  have hrx₂ : (t.rewritten bytes).rx = some { b with bytes } := by
    simp [Transaction.rewritten, hrx]
  cases hfault : t.fault with
  | some reason =>
    rw [finish_of_fault hfault, finish_of_fault (t := t.rewritten bytes) hfault]
    exact ⟨rfl, rfl, rfl, rfl, fun _ => rfl⟩
  | none =>
    rw [finish_of_success hfault htx hrx,
      finish_of_success (t := t.rewritten bytes) hfault htx hrx₂]
    exact alike_process
      (l := (l.count (transmission tx)).giveBackTransaction { t with rx := none }) h

end Link
end SlaveLink
