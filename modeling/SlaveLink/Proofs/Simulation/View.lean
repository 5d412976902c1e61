import SlaveLink.Proofs.Link.Delivery
import SlaveLink.Simulation

/-! # What the host sees
The host reads the startup event first. Every block after it is a dummy or a frame that the slave
accepted, so nothing is rejected and no frame is taken for a second event. -/

namespace SlaveLink.HostView

variable {config : FrameConfig} {block : Bytes} {f : Frame} {v : HostView} {n : Nat}
  {frames : List Interface}

/-- The startup event was the first of so many blocks, of which these frames could be read, the
newest first; nothing was rejected. -/
structure Sees (v : HostView) (blocks : Nat) (frames : List Interface) : Prop where
  exchanges : v.exchanges = blocks
  first : v.isStartupFirst = true
  frames : v.frames = frames
  rejected : v.rejected = 0

theorem inspection_of_frame (hdecode : Frame.decode config block = .ok f) : ∃ h capabilities,
    Inspection.ofBytes config block = .frame h (h.payloadOf block) capabilities ∧
      h.interface = f.interface ∧ h.packetType = f.packetType := by
  obtain ⟨h, hheader, rfl⟩ := Frame.decode_eq_ok hdecode
  refine ⟨h, Inspection.capabilities? h (h.payloadOf block), ?_, rfl, rfl⟩
  simp only [Inspection.ofBytes, hheader]

theorem inspection_of_dummy (hdecode : Frame.decode config block = .error .dummyFrame) :
    Inspection.ofBytes config block = .dummy (peekFlags block) := by
  rw [Frame.decode] at hdecode
  cases hheader : decodeHeader config block with
  | ok h => simp [hheader, Except.map] at hdecode
  | error e =>
    obtain rfl : e = .dummyFrame := by simpa [hheader, Except.map] using hdecode
    simp only [Inspection.ofBytes, hheader]

theorem Sees.frame (h : v.Sees n frames) (hdecode : Frame.decode config block = .ok f)
    (hplain : f.packetType ≠ eventPacketType) :
    (v.record config block).Sees (n + 1) (f.interface :: frames) := by
  obtain ⟨header, _, hinspect, hsame, hsameType⟩ := inspection_of_frame hdecode
  have hevent : Inspection.isEvent header = false := by
    simp [Inspection.isEvent, hsameType, hplain]
  simp only [record, hinspect, hevent, Bool.false_eq_true, if_false]
  exact ⟨congrArg (· + 1) h.exchanges, h.first, congr (congrArg _ hsame) h.frames, h.rejected⟩

theorem Sees.dummy (h : v.Sees n frames)
    (hdecode : Frame.decode config block = .error .dummyFrame) :
    (v.record config block).Sees (n + 1) frames := by
  simp only [record, inspection_of_dummy hdecode]
  exact ⟨congrArg (· + 1) h.exchanges, h.first, h.frames, h.rejected⟩

/-- The interfaces of the frames behind the startup event, the newest first. -/
def framesBehind (config : FrameConfig) (handed : List Bytes) : List Interface :=
  ((framesIn config (handed.drop 1)).map (·.interface)).reverse

variable {c : LinkConfig} {handed : List Bytes} {accepted : List Frame} {t : Transaction}
  {tx : PriorityQueues Outgoing}

/-- The next block that the host reads is seen for what it is. -/
theorem Sees.record (h : v.Sees handed.length (framesBehind c.frame handed))
    (hfaithful : Outbound.Faithful c handed accepted (some t) tx)
    (hplain : ∀ f ∈ accepted, f.packetType ≠ eventPacketType) (hspoken : handed ≠ []) :
    (v.record c.frame t.outgoing).Sees (handed.length + 1)
      (framesBehind c.frame (handed ++ [t.outgoing])) := by
  obtain ⟨first, rest, rfl⟩ := List.exists_cons_of_ne_nil hspoken
  have hbehind : framesIn c.frame ((first :: rest ++ [t.outgoing]).drop 1) =
      framesIn c.frame rest ++ framesIn c.frame [t.outgoing] := framesIn_append c.frame rest _
  have hmem : t.outgoing ∈ Outbound.wire (first :: rest) (some t) := by simp [Outbound.wire]
  unfold framesBehind
  rw [hbehind]
  rcases hfaithful.readable _ hmem with hdummy | ⟨f, hframe⟩
  · rw [framesIn_error hdummy, List.append_nil]
    exact h.dummy hdummy
  · have hread : f ∈ framesIn c.frame ((Outbound.wire (first :: rest) (some t)).drop 1) := by
      rw [Outbound.wire_some]
      simp [Outbound.wire, framesIn_append, framesIn_frame hframe]
    obtain ⟨g, hg, hcarried⟩ := hfaithful.accepted_of_read hread
    have htype : g.carried.packetType = f.carried.packetType := by rw [hcarried]
    have hplain' : f.packetType ≠ eventPacketType := fun heq => hplain g hg (htype.trans heq)
    rw [framesIn_frame hframe, List.map_append, List.reverse_append]
    exact h.frame hframe hplain'

end SlaveLink.HostView
