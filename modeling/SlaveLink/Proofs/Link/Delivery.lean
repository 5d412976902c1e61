import SlaveLink.Proofs.Link.Outbound
import SlaveLink.Proofs.Link.Ownership

/-! # Every accepted frame, counted once
The three priorities taken together: the frames that can be read on the wire behind the startup
event, and those that wait, are as many as were accepted, and of the same interfaces. -/

namespace SlaveLink

def framesIn (c : FrameConfig) (blocks : List Bytes) : List Frame :=
  blocks.filterMap fun bs => (Frame.decode c bs).toOption

theorem framesIn_append (c : FrameConfig) (as bs : List Bytes) :
    framesIn c (as ++ bs) = framesIn c as ++ framesIn c bs :=
  List.filterMap_append ..

theorem framesIn_frame {c : FrameConfig} {f : Frame} {bs : Bytes}
    (h : Frame.decode c bs = .ok f) : framesIn c [bs] = [f] := by
  simp [framesIn, h, Except.toOption]

theorem framesIn_error {c : FrameConfig} {e : FrameError} {bs : Bytes}
    (h : Frame.decode c bs = .error e) : framesIn c [bs] = [] := by
  simp [framesIn, h, Except.toOption]

theorem framesOf_eq (c : FrameConfig) (p : Priority) (blocks : List Bytes) :
    framesOf c p blocks =
      ((framesIn c blocks).filter (·.interface.priority = p)).map (·.carried) := by
  induction blocks with
  | nil => rfl
  | cons bs blocks ih =>
    rw [← List.singleton_append, framesOf_append, framesIn_append, List.filter_append,
      List.map_append, ih]
    congr 1
    cases hdecode : Frame.decode c bs with
    | error e => simp [framesOf_error p hdecode, framesIn_error hdecode]
    | ok f => by_cases hp : f.interface.priority = p <;>
        simp [framesOf_frame p hdecode, framesIn_frame hdecode, hp]

/-- Every element is of one priority. -/
theorem length_filter_priorities {α : Type} (priority : α → Priority) (xs : List α) :
    (xs.filter (priority · = .control)).length + (xs.filter (priority · = .voice)).length +
      (xs.filter (priority · = .bulk)).length = xs.length := by
  induction xs with
  | nil => rfl
  | cons x xs ih =>
    cases hx : priority x <;> simp [hx] <;> omega

namespace Outbound

variable {c : LinkConfig} {handed : List Bytes} {accepted : List Frame}
  {loaded : Option Transaction} {tx : PriorityQueues Outgoing}

theorem length_framesOf_waiting {p : Priority} {os : List Outgoing}
    (h : ∀ o ∈ os, ∃ f, Frame.decode c.frame o.block.bytes = .ok f ∧ f.interface.priority = p) :
    (framesOf c.frame p (os.map (·.block.bytes))).length = os.length := by
  induction os with
  | nil => rfl
  | cons o os ih =>
    obtain ⟨f, hdecode, hp⟩ := h o (List.mem_cons_self ..)
    have hrest := ih fun x hx => h x (List.mem_cons_of_mem _ hx)
    rw [List.map_cons, ← List.singleton_append, framesOf_append, framesOf_frame p hdecode, if_pos hp,
      List.length_append, hrest, List.length_singleton, List.length_cons, Nat.add_comm]

/-- Those of a priority that were read, and those that wait in its queue. -/
theorem Faithful.length_of_priority (h : Faithful c handed accepted loaded tx) (p : Priority) :
    ((framesIn c.frame ((wire handed loaded).drop 1)).filter (·.interface.priority = p)).length +
      tx.length p = (accepted.filter (·.interface.priority = p)).length := by
  have hwaiting := length_framesOf_waiting (h.queued p)
  have horder := congrArg List.length (h.inOrder p)
  rw [framesOf_append, List.length_append, framesOf_eq, List.length_map, List.length_map] at horder
  rw [← horder, waiting, hwaiting]
  rfl

/-- What can be read behind the startup event, and what waits, is as much as was accepted. -/
theorem Faithful.length_add_total (h : Faithful c handed accepted loaded tx) :
    (framesIn c.frame ((wire handed loaded).drop 1)).length + tx.total = accepted.length := by
  have hcontrol := h.length_of_priority .control
  have hvoice := h.length_of_priority .voice
  have hbulk := h.length_of_priority .bulk
  have hread := length_filter_priorities (·.interface.priority)
    (framesIn c.frame ((wire handed loaded).drop 1))
  have haccepted := length_filter_priorities (·.interface.priority) accepted
  have htotal : tx.total = tx.length .control + tx.length .voice + tx.length .bulk := rfl
  omega

/-- What is read was accepted, up to what of a frame does not travel. -/
theorem Faithful.accepted_of_read (h : Faithful c handed accepted loaded tx) {f : Frame}
    (hf : f ∈ framesIn c.frame ((wire handed loaded).drop 1)) :
    ∃ g ∈ accepted, g.carried = f.carried := by
  have hmem : f.carried ∈ framesOf c.frame f.interface.priority
      ((wire handed loaded).drop 1 ++ waiting tx f.interface.priority) := by
    rw [framesOf_append, framesOf_eq]
    exact List.mem_append_left _ (List.mem_map_of_mem (by simpa using hf))
  rw [h.inOrder] at hmem
  obtain ⟨g, hg, hcarried⟩ := List.mem_map.mp hmem
  exact ⟨g, (List.mem_filter.mp hg).1, hcarried⟩

end Outbound
end SlaveLink
