import SlaveLink.Proofs.Link.Reception

/-! # What does not look at transfers
Requests of the application, and the finishing of a transfer, look neither at the worker nor at the
bus: with others in their place they do the same. -/

namespace SlaveLink.Link

variable (w : Worker) (b : Bus) (l : Link)

def swapped (w : Worker) (b : Bus) (l : Link) : Link := { l with worker := w, bus := b }

theorem swapped_self : l.swapped l.worker l.bus = l := rfl

theorem updateFlow_swapped : (l.swapped w b).updateFlow = l.updateFlow.swapped w b := by
  unfold updateFlow
  simp only [swapped]
  generalize l.flow.update (l.mux.rx.length .bulk) (l.mux.rx.depths.get .bulk) = updated
  obtain ⟨_ | on, flow⟩ := updated <;> rfl

theorem deliver_swapped (i : Incoming) : (l.swapped w b).deliver i = (l.deliver i).swapped w b := by
  unfold deliver
  have hmux : (l.swapped w b).mux = l.mux := rfl
  rw [hmux]
  cases l.mux.deliver? i with
  | some mux => exact updateFlow_swapped w b ({ l with mux }.count (.frameReceived i.priority))
  | none =>
    exact updateFlow_swapped w b ((l.giveBack [i.block]).count (.dropped .overrun))

theorem heard_swapped (bytes : Bytes) :
    (l.swapped w b).heard bytes = (l.heard bytes).swapped w b := by
  unfold heard
  split <;> rfl

theorem process_swapped (x : Block) : (l.swapped w b).process x = (l.process x).swapped w b := by
  rw [process_eq, process_eq, heard_swapped]
  have hconfig : ((l.heard x.bytes).swapped w b).config = (l.heard x.bytes).config := rfl
  rw [hconfig]
  cases decodeHeader (l.heard x.bytes).config.frame x.bytes with
  | error e => rfl
  | ok h => exact deliver_swapped w b (l.heard x.bytes) ⟨h, x⟩

theorem finish_swapped (t : Transaction) :
    (l.swapped w b).finish t = (l.finish t).swapped w b := by
  obtain ⟨tx, rx, length, fault⟩ := t
  cases fault with
  | some reason => rfl
  | none =>
    cases rx with
    | none => cases tx <;> rfl
    | some x =>
      cases tx with
      | none => exact process_swapped w b (l.giveBackTransaction { length }) x
      | some tx =>
        exact process_swapped w b
          ((l.count (transmission tx)).giveBackTransaction { tx := some tx, length }) x

theorem enqueue_swapped (h : Header) (payload : Bytes) : (l.swapped w b).enqueue h payload =
    ((l.enqueue h payload).1, (l.enqueue h payload).2.swapped w b) := by
  unfold enqueue
  have hmemory : (l.swapped w b).memory = l.memory := rfl
  rw [hmemory]
  cases l.memory.acquire false with
  | error e => rfl
  | ok taken =>
    obtain ⟨x, memory⟩ := taken
    simp only [swapped]
    cases encodeFrame l.config.frame { h with throttle := l.flow.throttle } payload x.bytes with
    | mk result bytes =>
      cases result with
      | error e => rfl
      | ok n =>
        simp only
        cases l.mux.send? ⟨{ x with bytes }, h.interface⟩ <;> rfl

theorem submitHeader_swapped (h : Header) (payload : Bytes) :
    (l.swapped w b).submitHeader h payload =
      ((l.submitHeader h payload).1, (l.submitHeader h payload).2.swapped w b) := by
  have hopen : (l.swapped w b).isOpen = l.isOpen := rfl
  unfold submitHeader
  rw [hopen]
  split
  · rfl
  · split
    · rfl
    · exact enqueue_swapped w b l h payload

theorem submitNext_swapped (interface : Interface) (number : UInt8) (payload : Bytes) :
    (l.swapped w b).submitNext interface number payload =
      ((l.submitNext interface number payload).1,
        (l.submitNext interface number payload).2.swapped w b) :=
  submitHeader_swapped w b l.takeSequence.2 _ payload

theorem tryReceive_swapped : (l.swapped w b).tryReceive =
    (l.tryReceive.1, l.tryReceive.2.swapped w b) := by
  have hopen : (l.swapped w b).isOpen = l.isOpen := rfl
  have hmux : (l.swapped w b).mux = l.mux := rfl
  unfold tryReceive
  rw [hopen, hmux]
  split
  · rfl
  · cases l.mux.receive? with
    | none => rfl
    | some due =>
      obtain ⟨i, mux⟩ := due
      simp only
      rw [← updateFlow_swapped]
      rfl

theorem receive_swapped (limit : Option Duration) : (l.swapped w b).receive limit =
    ((l.receive limit).1, (l.receive limit).2.swapped w b) := by
  have hopen : (l.swapped w b).isOpen = l.isOpen := rfl
  have hmux : (l.swapped w b).mux = l.mux := rfl
  unfold receive
  rw [hopen, hmux]
  split
  · rfl
  · generalize l.mux.rx.popWithin limit false = waited
    obtain ⟨outcome, rx⟩ := waited
    cases outcome with
    | found found =>
      simp only
      rw [← updateFlow_swapped]
      rfl
    | timedOut | closed | waiting => rfl

end SlaveLink.Link
