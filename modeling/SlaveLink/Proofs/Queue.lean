import Mathlib.Logic.Function.Basic
import SlaveLink.Queue.Bench

/-! # Three bounded lists
Seen from outside, a set of queues is one list for each priority, no longer than its depth. What
was let in leaves in the same order, whether it is taken or dropped, or still waits; the lists of
other priorities are in nobody's way. The memory for the lists is there from the start, and a
consumer waits no longer than the clock can tell. -/

namespace SlaveLink

namespace PriorityQueues

variable {α : Type} {q r : PriorityQueues α} {p : Priority} {x : α}

theorem room_of_push? (h : q.push? p x = some r) : (q.get p).length < q.depths.get p := by
  apply Nat.lt_of_not_le
  intro hfull
  rw [(push?_eq_none_iff p x q).mpr hfull] at h
  cases h

@[simp] theorem get_clear (q : PriorityQueues α) (p : Priority) : q.clear.get p = [] := by
  cases p <;> rfl

end PriorityQueues

namespace QueueBench

variable {α : Type} {b : QueueBench α} {p : Priority} {step : Step α} {r : Reply α}
  {depth : Priority → Nat} {closed : Prop} {before after : Priority → List α}

def lists (b : QueueBench α) (p : Priority) : List α := b.queues.get p

/-- The clock has a reading for the end of a consumer's wait, if the wait has a limit. -/
def Step.Timely : Step α → Prop
  | .popWait wait => wait.all Wait.ends = true
  | _ => True

/-- What an operation answers and leaves behind, told of three lists of bounded length. -/
inductive Serves (depth : Priority → Nat) (closed : Prop) (lists : Priority → List α) :
    Step α → Reply α → (Priority → List α) → Prop
  | accepted {p : Priority} {x : α} {wait : Wait} (room : (lists p).length < depth p) :
      Serves depth closed lists (.push p x wait) .accepted
        (Function.update lists p (lists p ++ [x]))
  | refused {p : Priority} {x : α} {wait : Wait} (full : depth p ≤ (lists p).length)
      (ends : wait.ends = true) : Serves depth closed lists (.push p x wait) (.back x) lists
  /-- The producer waits for room without end. -/
  | stuck {p : Priority} {x : α} {wait : Wait} (full : depth p ≤ (lists p).length)
      (endless : wait.ends = false) : Serves depth closed lists (.push p x wait) .waiting lists
  /-- The oldest item of the first list that is not empty. -/
  | taken {step : Step α} {p : Priority} {x : α} {rest : List α}
      (takes : step = .pop ∨ ∃ wait, step = .popWait wait) (oldest : lists p = x :: rest)
      (first : ∀ s : Priority, s.index < p.index → lists s = []) :
      Serves depth closed lists step (.popped p x) (Function.update lists p rest)
  | nothing (empty : ∀ p, lists p = []) : Serves depth closed lists .pop .nothing lists
  | ended {wait : Option Wait} (empty : ∀ p, lists p = []) (isClosed : closed) :
      Serves depth closed lists (.popWait wait) (.failed .inactive) lists
  | timedOut {wait : Wait} (empty : ∀ p, lists p = []) (isOpen : ¬ closed) :
      Serves depth closed lists (.popWait (some wait)) (.failed (.timeout wait.limit)) lists
  | waiting (empty : ∀ p, lists p = []) (isOpen : ¬ closed) :
      Serves depth closed lists (.popWait none) .waiting lists
  | shutDown : Serves depth closed lists .shutdown .done lists
  | cleared : Serves depth closed lists .clear
      (.cleared ((lists .control).length + (lists .voice).length + (lists .bulk).length))
      fun _ => []

theorem eq_of_create {slotBytes heap : Nat} {depths : PerPriority Nat}
    (h : create slotBytes depths heap = .ok b) : b = fresh depths := by
  unfold create at h
  cases hclaim : PriorityQueues.claim slotBytes depths heap with
  | error why => simp [hclaim, Except.map] at h
  | ok rest =>
    rw [hclaim] at h
    exact (Except.ok.inj h).symm

theorem lists_push? {queues : PriorityQueues α} {x : α} (h : b.queues.push? p x = some queues) :
    ({ b with queues } : QueueBench α).lists = Function.update b.lists p (b.lists p ++ [x]) := by
  funext s
  rw [Function.update_apply]
  exact PriorityQueues.get_push? h s

theorem lists_pop? {queues : PriorityQueues α} {x : α}
    (h : b.queues.pop? = some (p, x, queues)) :
    ({ b with queues } : QueueBench α).lists = Function.update b.lists p (queues.get p) := by
  obtain ⟨_, hothers, _⟩ := PriorityQueues.get_pop? h
  funext s
  rw [Function.update_apply]
  split
  · next hs => rw [hs]; rfl
  · next hs => exact hothers s hs

/-- A step serves the lists; depths are for good, and so is a shutdown. -/
structure Served (b : QueueBench α) (step : Step α) (r : Reply α) (b' : QueueBench α) : Prop where
  serves : Serves b.queues.depths.get (b.isClosed = true) b.lists step r b'.lists
  depths : b'.queues.depths = b.queues.depths
  isClosed : b'.isClosed = true ↔ b.isClosed = true ∨ step = .shutdown

/-- A step that changes nothing. -/
theorem served_same
    (hserves : Serves b.queues.depths.get (b.isClosed = true) b.lists step r b.lists)
    (hstep : step ≠ .shutdown) : Served b step r b :=
  ⟨hserves, rfl, by simp [hstep]⟩

theorem served_taken {x : α} {queues : PriorityQueues α}
    (hpop : b.queues.pop? = some (p, x, queues))
    (htakes : step = .pop ∨ ∃ wait, step = .popWait wait) :
    Served b step (.popped p x) { b with queues } := by
  obtain ⟨hhead, _, hbefore⟩ := PriorityQueues.get_pop? hpop
  refine ⟨?_, PriorityQueues.depths_pop? hpop, ?_⟩
  · rw [lists_pop? hpop]
    exact .taken htakes hhead hbefore
  · rcases htakes with rfl | ⟨wait, rfl⟩ <;> simp

/-- A consumer whose wait ends takes what is at hand. With nothing there its wait ends by shutdown
or by its limit, if it has one. -/
theorem served_popWait {wait : Option Wait} (htimely : (Step.popWait wait : Step α).Timely) :
    Served b (.popWait wait) (b.step (.popWait wait)).1 (b.step (.popWait wait)).2 := by
  have hends : wait.all Wait.ends = true := htimely
  simp only [QueueBench.step, PriorityQueues.popWait, if_pos hends, PriorityQueues.popWithin]
  cases hpop : b.queues.pop? with
  | some found => exact served_taken hpop (.inr ⟨wait, rfl⟩)
  | none =>
    have hempty : ∀ p, b.lists p = [] := (PriorityQueues.pop?_eq_none_iff _).mp hpop
    by_cases hclosed : b.isClosed = true
    · simp only [if_pos hclosed]
      exact served_same (.ended hempty hclosed) (by simp)
    · simp only [if_neg hclosed]
      cases wait with
      | none => exact served_same (.waiting hempty hclosed) (by simp)
      | some wait => exact served_same (.timedOut hempty hclosed) (by simp)

theorem served (b : QueueBench α) {step : Step α} (htimely : step.Timely) :
    Served b step (b.step step).1 (b.step step).2 := by
  cases step with
  | push p x wait =>
    cases hpush : b.queues.push? p x with
    | none =>
      simp only [QueueBench.step, hpush]
      have hfull := (PriorityQueues.push?_eq_none_iff p x _).mp hpush
      cases hends : wait.ends with
      | true => exact served_same (.refused hfull hends) (by simp)
      | false => exact served_same (.stuck hfull hends) (by simp)
    | some queues =>
      simp only [QueueBench.step, hpush]
      refine ⟨?_, PriorityQueues.depths_push? hpush, by simp⟩
      rw [lists_push? hpush]
      exact .accepted (PriorityQueues.room_of_push? hpush)
  | pop =>
    cases hpop : b.queues.pop? with
    | none =>
      simp only [QueueBench.step, hpop]
      exact served_same (.nothing ((PriorityQueues.pop?_eq_none_iff _).mp hpop)) (by simp)
    | some found =>
      simp only [QueueBench.step, hpop]
      exact served_taken hpop (.inl rfl)
  | popWait wait => exact served_popWait htimely
  | shutdown => exact ⟨.shutDown, rfl, by simp [QueueBench.step]⟩
  | clear =>
    refine ⟨?_, rfl, by simp [QueueBench.step]⟩
    have hlists : (b.step .clear).2.lists = fun _ => [] := funext b.queues.get_clear
    rw [hlists]
    exact .cleared

/-- The first list that is not empty is one only. -/
theorem first_unique {q : Priority} (hp : before p ≠ []) (hq : before q ≠ [])
    (hfirst : ∀ s : Priority, s.index < p.index → before s = [])
    (hfirst' : ∀ s : Priority, s.index < q.index → before s = []) : p = q := by
  have hpq : ¬ p.index < q.index := fun hlt => hp (hfirst' p hlt)
  have hqp : ¬ q.index < p.index := fun hlt => hq (hfirst q hlt)
  cases p <;> cases q <;> simp_all [Priority.index]

/-- What an operation answers and leaves behind is settled by the lists. -/
theorem Serves.unique {r' : Reply α} {after' : Priority → List α}
    (h : Serves depth closed before step r after) (h' : Serves depth closed before step r' after') :
    r = r' ∧ after = after' := by
  cases h with
  | accepted room =>
    cases h' with
    | accepted => exact ⟨rfl, rfl⟩
    | refused full | stuck full => omega
    | taken takes => simp at takes
  | refused full ends =>
    cases h' with
    | accepted room => omega
    | refused => exact ⟨rfl, rfl⟩
    | stuck _ endless => simp [ends] at endless
    | taken takes => simp at takes
  | stuck full endless =>
    cases h' with
    | accepted room => omega
    | refused _ ends => simp [endless] at ends
    | stuck => exact ⟨rfl, rfl⟩
    | taken takes => simp at takes
  | @taken _ p x rest takes oldest first =>
    cases h' with
    | @taken _ q y rest' _ oldest' first' =>
      obtain rfl : p = q := first_unique (by simp [oldest]) (by simp [oldest']) first first'
      rw [oldest, List.cons.injEq] at oldest'
      obtain ⟨rfl, rfl⟩ := oldest'
      exact ⟨rfl, rfl⟩
    | nothing empty | ended empty | timedOut empty | waiting empty => simp [empty p] at oldest
    | accepted | refused | stuck | shutDown | cleared => simp at takes
  | nothing empty =>
    cases h' with
    | @taken _ q _ _ _ oldest _ => simp [empty q] at oldest
    | nothing => exact ⟨rfl, rfl⟩
  | ended empty isClosed =>
    cases h' with
    | @taken _ q _ _ _ oldest _ => simp [empty q] at oldest
    | ended => exact ⟨rfl, rfl⟩
    | timedOut _ isOpen | waiting _ isOpen => exact absurd isClosed isOpen
  | timedOut empty isOpen =>
    cases h' with
    | @taken _ q _ _ _ oldest _ => simp [empty q] at oldest
    | ended _ isClosed => exact absurd isClosed isOpen
    | timedOut => exact ⟨rfl, rfl⟩
  | waiting empty isOpen =>
    cases h' with
    | @taken _ q _ _ _ oldest _ => simp [empty q] at oldest
    | ended _ isClosed => exact absurd isClosed isOpen
    | waiting => exact ⟨rfl, rfl⟩
  | shutDown =>
    cases h' with
    | taken takes => simp at takes
    | shutDown => exact ⟨rfl, rfl⟩
  | cleared =>
    cases h' with
    | taken takes => simp at takes
    | cleared => exact ⟨rfl, rfl⟩

/-- No list outgrows its depth. -/
theorem Serves.bounded (h : Serves depth closed before step r after)
    (hbounded : ∀ p, (before p).length ≤ depth p) (p : Priority) :
    (after p).length ≤ depth p := by
  cases h with
  | accepted room =>
    rw [Function.update_apply]
    split
    · next hp =>
      subst hp
      rw [List.length_append]
      exact room
    · exact hbounded p
  | @taken _ q x rest _ oldest _ =>
    rw [Function.update_apply]
    split
    · next hp =>
      subst hp
      have hlength := hbounded p
      rw [oldest, List.length_cons] at hlength
      omega
    · exact hbounded p
  | refused | stuck | nothing | ended | timedOut | waiting | shutDown => exact hbounded p
  | cleared => exact Nat.zero_le _

def entering (p : Priority) (step : Step α) (r : Reply α) : List α :=
  match step, r with
  | .push q x _, .accepted => if q = p then [x] else []
  | _, _ => []

def leaving (p : Priority) (before : Priority → List α) (r : Reply α) : List α :=
  match r with
  | .popped q x => if q = p then [x] else []
  | .cleared _ => before p
  | _ => []

/-- What waited and what comes in is what goes out and what then waits. -/
theorem Serves.conserves (h : Serves depth closed before step r after) (p : Priority) :
    before p ++ entering p step r = leaving p before r ++ after p := by
  cases h with
  | @accepted q x wait _ =>
    rw [Function.update_apply]
    by_cases hp : q = p
    · simp [entering, leaving, hp]
    · simp [entering, leaving, hp, Ne.symm hp]
  | @taken _ q x rest takes oldest _ =>
    rw [Function.update_apply]
    have hentering : entering p step (.popped q x) = [] := by
      rcases takes with rfl | ⟨wait, rfl⟩ <;> rfl
    rw [hentering]
    by_cases hp : q = p
    · subst hp
      simp [leaving, oldest]
    · simp [leaving, hp, Ne.symm hp]
  | refused | stuck | nothing | ended | timedOut | waiting | shutDown =>
    simp [entering, leaving]
  | cleared => simp [entering, leaving]

def gather (f : Step α → QueueBench α → List α) (b : QueueBench α) : List (Step α) → List α
  | [] => []
  | step :: steps => f step b ++ (b.step step).2.gather f steps

def admitted (p : Priority) (b : QueueBench α) (steps : List (Step α)) : List α :=
  b.gather (fun step b => entering p step (b.step step).1) steps

def departed (p : Priority) (b : QueueBench α) (steps : List (Step α)) : List α :=
  b.gather (fun step b => leaving p b.lists (b.step step).1) steps

variable {steps : List (Step α)}

theorem depths_run (b : QueueBench α) (htimely : ∀ step ∈ steps, step.Timely) :
    (b.run steps).queues.depths = b.queues.depths := by
  induction steps generalizing b with
  | nil => rfl
  | cons step steps ih =>
    obtain ⟨hstep, hrest⟩ := List.forall_mem_cons.mp htimely
    exact (ih _ hrest).trans (served b hstep).depths

/-- Shut down is what was so before or has been told so since. -/
theorem isClosed_run (b : QueueBench α) (htimely : ∀ step ∈ steps, step.Timely) :
    (b.run steps).isClosed = true ↔ b.isClosed = true ∨ .shutdown ∈ steps := by
  induction steps generalizing b with
  | nil => simp [run]
  | cons step steps ih =>
    obtain ⟨hstep, hrest⟩ := List.forall_mem_cons.mp htimely
    calc ((b.step step).2.run steps).isClosed = true
        ↔ (b.step step).2.isClosed = true ∨ .shutdown ∈ steps := ih _ hrest
      _ ↔ (b.isClosed = true ∨ step = .shutdown) ∨ .shutdown ∈ steps := by
          rw [(served b hstep).isClosed]
      _ ↔ b.isClosed = true ∨ .shutdown ∈ step :: steps := by
          rw [or_assoc, List.mem_cons, eq_comm (a := step)]

theorem bounded_run {b : QueueBench α} (h : ∀ p, (b.lists p).length ≤ b.queues.depths.get p)
    (htimely : ∀ step ∈ steps, step.Timely) (p : Priority) :
    ((b.run steps).lists p).length ≤ b.queues.depths.get p := by
  induction steps generalizing b with
  | nil => exact h p
  | cons step steps ih =>
    obtain ⟨hstep, hrest⟩ := List.forall_mem_cons.mp htimely
    have hserved := served b hstep
    rw [← hserved.depths]
    refine ih ?_ hrest
    rw [hserved.depths]
    exact hserved.serves.bounded h

theorem conserved_run (b : QueueBench α) (htimely : ∀ step ∈ steps, step.Timely) (p : Priority) :
    b.lists p ++ b.admitted p steps = b.departed p steps ++ (b.run steps).lists p := by
  induction steps generalizing b with
  | nil => simp [admitted, departed, gather, run]
  | cons step steps ih =>
    obtain ⟨hstep, hlater⟩ := List.forall_mem_cons.mp htimely
    have hrest := ih (b.step step).2 hlater
    calc b.lists p ++ b.admitted p (step :: steps)
        = (b.lists p ++ entering p step (b.step step).1) ++
            (b.step step).2.admitted p steps := by rw [List.append_assoc]; rfl
      _ = leaving p b.lists (b.step step).1 ++
            ((b.step step).2.lists p ++ (b.step step).2.admitted p steps) := by
          rw [(served b hstep).serves.conserves p, List.append_assoc]
      _ = b.departed p (step :: steps) ++ (b.run (step :: steps)).lists p := by
          rw [hrest, ← List.append_assoc]
          rfl

/-- New queues of these depths are three bounded lists after the steps. -/
structure ActsAsLists (depths : PerPriority Nat) (steps : List (Step α)) (b : QueueBench α) :
    Prop where
  bounded : ∀ p, ((b.run steps).lists p).length ≤ depths.get p
  /-- Each operation does just what it would do to such lists. -/
  serves : ∀ step r after, step.Timely →
    (Serves depths.get (.shutdown ∈ steps) (b.run steps).lists step r after ↔
      ((b.run steps).step step).1 = r ∧ ((b.run steps).step step).2.lists = after)
  /-- What was let in is what was taken or dropped followed by what still waits, in order. -/
  conserved : ∀ p, b.admitted p steps = b.departed p steps ++ (b.run steps).lists p

/-- Queues of any depths for which there is memory, zero included, are three bounded lists after any
operations, as long as the clock can tell when each consumer's wait is to end. -/
theorem behaves_as_bounded_lists {slotBytes heap : Nat} {depths : PerPriority Nat}
    (hcreate : create slotBytes depths heap = .ok b) (htimely : ∀ step ∈ steps, step.Timely) :
    b.ActsAsLists depths steps := by
  obtain rfl := eq_of_create hcreate
  have hnew : ∀ p, (fresh depths : QueueBench α).lists p = [] := fun p => by cases p <;> rfl
  refine ⟨?_, ?_, ?_⟩
  · refine bounded_run ?_ htimely
    intro p
    rw [hnew]
    exact Nat.zero_le _
  · intro step r after hstep
    have hserves := (served ((fresh depths).run steps) hstep).serves
    have hclosed : (((fresh depths).run steps).isClosed = true) = (.shutdown ∈ steps) := by
      rw [isClosed_run _ htimely]
      simp [fresh]
    rw [depths_run _ htimely, hclosed] at hserves
    constructor
    · intro h
      exact hserves.unique h
    · rintro ⟨rfl, rfl⟩
      exact hserves
  · intro p
    rw [← conserved_run _ htimely, hnew, List.nil_append]

/-- An item is taken by a consumer that would have waited. -/
theorem behaves_as_bounded_lists_taken :
    ∃ b : QueueBench Nat, create 16 (.fill 1) Heap.maxRequest = .ok b ∧
      b.ActsAsLists (.fill 1) [.push .voice 7 ⟨⟨0⟩, ⟨0⟩⟩, .popWait (some ⟨⟨0⟩, .ofMillis 5⟩)] :=
  ⟨_, rfl, behaves_as_bounded_lists
    (show (create 16 (.fill 1) Heap.maxRequest : Except Crash (QueueBench Nat)) = .ok _ from rfl)
    (by simp [Step.Timely]; decide)⟩

def endlessWait : Wait := ⟨⟨0⟩, ⟨18446744073709551615999999999⟩⟩

/-- Depths may ask for more memory than there is. And with an item at hand and no room for another,
a wait that has no end breaks off the consumer and holds up the producer. -/
theorem not_always_lists :
    (create 16 ⟨1152921504606846976, 1, 1⟩ Heap.maxRequest : Except Crash (QueueBench Nat)) =
        .error .capacityOverflow ∧
      ∃ b : QueueBench Nat, create 16 (.fill 1) Heap.maxRequest = .ok b ∧
        let b := b.run [.push .control 7 endlessWait]
        Serves (PerPriority.fill 1).get False b.lists (.popWait (some endlessWait))
            (.popped .control 7) (Function.update b.lists .control []) ∧
          b.step (.popWait (some endlessWait)) = (.crashed .deadlineOverflow, b) ∧
          b.step (.push .control 8 endlessWait) = (.waiting, b) :=
  ⟨rfl, _, rfl, .taken (.inr ⟨_, rfl⟩) rfl nofun, by decide, by decide⟩

end QueueBench
end SlaveLink
