import SlaveLink.Clock
import SlaveLink.Interface
import SlaveLink.Memory.Heap

/-! # Priority queues
Three bounded queues, served control first, then voice, then bulk. -/

namespace SlaveLink

structure PerPriority (α : Type) where
  control : α
  voice : α
  bulk : α
deriving DecidableEq, Repr, Inhabited

namespace PerPriority

variable {α β : Type}

def fill (x : α) : PerPriority α := ⟨x, x, x⟩

def get (v : PerPriority α) : Priority → α
  | .control => v.control
  | .voice => v.voice
  | .bulk => v.bulk

def set (p : Priority) (x : α) (v : PerPriority α) : PerPriority α :=
  match p with
  | .control => { v with control := x }
  | .voice => { v with voice := x }
  | .bulk => { v with bulk := x }

def map (f : α → β) (v : PerPriority α) : PerPriority β := ⟨f v.control, f v.voice, f v.bulk⟩

/-- In service order. -/
def toList (v : PerPriority α) : List α := [v.control, v.voice, v.bulk]

def total (v : PerPriority Nat) : Nat := v.control + v.voice + v.bulk

@[simp] theorem get_set_self (v : PerPriority α) (p : Priority) (x : α) :
    (v.set p x).get p = x := by
  cases p <;> rfl

theorem get_set_of_ne (v : PerPriority α) {p q : Priority} (x : α) (h : q ≠ p) :
    (v.set p x).get q = v.get q := by
  cases p <;> cases q <;> first | rfl | exact absurd rfl h

end PerPriority

/-- Which way the frames of a set of queues travel, seen from the slave. -/
inductive Direction where
  | tx | rx
deriving DecidableEq, Repr, Inhabited

def Direction.name : Direction → String
  | .tx => "tx"
  | .rx => "rx"

structure PriorityQueues (α : Type) where
  depths : PerPriority Nat
  queues : PerPriority (List α) := .fill []
deriving DecidableEq, Repr

/-- How a wait for an item ends. Nothing is pushed while the caller waits. -/
inductive WaitOutcome (α : Type) where
  | found (x : α)
  | timedOut (limit : Duration)
  /-- The queues were shut down. -/
  | closed
  /-- A wait without limit goes on. -/
  | waiting
deriving DecidableEq, Repr

namespace PriorityQueues

variable {α : Type}

def empty (depths : PerPriority Nat) : PriorityQueues α := { depths }

/-- Takes memory for queues of these depths, one after the other. -/
def claim (slotBytes : Nat) (depths : PerPriority Nat) (heap : Nat) : Except Crash Nat :=
  Heap.claimAll (depths.toList.map (· * slotBytes)) heap

def get (q : PriorityQueues α) (p : Priority) : List α := q.queues.get p

def length (q : PriorityQueues α) (p : Priority) : Nat := (q.get p).length

def lengths (q : PriorityQueues α) : PerPriority Nat := q.queues.map List.length

def total (q : PriorityQueues α) : Nat := q.lengths.total

def isEmpty (q : PriorityQueues α) : Bool := q.total == 0

def items (q : PriorityQueues α) : List α := q.queues.toList.flatten

/-- Appends an item to the queue of its priority; nothing if that queue is full. -/
def push? (p : Priority) (x : α) (q : PriorityQueues α) : Option (PriorityQueues α) :=
  if q.length p < q.depths.get p then some { q with queues := q.queues.set p (q.get p ++ [x]) }
  else none

/-- Takes the oldest item of the first queue that is not empty. -/
def pop? (q : PriorityQueues α) : Option (Priority × α × PriorityQueues α) :=
  match q.queues.control, q.queues.voice, q.queues.bulk with
  | x :: xs, _, _ => some (.control, x, { q with queues := q.queues.set .control xs })
  | [], x :: xs, _ => some (.voice, x, { q with queues := q.queues.set .voice xs })
  | [], [], x :: xs => some (.bulk, x, { q with queues := q.queues.set .bulk xs })
  | [], [], [] => none

/-- Takes an item as `pop?` does; with none at hand the wait ends by shutdown or by its limit. The
clock is taken to have a reading for the end of the wait. -/
def popWithin (limit : Option Duration) (isClosed : Bool) (q : PriorityQueues α) :
    WaitOutcome (Priority × α) × PriorityQueues α :=
  match q.pop? with
  | some (p, x, q) => (.found (p, x), q)
  | none =>
    if isClosed then (.closed, q)
    else match limit with
      | some limit => (.timedOut limit, q)
      | none => (.waiting, q)

/-- Waits for an item. When the wait is to end is worked out before anything is looked at. -/
def popWait (wait : Option Wait) (isClosed : Bool) (q : PriorityQueues α) :
    Except Crash (WaitOutcome (Priority × α) × PriorityQueues α) :=
  if wait.all Wait.ends then .ok (q.popWithin (wait.map (·.limit)) isClosed)
  else .error .deadlineOverflow

def clear (q : PriorityQueues α) : PriorityQueues α := empty q.depths

def summary (d : Direction) (q : PriorityQueues α) : String :=
  "PriorityQueues \x7b direction: \"" ++ d.name ++ "\", lens: [" ++
    ", ".intercalate (q.lengths.toList.map toString) ++ "] \x7d"

@[simp] theorem length_empty (depths : PerPriority Nat) (p : Priority) :
    (empty depths : PriorityQueues α).length p = 0 := by
  cases p <;> rfl

theorem pop?_eq_none_iff (q : PriorityQueues α) : q.pop? = none ↔ ∀ p, q.get p = [] := by
  constructor
  · intro h p
    unfold pop? at h
    split at h <;> first | contradiction | (cases p <;> assumption)
  · intro h
    have hc := h .control
    have hv := h .voice
    have hb := h .bulk
    simp only [get, PerPriority.get] at hc hv hb
    simp [pop?, hc, hv, hb]

/-- A push is refused exactly when the queue of its priority is full. -/
theorem push?_eq_none_iff (p : Priority) (x : α) (q : PriorityQueues α) :
    q.push? p x = none ↔ q.depths.get p ≤ q.length p := by
  simp [push?]

/-- An accepted push appends to the queue of its priority and touches nothing else. -/
theorem get_push? {p : Priority} {x : α} {q r : PriorityQueues α} (h : q.push? p x = some r)
    (s : Priority) : r.get s = if s = p then q.get p ++ [x] else q.get s := by
  simp only [push?, Option.ite_none_right_eq_some, Option.some.injEq] at h
  obtain ⟨_, rfl⟩ := h
  split
  · next hs => simp [hs, get]
  · next hs => exact PerPriority.get_set_of_ne _ _ hs

theorem depths_push? {p : Priority} {x : α} {q r : PriorityQueues α} (h : q.push? p x = some r) :
    r.depths = q.depths := by
  simp only [push?, Option.ite_none_right_eq_some, Option.some.injEq] at h
  obtain ⟨_, rfl⟩ := h
  rfl

/-- What is popped was the head of its queue, and the queues served before were empty. -/
theorem get_pop? {p : Priority} {x : α} {q r : PriorityQueues α} (h : q.pop? = some (p, x, r)) :
    q.get p = x :: r.get p ∧ (∀ s, s ≠ p → r.get s = q.get s) ∧
      ∀ s : Priority, s.index < p.index → q.get s = [] := by
  unfold pop? at h
  split at h <;> simp only [Option.some.injEq, Prod.mk.injEq, reduceCtorEq] at h
  all_goals
    obtain ⟨rfl, rfl, rfl⟩ := h
    refine ⟨by simp_all [get, PerPriority.get, PerPriority.set],
      fun s hs => PerPriority.get_set_of_ne _ _ hs, fun s hs => ?_⟩
    cases s <;> simp_all [get, PerPriority.get, Priority.index]

theorem depths_pop? {p : Priority} {x : α} {q r : PriorityQueues α}
    (h : q.pop? = some (p, x, r)) : r.depths = q.depths := by
  unfold pop? at h
  split at h <;> simp only [Option.some.injEq, Prod.mk.injEq, reduceCtorEq] at h
  all_goals
    obtain ⟨_, _, rfl⟩ := h
    rfl

theorem mem_items {q : PriorityQueues α} {x : α} : x ∈ q.items ↔ ∃ p, x ∈ q.get p := by
  constructor
  · intro hx
    simp only [items, PerPriority.toList, List.flatten_cons, List.flatten_nil, List.append_nil,
      List.mem_append] at hx
    rcases hx with hx | hx | hx
    · exact ⟨.control, hx⟩
    · exact ⟨.voice, hx⟩
    · exact ⟨.bulk, hx⟩
  · rintro ⟨p, hx⟩
    simp only [items, PerPriority.toList, List.flatten_cons, List.flatten_nil, List.append_nil,
      List.mem_append]
    cases p with
    | control => exact .inl hx
    | voice => exact .inr (.inl hx)
    | bulk => exact .inr (.inr hx)

theorem mem_of_push? {p : Priority} {x y : α} {q r : PriorityQueues α}
    (h : q.push? p x = some r) (s : Priority) (hy : y ∈ r.get s) : y ∈ q.get s ∨ y = x := by
  rw [get_push? h] at hy
  split at hy
  · next hs =>
    subst hs
    rcases List.mem_append.mp hy with hy | hy
    · exact .inl hy
    · exact .inr (List.mem_singleton.mp hy)
  · exact .inl hy

theorem mem_of_pop? {p : Priority} {x : α} {q r : PriorityQueues α}
    (h : q.pop? = some (p, x, r)) : x ∈ q.get p ∧ ∀ s, ∀ y ∈ r.get s, y ∈ q.get s := by
  obtain ⟨hhead, hothers, _⟩ := get_pop? h
  refine ⟨by simp [hhead], fun s y hy => ?_⟩
  by_cases hs : s = p
  · subst hs
    rw [hhead]
    exact List.mem_cons_of_mem _ hy
  · rwa [← hothers s hs]

end PriorityQueues
end SlaveLink
