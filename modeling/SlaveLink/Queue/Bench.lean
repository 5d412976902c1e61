import SlaveLink.LinkError
import SlaveLink.Queue

/-! # Queues on the bench
One set of queues with the signal that shuts it down. Nothing is taken while a producer waits for
room, so a queue that is full stays full until the wait is over. A shutdown in the middle of a
consumer's wait ends it as one before the wait does. -/

namespace SlaveLink

structure QueueBench (α : Type) where
  queues : PriorityQueues α
  /-- The queues were shut down. -/
  isClosed : Bool := false
deriving DecidableEq, Repr

namespace QueueBench

inductive Step (α : Type) where
  | push (p : Priority) (x : α) (wait : Wait)
  | pop
  | popWait (wait : Option Wait)
  | shutdown
  | clear
deriving DecidableEq, Repr

inductive Reply (α : Type) where
  | done
  | accepted
  /-- The item that found no room comes back. -/
  | back (x : α)
  | popped (p : Priority) (x : α)
  | nothing
  /-- A wait that has no end goes on. -/
  | waiting
  | failed (e : LinkError)
  | cleared (count : Nat)
  | crashed (why : Crash)
deriving DecidableEq, Repr

variable {α : Type}

def fresh (depths : PerPriority Nat) : QueueBench α := { queues := .empty depths }

/-- Makes queues of these depths, each slot of so many bytes. -/
def create (slotBytes : Nat) (depths : PerPriority Nat) (heap : Nat) :
    Except Crash (QueueBench α) :=
  (PriorityQueues.claim slotBytes depths heap).map fun _ => fresh depths

/-- A producer whose wait has no end waits for room however long it takes; a consumer's request
breaks off. -/
def step (b : QueueBench α) : Step α → Reply α × QueueBench α
  | .push p x wait =>
    match b.queues.push? p x with
    | none => (if wait.ends then .back x else .waiting, b)
    | some queues => (.accepted, { b with queues })
  | .pop =>
    match b.queues.pop? with
    | none => (.nothing, b)
    | some (p, x, queues) => (.popped p x, { b with queues })
  | .popWait wait =>
    match b.queues.popWait wait b.isClosed with
    | .error why => (.crashed why, b)
    | .ok (.found (p, x), queues) => (.popped p x, { b with queues })
    | .ok (.timedOut limit, _) => (.failed (.timeout limit), b)
    | .ok (.closed, _) => (.failed .inactive, b)
    | .ok (.waiting, _) => (.waiting, b)
  | .shutdown => (.done, { b with isClosed := true })
  | .clear => (.cleared b.queues.total, { b with queues := b.queues.clear })

def run (b : QueueBench α) (steps : List (Step α)) : QueueBench α :=
  steps.foldl (fun b s => (b.step s).2) b

end QueueBench
end SlaveLink
