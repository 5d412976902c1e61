import SlaveLink.Session
import SlaveLink.Proofs.Link.Orderly

/-! # What a run did
A history collects what can be seen of a run from outside: the frames that the link accepted, the
transfers that the host clocked, which of them the worker has finished, and the received frames that
the application was given. -/

namespace SlaveLink

namespace Session

namespace Step

def closes : Step → Bool
  | .drain | .finishDrain | .deinit => true
  | _ => false

/-- The step neither asks for a teardown nor makes the bus driver refuse. In a run of such steps no
accepted frame is lost: a driver that refuses loses the frame that it was handed, and a teardown
those that still wait. Both are left out where accepted frames are followed on their way out; what
is said of received frames and of the statistics holds with refusals, too. -/
def isLive : Step → Bool
  | .drain | .finishDrain | .deinit | .refuse _ => false
  | _ => true

/-- The frame that the step hands to the link, with the sequence number that is next. -/
def offer? (sequence : UInt16) : Step → Option Frame
  | .submitNext interface number payload =>
    some { Frame.ofPayload interface payload with number, sequence }
  | .submit f => some f
  | _ => none

def clocks? : Step → Option (Bytes × Option String)
  | .exchange data _ fault _ => some (data, fault)
  | .clock data _ => some (data, none)
  | _ => none

end Step

structure Exchange where
  sent : Bytes
  read : Bytes
  fault : Option String
deriving DecidableEq, Repr

/-- A transfer that the worker finished, and how many received frames waited at that moment. -/
structure Handled where
  exchange : Exchange
  waiting : PerPriority Nat
deriving DecidableEq, Repr

structure History where
  accepted : List Frame := []
  exchanges : List Exchange := []
  handled : List Handled := []
  received : List Incoming := []
deriving DecidableEq, Repr

namespace History

def answered (step : Step) (sequence : UInt16) (r : Reply) (h : History) : History :=
  match r with
  | .done => { h with accepted := h.accepted ++ (step.offer? sequence).toList }
  | .read bs => { h with
    exchanges := h.exchanges ++ (step.clocks?.map fun c => ⟨c.1, bs, c.2⟩).toList }
  | .received (some i) => { h with received := h.received ++ [i] }
  | _ => h

/-- Takes into account what the worker finished between two moments of a step. -/
def settled (before after : Session) (h : History) : History :=
  let count := before.link.unfinished.length - after.link.unfinished.length
  let finished := (h.exchanges.drop h.handled.length).take count
  { h with handled := h.handled ++ finished.map (⟨·, before.link.mux.rx.lengths⟩) }

def note (step : Step) (s : Session) (h : History) : History :=
  let acted := s.quiet.act step
  (h.answered step s.link.sequence acted.1).settled acted.2 acted.2.settle

def along (h : History) (s : Session) : List Step → History
  | [] => h
  | step :: steps => (h.note step s).along (s.step step).2 steps

variable {P : History → Session → Prop} {allowed : Step → Prop}

/-- What every step keeps, a run keeps. -/
theorem along_induction (hstep : ∀ h s step, allowed step → P h s →
      P (note step s h) (s.step step).2) (steps : List Step) :
    ∀ h s, (∀ step ∈ steps, allowed step) → P h s → P (along h s steps) (s.run steps).2 := by
  induction steps with
  | nil => exact fun h s _ hP => hP
  | cons step steps ih =>
    intro h s hallowed hP
    exact ih _ _ (fun x hx => hallowed x (List.mem_cons_of_mem _ hx))
      (hstep h s step (hallowed step (List.mem_cons_self ..)) hP)

end History

def history (s : Session) (steps : List Step) : History := History.along {} s steps

theorem run_induction {P : Session → Prop} {allowed : Step → Prop}
    (hstep : ∀ s step, allowed step → P s → P (s.step step).2) {s : Session} {steps : List Step}
    (hallowed : ∀ step ∈ steps, allowed step) (hP : P s) : P (s.run steps).2 :=
  History.along_induction (P := fun _ s => P s) (fun _ s step => hstep s step)
    steps {} s hallowed hP

/-- What every step keeps holds after every run. -/
theorem run_keeps {P : Session → Prop} (hstep : ∀ s step, P s → P (s.step step).2) {s : Session}
    (hP : P s) (steps : List Step) : P (s.run steps).2 :=
  run_induction (fun s step (_ : True) => hstep s step) (fun _ _ => trivial) hP

theorem run_concat (s : Session) (steps : List Step) (step : Step) :
    (s.run (steps ++ [step])).2 = ((s.run steps).2.step step).2 := by
  rw [run_append]
  rfl

/-- Every reply of a run answers one of its steps. -/
theorem exists_of_mem_replies {r : Reply} {steps : List Step} {s : Session}
    (h : r ∈ (s.run steps).1) : ∃ before step after,
      before ++ step :: after = steps ∧ ((s.run before).2.step step).1 = r := by
  induction steps generalizing s with
  | nil => cases h
  | cons step steps ih =>
    rcases List.mem_cons.mp h with rfl | h
    · exact ⟨[], step, steps, rfl, rfl⟩
    · obtain ⟨before, other, after, rfl, hreply⟩ := ih h
      exact ⟨step :: before, other, after, rfl, hreply⟩

def happens (p : Step → Session → Bool) (s : Session) : List Step → Bool
  | [] => false
  | step :: steps => p step s || (s.step step).2.happens p steps

theorem happens_append (p : Step → Session → Bool) (s : Session) (before after : List Step) :
    s.happens p (before ++ after) =
      (s.happens p before || (s.run before).2.happens p after) := by
  induction before generalizing s with
  | nil => rfl
  | cons step steps ih => simp [happens, run, ih, Bool.or_assoc]

end Session
end SlaveLink
