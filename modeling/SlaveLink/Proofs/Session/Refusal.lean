import SlaveLink.Proofs.Link.Refusal
import SlaveLink.Proofs.Session.InFlight

/-! # Frames that are refused
Whatever has happened to a link, a frame that it refuses leaves the queues, the bus, the lines and
flow control alone, and the pools as they were. Whether the queue of a priority is full depends on
that queue. -/

namespace SlaveLink

namespace Session

variable {s m : Session} {c : LinkConfig} {host : HostLevels} {step : Step} {r : Reply}

theorem limited_acting (h : s.link.Steady []) (hlimited : s.link.Limited c)
    (hacting : s.Acting step (r, m)) : m.link.Limited c := by
  cases hacting with
  | aside | stopped | clocked | received | dropped => exact hlimited.of_eq rfl
  | started starting => exact Link.limited_starting hlimited starting
  | submitted _ submission =>
    refine Link.limited_submission ?_ submission
    exact hlimited.of_eq rfl
  | retried _ pending =>
    obtain ⟨hsteady, hidle⟩ := steady_retry h pending
    exact Link.limited_armNext (hlimited.of_eq rfl) (hsteady.vacant hidle (Nat.zero_le _))

theorem limited_ending (h : s.link.Steady []) (hlimited : s.link.Limited c)
    (hending : s.Ending step (r, m)) : m.link.Limited c := by
  cases hending with
  | closing | left | refusing => exact hlimited.of_eq rfl
  | dismantled => exact Link.limited_dismantle (hlimited.of_eq rfl) (h.setPhase nofun)

theorem limited_act (step : Step) (h : s.link.Steady []) (hlimited : s.link.Limited c) :
    (s.act step).2.link.Limited c := by
  rcases acting_or_ending h step with hacting | hending
  · exact limited_acting h hlimited hacting
  · exact limited_ending h hlimited hending

theorem limited_rest (h : s.link.Steady []) (hlimited : s.link.Limited c) :
    s.settle.link.Limited c := by
  unfold settle
  split
  · exact hlimited
  · exact Link.limited_settle hlimited h s.withheld

structure Refusing (c : LinkConfig) (s : Session) : Prop extends s.Steady where
  config : s.link.config = c
  limited : s.link.Limited c

theorem refusing_act (step : Step) (h : s.Refusing c) : (s.quiet.act step).2.Refusing c where
  toSteady := steady_act step (steady_quiet h.toSteady)
  config := (config_act step (steady_quiet h.toSteady).traffic).trans h.config
  limited := limited_act step (steady_quiet h.toSteady).traffic (h.limited.of_eq rfl)

theorem refusing_step (step : Step) (h : s.Refusing c) : (s.step step).2.Refusing c where
  toSteady := steady_step step h.toSteady
  config := (config_step step h.toSteady).trans h.config
  limited := limited_rest (refusing_act step h).traffic (refusing_act step h).limited

theorem refusing_run (hcreate : create c host = .ok s) (steps : List Step) :
    (s.run steps).2.Refusing c := by
  have hlink := (create_eq_ok hcreate).1
  refine run_keeps (P := Refusing c) (fun _ step h => refusing_step step h) ?_ steps
  exact ⟨(sound_create hcreate).toSteady, Link.config_create hlink, Link.limited_create hlink⟩

/-- The link after a run, or while the worker has yet to see the last step. -/
inductive Reaches (s : Session) : Link → Prop
  | settled (steps : List Step) : Reaches s (s.run steps).2.link
  | unsettled (steps : List Step) (step : Step) :
      Reaches s ((s.run steps).2.quiet.act step).2.link

/-- A frame that the application submits is refused for the first condition that does not hold, with
or without a sequence number of its own. The refusal leaves no trace but for one counter, the bytes
of the next free block and the sequence number that was used up. -/
theorem refused_frame_spares (hcreate : create c host = .ok s) {l : Link} (hl : s.Reaches l) :
    (∀ f e l', l.submit f = (.error e, l') →
      l.Refused c f.header f.payload e l' ∧ l'.sequence = l.sequence) ∧
      ∀ interface number payload e l', l.submitNext interface number payload = (.error e, l') →
        l.Refused c { Header.blank interface number with sequence := l.sequence } payload e l' ∧
          l'.sequence = l.sequence + 1 := by
  have hrefusing : ∃ m : Session, m.Refusing c ∧ m.link = l := by
    cases hl with
    | settled steps => exact ⟨_, refusing_run hcreate steps, rfl⟩
    | unsettled steps step => exact ⟨_, refusing_act step (refusing_run hcreate steps), rfl⟩
  obtain ⟨m, hm, rfl⟩ := hrefusing
  have hsized := hm.sized.free
  refine ⟨fun f e l' herror => Link.refused_of_error hsized hm.limited herror, ?_⟩
  intro interface number payload e l' herror
  obtain ⟨hrefused, hsequence⟩ := Link.refused_of_error
    (l := { m.link with sequence := m.link.sequence + 1 }) hsized (hm.limited.of_eq rfl) herror
  exact ⟨hrefused.of_sequence, hsequence⟩

/-- A second control frame has no room behind the first one; a frame without payload is refused
without being counted. -/
theorem refused_frame_spares_small :
    ∃ s, create smallConfig (matchingHost smallConfig) = .ok s ∧
      ∃ l, s.Reaches l ∧
        l.Refused smallConfig (Frame.ofPayload .serial [7]).header [7] (.queueFull .control)
          (l.submit (.ofPayload .serial [7])).2 ∧
        l.Refused smallConfig { Header.blank .hci 0 with sequence := 2 } [] .emptyPayload
          (l.submitNext .hci 0 []).2 := by
  have hcreate : create smallConfig (matchingHost smallConfig) = .ok _ := rfl
  obtain ⟨hframe, hpayload⟩ :=
    refused_frame_spares hcreate (.settled [.start, .submitNext .serial 0 [7]])
  refine ⟨_, rfl, _, .settled [.start, .submitNext .serial 0 [7]], ?_, ?_⟩
  · exact (hframe _ (.queueFull .control) _ (Prod.ext (by decide +kernel) rfl)).1
  · exact (hpayload .hci 0 [] .emptyPayload _ (Prod.ext (by decide +kernel) rfl)).1

end Session
end SlaveLink
