import SlaveLink.Proofs.Link.Precedence
import SlaveLink.Proofs.Session.Transmission

/-! # How long a control frame waits
A control frame that was accepted goes out behind the control frames that waited already and one
block more: the one that is loaded at that moment or, on a link that was not started, the startup
event. Voice and bulk frames do not delay it, however many wait or are submitted later. -/

namespace SlaveLink.Session

variable {s m : Session} {c : LinkConfig} {host : HostLevels} {step : Step} {r : Reply}
  {history : History} {f : Frame} {first : List Bytes → Prop} {due : List Bytes}

open Outbound (Serving waiting)
open Link (Carries)

theorem serves_acting (hsound : s.Sound) (h : s.link.Serves first due history.handed)
    (hacting : s.Acting step (r, m)) :
    m.link.Serves first due (history.answered step s.link.sequence r).handed := by
  cases hacting with
  | aside mute =>
    rw [mute]
    exact h
  | stopped =>
    rw [mute_done rfl]
    exact h
  | @started result l starting =>
    have hstarted := Link.serves_starting h hsound.orderly starting
    cases result with
    | ok _ =>
      rw [answer, mute_done rfl]
      exact hstarted
    | error e => exact hstarted
  | @submitted _ _ sequence result _ _ submission =>
    have hsubmitted := Link.serves_submission (l := { s.link with sequence }) h submission
    cases result <;> exact hsubmitted
  | @clocked _ data fault t _ _ clocks loaded =>
    have hhanded : (history.answered step s.link.sequence (.read t.outgoing)).handed =
        history.handed ++ [t.outgoing] := by
      simp [History.answered, History.handed, clocks]
    unfold Link.Serves at h
    rw [loaded] at h
    rw [hhanded]
    exact h.clock
  | retried parked pending =>
    obtain ⟨horderly, hidle⟩ := orderly_retry hsound.orderly pending
    rw [mute_done rfl]
    exact Link.serves_armNext (l := { s.link with rearmPending := false }) h hsound.sized hidle
      (idle_of_retry hsound.traffic pending).2 (horderly.canArm hidle (Nat.zero_le _))
  | received | dropped => exact h

theorem serves_step (step : Step) (hlive : step.isLive = true)
    (h : s.Sound ∧ s.link.Serves first due history.handed) :
    (s.step step).2.Sound ∧ (s.step step).2.link.Serves first due (history.note step s).handed := by
  have hquiet := sound_quiet h.1
  have hserves : s.quiet.link.Serves first due history.handed := h.2
  have hacted := serves_acting hquiet hserves (acting hquiet.orderly hlive)
  have hsound : (s.quiet.act step).2.Sound := sound_act step hlive hquiet
  refine ⟨sound_step step hlive h.1, ?_⟩
  show (s.quiet.act step).2.settle.link.Serves first due
    (history.answered step s.link.sequence (s.quiet.act step).1).handed
  rw [settle_of_orderly hsound.orderly]
  exact Link.serves_settle hsound.orderly hsound.sized hacted _

/-- What is handed out ahead of the control queue: the loaded block, or one that a start loads. -/
def First (s : Session) (ahead : List Bytes) : Prop :=
  ahead.length ≤ 1 ∧
    (s.link.phase = .active → ahead = s.link.bus.loaded.toList.map (·.outgoing))

/-- A request that is accepted has queued its frame. -/
theorem submission_of_accepted (hacting : s.Acting step (.done, m))
    (hoffer : step.offer? s.link.sequence = some f) : ∃ sequence l,
      { s.link with sequence }.Submission f.header f.payload (.ok (), l) ∧
        m = { s with link := l } := by
  generalize hr : Reply.done = r at hacting
  cases hacting with
  | aside mute =>
    have haccepted := congrArg History.accepted (mute {})
    rw [← hr] at haccepted
    simp [History.answered, hoffer] at haccepted
  | @submitted _ g sequence result l offer submission =>
    rw [hoffer, Option.some.injEq] at offer
    subst offer
    cases result with
    | ok _ => exact ⟨sequence, l, submission, rfl⟩
    | error e => simp [answer] at hr
  | stopped | started | retried | dropped => simp [Step.offer?] at hoffer
  | clocked | received => simp at hr

/-- Only an open link accepts a frame. -/
theorem isOpen_of_accepted {sequence : UInt16} (hoffer : step.offer? sequence = some f)
    (haccepted : (s.step step).1 = .done) : s.link.isOpen = true := by
  cases hopen : s.link.isOpen with
  | true => rfl
  | false =>
    have hclosed : s.link.phase.isOpen = false := hopen
    cases step <;> simp [Step.offer?] at hoffer <;>
      simp [Session.step, act, request, quiet, onLink, Link.submit, Link.submitNext,
        Link.takeSequence, Link.submitHeader, Link.isOpen, hclosed] at haccepted

/-- A control frame that is queued is due behind those that wait already. -/
theorem serves_queued {l : Link} {sequence : UInt16} (hsound : s.Sound)
    (hcontrol : f.interface.priority = .control)
    (hsubmission : { s.link with sequence }.Submission f.header f.payload (.ok (), l)) :
    ∃ bs, Carries s.link.config.frame f bs ∧
      l.Serves s.First (waiting s.link.mux.tx .control ++ [bs]) [] := by
  obtain ⟨hopen, hphase, hbus, bs, hcarries, hqueue⟩ :=
    Link.queued_of_submission (l := { s.link with sequence }) hsound.traffic.word hcontrol
      hsubmission
  refine ⟨bs, hcarries, ?_⟩
  have hsame : s.link.phase.isOpen = true := hopen
  unfold Link.Serves
  rw [hphase, hbus, hqueue]
  show Serving s.First _ [] s.link.phase s.link.bus.loaded (waiting s.link.mux.tx .control ++ [bs])
  cases hearly : s.link.phase with
  | initialized =>
    have hnone : s.link.bus.loaded = none := (hsound.traffic.dormant hearly).1.loaded
    rw [hnone]
    refine .dormant (fun ahead hone => ⟨hone, fun hactive => ?_⟩) (List.prefix_refl _)
    simp [hearly] at hactive
  | active =>
    refine .partly ⟨?_, fun _ => rfl⟩ nofun rfl (List.prefix_refl _)
    cases s.link.bus.loaded <;> simp
  | draining | deinit => simp [hearly, Phase.isOpen] at hsame

theorem serves_accepted (hsound : s.Sound) (hoffer : step.offer? s.link.sequence = some f)
    (hcontrol : f.interface.priority = .control) (haccepted : (s.step step).1 = .done) :
    (s.step step).2.Sound ∧ ∃ bs, Carries s.link.config.frame f bs ∧
      (s.step step).2.link.Serves s.First (waiting s.link.mux.tx .control ++ [bs]) [] := by
  have hlive : step.isLive = true := by cases step <;> first | rfl | simp [Step.offer?] at hoffer
  have hquiet := sound_quiet hsound
  have hacting := acting hquiet.orderly hlive
  have hacted : (s.quiet.act step).2.Sound := sound_act step hlive hquiet
  have hreply : (s.quiet.act step).1 = .done := haccepted
  have hsplit : s.quiet.act step = (.done, (s.quiet.act step).2) := by rw [← hreply]
  rw [hsplit] at hacting
  obtain ⟨sequence, l, hsubmission, hlink⟩ := submission_of_accepted hacting hoffer
  obtain ⟨bs, hcarries, hserves⟩ := serves_queued hquiet hcontrol hsubmission
  refine ⟨sound_step step hlive hsound, bs, hcarries, ?_⟩
  show (s.quiet.act step).2.settle.link.Serves _ _ _
  rw [settle_of_orderly hacted.orderly]
  refine Link.serves_settle hacted.orderly hacted.sized ?_ _
  rw [hlink]
  exact hserves

/-- Where the frame, accepted in `s`, stands among the blocks that the host is handed afterwards. -/
structure Served (c : FrameConfig) (f : Frame) (s : Session) (handed : List Bytes) : Prop where
  inTime : ∃ bs ∈ handed.take (s.link.mux.tx.length .control + 2), Carries c f bs
  inOrder : ∃ ahead bs, s.First ahead ∧ Carries c f bs ∧
    ahead ++ (waiting s.link.mux.tx .control ++ [bs]) <+: handed

theorem served {handed : List Bytes} {bs : Bytes} {l : Link} {frame : FrameConfig}
    (hcarries : Carries frame f bs)
    (hserves : l.Serves s.First (waiting s.link.mux.tx .control ++ [bs]) handed)
    (henough : s.link.mux.tx.length .control + 2 ≤ handed.length) : Served frame f s handed := by
  have hwaiting : (waiting s.link.mux.tx .control).length = s.link.mux.tx.length .control := by
    simp [waiting, PriorityQueues.length]
  obtain ⟨ahead, hfirst, hahead⟩ := hserves.handed_of_length (fun _ hfirst => hfirst.1)
    (by rw [List.length_append, hwaiting]; exact henough)
  refine ⟨⟨bs, ?_, hcarries⟩, ahead, bs, hfirst, hcarries, hahead⟩
  have hlength : (ahead ++ (waiting s.link.mux.tx .control ++ [bs])).length ≤
      s.link.mux.tx.length .control + 2 := by
    have hone := hfirst.1
    simp only [List.length_append, hwaiting, List.length_singleton]
    omega
  exact (List.prefix_take_iff.mpr ⟨hahead, hlength⟩).subset (by simp)

/-- A control frame that was accepted while `n` others waited is carried by one of the next `n + 2`
blocks that the host is handed, whatever else is submitted and received meanwhile. A transfer that
ends in a fault counts as a block handed to the host: it was clocked, and the host read the block
before the fault was reported. Arms may fail for want of memory; a transaction that the bus driver
refuses would be lost with its frame, so none is to be refused. -/
theorem control_served (hcreate : create c host = .ok s) (before after : List Step)
    (hwilling : (s.run before).2.link.refusals = 0)
    (hoffer : step.offer? (s.run before).2.link.sequence = some f)
    (hcontrol : f.interface.priority = .control)
    (haccepted : ((s.run before).2.step step).1 = .done)
    (hlive : ∀ step ∈ after, step.isLive = true)
    (henough : (s.run before).2.link.mux.tx.length .control + 2 ≤
      ((s.run (before ++ [step])).2.history after).handed.length) :
    Served c.frame f (s.run before).2 ((s.run (before ++ [step])).2.history after).handed := by
  have hrun := steady_run hcreate before
  rw [run_concat] at henough ⊢
  generalize (s.run before).2 = s at hrun hwilling hoffer haccepted henough ⊢
  obtain ⟨hsteady, rfl⟩ := hrun
  have hsound : s.Sound := ⟨hsteady, isOpen_of_accepted hoffer haccepted, hwilling⟩
  obtain ⟨hnext, bs, hcarries, hserves⟩ := serves_accepted hsound hoffer hcontrol haccepted
  have hafter := History.along_induction
    (P := fun h m => m.Sound ∧
      m.link.Serves s.First (waiting s.link.mux.tx .control ++ [bs]) h.handed)
    (fun _ _ step => serves_step step) after {} (s.step step).2 hlive ⟨hnext, hserves⟩
  exact served hcarries hafter.2 henough

def pairedConfig : LinkConfig := { smallConfig with txDepths := .fill 2 }

/-- A bulk frame and a control frame wait on a link that was not started. -/
theorem control_served_small :
    ∃ s, create pairedConfig (matchingHost pairedConfig) = .ok s ∧
      Served pairedConfig.frame (.ofPayload .serial [7])
        (s.run [.submitNext .station 0 [1], .submitNext .internal 0 [2]]).2
        ((s.run ([.submitNext .station 0 [1], .submitNext .internal 0 [2]] ++
          [.submit (.ofPayload .serial [7])])).2.history
          [.start, .clock [] false, .clock [] false, .submitNext .hci 0 [3],
            .clock [] false]).handed :=
  ⟨_, rfl, control_served (c := pairedConfig) rfl
    [.submitNext .station 0 [1], .submitNext .internal 0 [2]]
    [.start, .clock [] false, .clock [] false, .submitNext .hci 0 [3], .clock [] false] (by decide)
    rfl rfl (by decide) (by decide) (by decide)⟩

end SlaveLink.Session
