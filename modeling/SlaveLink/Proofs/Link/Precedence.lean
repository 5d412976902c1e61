import SlaveLink.Proofs.Link.Outbound

/-! # Control frames go first
Some blocks at the head of the control queue are due. The next blocks on the wire are then at most
one other, which is loaded already or is the startup event, and after it these blocks in order:
arming takes from the control queue as long as that is not empty, whatever else waits. -/

namespace SlaveLink

namespace Outbound

variable {first : List Bytes → Prop} {due handed queue : List Bytes} {phase : Phase}
  {loaded : Option Transaction} {t : Transaction}

/-- How far the blocks `due` have come, of which `queue` still holds some. What goes out ahead of
them satisfies `first`. -/
inductive Serving (first : List Bytes → Prop) (due : List Bytes) :
    List Bytes → Phase → Option Transaction → List Bytes → Prop
  /-- The link was not started, and they all wait. -/
  | dormant {queue : List Bytes} (free : ∀ ahead, ahead.length ≤ 1 → first ahead)
      (queued : due <+: queue) : Serving first due [] .initialized none queue
  /-- Some are on the wire, and `rest` waits. -/
  | partly {ahead rest handed queue : List Bytes} {phase : Phase} {loaded : Option Transaction}
      (isFirst : first ahead) (started : phase ≠ .initialized)
      (split : wire handed loaded ++ rest = ahead ++ due) (queued : rest <+: queue) :
      Serving first due handed phase loaded queue
  /-- They are all on the wire. -/
  | served {ahead handed queue : List Bytes} {phase : Phase} {loaded : Option Transaction}
      (isFirst : first ahead) (started : phase ≠ .initialized)
      (done : ahead ++ due <+: wire handed loaded) : Serving first due handed phase loaded queue

theorem Serving.accept (h : Serving first due handed phase loaded queue) (more : List Bytes) :
    Serving first due handed phase loaded (queue ++ more) := by
  cases h with
  | dormant free queued => exact .dormant free (queued.trans (List.prefix_append _ _))
  | partly isFirst started split queued =>
    exact .partly isFirst started split (queued.trans (List.prefix_append _ _))
  | served isFirst started done => exact .served isFirst started done

theorem Serving.clock (h : Serving first due handed phase (some t) queue) :
    Serving first due (handed ++ [t.outgoing]) phase none queue := by
  have hwire : wire (handed ++ [t.outgoing]) none = wire handed (some t) := by simp [wire]
  cases h with
  | partly isFirst started split queued =>
    exact .partly isFirst started (by rw [hwire]; exact split) queued
  | served isFirst started done => exact .served isFirst started (by rw [hwire]; exact done)

/-- The head of the control queue goes on the wire. -/
theorem Serving.next (h : Serving first due handed phase none (t.outgoing :: queue))
    (hstarted : phase ≠ .initialized) : Serving first due handed phase (some t) queue := by
  have hwire := wire_some handed t
  cases h with
  | dormant => exact absurd rfl hstarted
  | @partly ahead rest _ _ _ _ isFirst started split queued =>
    cases rest with
    | nil =>
      rw [List.append_nil] at split
      exact .served isFirst started (by rw [hwire, split]; exact List.prefix_append _ _)
    | cons b rest =>
      obtain ⟨rfl, hrest⟩ := List.cons_prefix_cons.mp queued
      exact .partly isFirst started (by rw [hwire, ← split]; simp) hrest
  | served isFirst started done =>
    exact .served isFirst started (by rw [hwire]; exact done.trans (List.prefix_append _ _))

/-- Another block goes on the wire, since no control frame waits. -/
theorem Serving.other (h : Serving first due handed phase none [])
    (hstarted : phase ≠ .initialized) (t : Transaction) :
    Serving first due handed phase (some t) [] := by
  have hwire := wire_some handed t
  cases h with
  | dormant => exact absurd rfl hstarted
  | partly isFirst started split queued =>
    rw [List.prefix_nil.mp queued, List.append_nil] at split
    exact .served isFirst started (by rw [hwire, split]; exact List.prefix_append _ _)
  | served isFirst started done =>
    exact .served isFirst started (by rw [hwire]; exact done.trans (List.prefix_append _ _))

/-- A start loads the startup event, if anything. -/
theorem Serving.start (h : Serving first due handed .initialized none queue)
    (loaded : Option Transaction) : Serving first due handed .active loaded queue := by
  cases h with
  | dormant free queued =>
    exact .partly (free (loaded.toList.map (·.outgoing)) (by cases loaded <;> simp)) nofun
      (by simp [wire]) queued
  | partly _ started => exact absurd rfl started
  | served _ started => exact absurd rfl started

/-- Once more blocks were handed out than are ahead and due, they are among them. -/
theorem Serving.handed_of_length (h : Serving first due handed phase loaded queue)
    (hfirst : ∀ ahead, first ahead → ahead.length ≤ 1) (hlength : due.length + 1 ≤ handed.length) :
    ∃ ahead, first ahead ∧ ahead ++ due <+: handed := by
  have hwire : handed <+: wire handed loaded := List.prefix_append _ _
  cases h with
  | dormant => simp at hlength
  | @partly ahead rest _ _ _ _ isFirst started split queued =>
    have hone := hfirst _ isFirst
    have hlengths := congrArg List.length split
    simp only [wire, List.length_append, List.length_map] at hlengths
    have hrest : rest = [] := List.length_eq_zero_iff.mp (by omega)
    have hloaded : loaded.toList = [] := List.length_eq_zero_iff.mp (by omega)
    rw [wire, hloaded, hrest, List.map_nil, List.append_nil, List.append_nil] at split
    exact ⟨_, isFirst, split ▸ List.prefix_refl _⟩
  | @served ahead _ _ _ _ isFirst started done =>
    have hone := hfirst _ isFirst
    refine ⟨_, isFirst, List.prefix_of_prefix_length_le done hwire ?_⟩
    rw [List.length_append]
    omega

end Outbound

namespace Link

variable {l l' : Link} {first : List Bytes → Prop} {due handed : List Bytes} {t : Transaction}

open Outbound (Serving waiting)

def Serves (first : List Bytes → Prop) (due handed : List Bytes) (l : Link) : Prop :=
  Serving first due handed l.phase l.bus.loaded (waiting l.mux.tx .control)

theorem serves_loaded (h : l.Serves first due handed) (hsized : l.Sized) (hidle : l.Idle)
    (hstarted : l.phase ≠ .initialized) (hloaded : l.Loaded l') : l'.Serves first due handed := by
  have hnone : l.bus.loaded = none := hidle.loaded
  unfold Serves at h
  rw [hnone] at h
  cases hloaded with
  | @frame rx rest p o tx free due =>
    obtain ⟨hhead, hothers, hbefore⟩ := PriorityQueues.get_pop? due
    have hout := outgoing_carrier (l := l) rx
      (hsized.tx p o (PriorityQueues.mem_of_pop? due).1)
    by_cases hp : p = .control
    · subst hp
      have hqueue : waiting l.mux.tx .control =
          (l.carrier o.block rx).outgoing :: waiting tx .control := by
        rw [waiting, hhead, hout]
        rfl
      rw [hqueue] at h
      exact h.next hstarted
    · have hlate : Priority.control.index < p.index := by
        cases p with
        | control => exact absurd rfl hp
        | voice | bulk => decide
      have hnil : l.mux.tx.get .control = [] := hbefore .control hlate
      have hqueue : waiting l.mux.tx .control = [] := by rw [waiting, hnil]; rfl
      have hqueue' : waiting tx .control = [] := by
        rw [waiting, hothers .control (Ne.symm hp), hnil]
        rfl
      rw [hqueue] at h
      have hserving := h.other hstarted (l.carrier o.block rx)
      rw [← hqueue'] at hserving
      exact hserving
  | @dummy rx b rest free idle =>
    have hnil := (PriorityQueues.pop?_eq_none_iff _).mp idle .control
    have hqueue : waiting l.mux.tx .control = [] := by rw [waiting, hnil]; rfl
    rw [hqueue] at h
    have hserving := h.other hstarted (l.carrier (l.dummyIn b) rx)
    rw [← hqueue] at hserving
    exact hserving

theorem serves_armNext (h : l.Serves first due handed) (hsized : l.Sized) (hidle : l.Idle)
    (hstarted : l.phase ≠ .initialized) (hcan : l.CanArm) : l.armNext.Serves first due handed := by
  rcases armNext_loaded_or_starved hcan with hloaded | hstarved
  · exact serves_loaded h hsized hidle hstarted hloaded
  · rw [hstarved]
    exact h

theorem serves_settle (horderly : l.Orderly []) (hsized : l.Sized)
    (h : l.Serves first due handed) (withheld : Bool) :
    (l.settle withheld).Serves first due handed := by
  generalize hend : l.settle withheld = l'
  have hsettling := settling horderly.steady withheld
  rw [hend] at hsettling
  cases hsettling with
  | rest | wait | hold => exact h
  | @turn t l₁ hturn =>
    obtain ⟨horderly₁, hidle, hshaped⟩ := orderly_of_turn? horderly hturn
    have hsized₁ := sized_of_turn? horderly.steady hsized hturn
    obtain ⟨hone, signals, rfl⟩ := turn?_eq_some horderly.steady.unfinished_le_one hturn
    have hstarted := (started_of_unfinished horderly.steady hone).2
    have harmed := serves_armNext (l := { l with
      bus := { l.bus with completed := [] }, inFlight := l.inFlight - l.bus.completed.length
      signals, worker := .parked }) h hsized₁.1 hidle hstarted
      (horderly₁.canArm hidle (Nat.le_refl _))
    obtain ⟨_, _, _, _, _, hfinished⟩ := finish_frame hshaped (armNext _)
    rw [turnAround_of_orderly horderly₁, hfinished]
    exact harmed

theorem serves_starting {r : Except LinkError Unit} (h : l.Serves first due handed)
    (horderly : l.Orderly []) (hstarting : l.Starting (r, l')) : l'.Serves first due handed := by
  cases hstarting with
  | refused => exact h
  | @up l₁ early announced =>
    have hnone : l.bus.loaded = none := (horderly.dormant early).1.loaded
    unfold Serves at h
    rw [early, hnone] at h
    cases announced with
    | spent =>
      have hserving := h.start none
      rw [← hnone] at hserving
      exact hserving
    | armed => exact h.start _
  | failed e early announced =>
    cases announced with
    | failed | turnedAway =>
      unfold Serves at h
      rw [early] at h
      exact h

/-- A frame that is accepted joins the end of its queue. -/
theorem serves_submission {f : Header} {payload : Bytes} {r : Except LinkError Unit}
    (h : l.Serves first due handed) (hsubmission : l.Submission f payload (r, l')) :
    l'.Serves first due handed := by
  cases hsubmission with
  | @queued b rest n out mux _ _ written room =>
    obtain ⟨tx, hpush, rfl⟩ := Option.map_eq_some_iff.mp room
    have hget := PriorityQueues.get_push? hpush .control
    unfold Serves
    show Serving first due handed l.phase l.bus.loaded (waiting tx .control)
    rw [waiting, hget]
    split
    · next hp =>
      rw [← hp, List.map_append]
      exact h.accept _
    · exact h
  | refused => exact h

def Carries (c : FrameConfig) (f : Frame) (bs : Bytes) : Prop :=
  ∃ g, Frame.decode c bs = .ok g ∧ g.carried = f.carried

/-- A control frame that is accepted on an open link is the last in the control queue. -/
theorem queued_of_submission {f : Frame} (hword : l.config.frame.bufferSize ≤ 65535)
    (hcontrol : f.interface.priority = .control)
    (hsubmission : l.Submission f.header f.payload (.ok (), l')) :
    l.isOpen = true ∧ l'.phase = l.phase ∧ l'.bus = l.bus ∧ ∃ bs, Carries l.config.frame f bs ∧
      waiting l'.mux.tx .control = waiting l.mux.tx .control ++ [bs] := by
  cases hsubmission with
  | @queued b rest n out mux isOpen free written room =>
    obtain ⟨tx, hpush, rfl⟩ := Option.map_eq_some_iff.mp room
    have hpriority : Outgoing.priority ⟨{ b with bytes := out }, f.header.interface⟩ = .control :=
      hcontrol
    rw [hpriority] at hpush
    have hget := PriorityQueues.get_push? hpush .control
    rw [if_pos rfl] at hget
    refine ⟨isOpen, rfl, rfl, out, ⟨_, decode_of_encodeFrame_ok hword written,
      carried_ofHeader f l.flow.throttle⟩, ?_⟩
    show waiting tx .control = _
    rw [waiting, hget, List.map_append]
    rfl

end Link
end SlaveLink
