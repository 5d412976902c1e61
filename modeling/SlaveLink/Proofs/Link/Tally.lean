import SlaveLink.Proofs.Link.Inbound
import SlaveLink.Proofs.Link.Legible
import SlaveLink.Proofs.Link.Ownership

/-! # What finishing a transfer counts
A transfer that failed at the driver is counted once, as a failure of the bus. Any other is counted
once for the block that went out and once for the block that came in, and besides if the host spoke
of power saving; flow control has counters of its own. Each figure of the statistics is a count of
transfers, and what arming and the application count leaves them alone. -/

namespace SlaveLink

namespace Counter

def isSent : Counter → Bool
  | .frameSent _ | .dummySent => true
  | _ => false

def isReceived : Counter → Bool
  | .frameReceived _ => true
  | _ => false

def isTaken : Counter → Bool
  | .frameReceived _ | .dummyReceived | .dropped _ => true
  | _ => false

end Counter

namespace Stats

variable {p : Counter → Bool} {value : Stats → Nat}

def sent (s : Stats) : Nat := s.tx.total + s.txDummy

def taken (s : Stats) : Nat :=
  s.rx.total + s.rxDummy + s.droppedChecksum + s.droppedMalformed + s.droppedOverrun

def bumpAll (cs : List Counter) (s : Stats) : Stats := cs.foldl (fun s c => s.bump c) s

theorem bumpAll_append (cs ds : List Counter) (s : Stats) :
    s.bumpAll (cs ++ ds) = (s.bumpAll cs).bumpAll ds :=
  List.foldl_append

/-- A figure counts how often one of some counters was bumped. -/
def Counts (p : Counter → Bool) (value : Stats → Nat) : Prop :=
  ∀ c s, value (s.bump c) = value s + if p c then 1 else 0

theorem Counts.bumpAll (h : Counts p value) (cs : List Counter) (s : Stats) :
    value (s.bumpAll cs) = value s + cs.countP p := by
  induction cs generalizing s with
  | nil => rfl
  | cons c cs ih =>
    have hrest := ih (s.bump c)
    rw [h c s] at hrest
    rw [List.countP_cons]
    simp only [Stats.bumpAll, List.foldl_cons] at hrest ⊢
    omega

theorem total_bumped (v : PerPriority Nat) (p : Priority) :
    (v.set p (v.get p + 1)).total = v.total + 1 := by
  cases p <;> simp only [PerPriority.total, PerPriority.set, PerPriority.get] <;> omega

theorem counts_sent : Counts Counter.isSent sent := by
  intro c s
  cases c with
  | frameSent p => simp [sent, bump, Counter.isSent, total_bumped]; omega
  | dropped why => cases why <;> rfl
  | throttleChanged on => cases on <;> rfl
  | _ => rfl

theorem counts_taken : Counts Counter.isTaken taken := by
  intro c s
  cases c with
  | frameReceived p => simp [taken, bump, Counter.isTaken, total_bumped]; omega
  | dropped why => cases why <;> simp [taken, bump, Counter.isTaken] <;> omega
  | throttleChanged on => cases on <;> rfl
  | dummyReceived => simp [taken, bump, Counter.isTaken]; omega
  | _ => rfl

theorem counts_received : Counts Counter.isReceived (·.rx.total) := by
  intro c s
  cases c with
  | frameReceived p => exact total_bumped s.rx p
  | dropped why => cases why <;> rfl
  | throttleChanged on => cases on <;> rfl
  | _ => rfl

theorem counts_frames (p : Priority) : Counts (· == .frameSent p) (·.tx.get p) := by
  intro c s
  cases c with
  | frameSent q =>
    by_cases hq : p = q
    · subst hq
      simp [bump]
    · simp [bump, PerPriority.get_set_of_ne _ _ hq, Ne.symm hq]
  | dropped why => cases why <;> rfl
  | throttleChanged on => cases on <;> rfl
  | _ => rfl

theorem counts_dummies : Counts (· == .dummySent) txDummy := by
  intro c s
  cases c with
  | dropped why => cases why <;> rfl
  | throttleChanged on => cases on <;> rfl
  | _ => rfl

theorem counts_failures : Counts (· == .busFailure) busFailures := by
  intro c s
  cases c with
  | dropped why => cases why <;> rfl
  | throttleChanged on => cases on <;> rfl
  | _ => rfl

theorem counts_powerSave : Counts (· == .powerSaveEvent) powerSaveEvents := by
  intro c s
  cases c with
  | dropped why => cases why <;> rfl
  | throttleChanged on => cases on <;> rfl
  | _ => rfl

end Stats

namespace Transaction

def isFaulted (t : Transaction) : Bool := t.fault.isSome

def sentFrame (c : FrameConfig) (p : Priority) (t : Transaction) : Bool :=
  !t.isFaulted && c.priorityIn? t.outgoing == some p

def sentDummy (c : FrameConfig) (t : Transaction) : Bool :=
  !t.isFaulted && c.readsDummy t.outgoing

def tellsPowerSave (t : Transaction) : Bool :=
  !t.isFaulted && t.rx.any fun b =>
    (peekFlags b.bytes).contains .powerSaveStarted || (peekFlags b.bytes).contains .powerSaveStopped

end Transaction

namespace Link

variable {l l' : Link} {t : Transaction} {tx rx : Block} {c : FrameConfig} {cs : List Counter}

/-- How a received block is counted, beside what it may become in the queues. -/
inductive Verdict (l l' : Link) : Counter → Prop
  | queued (p : Priority) (grown : l'.mux.rx.total = l.mux.rx.total + 1) :
      Verdict l l' (.frameReceived p)
  | dummy (same : l'.mux.rx = l.mux.rx) : Verdict l l' .dummyReceived
  | dropped (why : DropReason) (same : l'.mux.rx = l.mux.rx) : Verdict l l' (.dropped why)

theorem received_of_verdict {verdict : Counter} (h : Verdict l l' verdict) :
    l'.mux.rx.total = l.mux.rx.total + if verdict.isReceived then 1 else 0 := by
  cases h with
  | queued p grown => exact grown
  | dummy same | dropped _ same => exact congrArg PriorityQueues.total same

theorem isReceived_transmission (tx : Block) : (transmission tx).isReceived = false := by
  unfold transmission
  split
  · split <;> rfl
  · rfl

def told (bytes : Bytes) : List Counter :=
  if (powerSave? (peekFlags bytes)).isSome then [.powerSaveEvent] else []

def IsFlow (cs : List Counter) : Prop :=
  cs ∈ [[], [.throttleChanged true], [.throttleChanged false]]

theorem bumped_updateFlow (l : Link) : ∃ cs, IsFlow cs ∧
    l.updateFlow.stats = l.stats.bumpAll cs ∧ l.updateFlow.mux = l.mux := by
  obtain ⟨flow, stats, heq, hstats⟩ := updateFlow_eq l
  rw [heq]
  simp only [List.mem_cons, List.not_mem_nil, or_false] at hstats
  rcases hstats with rfl | rfl | rfl
  · exact ⟨[], by simp [IsFlow], rfl, rfl⟩
  · exact ⟨[.throttleChanged true], by simp [IsFlow], rfl, rfl⟩
  · exact ⟨[.throttleChanged false], by simp [IsFlow], rfl, rfl⟩

theorem bumped_heard (bytes : Bytes) (l : Link) :
    (l.heard bytes).stats = l.stats.bumpAll (told bytes) ∧ (l.heard bytes).mux = l.mux := by
  unfold heard told
  cases powerSave? (peekFlags bytes) <;> exact ⟨rfl, rfl⟩

theorem verdict_of_rejection (e : FrameError) (h : l'.mux.rx = l.mux.rx) :
    Verdict l l' (rejection e) := by
  cases e with
  | dummyFrame => exact .dummy h
  | _ => exact .dropped _ h

/-- A received block is counted once, beside what it tells of power saving. -/
theorem bumped_process (b : Block) (l : Link) : ∃ verdict flow, Verdict l (l.process b) verdict ∧
    IsFlow flow ∧ (l.process b).stats = l.stats.bumpAll (told b.bytes ++ verdict :: flow) := by
  obtain ⟨hstats, hmux⟩ := bumped_heard b.bytes l
  have hbumped (s : Stats) (c : Counter) (flow : List Counter)
      (hs : s = l.stats.bumpAll (told b.bytes)) :
      (s.bump c).bumpAll flow = l.stats.bumpAll (told b.bytes ++ c :: flow) := by
    rw [hs]
    exact (Stats.bumpAll_append (told b.bytes) (c :: flow) l.stats).symm
  cases hdecode : decodeHeader l.config.frame b.bytes with
  | error e =>
    rw [process_of_rejected hdecode]
    refine ⟨_, [], verdict_of_rejection e (congrArg Multiplexer.rx hmux), by simp [IsFlow], ?_⟩
    exact hbumped _ (rejection e) [] hstats
  | ok h =>
    rw [process_of_frame hdecode]
    cases hdeliver : (l.heard b.bytes).mux.deliver? ⟨h, b⟩ with
    | some mux =>
      rw [deliver_of_room hdeliver]
      obtain ⟨flow, hflow, hbump, hsame⟩ := bumped_updateFlow
        ({ l.heard b.bytes with mux }.count (.frameReceived (Incoming.priority ⟨h, b⟩)))
      obtain ⟨q, hpush, rfl⟩ := deliver?_eq_some hdeliver
      refine ⟨_, flow, .queued _ ?_, hflow,
        hbump.trans (hbumped _ (.frameReceived (Incoming.priority ⟨h, b⟩)) flow hstats)⟩
      rw [hsame, ← hmux]
      exact PriorityQueues.total_push? hpush
    | none =>
      rw [deliver_of_full hdeliver]
      obtain ⟨flow, hflow, hbump, hsame⟩ := bumped_updateFlow
        (((l.heard b.bytes).giveBack [b]).count (.dropped .overrun))
      refine ⟨_, flow, .dropped .overrun ?_, hflow,
        hbump.trans (hbumped _ (.dropped .overrun) flow hstats)⟩
      rw [hsame]
      exact congrArg Multiplexer.rx hmux

theorem isSome_powerSave? (flags : Flags) : (powerSave? flags).isSome =
    (flags.contains .powerSaveStarted || flags.contains .powerSaveStopped) := by
  unfold powerSave?
  cases flags.contains .powerSaveStarted <;> cases flags.contains .powerSaveStopped <;> rfl

theorem countP_flow {p : Counter → Bool} (hflow : IsFlow cs)
    (hp : ∀ on, p (.throttleChanged on) = false) : cs.countP p = 0 := by
  simp only [IsFlow, List.mem_cons, List.not_mem_nil, or_false] at hflow
  rcases hflow with rfl | rfl | rfl <;> simp [hp]

theorem countP_told (p : Counter → Bool) (bytes : Bytes) : (told bytes).countP p =
    if (powerSave? (peekFlags bytes)).isSome && p .powerSaveEvent then 1 else 0 := by
  unfold told
  cases (powerSave? (peekFlags bytes)).isSome <;> simp [List.countP_cons]

/-- What is counted for a transfer that succeeded. -/
theorem countP_success {p : Counter → Bool} {sent verdict : Counter} {flow : List Counter}
    (bytes : Bytes) (hflow : IsFlow flow) (hp : ∀ on, p (.throttleChanged on) = false) :
    (sent :: (told bytes ++ verdict :: flow)).countP p =
      (if p sent then 1 else 0) + (if p verdict then 1 else 0) +
        if (powerSave? (peekFlags bytes)).isSome && p .powerSaveEvent then 1 else 0 := by
  rw [List.countP_cons, List.countP_append, List.countP_cons, countP_flow hflow hp, countP_told]
  omega

/-- The counters bumped for a transfer tell of it what the host knows. -/
structure Booked (c : FrameConfig) (t : Transaction) (cs : List Counter) : Prop where
  failure : cs.countP (· == .busFailure) = [t].countP (·.isFaulted)
  sent : cs.countP Counter.isSent = [t].countP (!·.isFaulted)
  taken : cs.countP Counter.isTaken = [t].countP (!·.isFaulted)
  frame : ∀ p, cs.countP (· == .frameSent p) = [t].countP (·.sentFrame c p)
  dummy : cs.countP (· == .dummySent) = [t].countP (·.sentDummy c)
  powerSave : cs.countP (· == .powerSaveEvent) = [t].countP (·.tellsPowerSave)

theorem booked_of_fault {reason : String} (hfault : t.fault = some reason) :
    Booked c t [.busFailure] := by
  have hfaulted : t.isFaulted = true := by rw [Transaction.isFaulted, hfault]; rfl
  constructor <;> simp [hfaulted, Transaction.sentFrame, Transaction.sentDummy,
    Transaction.tellsPowerSave, Counter.isSent, Counter.isTaken]

/-- What is counted as sent is what the host reads. -/
theorem transmission_beq_frameSent (hclean : t.isFaulted = false) (hout : t.outgoing = tx.bytes)
    (hreads : c.Reads tx.bytes) (p : Priority) :
    (transmission tx == .frameSent p) = t.sentFrame c p := by
  rw [Transaction.sentFrame, hclean, hout]
  rcases hreads with hdummy | ⟨h, hok⟩
  · rw [transmission_of_dummy hdummy, FrameConfig.priorityIn?_of_error hdummy]
    rfl
  · rw [transmission_of_frame hok, FrameConfig.priorityIn?_of_ok hok, Bool.eq_iff_iff]
    simp

theorem transmission_beq_dummySent (hclean : t.isFaulted = false) (hout : t.outgoing = tx.bytes)
    (hreads : c.Reads tx.bytes) : (transmission tx == .dummySent) = t.sentDummy c := by
  rw [Transaction.sentDummy, hclean, hout]
  rcases hreads with hdummy | ⟨h, hok⟩
  · rw [transmission_of_dummy hdummy, FrameConfig.readsDummy_of_dummy hdummy]
    rfl
  · rw [transmission_of_frame hok, FrameConfig.readsDummy_of_ok hok]
    rfl

theorem transmission_of_reads (hreads : c.Reads tx.bytes) :
    transmission tx = .dummySent ∨ ∃ p, transmission tx = .frameSent p := by
  rcases hreads with hdummy | ⟨h, hok⟩
  · exact .inl (transmission_of_dummy hdummy)
  · exact .inr ⟨_, transmission_of_frame hok⟩

theorem booked_of_success {verdict : Counter} {flow : List Counter} (hfault : t.fault = none)
    (hrx : t.rx = some rx) (hout : t.outgoing = tx.bytes) (hreads : c.Reads tx.bytes)
    (hverdict : Verdict l l' verdict) (hflow : IsFlow flow) :
    Booked c t (transmission tx :: (told rx.bytes ++ verdict :: flow)) := by
  have hclean : t.isFaulted = false := by rw [Transaction.isFaulted, hfault]; rfl
  have hsent := transmission_of_reads hreads
  have htold : (powerSave? (peekFlags rx.bytes)).isSome = t.tellsPowerSave := by
    simp [Transaction.tellsPowerSave, hclean, hrx, isSome_powerSave?]
  have hcount (p : Counter → Bool) (hp : ∀ on, p (.throttleChanged on) = false) :
      (transmission tx :: (told rx.bytes ++ verdict :: flow)).countP p = _ :=
    countP_success rx.bytes hflow hp
  refine ⟨?_, ?_, ?_, ?_, ?_, ?_⟩
  · rw [hcount _ (by simp)]
    obtain hq | ⟨q, hq⟩ := hsent <;> cases hverdict <;> simp [hq, hclean]
  · rw [hcount _ (by simp [Counter.isSent])]
    obtain hq | ⟨q, hq⟩ := hsent <;> cases hverdict <;> simp [hq, hclean, Counter.isSent]
  · rw [hcount _ (by simp [Counter.isTaken])]
    obtain hq | ⟨q, hq⟩ := hsent <;> cases hverdict <;> simp [hq, hclean, Counter.isTaken]
  · intro p
    rw [hcount _ (by simp), transmission_beq_frameSent hclean hout hreads, List.countP_singleton]
    cases hverdict <;> simp
  · rw [hcount _ (by simp), transmission_beq_dummySent hclean hout hreads, List.countP_singleton]
    cases hverdict <;> simp
  · rw [hcount _ (by simp), htold, List.countP_singleton]
    obtain hq | ⟨q, hq⟩ := hsent <;> cases hverdict <;> simp [hq]

/-- Finishing a transfer books it, and queues a frame exactly if it counts one as received. -/
theorem booked_finish (htx : t.tx = some tx) (hrx : t.rx = some rx)
    (hout : t.outgoing = tx.bytes) (hreads : c.Reads tx.bytes) (l : Link) :
    ∃ cs, Booked c t cs ∧ (l.finish t).stats = l.stats.bumpAll cs ∧
      (l.finish t).mux.rx.total = l.mux.rx.total + cs.countP Counter.isReceived := by
  cases hfault : t.fault with
  | some reason =>
    rw [finish_of_fault hfault]
    exact ⟨[.busFailure], booked_of_fault hfault, rfl, rfl⟩
  | none =>
    rw [finish_of_success hfault htx hrx]
    obtain ⟨verdict, flow, hverdict, hflow, hstats⟩ := bumped_process rx
      ((l.count (transmission tx)).giveBackTransaction { t with rx := none })
    refine ⟨_, booked_of_success hfault hrx hout hreads hverdict hflow, hstats, ?_⟩
    rw [countP_success rx.bytes hflow (by simp [Counter.isReceived])]
    have hgrown := received_of_verdict hverdict
    change _ = l.mux.rx.total + _ at hgrown
    have hnone : Counter.isReceived .powerSaveEvent = false := rfl
    simpa [isReceived_transmission, hnone] using hgrown

/-- Every figure that the statistics give of the transfers that were finished, and of the arms that
the driver turned down. -/
structure Books (c : FrameConfig) (finished : List Transaction) (refused received waiting : Nat)
    (s : Stats) : Prop where
  failures : s.busFailures = finished.countP (·.isFaulted) + refused
  sent : s.sent = finished.countP (!·.isFaulted)
  taken : s.taken = finished.countP (!·.isFaulted)
  frames : ∀ p, s.tx.get p = finished.countP (·.sentFrame c p)
  dummies : s.txDummy = finished.countP (·.sentDummy c)
  received : s.rx.total = received + waiting
  powerSave : s.powerSaveEvents = finished.countP (·.tellsPowerSave)

variable {finished : List Transaction} {refused received waiting : Nat} {s : Stats}

theorem books_empty (c : FrameConfig) : Books c [] 0 0 0 {} :=
  ⟨rfl, rfl, rfl, fun p => by cases p <;> rfl, rfl, rfl, rfl⟩

theorem Books.finish (h : Books c finished refused received waiting s) (hbooked : Booked c t cs) :
    Books c (finished ++ [t]) refused received (waiting + cs.countP Counter.isReceived)
      (s.bumpAll cs) where
  failures := by
    rw [Stats.counts_failures.bumpAll, h.failures, hbooked.failure, List.countP_append]
    omega
  sent := by rw [Stats.counts_sent.bumpAll, h.sent, hbooked.sent, List.countP_append]
  taken := by rw [Stats.counts_taken.bumpAll, h.taken, hbooked.taken, List.countP_append]
  frames p := by
    rw [(Stats.counts_frames p).bumpAll, h.frames p, hbooked.frame p, List.countP_append]
  dummies := by rw [Stats.counts_dummies.bumpAll, h.dummies, hbooked.dummy, List.countP_append]
  received := by rw [Stats.counts_received.bumpAll, h.received, Nat.add_assoc]
  powerSave := by
    rw [Stats.counts_powerSave.bumpAll, h.powerSave, hbooked.powerSave, List.countP_append]

/-- No figure is taken of shortages, of full queues and of flow control. -/
theorem Books.aside {s' : Stats} (h : Books c finished refused received waiting s)
    (hs : s' ∈ [s, s.bump .poolExhausted, s.bump .txQueueFull, s.bump (.throttleChanged true),
      s.bump (.throttleChanged false)]) : Books c finished refused received waiting s' := by
  obtain ⟨hfailures, hsent, htaken, hframes, hdummies, hreceived, hpowerSave⟩ := h
  simp only [List.mem_cons, List.not_mem_nil, or_false] at hs
  rcases hs with rfl | rfl | rfl | rfl | rfl <;>
    exact ⟨hfailures, hsent, htaken, hframes, hdummies, hreceived, hpowerSave⟩

theorem Books.refuse (h : Books c finished refused received waiting s) :
    Books c finished (refused + 1) received waiting (s.bump .busFailure) :=
  ⟨congrArg (· + 1) h.failures, h.sent, h.taken, h.frames, h.dummies, h.received, h.powerSave⟩

/-- The application is given a frame that waits. -/
theorem Books.receive (h : Books c finished refused received (waiting + 1) s) :
    Books c finished refused (received + 1) waiting s :=
  { h with received := by rw [h.received]; omega }

end Link
end SlaveLink
