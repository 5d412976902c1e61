import SlaveLink.Bus.Bench

/-! # Loads and their announcement
A transaction becomes loaded when it is handed to an idle bus, or when the one before it is clocked.
The slave is told of it in the same step, unless the clocked transaction is lost because the
completion list is full: then the next one is loaded in silence. -/

namespace SlaveLink

namespace Bus

variable {b b' : Bus} {t : Transaction} {events : List BusEvent} {data : Bytes}
  {fault : Option String} {transfer : Transfer}

def becameLoaded (b b' : Bus) : Bool :=
  b'.loaded.isSome && (b.loaded.isNone || decide (b.clocked < b'.clocked))

/-- Between two states of a bus a transaction was clocked for which the completion list had no
room, with another one queued behind it. -/
def overran (b b' : Bus) : Bool :=
  decide (b.clocked < b'.clocked) && decide (b.queueSize ≤ b.completed.length) &&
    !b.queued.isEmpty

/-- The slave is told of every load, but one behind a lost transaction. -/
def Announces (b : Bus) (events : List BusEvent) (b' : Bus) : Prop :=
  events.count .ready + (overran b b').toNat = (becameLoaded b b').toNat

theorem announces_of_kept (hloaded : b'.loaded = b.loaded) (hclocked : b'.clocked = b.clocked) :
    Announces b [] b' := by
  cases h : b.loaded <;> simp [Announces, overran, becameLoaded, hloaded, hclocked, h]

theorem announces_submit? (h : b.submit? t = some (events, b')) : Announces b events b' := by
  obtain ⟨_, ⟨hnone, rfl, rfl⟩ | ⟨_, rfl, rfl⟩⟩ := submit?_eq_some h
  · simp [Announces, overran, becameLoaded, hnone]
  · exact announces_of_kept rfl rfl

theorem announces_clock? (h : b.clock? data fault = some transfer) :
    Announces b transfer.events transfer.bus := by
  unfold clock? at h
  split at h
  · cases h
  · dsimp only at h
    split at h
    · next hfull =>
      rw [← Option.some.inj h]
      cases hqueued : b.queued <;> simp [Announces, overran, becameLoaded, hfull, hqueued]
    · next hroom =>
      rw [← Option.some.inj h]
      cases hqueued : b.queued <;> simp [Announces, overran, becameLoaded, hroom, hqueued]

theorem announces_collect? (h : b.collect? = some (t, b')) : Announces b [] b' := by
  unfold collect? at h
  split at h
  · cases h
  · simp only [Option.some.injEq, Prod.mk.injEq] at h
    obtain ⟨_, rfl⟩ := h
    exact announces_of_kept rfl rfl

theorem announces_cancel (b : Bus) : Announces b [] b.cancel.2 := by
  simp [Announces, overran, becameLoaded, cancel]

end Bus

namespace BusBench

variable {b : BusBench}

def isAnnouncement : Log → Bool
  | .bus _ .ready => true
  | _ => false

def announcements (log : List Log) : Nat := log.countP isAnnouncement

theorem announcements_append (xs ys : List Log) :
    announcements (xs ++ ys) = announcements xs + announcements ys :=
  List.countP_append

theorem announcements_logBus (h : b.recorder.isSome) (events : List BusEvent) :
    announcements (b.logBus events) = events.count .ready := by
  obtain ⟨id, hid⟩ := Option.isSome_iff_exists.mp h
  rw [announcements, logBus, hid, List.countP_map, List.count]
  congr 1
  funext event
  cases event <;> rfl

theorem announcements_chipSelect (level : Level) (b : BusBench) :
    announcements (b.chipSelect level).1 = 0 := by
  rw [announcements, List.countP_eq_zero]
  intro entry hentry
  obtain ⟨id, _, rfl⟩ := List.mem_map.mp hentry
  exact Bool.false_ne_true

def Announced (b : BusBench) (out : Outcome) : Prop :=
  announcements out.2.1 + (b.bus.overran out.2.2.bus).toNat =
    (b.bus.becameLoaded out.2.2.bus).toNat

/-- A step that leaves the bus alone and tells the slave nothing. -/
theorem announced_aside {out : Outcome} (hbus : out.2.2.bus = b.bus)
    (hsilent : announcements out.2.1 = 0) : Announced b out := by
  have hkept : b.bus.Announces [] out.2.2.bus := Bus.announces_of_kept (by rw [hbus]) (by rw [hbus])
  rw [Announced, hsilent]
  exact hkept

theorem announced_queue (h : b.recorder.isSome) (data : Bytes) (length : Option Nat)
    (zero bare : Bool) : Announced b (b.queue data length zero bare) := by
  unfold queue
  split
  · exact announced_aside rfl rfl
  · split
    · exact announced_aside rfl rfl
    · next events bus submit =>
      rw [Announced, announcements_logBus h]
      exact Bus.announces_submit? submit

theorem announced_clock (h : b.recorder.isSome) (data : Bytes) (fault : Option String) :
    Announced b (b.clock data fault) := by
  unfold clock
  split
  · exact announced_aside rfl rfl
  · next transfer clock =>
    have hannounces := Bus.announces_clock? clock
    dsimp only
    split
    all_goals
      rw [Announced, announcements_logBus h]
      exact hannounces

/-- The edges of chip-select around a transfer tell the slave nothing about the bus. -/
theorem announced_exchange (h : b.recorder.isSome) (data : Bytes) (limit : Duration)
    (fault : Option String) : Announced b (b.exchange data limit fault) := by
  unfold exchange
  split
  · exact announced_aside rfl rfl
  · have hclock : Announced (b.chipSelect .low).2 ((b.chipSelect .low).2.clock data fault) :=
      announced_clock (b := (b.chipSelect .low).2) h data fault
    rw [Announced] at hclock ⊢
    simp only [announcements_append, announcements_chipSelect]
    rw [Nat.zero_add, Nat.add_zero]
    exact hclock

theorem announced_step (h : b.recorder.isSome) (step : Step) : Announced b (b.step step) := by
  cases step with
  | setEvents id => exact announced_aside rfl rfl
  | watch line edge id =>
    unfold BusBench.step
    dsimp only
    split <;> exact announced_aside rfl rfl
  | queue data length zero bare => exact announced_queue h data length zero bare
  | clock data => exact announced_clock h data none
  | exchange data limit fault => exact announced_exchange h data limit fault
  | collect limit =>
    unfold BusBench.step
    dsimp only
    split
    · exact announced_aside rfl rfl
    · next collect => exact Bus.announces_collect? collect
  | cancel => exact Bus.announces_cancel b.bus
  | select => exact announced_aside rfl (announcements_chipSelect .low b)
  | deselect => exact announced_aside rfl (announcements_chipSelect .high b)
  | set line level => exact announced_aside rfl rfl
  | waitReady limit =>
    unfold BusBench.step
    dsimp only
    split <;> exact announced_aside rfl rfl

theorem recorder_clock (data : Bytes) (fault : Option String) (b : BusBench) :
    (b.clock data fault).2.2.recorder = b.recorder := by
  unfold clock
  split
  · rfl
  · dsimp only
    split <;> rfl

/-- Whoever records, somebody does for good. -/
theorem recorder_step (h : b.recorder.isSome) (step : Step) :
    (b.step step).2.2.recorder.isSome := by
  cases step with
  | setEvents id => rfl
  | clock data => rwa [BusBench.step, recorder_clock]
  | exchange data limit fault =>
    unfold BusBench.step exchange
    dsimp only
    split
    · exact h
    · exact (congrArg Option.isSome (recorder_clock data fault (b.chipSelect .low).2)).trans h
  | queue data length zero bare =>
    unfold BusBench.step queue
    dsimp only
    split
    · exact h
    · split <;> exact h
  | watch | collect | waitReady =>
    unfold BusBench.step
    dsimp only
    split <;> exact h
  | cancel | select | deselect | set => exact h

def tally (f : Bus → Bus → Bool) (b : BusBench) : List Step → Nat
  | [] => 0
  | step :: steps =>
    (f b.bus (b.step step).2.2.bus).toNat + (b.step step).2.2.tally f steps

theorem tally_eq_zero_iff (f : Bus → Bus → Bool) (b : BusBench) (steps : List Step) :
    b.tally f steps = 0 ↔ ∀ before step after, steps = before ++ step :: after →
      f (b.run before).2.bus ((b.run before).2.step step).2.2.bus = false := by
  induction steps generalizing b with
  | nil => simp [tally]
  | cons first steps ih =>
    rw [tally, Nat.add_eq_zero_iff, Bool.toNat_eq_zero, ih]
    constructor
    · rintro ⟨hfirst, hrest⟩ before step after hsplit
      cases before with
      | nil =>
        obtain ⟨rfl, _⟩ := List.cons.inj hsplit
        exact hfirst
      | cons _ before =>
        obtain ⟨rfl, htail⟩ := List.cons.inj hsplit
        exact hrest before step after htail
    · intro h
      refine ⟨h [] first steps rfl, ?_⟩
      intro before step after hsplit
      exact h (first :: before) step after (by rw [hsplit]; rfl)

theorem announced_run (h : b.recorder.isSome) (steps : List Step) :
    announcements (b.run steps).1 + b.tally Bus.overran steps = b.tally Bus.becameLoaded steps := by
  induction steps generalizing b with
  | nil => rfl
  | cons step steps ih =>
    have hstep : announcements (b.step step).2.1 + _ = _ := announced_step h step
    have hrest := ih (recorder_step h step)
    have hlog : (b.run (step :: steps)).1 =
        (b.step step).2.1 ++ ((b.step step).2.2.run steps).1 := rfl
    rw [hlog, announcements_append, tally, tally]
    omega

def recorded (memory : Memory) (queueSize id : Nat) (host : HostLevels) : BusBench :=
  { memory, bus := .ofQueueSize queueSize, host, recorder := some id }

/-- The slave is told as often as a transaction becomes loaded, exactly if no transfer was lost in
front of a queued transaction; each such transfer costs one announcement. -/
theorem announced_iff (memory : Memory) (queueSize id : Nat) (host : HostLevels)
    (steps : List Step) :
    announcements ((recorded memory queueSize id host).run steps).1 +
        (recorded memory queueSize id host).tally Bus.overran steps =
      (recorded memory queueSize id host).tally Bus.becameLoaded steps ∧
    (announcements ((recorded memory queueSize id host).run steps).1 =
        (recorded memory queueSize id host).tally Bus.becameLoaded steps ↔
      ∀ before step after, steps = before ++ step :: after →
        Bus.overran ((recorded memory queueSize id host).run before).2.bus
          (((recorded memory queueSize id host).run before).2.step step).2.2.bus = false) := by
  have htold := announced_run (b := recorded memory queueSize id host) rfl steps
  refine ⟨htold, ?_⟩
  rw [← tally_eq_zero_iff]
  omega

/-- Two transfers fill the completion list; the third is lost, and the transaction behind it is
loaded without a word. -/
theorem full_list_loads_silently :
    ∃ wire transactions, Memory.createWire "wire" 16 8 Heap.maxRequest = .ok wire ∧
      Memory.createTransactions "transaction" 8 Heap.maxRequest = .ok transactions ∧
      let b := recorded ⟨wire, transactions⟩ 2 1 {}
      let steps : List Step := [.queue [1] none false false, .queue [2] none false false,
        .clock [], .clock [], .queue [3] none false false, .queue [4] none false false, .clock []]
      (b.run steps).2.bus.loaded.isSome ∧ announcements (b.run steps).1 = 3 ∧
        b.tally Bus.becameLoaded steps = 4 :=
  ⟨_, _, rfl, rfl, by decide +kernel⟩

end BusBench
end SlaveLink
