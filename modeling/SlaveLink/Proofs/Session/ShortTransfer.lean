import SlaveLink.Proofs.Link.Inbound
import SlaveLink.Proofs.Session.InFlight
import SlaveLink.Proofs.Session.Twins

/-! # Transfers that end early
A block that is filled in part keeps the rest of what it held, and no block is cleared before it is
filled. What the slave makes of a short transfer depends on the host's bytes alone if they reach as
far as the block is read. -/

namespace SlaveLink

open Link

namespace Session

variable {s m : Session} {c : LinkConfig} {host : HostLevels} {step : Step} {r : Reply}
  {data bytes : Bytes} {t : Transaction} {b : Block}

def Step.withData (data : Bytes) : Step → Step
  | .exchange _ limit fault hold => .exchange data limit fault hold
  | .clock _ hold => .clock data hold
  | step => step

theorem Step.withData_self {fault : Option String} (h : step.clocks? = some (data, fault)) :
    step.withData data = step := by
  cases step <;> simp_all [clocks?, withData]

def clocked (t : Transaction) (fault : Option String) (signals : Signals) (withheld : Bool)
    (data : Bytes) (s : Session) : Session :=
  { s with link := clocking (t.clocked data fault) signals s.link, withheld }

theorem steady_clocked {signals : Signals} {withheld : Bool} (h : s.link.Steady [])
    (hloaded : s.link.bus.loaded = some t) (fault : Option String) (data : Bytes) :
    (s.clocked t fault signals withheld data).link.Steady [] :=
  Traffic.Steady.clock h hloaded (shaped_clocked (shaped_loaded h hloaded) data fault)

theorem act_of_read {fault : Option String} {read : Bytes} (h : s.link.Steady [])
    (hclocks : step.clocks? = some (data, fault)) (hread : (s.act step).1 = .read read) :
    ∃ t signals withheld, s.link.bus.loaded = some t ∧ ∀ data, s.act (step.withData data) =
      (.read t.outgoing, s.clocked t fault signals withheld data) := by
  cases step with
  | clock data' hold =>
    simp only [Step.clocks?, Option.some.injEq, Prod.mk.injEq] at hclocks
    obtain ⟨rfl, rfl⟩ := hclocks
    cases hloaded : s.link.bus.loaded with
    | none => simp [act, clock_of_unloaded data' none hloaded, transferred] at hread
    | some t =>
      refine ⟨t, s.link.signals.onBusAll [.done], s.withheld || hold, rfl, fun data => ?_⟩
      simp only [Step.withData, act, clock_of_loaded h data none hloaded]
      rfl
  | exchange data' limit fault' hold =>
    simp only [Step.clocks?, Option.some.injEq, Prod.mk.injEq] at hclocks
    obtain ⟨rfl, rfl⟩ := hclocks
    have hselected : (s.onSignals Signals.select).link.Steady [] := h
    cases hready : s.host.waitReady limit s.lines with
    | error e => simp [act, exchange, hready, transferred] at hread
    | ok _ =>
      cases hloaded : s.link.bus.loaded with
      | none =>
        simp [act, exchange_of_unloaded data' limit fault' hloaded, hready, transferred] at hread
      | some t =>
        refine ⟨t, (s.link.signals.select.onBusAll [.done]).deselect, s.withheld || hold, rfl,
          fun data => ?_⟩
        simp only [Step.withData, act, exchange, hready,
          clock_of_loaded hselected data fault' hloaded]
        rfl
  | _ => simp [Step.clocks?] at hclocks

def filled (data : Bytes) (t : Transaction) (b : Block) : Bytes :=
  Bytes.overwrite (data.take t.length) b.bytes

theorem clocked_eq (hrx : t.rx = some b) (data : Bytes) :
    t.clocked data none = { t with rx := some { b with bytes := filled data t b } } := by
  simp [Transaction.clocked, Transaction.receive, hrx, Block.receive, filled]

/-- Clocking other bytes rewrites the block, and nothing else. -/
theorem clocking_rewritten {l : Link} (h : l.Steady []) (hloaded : l.bus.loaded = some t)
    (hrx : t.rx = some b) (data data' : Bytes) (signals : Signals) :
    clocking (t.clocked data' none) signals l =
      (clocking (t.clocked data none) signals l).rewritten (filled data' t b) := by
  have hworker := Worker.rewritten_of_held (h.nothing_unfinished hloaded).1 (filled data' t b)
  have hsame : (clocking (t.clocked data none) signals l).worker.rewritten (filled data' t b) =
      l.worker := hworker
  rw [Link.rewritten, hsame, clocked_eq hrx, clocked_eq hrx]
  rfl

/-- The old end of the block counts as if the host had clocked it. -/
theorem filled_overwrite (hlength : t.length = b.bytes.length) (data : Bytes) :
    filled (Bytes.overwrite data b.bytes) t b = filled data t b := by
  have hwhole : (Bytes.overwrite data b.bytes).take b.bytes.length =
      Bytes.overwrite data b.bytes := List.take_of_length_le (by simp)
  have hdrop : b.bytes.drop (Bytes.overwrite data b.bytes).length = [] :=
    List.drop_of_length_le (by simp)
  have htail : b.bytes.drop (data.take b.bytes.length).length = b.bytes.drop data.length := by
    rw [List.length_take]
    by_cases hshort : data.length ≤ b.bytes.length
    · rw [Nat.min_eq_right hshort]
    · rw [Nat.min_eq_left (by omega), List.drop_length, List.drop_of_length_le (by omega)]
  rw [filled, filled, hlength, hwhole, Bytes.overwrite, hwhole, hdrop, List.append_nil,
    Bytes.overwrite, Bytes.overwrite, List.take_take, Nat.min_self, htail]

theorem loaded_block (h : s.Steady) (hloaded : s.link.bus.loaded = some t) :
    ∃ b, t.rx = some b ∧ t.length = b.bytes.length := by
  obtain ⟨_, ⟨b, hrx⟩, hlength⟩ := shaped_loaded h.traffic hloaded
  have hmem : t ∈ s.link.bus.loaded.toList := by simp [hloaded]
  have hb : b ∈ t.blocks := List.mem_append_right _ (by simp [hrx])
  have hsize := h.sized.transfers t (List.mem_append_left _ hmem) b hb
  exact ⟨b, hrx, hlength.trans hsize.symm⟩

def Filled (bytes : Bytes) (l : Link) : Prop :=
  ∀ t ∈ l.unfinished, ∀ b, t.rx = some b → b.bytes = bytes

theorem filled_clocked {signals : Signals} {withheld : Bool} (h : s.link.Steady [])
    (hloaded : s.link.bus.loaded = some t) (hrx : t.rx = some b) (data : Bytes) :
    Filled (filled data t b) (s.clocked t none signals withheld data).link := by
  intro u hu x hx
  have hone := unfinished_clocking h hloaded (t.clocked data none) signals
  rw [show (s.clocked t none signals withheld data).link.unfinished = _ from hone] at hu
  rw [List.mem_singleton.mp hu, clocked_eq hrx, Option.some.injEq] at hx
  rw [← hx]

/-- A received frame that waits in the second link waited in the first, or is read from these
bytes. -/
def Gains (bytes : Bytes) (l l' : Link) : Prop :=
  ∀ p, ∀ i ∈ l'.mux.rx.get p, i ∈ l.mux.rx.get p ∨
    i.block.bytes = bytes ∧ decodeHeader l.config.frame bytes = .ok i.header

theorem gains_of_sub {l l' : Link} (h : ∀ p, ∀ i ∈ l'.mux.rx.get p, i ∈ l.mux.rx.get p) :
    Gains bytes l l' := fun p i hi => .inl (h p i hi)

theorem Gains.trans {l₁ l₂ l₃ : Link} (h₁ : Gains bytes l₁ l₂) (hconfig : l₂.config = l₁.config)
    (h₂ : Gains bytes l₂ l₃) : Gains bytes l₁ l₃ := by
  intro p i hi
  rcases h₂ p i hi with hi | hread
  · exact h₁ p i hi
  · rw [hconfig] at hread
    exact .inr hread

theorem gains_acting (h : s.link.Steady []) (hacting : s.Acting step (r, m)) :
    Gains bytes s.link m.link := by
  refine gains_of_sub ?_
  intro p i hi
  cases hacting with
  | aside | stopped | clocked | dropped => exact hi
  | started starting =>
    cases starting with
    | refused => exact hi
    | up _ announced | failed _ _ announced =>
      have hrx := (announcing_frame announced).2.2.2.1
      rw [← show _ = s.link.mux.rx from hrx]
      exact hi
  | submitted _ submission =>
    cases submission with
    | queued _ _ _ room =>
      obtain ⟨_, _, rfl⟩ := Option.map_eq_some_iff.mp room
      exact hi
    | refused => exact hi
  | retried parked pending =>
    obtain ⟨hsteady, hidle⟩ := steady_retry h pending
    simp only [onLink, rx_armNext (hsteady.vacant hidle (Nat.zero_le _))] at hi
    exact hi
  | received due _ kept => exact (PriorityQueues.mem_of_pop? due).2 p i hi

theorem gains_ending (hending : s.Ending step (r, m)) : Gains bytes s.link m.link := by
  refine gains_of_sub ?_
  intro p i hi
  cases hending with
  | closing | left | refusing => exact hi
  | dismantled => cases p <;> cases hi

theorem gains_finish {tx : Block} (htx : t.tx = some tx) (hrx : t.rx = some b) (l : Link) :
    Gains b.bytes l (l.finish t) := by
  intro p i hi
  obtain ⟨rx, dropped, hbrought, hbox⟩ := brought_finish htx hrx l
  rw [hbox.rx] at hi
  cases hbrought with
  | faulted | rejected | overrun => exact .inl hi
  | queued _ decode room =>
    rcases PriorityQueues.mem_of_push? room p hi with hi | rfl
    · exact .inl hi
    · exact .inr ⟨rfl, decode⟩

theorem filled_settle (h : s.link.Steady []) (hfilled : Filled bytes s.link) :
    Filled bytes s.settle.link := by
  intro t ht
  rcases unfinished_settle h with hsame | hnone
  · rw [hsame] at ht
    exact hfilled t ht
  · rw [hnone] at ht
    cases ht

theorem gains_settle (h : s.link.Steady []) (hfilled : Filled bytes s.link) :
    Gains bytes s.link s.settle.link := by
  unfold settle
  split
  · exact gains_of_sub fun _ _ hi => hi
  · simp only [onLink]
    generalize hend : s.link.settle s.withheld = l'
    have hsettling := settling h s.withheld
    rw [hend] at hsettling
    cases hsettling with
    | rest | wait | hold => exact gains_of_sub fun _ _ hi => hi
    | @turn t l hturn =>
      obtain ⟨hsteady, hidle, ⟨tx, htx⟩, ⟨b, hrx⟩, _⟩ := steady_of_turn? h hturn
      obtain ⟨hone, signals, heq⟩ := turn?_eq_some h.unfinished_le_one hturn
      have hvacant := hsteady.vacant hidle (Nat.le_refl _)
      have hb : b.bytes = bytes := hfilled t (by simp [hone]) b hrx
      have hfinished := gains_finish htx hrx l.readied
      have hconfig : l.readied.config = s.link.config := by
        rw [(unmoved_readied hvacant).config, heq]
      have hreadied : Gains b.bytes s.link l.readied := by
        refine gains_of_sub ?_
        intro p i hi
        rw [rx_readied hvacant, heq] at hi
        exact hi
      rw [turnAround_eq, ← hb]
      exact hreadied.trans hconfig hfinished

theorem filled_act (h : s.link.Steady []) (hbusy : s.link.unfinished ≠ [])
    (hfilled : Filled bytes s.link) (step : Step) : Filled bytes (s.act step).2.link := by
  intro t ht
  by_cases hfinal : s.Dismantles step
  · rw [unfinished_of_dismantles hfinal] at ht
    cases ht
  · rw [unfinished_act h hbusy hfinal] at ht
    exact hfilled t ht

theorem gains_step (step : Step) (h : s.Steady) (hbusy : s.link.unfinished ≠ [])
    (hfilled : Filled bytes s.link) : Gains bytes s.link (s.step step).2.link := by
  have hquiet := steady_quiet h
  have hacted : Gains bytes s.quiet.link (s.quiet.act step).2.link := by
    rcases acting_or_ending hquiet.traffic step with hacting | hending
    · exact gains_acting hquiet.traffic hacting
    · exact gains_ending hending
  have hsettled := gains_settle (steady_act step hquiet).traffic
    (filled_act hquiet.traffic hbusy hfilled step)
  exact hacted.trans (config_act step hquiet.traffic) hsettled

theorem filled_step (step : Step) (h : s.Steady) (hbusy : s.link.unfinished ≠ [])
    (hfilled : Filled bytes s.link) : Filled bytes (s.step step).2.link :=
  filled_settle (steady_act step (steady_quiet h)).traffic
    (filled_act (s := s.quiet) h.traffic hbusy hfilled step)

/-- Until the transfer is finished, only frames read from its block join those that wait. -/
theorem gains_run (steps : List Step) : ∀ {s : Session}, s.Steady → Filled bytes s.link →
    s.awaits steps → Gains bytes s.link (s.run steps).2.link := by
  induction steps with
  | nil => exact fun _ _ _ => gains_of_sub fun _ _ hi => hi
  | cons step steps ih =>
    intro s h hfilled hawaits
    obtain ⟨hbusy, hawaits⟩ := hawaits
    have hrest := ih (steady_step step h) (filled_step step h hbusy hfilled) hawaits
    exact (gains_step step h hbusy hfilled).trans (config_step step h) hrest

/-- More bytes than cover the frame bring nothing that the slave looks at. -/
theorem parts_clocked {signals : Signals} {withheld : Bool} (h : s.Steady)
    (hloaded : s.link.bus.loaded = some t) (hrx : t.rx = some b)
    (hcovered : s.link.config.frame.Covered data) (more : Bytes) :
    Parts (filled (data ++ more) t b) (s.clocked t none signals withheld data).settle
      (s.clocked t none signals withheld (data ++ more)).settle := by
  have hsame : s.clocked t none signals withheld (data ++ more) =
      (s.clocked t none signals withheld data).rewritten (filled (data ++ more) t b) :=
    congrArg (fun l => { s with link := l, withheld })
      (clocking_rewritten h.traffic hloaded hrx data (data ++ more) signals)
  rw [hsame]
  refine parts_settle (steady_clocked h.traffic hloaded none data) ⟨rfl, ?_⟩
  intro u hu x hx
  rw [filled_clocked h.traffic hloaded hrx data u hu x hx]
  exact hcovered.agree_overwrite t.length b.bytes more

/-- What the slave makes of a transfer, which it finishes in the last of the steps after it at the
earliest, depends on no more than these bytes of the host. -/
structure DecidedBy (data : Bytes) (step : Step) (after : List Step) (s : Session) : Prop where
  replies : ∀ more, (s.run (step.withData (data ++ more) :: after)).1 = (s.run (step :: after)).1
  alike : ∀ more, (s.run (step :: after)).2.link.Alike
    (s.run (step.withData (data ++ more) :: after)).2.link
  /-- Every frame that came in is made of bytes that the host clocked. -/
  frames : ∀ p, ∀ i ∈ (s.run (step :: after)).2.link.mux.rx.get p, i ∈ s.link.mux.rx.get p ∨
    ∃ h, Header.parse data = .ok h ∧ h.payloadEnd ≤ data.length ∧
      i.toFrame = Frame.ofHeader h (h.payloadOf data)

theorem decidedBy_of_covered {signals : Signals} {withheld : Bool} {after : List Step}
    (h : s.Steady) (hloaded : s.link.bus.loaded = some t) (hrx : t.rx = some b)
    (hlength : t.length = b.bytes.length)
    (hact : ∀ data, s.quiet.act (step.withData data) =
      (.read t.outgoing, s.quiet.clocked t none signals withheld data))
    (hself : step.withData data = step) (hcovered : s.link.config.frame.Covered data)
    (hawaits : (s.step step).2.awaits after) : DecidedBy data step after s := by
  have hquiet := steady_quiet h
  have hstep (data : Bytes) : s.step (step.withData data) =
      (.read t.outgoing, (s.quiet.clocked t none signals withheld data).settle) := by
    rw [Session.step, hact]
  have hown := hstep data
  rw [hself] at hown
  have hsteady := steady_step step h
  have hparts (more : Bytes) : Parts (filled (data ++ more) t b) (s.step step).2
      (s.step (step.withData (data ++ more))).2 := by
    rw [hstep, hown]
    exact parts_clocked hquiet hloaded hrx hcovered more
  refine ⟨?_, fun more => (parts_run after hsteady (hparts more) hawaits).2, ?_⟩
  · intro more
    have hreply : (s.step (step.withData (data ++ more))).1 = (s.step step).1 := by rw [hstep, hown]
    simp only [run]
    rw [hreply, (parts_run after hsteady (hparts more) hawaits).1]
  · have hclocked : (s.quiet.clocked t none signals withheld data).link.Steady [] :=
      steady_clocked hquiet.traffic hloaded none data
    have hfilled : Filled (filled data t b) (s.quiet.clocked t none signals withheld data).link :=
      filled_clocked hquiet.traffic hloaded hrx data
    have hmade : Gains (filled data t b) s.link (s.step step).2.link := by
      rw [hown]
      exact gains_settle hclocked hfilled
    have hlater : Gains (filled data t b) (s.step step).2.link
        ((s.step step).2.run after).2.link := by
      refine gains_run after hsteady ?_ hawaits
      rw [hown]
      exact filled_settle hclocked hfilled
    intro p i hi
    rcases hmade.trans (config_step step h) hlater p i hi with hold | ⟨hbytes, hdecode⟩
    · exact .inl hold
    · obtain ⟨hparse, hend, hpayload⟩ :=
        hcovered.decode_overwrite (Nat.le_of_eq hlength.symm) hdecode
      refine .inr ⟨i.header, hparse, hend, ?_⟩
      rw [Incoming.toFrame, Incoming.payload, hbytes, ← hpayload]
      rfl

/-- The host's bytes and the old end of the block decide what the slave makes of a transfer; the
host's bytes alone do if they reach as far as the block is read. -/
theorem short_transfer_decided (hcreate : create c host = .ok s) (before : List Step)
    {read : Bytes} (hclocks : step.clocks? = some (data, none))
    (hread : ((s.run before).2.step step).1 = .read read) :
    (∃ t b, (s.run before).2.link.bus.loaded = some t ∧ t.rx = some b ∧
      (s.run before).2.step (step.withData (Bytes.overwrite data b.bytes)) =
        (s.run before).2.step step) ∧
    (c.frame.bufferSize ≤ data.length → c.frame.Covered data) ∧
    (c.frame.Covered data → ∀ after, ((s.run before).2.step step).2.awaits after →
      DecidedBy data step after (s.run before).2) := by
  have hrun : (s.run before).2.Steady ∧ (s.run before).2.link.config = c :=
    run_induction (P := fun s => s.Steady ∧ s.link.config = c)
      (fun s step (_ : True) h => ⟨steady_step step h.1, (config_step step h.1).trans h.2⟩)
      (fun _ _ => trivial)
      ⟨(sound_create hcreate).toSteady, Link.config_create (create_eq_ok hcreate).1⟩
  generalize (s.run before).2 = s at hrun hread ⊢
  obtain ⟨hsteady, rfl⟩ := hrun
  obtain ⟨t, signals, withheld, hloaded, hact⟩ :=
    act_of_read (s := s.quiet) hsteady.traffic hclocks hread
  obtain ⟨b, hrx, hlength⟩ := loaded_block hsteady hloaded
  have hself := Step.withData_self hclocks
  refine ⟨⟨t, b, hloaded, hrx, ?_⟩, FrameConfig.covered_of_full hsteady.traffic.header,
    fun hcovered after hawaits =>
      decidedBy_of_covered hsteady hloaded hrx hlength hact hself hcovered hawaits⟩
  have hown := hact data
  rw [hself] at hown
  rw [Session.step, Session.step, hact, hown]
  simp only [clocked, clocked_eq hrx, filled_overwrite hlength]

def shortFrame : Bytes := [0x03, 0, 1, 0, 12, 0, 23, 0, 0, 0, 0, 0, 7]

theorem short_transfer_decided_small :
    ∃ s, create smallConfig (matchingHost smallConfig) = .ok s ∧
      DecidedBy shortFrame (.clock shortFrame true) [.deliver] (s.run [.start]).2 :=
  ⟨_, rfl, (short_transfer_decided (c := smallConfig) rfl [.start] rfl rfl).2.2 (by decide)
    [.deliver] ⟨by decide +kernel, trivial⟩⟩

/-- A transfer without a byte brings an earlier frame once more, where zeros bring none. -/
theorem short_transfer_redelivers :
    ∃ s, create smallConfig (matchingHost smallConfig) = .ok s ∧
      let m := (s.run [.start, .clock shortFrame false, .tryReceive false,
        .clock (Bytes.zeros 64) false]).2
      m.link.mux.rx.get .control = [] ∧
      ((m.step (.clock [] false)).2.link.mux.rx.get .control).map (·.toFrame) =
        [Frame.ofPayload .serial [7]] ∧
      (m.step (.clock (Bytes.zeros 64) false)).2.link.mux.rx.get .control = [] :=
  ⟨_, rfl, by decide +kernel⟩

end Session
end SlaveLink
