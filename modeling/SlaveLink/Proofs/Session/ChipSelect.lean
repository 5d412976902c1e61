import Mathlib.Data.List.Induction
import SlaveLink.Proofs.Session.Teardown

/-! # Handshake under any use of chip-select
Handshake falls when the host asserts chip-select, and rises when a transfer is loaded. So it stays
down for a transfer that the host selected and then left alone; and under the policy `onChipSelect`
it stays up after a transfer that was loaded while chip-select was asserted, until the host asserts
chip-select again. -/

namespace SlaveLink

/-- The places at which a longer list can be split. -/
theorem exists_split_concat {α : Type} {P : List α → α → List α → Prop} {xs : List α} {x : α} :
    (∃ before y after, xs ++ [x] = before ++ y :: after ∧ P before y after) ↔
      P xs x [] ∨ ∃ before y after, xs = before ++ y :: after ∧ P before y (after ++ [x]) := by
  constructor
  · rintro ⟨before, y, after, hsplit, hP⟩
    rcases List.eq_nil_or_concat after with rfl | ⟨rest, z, rfl⟩
    · obtain ⟨rfl, hx⟩ := List.append_inj' hsplit rfl
      obtain rfl : x = y := List.singleton_inj.mp hx
      exact .inl hP
    · rw [List.concat_eq_append, ← List.cons_append, ← List.append_assoc] at hsplit
      obtain ⟨rfl, hz⟩ := List.append_inj' hsplit rfl
      obtain rfl : x = z := List.singleton_inj.mp hz
      rw [List.concat_eq_append] at hP
      exact .inr ⟨before, y, rest, rfl, hP⟩
  · rintro (hP | ⟨before, y, after, rfl, hP⟩)
    · exact ⟨xs, x, [], rfl, hP⟩
    · exact ⟨before, y, after ++ [x], by simp, hP⟩

namespace Session

variable {s m m' : Session} {c : LinkConfig} {host : HostLevels} {step : Step}

def clocksUnselected (step : Step) (s : Session) : Bool :=
  s.lines.level .chipSelect == .high &&
    match step with
    | .clock .. => true
    | _ => false

inductive Following (c : LinkConfig) (s : Session) (step : Step) (m : Session) : Prop
  /-- A transfer becomes loaded. -/
  | loads (loaded : m.link.bus.loaded.isSome = true)
      (unloaded : s.link.bus.loaded = none ∨ m.link.bus.clocked ≠ s.link.bus.clocked)
      (asserted : m.link.signals.handshakeAsserted = true)
      (source : (step = .start ∨ step = .tick) ∧ s.link.bus.loaded = none ∧
          m.lines.level .chipSelect = s.lines.level .chipSelect ∨
        (c.policy = .onChipSelect → m.lines.level .chipSelect = .high))
  /-- The loaded transfer stays, or is clocked. -/
  | keeps (loaded : m.link.bus.loaded = s.link.bus.loaded ∧
          m.link.bus.clocked = s.link.bus.clocked ∨
        m.link.bus.loaded = none ∧ m.link.bus.clocked ≠ s.link.bus.clocked)
      (asserted : m.link.signals.handshakeAsserted =
        (s.link.signals.handshakeAsserted && !s.asserts step &&
          (decide (m.link.bus.clocked = s.link.bus.clocked) ||
            decide (c.policy = .onChipSelect))))
      (chipSelect : s.lines.level .chipSelect = .high → s.asserts step = false →
        s.clocksUnselected step = false → m.lines.level .chipSelect = .high ∧
          m.link.bus.clocked = s.link.bus.clocked)
  /-- The link is taken apart. -/
  | drops (gone : m.link.phase = .deinit)

theorem following_inward (h : s.Wired c) (hraises : s.link.Raises m.link)
    (hunasserted : s.asserts step = false)
    (hsource : m.link.bus.loaded = s.link.bus.loaded ∨ step = .start ∨ step = .tick) :
    Following c s step m := by
  cases hraises with
  | kept _ clocked loaded shows =>
    have hshows := shows h.shows
    refine .keeps (.inl ⟨loaded, clocked⟩) ?_ fun hhigh _ _ =>
      ⟨hshows.chipSelect.trans hhigh, clocked⟩
    simp [hshows.handshakeAsserted, hunasserted, clocked]
  | raised _ clocked unloaded loaded shows =>
    have hshows := shows h.shows
    have hstep : step = .start ∨ step = .tick := by
      refine hsource.resolve_left ?_
      intro hsame
      simp [hsame, unloaded] at loaded
    exact .loads loaded (.inl unloaded) hshows.handshakeAsserted
      (.inl ⟨hstep, unloaded, hshows.chipSelect⟩)

theorem asserts_select (s : Session) :
    s.asserts .select = !decide (s.lines.level .chipSelect = .low) := by
  unfold asserts
  cases s.lines.level .chipSelect <;> rfl

theorem asserts_exchange {data : Bytes} {limit : Duration} {fault : Option String} {hold : Bool}
    (hsees : s.host.seesHandshake s.lines = true) :
    s.asserts (.exchange data limit fault hold) = !decide (s.lines.level .chipSelect = .low) := by
  simp only [asserts, hsees]
  cases s.lines.level .chipSelect <;> rfl

theorem following_moving (h : s.Wired c) (hmoving : s.Moving step m) : Following c s step m := by
  have hshows := h.shows
  have hselected := Signals.shows_select hshows
  cases hmoving with
  | inward raises unasserted source => exact following_inward h raises unasserted source
  | selected =>
    refine .keeps (.inl ⟨rfl, rfl⟩) ?_ ?_
    · rw [asserts_select, Bool.not_not]
      simpa [onSignals, onLink] using hselected.handshakeAsserted
    · intro hhigh hunasserted
      simp [asserts_select, hhigh] at hunasserted
  | deselected =>
    have hreleased := Signals.shows_deselect hshows
    refine .keeps (.inl ⟨rfl, rfl⟩) ?_ fun _ _ _ => ⟨hreleased.chipSelect, rfl⟩
    simpa [asserts, onSignals, onLink] using hreleased.handshakeAsserted
  | clocked loaded =>
    have hdone := Signals.shows_done hshows
    refine .keeps (.inr ⟨rfl, Nat.succ_ne_self _⟩) ?_ ?_
    · simpa [asserts, clocking, Signals.onBusAll] using hdone.handshakeAsserted
    · intro hhigh _ hselected
      simp [clocksUnselected, hhigh] at hselected
  | exchanged sees loaded =>
    have hreleased := Signals.shows_deselect (Signals.shows_done hselected)
    refine .keeps (.inr ⟨rfl, Nat.succ_ne_self _⟩) ?_ ?_
    · rw [asserts_exchange sees, Bool.not_not]
      simpa [exchanging, clocking, Signals.onBusAll] using hreleased.handshakeAsserted
    · intro hhigh hunasserted
      simp [asserts_exchange sees, hhigh] at hunasserted
  | missed sees unloaded =>
    have hreleased := Signals.shows_deselect hselected
    refine .keeps (.inl ⟨rfl, rfl⟩) ?_ ?_
    · rw [asserts_exchange sees, Bool.not_not]
      simpa [onSignals, onLink] using hreleased.handshakeAsserted
    · intro hhigh hunasserted
      simp [asserts_exchange sees, hhigh] at hunasserted
  | dismantled => exact .drops rfl

/-- Under `onChipSelect` the worker turns around only when chip-select is released. -/
theorem chipSelect_of_turn {l l' : Link} {t : Transaction} {withheld : Bool}
    (hpolicy : l.config.policy = .onChipSelect) (hturn : l.turn? withheld = some (t, l')) :
    l.signals.lines.level .chipSelect = .high := by
  rcases Link.signals_of_turn? hturn with ⟨hother, _⟩ | htaken
  · simp [hpolicy] at hother
  · have hreleased := congrArg Prod.fst htaken
    simp only [Signals.takeRelease, Bool.and_eq_true, beq_iff_eq] at hreleased
    exact hreleased.2

/-- What the worker loads under `onChipSelect` it loads with chip-select released. -/
theorem chipSelect_of_loaded (h : m.link.Steady []) (hpolicy : m.link.config.policy = .onChipSelect)
    (hunloaded : m.link.bus.loaded = none) (hloaded : m.settle.link.bus.loaded.isSome = true) :
    m.lines.level .chipSelect = .high := by
  unfold settle at hloaded
  split at hloaded
  · simp [hunloaded] at hloaded
  · have hsettling := Link.settling h m.withheld
    simp only [onLink] at hloaded
    generalize m.link.settle m.withheld = l at hsettling hloaded
    cases hsettling with
    | rest | wait | hold => simp [hunloaded] at hloaded
    | turn hturn => exact chipSelect_of_turn hpolicy hturn

/-- What the worker does after a step is a part of what the step does. -/
theorem Following.rest (h : Following c s step m) (hsteady : m.link.Steady [])
    (hconfig : m.link.config = c) (hwired : m.Wired c) : Following c s step m.settle := by
  have hphase := (phase_rest hsteady).1
  cases raises_rest (s := m) with
  | kept _ clocked loaded shows =>
    have hshows := shows hwired.shows
    have hasserted := hshows.handshakeAsserted
    have hchipSelect : m.settle.lines.level .chipSelect = m.lines.level .chipSelect :=
      hshows.chipSelect
    cases h with
    | loads loaded' unloaded asserted source =>
      refine .loads (by rwa [loaded]) (by rwa [clocked]) (hasserted.trans asserted) ?_
      rwa [hchipSelect]
    | keeps kept asserted chipSelect =>
      refine .keeps (by rwa [loaded, clocked]) ?_ ?_
      · rw [hasserted, asserted, clocked]
      · rwa [hchipSelect, clocked]
    | drops gone => exact .drops (hphase.trans gone)
  | raised _ clocked unloaded loaded shows =>
    have hshows := shows hwired.shows
    cases h with
    | loads loaded' => simp [unloaded] at loaded'
    | keeps kept =>
      refine .loads loaded ?_ hshows.handshakeAsserted (.inr ?_)
      · rw [clocked]
        exact kept.imp (fun hkept => hkept.1.symm.trans unloaded) And.right
      · intro hpolicy
        refine hshows.chipSelect.trans (chipSelect_of_loaded hsteady ?_ unloaded loaded)
        rwa [hconfig]
    | drops gone => exact .drops (hphase.trans gone)

theorem following_of_quiet (h : Following c s.quiet step m) : Following c s step m := by
  cases h with
  | loads loaded unloaded asserted source => exact .loads loaded unloaded asserted source
  | keeps loaded asserted chipSelect => exact .keeps loaded asserted chipSelect
  | drops gone => exact .drops gone

theorem following (h : s.Lasting c) (step : Step) : Following c s step (s.step step).2 := by
  have hquiet := steady_quiet h.toSteady
  have hmoving := moving hquiet.traffic step
  have hwired : s.quiet.Wired c := h.wired
  have hacted := following_of_quiet (following_moving hwired hmoving)
  exact hacted.rest (steady_act step hquiet).traffic (config_acted h step)
    (wired_moving hwired hmoving)

/-- The host asserted chip-select for the transfer that is loaded, and has clocked nothing since. -/
def Abandoned (s : Session) (steps : List Step) : Prop :=
  ∃ before step after, steps = before ++ step :: after ∧
    (s.run before).2.asserts step = true ∧ (s.run before).2.link.bus.loaded.isSome = true ∧
    (s.run before).2.link.bus.clocked = (s.run steps).2.link.bus.clocked

theorem clocked_moving (hmoving : s.Moving step m) :
    s.link.bus.clocked ≤ m.link.bus.clocked := by
  cases hmoving with
  | inward raises => exact Nat.le_of_eq raises.clocked_eq.symm
  | selected | deselected | missed => exact Nat.le_refl _
  | clocked | exchanged => exact Nat.le_succ _
  | dismantled =>
    exact Nat.le_of_eq (Link.raises_windDown { s.link with phase := .draining }).clocked_eq.symm

theorem clocked_step (h : s.Lasting c) (step : Step) :
    s.link.bus.clocked ≤ (s.step step).2.link.bus.clocked := by
  have hacted := clocked_moving (moving (steady_quiet h.toSteady).traffic step)
  exact Nat.le_trans hacted (Nat.le_of_eq raises_rest.clocked_eq.symm)

theorem clocked_run (h : s.Lasting c) (steps : List Step) :
    s.link.bus.clocked ≤ (s.run steps).2.link.bus.clocked := by
  induction steps generalizing s with
  | nil => exact Nat.le_refl _
  | cons step steps ih => exact Nat.le_trans (clocked_step h step) (ih (lasting_step step h))

def Holds (s : Session) : Prop := s.link.bus.loaded.isSome = true ∨ s.link.phase = .deinit

theorem holds_step (h : s.Lasting c) (step : Step) (hholds : s.Holds)
    (hclocked : (s.step step).2.link.bus.clocked = s.link.bus.clocked) :
    (s.step step).2.Holds := by
  rcases hholds with hloaded | hgone
  · cases following h step with
    | loads loaded => exact .inl loaded
    | keeps kept =>
      obtain ⟨hsame, _⟩ := kept.resolve_right fun hspent => hspent.2 hclocked
      exact .inl (by rwa [hsame])
    | drops gone => exact .inr gone
  · exact .inr (lingering_step h.toSteady (h.final hgone) step).2.phase

theorem holds_run (h : s.Lasting c) (steps : List Step) (hholds : s.Holds)
    (hclocked : (s.run steps).2.link.bus.clocked = s.link.bus.clocked) :
    (s.run steps).2.Holds := by
  induction steps generalizing s with
  | nil => exact hholds
  | cons step steps ih =>
    have hnext := lasting_step step h
    have hfirst := clocked_step h step
    have hrest : (s.step step).2.link.bus.clocked ≤ (s.run (step :: steps)).2.link.bus.clocked :=
      clocked_run hnext steps
    have hsame : (s.step step).2.link.bus.clocked = s.link.bus.clocked := by omega
    exact ih hnext (holds_step h step hholds hsame) (hclocked.trans hsame.symm)

theorem abandoned_concat (s : Session) (steps : List Step) (step : Step) :
    s.Abandoned (steps ++ [step]) ↔
      (s.run steps).2.asserts step = true ∧ (s.run steps).2.link.bus.loaded.isSome = true ∧
          (s.run steps).2.link.bus.clocked = ((s.run steps).2.step step).2.link.bus.clocked ∨
        ∃ before first after, steps = before ++ first :: after ∧
          (s.run before).2.asserts first = true ∧ (s.run before).2.link.bus.loaded.isSome = true ∧
          (s.run before).2.link.bus.clocked =
            ((s.run steps).2.step step).2.link.bus.clocked := by
  rw [Abandoned, run_concat, exists_split_concat]

theorem holds_of_abandoned (h : s.Lasting c) {steps : List Step}
    (habandoned : s.Abandoned (steps ++ [step])) :
    (s.run steps).2.Holds ∧
      ((s.run steps).2.step step).2.link.bus.clocked = (s.run steps).2.link.bus.clocked := by
  rw [abandoned_concat] at habandoned
  have hlast := clocked_step (lasting_run h steps) step
  rcases habandoned with ⟨_, hloaded, hclocked⟩ | ⟨before, first, after, rfl, _, hloaded, hclocked⟩
  · exact ⟨.inl hloaded, hclocked.symm⟩
  · have hbefore := lasting_run h before
    have hmiddle := clocked_run hbefore (first :: after)
    have hrun : ((s.run before).2.run (first :: after)).2 =
        (s.run (before ++ first :: after)).2 := by rw [run_append]
    have hholds := holds_run hbefore (first :: after) (.inl hloaded)
    rw [hrun] at hmiddle hholds
    exact ⟨hholds (by omega), by omega⟩

theorem loaded_of_holds (h : s.Lasting c) (hholds : s.Holds)
    (hloaded : (s.step step).2.link.bus.loaded.isSome = true) :
    s.link.bus.loaded.isSome = true := by
  refine hholds.resolve_right ?_
  intro hgone
  have hnone := (lingering_step h.toSteady (h.final hgone) step).2.loaded
  simp [hnone] at hloaded

/-- Either the step loaded what is loaded after it and raised Handshake, or Handshake is as before
unless the step asserted chip-select. -/
theorem ready_step (h : s.Lasting c) (step : Step)
    (hloaded : (s.step step).2.link.bus.loaded.isSome = true) :
    (s.link.bus.loaded = none ∨ (s.step step).2.link.bus.clocked ≠ s.link.bus.clocked) ∧
        (s.step step).2.link.signals.handshakeAsserted = true ∨
      s.link.bus.loaded.isSome = true ∧
        (s.step step).2.link.bus.clocked = s.link.bus.clocked ∧
        (s.step step).2.link.signals.handshakeAsserted =
          (s.link.signals.handshakeAsserted && !s.asserts step) := by
  cases following h step with
  | loads _ unloaded asserted => exact .inl ⟨unloaded, asserted⟩
  | keeps kept asserted =>
    rcases kept with ⟨hsame, hclocked⟩ | ⟨hnone, _⟩
    · rw [hsame] at hloaded
      exact .inr ⟨hloaded, hclocked, by simpa [hclocked] using asserted⟩
    · simp [hnone] at hloaded
  | drops gone => simp [((lasting_step step h).final gone).loaded] at hloaded

/-- While a transfer is loaded, Handshake is down for it exactly if it was abandoned. -/
theorem unready_iff_abandoned (h : s.Lasting c) (hnone : s.link.bus.loaded = none)
    {steps : List Step} (hloaded : (s.run steps).2.link.bus.loaded.isSome = true) :
    (s.run steps).2.link.signals.handshakeAsserted = false ↔ s.Abandoned steps := by
  -- It is the last step that loads a transfer or leaves it, so steps are taken off the end.
  induction steps using List.reverseRecOn with
  | nil => simp [run, hnone] at hloaded
  | append_singleton steps step ih =>
    have hlasting := lasting_run h steps
    rw [run_concat] at hloaded ⊢
    rcases ready_step hlasting step hloaded with ⟨hfresh, hready⟩ | ⟨hkept, hclocked, hready⟩
    · have hnever : ¬ s.Abandoned (steps ++ [step]) := by
        intro habandoned
        obtain ⟨hholds, hclocked⟩ := holds_of_abandoned h habandoned
        have hstill := loaded_of_holds hlasting hholds hloaded
        rcases hfresh with hunloaded | hspent
        · simp [hunloaded] at hstill
        · exact hspent hclocked
      simp [hready, hnever]
    · have hsame : s.Abandoned (steps ++ [step]) ↔
          (s.run steps).2.asserts step = true ∨ s.Abandoned steps := by
        rw [abandoned_concat, hclocked]
        simp [hkept, Abandoned]
      rw [hsame, ← ih hkept, hready, Bool.and_eq_false_iff, Bool.not_eq_false', or_comm]

theorem host_run (h : s.Steady) (steps : List Step) : (s.run steps).2.host = s.host :=
  (run_keeps (P := fun m => m.Steady ∧ m.host = s.host) (fun _ step hkept =>
    ⟨steady_step step hkept.1, (host_step hkept.1 step).trans hkept.2⟩) ⟨h, rfl⟩ steps).2

theorem sees_of_wired (h : s.Wired c) :
    (matchingHost c).seesHandshake s.lines = s.link.signals.handshakeAsserted := by
  have hlevel : s.lines.handshake.level = _ := h.shows.handshake
  rw [HostLevels.seesHandshake, hlevel]
  exact Polarity.level_beq_active _ _

/-- A host that waits for Handshake does not get to clock while Handshake is down. -/
theorem exchange_of_unready (h : s.Wired c) (hhost : s.host = matchingHost c)
    (hunready : s.link.signals.handshakeAsserted = false) (data : Bytes) (limit : Duration)
    (fault : Option String) (hold : Bool) :
    (s.step (.exchange data limit fault hold)).1 = .hostFailed (.timeout limit) := by
  have hsees : s.quiet.host.seesHandshake s.quiet.lines = false := by
    rw [← hunready, ← sees_of_wired h, ← hhost]
    rfl
  simp [Session.step, act, exchange, HostLevels.waitReady, hsees, transferred]

/-- After every run, whatever the host did with chip-select, Handshake is down for a loaded transfer
exactly if the host asserted chip-select for it and has clocked nothing since. A host that waits for
Handshake then waits in vain. -/
theorem handshake_down_iff_abandoned (hcreate : create c host = .ok s) (steps : List Step)
    (hloaded : (s.run steps).2.link.bus.loaded.isSome = true) :
    ((s.run steps).2.link.signals.handshakeAsserted = false ↔ s.Abandoned steps) ∧
      (host = matchingHost c → s.Abandoned steps → ∀ data limit fault hold,
        ((s.run steps).2.step (.exchange data limit fault hold)).1 =
          .hostFailed (.timeout limit)) := by
  have hlasting := lasting_create hcreate
  obtain ⟨hlink, hs⟩ := create_eq_ok hcreate
  obtain ⟨_, hl⟩ := Link.create_eq_ok hlink
  have hnone : s.link.bus.loaded = none := by
    rw [hl]
    rfl
  have hiff := unready_iff_abandoned hlasting hnone hloaded
  refine ⟨hiff, ?_⟩
  intro hhost habandoned
  have hsame : (s.run steps).2.host = matchingHost c := by
    rw [host_run hlasting.toSteady, hs]
    exact hhost
  exact exchange_of_unready (lasting_run hlasting steps).wired hsame (hiff.mpr habandoned)

theorem handshake_down_iff_abandoned_small :
    ∃ s, create smallConfig (matchingHost smallConfig) = .ok s ∧
      s.Abandoned [.start, .select, .tick] :=
  ⟨_, rfl, (handshake_down_iff_abandoned (c := smallConfig) rfl [.start, .select, .tick]
    (by decide +kernel)).1.mp (by decide +kernel)⟩

/-- The host asserts chip-select and releases it: the transfer stays loaded, and Handshake stays
down. -/
theorem select_leaves_unready : ∃ s, create smallConfig (matchingHost smallConfig) = .ok s ∧
    (s.run [.start, .select, .deselect]).2.link.phase = .active ∧
    (s.run [.start, .select, .deselect]).2.lines.level .chipSelect = .high ∧
    (s.run [.start, .select, .deselect]).2.link.bus.loaded.isSome = true ∧
    (s.run [.start, .select, .deselect]).2.link.signals.handshakeAsserted = false :=
  ⟨_, rfl, by decide +kernel⟩

def armsSelected (step : Step) (s : Session) : Bool :=
  (step == .start || step == .tick) && s.link.bus.loaded.isNone &&
    (s.step step).2.link.bus.loaded.isSome && s.lines.level .chipSelect == .low

/-- A transfer was loaded while chip-select was asserted, and the host has not asserted it anew. -/
def MissesEdge (s : Session) (steps : List Step) : Prop :=
  ∃ before step after, steps = before ++ step :: after ∧
    (s.run before).2.armsSelected step = true ∧
    (s.run (before ++ [step])).2.happens asserts after = false

theorem missesEdge_concat (s : Session) (steps : List Step) (step : Step) :
    s.MissesEdge (steps ++ [step]) ↔
      (s.run steps).2.armsSelected step = true ∨
        s.MissesEdge steps ∧ (s.run steps).2.asserts step = false := by
  have hafter {before after : List Step} {first : Step} (h : steps = before ++ first :: after) :
      (s.run (before ++ [first])).2.happens asserts (after ++ [step]) = false ↔
        (s.run (before ++ [first])).2.happens asserts after = false ∧
          (s.run steps).2.asserts step = false := by
    have hrun : ((s.run (before ++ [first])).2.run after).2 = (s.run steps).2 := by
      rw [h, List.append_cons before first after, run_append s (before ++ [first]) after]
    simp [happens_append, happens, hrun]
  rw [MissesEdge, exists_split_concat]
  constructor
  · rintro (⟨harms, _⟩ | ⟨before, first, after, hsplit, harms, hnever⟩)
    · exact .inl harms
    · obtain ⟨hnever, hunasserted⟩ := (hafter hsplit).mp hnever
      exact .inr ⟨⟨before, first, after, hsplit, harms, hnever⟩, hunasserted⟩
  · rintro (harms | ⟨⟨before, first, after, hsplit, harms, hnever⟩, hunasserted⟩)
    · exact .inl ⟨harms, rfl⟩
    · exact .inr ⟨before, first, after, hsplit, harms, (hafter hsplit).mpr ⟨hnever, hunasserted⟩⟩

theorem ready_of_happens (h : s.Lasting c) (hpolicy : c.policy = .onChipSelect)
    (hclocks : s.clocksUnselected step = false)
    (hready : (s.step step).2.link.signals.handshakeAsserted = true) :
    (s.step step).2.link.bus.loaded.isSome = true ∧
        (s.step step).2.lines.level .chipSelect = .high ∨
      s.armsSelected step = true ∨
      s.link.signals.handshakeAsserted = true ∧ s.asserts step = false ∧
        ¬ (s.link.bus.loaded.isSome = true ∧ s.lines.level .chipSelect = .high) := by
  cases following h step with
  | loads loaded _ _ source =>
    rcases source with ⟨hstep, hunloaded, hsame⟩ | hhigh
    · cases hlevel : s.lines.level .chipSelect with
      | high => exact .inl ⟨loaded, hsame.trans hlevel⟩
      | low =>
        refine .inr (.inl ?_)
        rcases hstep with rfl | rfl <;> simp [armsSelected, hunloaded, loaded, hlevel]
    · exact .inl ⟨loaded, hhigh hpolicy⟩
  | keeps kept asserted chipSelect =>
    rw [hready] at asserted
    obtain ⟨hbefore, hunasserted⟩ : s.link.signals.handshakeAsserted = true ∧
        s.asserts step = false := by simpa [hpolicy] using asserted.symm
    by_cases hwaits : s.link.bus.loaded.isSome = true ∧ s.lines.level .chipSelect = .high
    · obtain ⟨hhigh, hclocked⟩ := chipSelect hwaits.2 hunasserted hclocks
      obtain ⟨hsame, _⟩ := kept.resolve_right fun hspent => hspent.2 hclocked
      exact .inl ⟨by rw [hsame]; exact hwaits.1, hhigh⟩
    · exact .inr (.inr ⟨hbefore, hunasserted, hwaits⟩)
  | drops gone =>
    obtain ⟨_, hshows⟩ := ((lasting_step step h).final gone).shows
    simp [hshows.handshakeAsserted] at hready

theorem ready_of_ready (h : s.Lasting c) (hpolicy : c.policy = .onChipSelect)
    (hready : s.link.signals.handshakeAsserted = true) (hunasserted : s.asserts step = false)
    (hphase : (s.step step).2.link.phase ≠ .deinit) :
    (s.step step).2.link.signals.handshakeAsserted = true := by
  cases following h step with
  | loads _ _ asserted => exact asserted
  | keeps _ asserted => simpa [hready, hunasserted, hpolicy] using asserted
  | drops gone => exact absurd gone hphase

theorem ready_of_armsSelected (h : s.Lasting c) (harms : s.armsSelected step = true) :
    (s.step step).2.link.signals.handshakeAsserted = true := by
  simp only [armsSelected, Bool.and_eq_true, Option.isNone_iff_eq_none] at harms
  obtain ⟨⟨⟨_, hunloaded⟩, hloaded⟩, _⟩ := harms
  rcases ready_step h step hloaded with ⟨_, hready⟩ | ⟨hkept, _⟩
  · exact hready
  · simp [hunloaded] at hkept

theorem phase_of_step (h : s.Lasting c) (step : Step) (hgone : s.link.phase = .deinit) :
    (s.step step).2.link.phase = .deinit :=
  (lingering_step h.toSteady (h.final hgone) step).2.phase

structure ReadyIf (s : Session) (steps : List Step) : Prop where
  cause : (s.run steps).2.link.signals.handshakeAsserted = true →
    (s.run steps).2.link.bus.loaded.isSome = true ∧
        (s.run steps).2.lines.level .chipSelect = .high ∨
      s.MissesEdge steps
  effect : (s.run steps).2.link.phase ≠ .deinit → s.MissesEdge steps →
    (s.run steps).2.link.signals.handshakeAsserted = true

theorem readyIf (h : s.Lasting c) (hpolicy : c.policy = .onChipSelect)
    (hunready : s.link.signals.handshakeAsserted = false) {steps : List Step}
    (hclocks : s.happens clocksUnselected steps = false) : s.ReadyIf steps := by
  induction steps using List.reverseRecOn with
  | nil =>
    refine ⟨fun hready => ?_, ?_⟩
    · simp [run, hunready] at hready
    · rintro _ ⟨before, step, after, hsplit, _⟩
      simp at hsplit
  | append_singleton steps step ih =>
    simp only [happens_append, Bool.or_eq_false_iff, happens, Bool.or_false] at hclocks
    have hlasting := lasting_run h steps
    have ih := ih hclocks.1
    refine ⟨?_, ?_⟩
    · rw [run_concat, missesEdge_concat]
      intro hready
      rcases ready_of_happens hlasting hpolicy hclocks.2 hready with
        hloaded | harms | ⟨hbefore, hunasserted, hwaits⟩
      · exact .inl hloaded
      · exact .inr (.inl harms)
      · exact .inr (.inr ⟨(ih.cause hbefore).resolve_left hwaits, hunasserted⟩)
    · rw [run_concat, missesEdge_concat]
      rintro hphase (harms | ⟨hmisses, hunasserted⟩)
      · exact ready_of_armsSelected hlasting harms
      · have hbefore := ih.effect (fun hgone => hphase (phase_of_step hlasting step hgone)) hmisses
        exact ready_of_ready hlasting hpolicy hbefore hunasserted hphase

/-- Under `onChipSelect`, with a host that clocks only while chip-select is asserted, Handshake is
up with nothing loaded exactly if a transfer was loaded while chip-select was asserted and the host
has not asserted it anew since. -/
theorem handshake_up_iff_missesEdge (hcreate : create c host = .ok s)
    (hpolicy : c.policy = .onChipSelect) (steps : List Step)
    (hclocks : s.happens clocksUnselected steps = false)
    (hunloaded : (s.run steps).2.link.bus.loaded = none) :
    (s.run steps).2.link.signals.handshakeAsserted = true ↔
      (s.run steps).2.link.phase ≠ .deinit ∧ s.MissesEdge steps := by
  have hlasting := lasting_create hcreate
  have hunready : s.link.signals.handshakeAsserted = false := by
    obtain ⟨_, hl⟩ := Link.create_eq_ok (create_eq_ok hcreate).1
    rw [hl]
    exact (Signals.shows_init c).handshakeAsserted
  have hready := readyIf hlasting hpolicy hunready hclocks
  constructor
  · intro hup
    refine ⟨?_, (hready.cause hup).resolve_left (by simp [hunloaded])⟩
    intro hgone
    obtain ⟨_, hshows⟩ := ((lasting_run hlasting steps).final hgone).shows
    simp [hshows.handshakeAsserted] at hup
  · rintro ⟨hphase, hmisses⟩
    exact hready.effect hphase hmisses

def selectConfig : LinkConfig := { smallConfig with policy := .onChipSelect }

theorem handshake_up_iff_missesEdge_small :
    ∃ s, create selectConfig (matchingHost selectConfig) = .ok s ∧
      s.MissesEdge [.select, .start, .clock [] false] :=
  ⟨_, rfl, ((handshake_up_iff_missesEdge (c := selectConfig) rfl rfl
    [.select, .start, .clock [] false] (by decide +kernel) (by decide +kernel)).mp
    (by decide +kernel)).2⟩

/-- The link is started while chip-select is asserted, and the host clocks: Handshake stays up, even
once chip-select is released, with nothing loaded. -/
theorem clock_leaves_ready : ∃ s, create selectConfig (matchingHost selectConfig) = .ok s ∧
    s.happens clocksUnselected [.select, .start, .clock [] true, .deselect] = false ∧
    (s.run [.select, .start, .clock [] true, .deselect]).2.lines.level .chipSelect = .high ∧
    (s.run [.select, .start, .clock [] true, .deselect]).2.link.bus.pending = [] ∧
    (s.run [.select, .start, .clock [] true, .deselect]).2.link.signals.handshakeAsserted = true :=
  ⟨_, rfl, by decide +kernel⟩

end Session
end SlaveLink
