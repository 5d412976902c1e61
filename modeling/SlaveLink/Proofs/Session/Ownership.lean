import SlaveLink.Proofs.Link.Ownership
import SlaveLink.Proofs.Session.InFlight

/-! # Nothing leaks
Whatever happens, a block in use is in a waiting frame, in a transfer or in a received frame that
the application still holds, and in one of them only. -/

namespace SlaveLink

namespace Session

variable {s m : Session} {c : LinkConfig} {host : HostLevels} {step : Step} {r : Reply}

def kept (s : Session) : List Incoming := s.held.filterMap id

def underWay (s : Session) : List Transaction :=
  s.link.bus.loaded.toList ++ s.link.bus.completed ++ s.link.worker.held

structure OwnedOnce (c : LinkConfig) (s : Session) : Prop where
  blocks : s.link.memory.wire.inUse =
    s.link.mux.tx.total + s.link.mux.rx.total + 2 * s.underWay.length + s.kept.length
  transactions : s.link.memory.transactions.inUse = s.underWay.length
  /-- Every block is with one owner, or free. -/
  once : ((s.link.memory.wire.free ++ s.link.mux.tx.items.map (·.block) ++
    s.link.mux.rx.items.map (·.block) ++ s.underWay.flatMap (·.blocks) ++
    s.kept.map (·.block)).map (·.index)).Perm (List.range c.wireBlocks)

def places (s : Session) : List Nat := s.kept.map (·.block.index)

def Balanced (s : Session) : Prop := s.link.Balanced s.places 0

theorem held_rest (s : Session) : s.settle.held = s.held := by
  unfold settle
  split <;> rfl

theorem filterMap_set_none {α : Type} {xs : List (Option α)} {x : α} {n : Nat}
    (h : xs[n]? = some (some x)) : (xs.filterMap id).Perm (x :: (xs.set n none).filterMap id) := by
  induction xs generalizing n with
  | nil => simp at h
  | cons y ys ih =>
    cases n with
    | zero =>
      obtain rfl : y = some x := by simpa using h
      simp
    | succ n =>
      have htail := ih (n := n) (by simpa using h)
      cases y with
      | none => simpa using htail
      | some y => simpa using (htail.cons y).trans (List.Perm.swap ..)

theorem balanced_received {p : Priority} {i : Incoming} {rx : PriorityQueues Incoming}
    (h : s.Balanced) (hdue : s.link.mux.rx.pop? = some (p, i, rx)) :
    { s.link with mux := { s.link.mux with rx } }.Balanced (i.block.index :: s.places) 0 :=
  Link.Balanced.dequeued h (Multiplexer.blocks_of_received hdue)

theorem balanced_clocked {t u : Transaction} {signals : Signals} {l : Link} {hand : List Nat}
    (h : l.Balanced hand 0) (hsteady : l.Steady []) (hloaded : l.bus.loaded = some t)
    (hblocks : u.blocks.map (·.index) = t.blocks.map (·.index)) :
    (clocking u signals l).Balanced hand 0 := by
  have hqueued : l.bus.queued = [] := hsteady.queued
  have hunfinished : l.unfinished = [] :=
    List.append_eq_nil_iff.mpr (hsteady.nothing_unfinished hloaded)
  have hbefore : l.transfers = [t] := by
    simp [Link.transfers, Bus.pending, hloaded, hqueued, hunfinished]
  have hafter : (clocking u signals l).transfers = [u] := by
    rw [Link.transfers, unfinished_clocking hsteady hloaded]
    simp [clocking, Bus.pending, hqueued]
  have hoccupied : (clocking u signals l).occupied = l.occupied := by
    simp only [Link.occupied, hbefore, hafter, List.map_append, List.flatMap_singleton, hblocks]
    rfl
  unfold Link.Balanced at h ⊢
  rw [hafter, hoccupied]
  rw [hbefore] at h
  exact h

theorem balanced_acting (hsteady : s.link.Steady []) (h : s.Balanced) (hstep : step ≠ .start)
    (hacting : s.Acting step (r, m)) : m.Balanced := by
  cases hacting with
  | aside => exact h
  | stopped parked =>
    have hheld : s.link.worker.held = [] := congrArg Worker.held parked
    exact Link.Balanced.setWorker h hheld rfl
  | started => exact absurd rfl hstep
  | @submitted _ _ sequence _ _ _ submission =>
    exact Link.balanced_submission (l := { s.link with sequence }) h submission
  | @clocked _ data fault t _ _ _ loaded =>
    exact balanced_clocked h hsteady loaded (t.index_blocks_clocked data fault)
  | retried =>
    exact Link.balanced_armNext (l := { s.link with rearmPending := false }) h
  | @received _ _ i _ _ _ _ _ due _ kept =>
    have htaken := balanced_received h due
    rcases kept with ⟨rfl, rfl⟩ | ⟨rfl, rfl⟩
    · apply Link.Balanced.perm htaken
      simp [places, Session.kept]
    · exact htaken.giveBack [i.block]
  | @dropped n i held =>
    have hperm : s.places.Perm (i.block.index :: places { s with held := s.held.set n none }) :=
      (filterMap_set_none held).map _
    exact Link.Balanced.giveBack [i.block] (Link.Balanced.perm h hperm.symm)

theorem balanced_ending (hsteady : s.link.Steady []) (h : s.Balanced)
    (hending : s.Ending step (r, m)) : m.Balanced := by
  cases hending with
  | closing | refusing => exact h
  | left parked =>
    have hheld : s.link.worker.held = [] := congrArg Worker.held parked
    exact Link.Balanced.setWorker h hheld rfl
  | dismantled =>
    have hdraining : { s.link with phase := .draining }.Steady [] := hsteady.setPhase nofun
    have hparted := Link.parted_of_steady hdraining
    simp only [onLink]
    rw [Link.dismantle_windDown]
    apply Link.balanced_dismantle ?_ hparted.held
    exact Link.balanced_parted (l := { s.link with phase := .draining }) h hdraining

theorem balanced_act (step : Step) (hsteady : s.link.Steady []) (h : s.Balanced) :
    (s.act step).2.Balanced := by
  by_cases hstart : step = .start
  · subst hstart
    rw [act_start]
    exact Link.balanced_start h hsteady
  · rcases acting_or_ending hsteady step with hacting | hending
    · exact balanced_acting hsteady h hstart hacting
    · exact balanced_ending hsteady h hending

theorem balanced_rest (hsteady : s.link.Steady []) (h : s.Balanced) : s.settle.Balanced := by
  unfold settle
  split
  · exact h
  · exact Link.balanced_settle h hsteady s.withheld

theorem balanced_step (step : Step) (hsteady : s.Steady) (h : s.Balanced) :
    (s.step step).2.Balanced := by
  have hquiet := steady_quiet hsteady
  have hacted : (s.quiet.act step).2.Balanced := balanced_act step hquiet.traffic h
  exact balanced_rest (steady_act step hquiet).traffic hacted

theorem balanced_create (hcreate : create c host = .ok s) : s.Balanced := by
  obtain ⟨hlink, hs⟩ := create_eq_ok hcreate
  have hnone : s.places = [] := by
    rw [hs]
    rfl
  unfold Balanced
  rw [hnone]
  exact Link.balanced_create hlink

theorem ownedOnce (hsteady : s.link.Steady []) (h : s.Balanced) : OwnedOnce s.link.config s := by
  have hqueued : s.link.bus.queued = [] := hsteady.queued
  have htransfers : s.link.transfers.Perm s.underWay := by
    rw [Link.transfers, Bus.pending, hqueued, List.append_nil, Link.unfinished_eq, underWay,
      List.append_assoc]
    exact List.perm_append_comm.append_left _
  have hshaped : ∀ t ∈ s.link.transfers, t.Shaped s.link.config.frame.blockSize := by
    rw [Link.transfers, Bus.pending, hqueued, List.append_nil]
    exact hsteady.shaped
  have htwo := length_flatMap_blocks hshaped
  have hcount := htransfers.length_eq
  refine ⟨?_, ?_, ?_⟩
  · have hblocks := h.blocks
    simp only [places, Link.occupied, Multiplexer.blocks, List.length_append, List.length_map,
      PriorityQueues.length_items, htwo] at hblocks
    omega
  · have hlent := h.transactions
    omega
  · have hplaces : ((s.link.mux.blocks ++ s.underWay.flatMap Transaction.blocks).map
        Block.index).Perm s.link.occupied :=
      ((htransfers.symm.flatMap_right _).append_left _).map _
    have hall := (List.perm_append_comm.trans (hplaces.append_left s.places)).append_left
      (s.link.memory.wire.free.map Block.index)
    simpa [places, Multiplexer.blocks, Function.comp_def] using hall.trans h.once

/-- Every block and every transaction in use has exactly one owner, after every run. -/
theorem every_block_has_one_owner (hcreate : create c host = .ok s) (steps : List Step) :
    OwnedOnce c (s.run steps).2 := by
  have hconfig : s.link.config = c := Link.config_create (create_eq_ok hcreate).1
  have hany : ∀ step ∈ steps, True := fun _ _ => trivial
  have hrun := run_induction (P := fun s => s.Steady ∧ s.link.config = c ∧ s.Balanced)
    (fun s step _ h => ⟨steady_step step h.1, (config_step step h.1).trans h.2.1,
      balanced_step step h.1 h.2.2⟩)
    hany
    ⟨(sound_create hcreate).toSteady, hconfig, balanced_create hcreate⟩
  obtain ⟨hsteady, hsame, hbalanced⟩ := hrun
  rw [← hsame]
  exact ownedOnce hsteady.traffic hbalanced

theorem every_block_has_one_owner_small :
    ∃ s, create smallConfig (matchingHost smallConfig) = .ok s ∧
      OwnedOnce smallConfig (s.run [.refuse 1, .start, .start, .submitNext .station 1 [7],
        .clock [] true, .deinit]).2 :=
  ⟨_, rfl, every_block_has_one_owner (c := smallConfig) rfl _⟩

end Session
end SlaveLink
