import SlaveLink.Proofs.Link.Delivery
import SlaveLink.Proofs.Link.Inbound
import SlaveLink.Proofs.Session.Capacity
import SlaveLink.Proofs.Session.FirstStart
import SlaveLink.Proofs.Session.Reception
import SlaveLink.Proofs.Session.Recovery
import SlaveLink.Proofs.Session.Teardown
import SlaveLink.Proofs.Session.Transmission
import SlaveLink.Proofs.Session.Wiring

/-! # Between whole exchanges
A link that has come up, whose host clocks whole exchanges and whose application gives back what it
receives, always has the next transfer loaded. Each exchange takes one frame from the queues, as
long as one waits, and brings at most one. -/

namespace SlaveLink

namespace Link

variable {l l' : Link} {t : Transaction}

end Link

namespace Session

variable {s m : Session} {c : LinkConfig} {step : Step} {r : Reply} {interface : Interface}
  {payload data : Bytes}

/-- The link is up with a transfer loaded, nothing waits to be finished, and the application holds
nothing. -/
structure Poised (c : LinkConfig) (s : Session) : Prop extends s.Stocked c where
  willing : s.link.refusals = 0
  engaged : Engaged s.link
  attended : s.link.Attended
  host : s.host = matchingHost c
  shows : s.link.Shows .high
  loaded : ∃ t, s.link.bus.loaded = some t
  emptyHanded : s.held = []
  reaching : s.withheld = false

namespace Poised

theorem sound (h : s.Poised c) : s.Sound :=
  ⟨h.toSteady, congrArg Phase.isOpen h.engaged.active, h.willing⟩

theorem quiet (h : s.Poised c) : s.quiet.Poised c :=
  { stocked_quiet h.toStocked with
    willing := h.willing
    engaged := ⟨h.engaged.active, h.engaged.busy⟩
    attended := h.attended
    host := h.host
    shows := h.shows
    loaded := h.loaded
    emptyHanded := h.emptyHanded
    reaching := h.reaching }

theorem unfinished (h : s.Poised c) : s.link.unfinished = [] := by
  obtain ⟨t, hloaded⟩ := h.loaded
  exact List.append_eq_nil_iff.mpr (h.traffic.nothing_unfinished hloaded)

theorem parked (h : s.Poised c) : s.link.worker = .parked :=
  parked_of_attended h.attended h.engaged.active h.unfinished

/-- A step in a whole exchange, or of the application, leaves the link poised if the next transfer
is loaded then. -/
theorem next (h : s.Poised c) (hstep : s.step step = (r, m)) (hlive : step.isLive = true)
    (hwhole : step.exchangesOnly = true) (hopen : step ≠ .busShutdown)
    (hloaded : ∃ t, m.link.bus.loaded = some t) (hheld : m.held = [])
    (hreaching : m.withheld = false) : m.Poised c := by
  obtain rfl : m = (s.step step).2 := by rw [hstep]
  have hkept : (s.step step).2.kept.length ≤ c.holdLimit := by
    rw [kept, hheld]
    exact Nat.zero_le _
  exact
    { stocked_step step hkept h.toStocked with
      willing := (sound_step step hlive h.sound).willing
      engaged := (engaged_step step hlive ⟨h.sound, h.engaged⟩).2
      attended := (attended_step s step hopen ⟨h.toSteady, h.attended⟩).2
      host := (host_step h.toSteady step).trans h.host
      shows := shows_step step hwhole h.toSteady h.shows
      loaded := hloaded
      emptyHanded := hheld
      reaching := hreaching }

end Poised

end Session
end SlaveLink
