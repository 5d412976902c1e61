import SlaveLink.Proofs.Session.Poised
import SlaveLink.Proofs.Simulation.View

/-! # One round of a simulation
After each exchange the slave has received every frame that the host sent, and one more of its own
frames is on the wire, as long as there is one. Submission may stop at a full queue; what waits
there keeps the wire busy until it goes on. -/

namespace SlaveLink

structure Plan.Suits (c : LinkConfig) (p : Plan) : Prop where
  interfaces : p.interfaces ≠ []
  data : ∀ i ∈ p.interfaces, i.carriesData = true
  nonempty : 1 ≤ p.payloadSize
  fit : p.payloadSize ≤ c.frame.maxPayload

namespace Plan

variable {c : LinkConfig} {p : Plan}

theorem getElem?_interfaceAt (h : p.interfaces ≠ []) (k : Nat) :
    p.interfaces[k % p.interfaces.length]? = some (p.interfaceAt k) := by
  have hk : k % p.interfaces.length < p.interfaces.length :=
    Nat.mod_lt _ (List.length_pos_iff.mpr h)
  rw [interfaceAt, List.getD_eq_getElem?_getD, List.getElem?_eq_getElem hk, Option.getD_some]

theorem Suits.carriesData (h : p.Suits c) (k : Nat) : (p.interfaceAt k).carriesData = true :=
  h.data _ (List.mem_of_getElem? (getElem?_interfaceAt h.interfaces k))

end Plan

namespace Simulation

open Session (Poised History Step)
open HostView (framesBehind)

variable {machine : Machine} {c : LinkConfig} {p : Plan} {history : History} {s : Simulation}
  {block : Bytes}

/-- A simulation between two rounds, with what the host was handed and the slave accepted so far. -/
structure Between (c : LinkConfig) (p : Plan) (history : History) (s : Simulation) : Prop where
  poised : s.session.Poised c
  sends : s.session.link.Sends c history.handed history.accepted
  accepted : history.accepted.map (·.interface) = (List.range s.submitted).map p.interfaceAt
  plain : ∀ f ∈ history.accepted, f.packetType = 0
  submitted : s.submitted ≤ p.frames
  idle : s.session.link.mux.rx.total = 0
  hostSent : s.hostSent = min history.handed.length p.hostFrames
  received : s.received = s.hostSent
  /-- The loaded transfer carries one frame more than the host was handed, if there is one. -/
  carried : (framesIn c.frame ((Outbound.wire history.handed
    s.session.link.bus.loaded).drop 1)).length = min history.handed.length p.frames
  seen : (framesBehind c.frame history.handed).length = min (history.handed.length - 1) p.frames
  fresh : history.handed = [] → s.view = {}
  view : history.handed ≠ [] → s.view.Sees history.handed.length
    (framesBehind c.frame history.handed)

def Supplied (c : LinkConfig) (p : Plan) (s : Simulation) : Prop :=
  s.submitted = p.frames ∨ ∃ q, s.session.link.mux.tx.length q = c.txDepths.get q

/-- What of the accepted frames was sent, and what waits. -/
theorem Between.conserved (h : Between c p history s) :
    min history.handed.length p.frames + s.session.link.mux.tx.total = s.submitted := by
  have htotal := h.sends.faithful.length_add_total
  have haccepted := congrArg List.length h.accepted
  rw [List.length_map, List.length_map, List.length_range] at haccepted
  rw [h.carried, haccepted] at htotal
  exact htotal

theorem Between.exchanges (h : Between c p history s) :
    s.view.exchanges = history.handed.length := by
  by_cases hnone : history.handed = []
  · rw [h.fresh hnone, hnone]
    rfl
  · exact (h.view hnone).exchanges

end Simulation
end SlaveLink
