import EchProxy.Tunnel.Enforcement
import EchProxy.Tunnel.Progress

/-! # What a Written Byte Says

    A byte reaches the target of a tunnel only if the server opens the tunnel:
    the other direction of what makes a complete run deliver.
-/

namespace EchProxy

namespace TunnelState

variable {setup : TunnelSetup} {s : TunnelState}

/-- The first frame the server takes opens the target of the setup. -/
theorem Inv.first_frame (h : Inv setup s) {target : Open}
    (hhead : s.server.received.head? = some (openFrame target)) : target = setup.target := by
  have hpre := h.received_in_order
  rw [h.client.sent_eq] at hpre
  cases hreceived : s.server.received with
  | nil =>
    rw [hreceived] at hhead
    cases hhead
  | cons frame frames =>
    rw [hreceived, List.head?_cons, Option.some.injEq] at hhead
    rw [hreceived, hhead] at hpre
    split at hpre
    · exact absurd (List.prefix_nil.mp hpre) (List.cons_ne_nil _ _)
    · have hframe := (List.cons_prefix_cons.mp hpre).1
      simpa [openFrame] using hframe

/-- A target was dialed. -/
theorem dialed_of_target (hr : (system setup).Reachable s) (htarget : s.server.target ≠ none) :
    s.server.dials ≠ [] := by
  obtain ⟨-, hguarded⟩ := ServerState.inv_and_guarded (server_reachable hr)
  obtain ⟨t, ht⟩ := Option.ne_none_iff_exists'.mp htarget
  intro hnil
  have hlast := (hguarded.target_passed t ht).1
  rw [hnil] at hlast
  cases hlast

/-- A target exists only after an `Open`. -/
theorem opened_of_target (hr : (system setup).Reachable s) (htarget : s.server.target ≠ none) :
    ∃ target, s.server.received.head? = some (openFrame target) := by
  obtain ⟨-, hguarded⟩ := ServerState.inv_and_guarded (server_reachable hr)
  obtain ⟨target, addrs, hadmitted, -⟩ := hguarded.admitted_dialed (dialed_of_target hr htarget)
  exact ⟨target, hadmitted.first_frame⟩

/-- Whatever is written to the target, the server opened the tunnel for it. -/
theorem opens_of_written (hr : (system setup).Reachable s) (hne : s.server.targetWritten ≠ []) :
    setup.Opens := by
  obtain ⟨-, hguarded⟩ := ServerState.inv_and_guarded (server_reachable hr)
  have htarget : s.server.target ≠ none := by
    intro hnone
    exact hne (by rw [ServerState.targetWritten, hnone]; rfl)
  have hdials := dialed_of_target hr htarget
  have hlet := letIn_iff.mp (hguarded.let_in_touched (.inr hdials))
  obtain ⟨target, addrs, hadmitted, -⟩ := hguarded.admitted_dialed hdials
  obtain rfl := (inv_of_reachable hr).first_frame hadmitted.first_frame
  exact ⟨hlet, .ok addrs, addrs, hadmitted.resolveTarget hguarded⟩

end TunnelState

end EchProxy
