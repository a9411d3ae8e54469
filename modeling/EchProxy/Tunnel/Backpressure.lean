import EchProxy.Tunnel.Integrity

/-! # Backpressure

    The reading tasks hand their frames over with `send(..).await`, which
    waits for room in a queue of `OUTBOUND_QUEUE` frames.  So a task is never
    more than the queue, and the chunk it holds, ahead of what gRPC takes:
    neither relay buffers more than that, however fast its socket delivers.
-/

namespace EchProxy

open Server Fifo

/-! ## The reading tasks -/

namespace ReadTask

/-- What a task reads comes in chunks, and all but the last one is sent. -/
structure Metered {F : Type} (kit : FrameKit F) (t : ReadTask F) : Prop where
  sent : ∀ f ∈ t.sent, (kit.bytes f).length ≤ dataChunkSize
  hand : ∀ f ∈ t.hand, (kit.bytes f).length ≤ dataChunkSize
  read : t.read.length ≤ (bytesOf kit t.sent).length + dataChunkSize

section metered
variable {F : Type} {kit : FrameKit F} {script : Bytes} {t t' : ReadTask F}

theorem metered_fresh (kit : FrameKit F) (script : Bytes) : Metered kit (fresh script) where
  sent := fun _ hmem => by cases hmem
  hand := fun _ hmem => by cases hmem
  read := Nat.zero_le _

theorem Metered.spawn (h : Metered kit t) : Metered kit t.spawn where
  sent := h.sent
  hand := fun _ hmem => by cases hmem
  read := h.read

theorem Metered.abort (h : Metered kit t) : Metered kit t.abort := by
  unfold ReadTask.abort
  split
  · exact h
  · exact ⟨h.sent, h.hand, h.read⟩

/-- While the task runs, only the frame in hand is not sent yet. -/
theorem Metered.read_of_held (hheld : bytesOf kit (t.sent ++ t.hand) = t.read)
    (hhand : ∀ f ∈ t.hand, (kit.bytes f).length ≤ dataChunkSize) :
    t.read.length ≤ (bytesOf kit t.sent).length + dataChunkSize := by
  rw [← hheld, bytesOf_append, List.length_append]
  refine Nat.add_le_add_left ?_ _
  unfold ReadTask.hand at hhand ⊢
  split at hhand
  · next f _ hpc =>
    rw [bytesOf_singleton]
    exact hhand f (List.mem_singleton.mpr rfl)
  · exact Nat.zero_le _

theorem Metered.step [DecidableEq F] {l : TaskLabel F} (h : Metered kit t)
    (hinv : Inv kit script t) (hs : t.step kit l = some t') : Metered kit t' := by
  have hinv' := hinv.step hs
  cases step_iff.mp hs with
  | @read bytes _ _ hsize _ =>
    have hhand : ∀ f ∈ [kit.data bytes], (kit.bytes f).length ≤ dataChunkSize := by
      intro f hf
      rw [List.mem_singleton.mp hf, kit.bytes_data]
      exact hsize
    exact ⟨h.sent, hhand, read_of_held (hinv'.held (fun hpc => by cases hpc)) hhand⟩
  | eof _ _ =>
    have hhand : ∀ f ∈ [kit.halfClose], (kit.bytes f).length ≤ dataChunkSize := by
      intro f hf
      rw [List.mem_singleton.mp hf, kit.bytes_halfClose]
      exact Nat.zero_le _
    exact ⟨h.sent, hhand, h.read⟩
  | @readErr err _ =>
    have hhand : ∀ f ∈ [kit.reset err], (kit.bytes f).length ≤ dataChunkSize := by
      intro f hf
      rw [List.mem_singleton.mp hf, kit.bytes_reset]
      exact Nat.zero_le _
    exact ⟨h.sent, hhand, h.read⟩
  | @send frame last hpc =>
    have hframe := h.hand frame (by simp [ReadTask.hand, hpc])
    refine ⟨List.forall_mem_append.mpr ⟨h.sent, fun f hf => ?_⟩, fun f hf => ?_, ?_⟩
    · rw [List.mem_singleton.mp hf]
      exact hframe
    · cases last <;> cases hf
    · show t.read.length ≤ (bytesOf kit (t.sent ++ [frame])).length + dataChunkSize
      have hmore := h.read
      rw [bytesOf_append, List.length_append]
      omega
  -- a frame in hand may be dropped, but only one
  | sendFail _ | cancel _ _ _ => exact ⟨h.sent, fun _ hf => (by cases hf), h.read⟩

end metered

end ReadTask

namespace TunnelState

/-! ## A whole tunnel -/

/-- The connection bytes in some frames, counted. -/
def clientLoad (frames : List ClientFrame) : Nat :=
  load (fun frame => frame.bytes.length) frames

def serverLoad (frames : List ServerFrame) : Nat :=
  load (fun frame => frame.bytes.length) frames

/-- Neither relay runs ahead of gRPC by more than its queue and one chunk.  The
    client's first frame is the `Open`, which does not come from the socket. -/
structure Backpressure (s : TunnelState) : Prop where
  up_queue : s.cq.queue.length ≤ outboundQueue
  down_queue : s.sq.queue.length ≤ outboundQueue
  up_read : s.client.task.read.length
    ≤ clientLoad s.cq.taken.tail + (outboundQueue + 1) * dataChunkSize
  down_read : s.server.task.read.length
    ≤ serverLoad s.sq.taken + (outboundQueue + 1) * dataChunkSize

/-- The queues are fed through `offer` alone, and the tasks by chunks. -/
structure Bounded (s : TunnelState) : Prop where
  cq : s.cq.Within outboundQueue
  sq : s.sq.Within outboundQueue
  client : s.client.task.Metered clientKit
  server : s.server.task.Metered serverKit

section backpressure
variable {setup : TunnelSetup} {s s' : TunnelState}

/-- The task after a step of the main loop or its own. -/
theorem metered_of_effect {F : Type} [DecidableEq F] {kit : FrameKit F} {script : Bytes}
    {t t' : ReadTask F} (h : t.Metered kit) (hinv : ReadTask.Inv kit script t)
    (htask : (∃ tl, t.step kit tl = some t') ∨ t' = t ∨ t' = t.abort ∨ t' = t.spawn) :
    t'.Metered kit := by
  rcases htask with ⟨tl, ht⟩ | rfl | rfl | rfl
  · exact h.step hinv ht
  · exact h
  · exact h.abort
  · exact h.spawn

theorem Bounded.step {l : TunnelLabel} (h : Bounded s) (hinv : Inv setup s)
    (hs : s.step setup l = some s') : Bounded s' := by
  cases step_iff.mp hs with
  | client _ hclient hcq _ =>
    refine { h with cq := h.cq.offer hcq, client := metered_of_effect h.client hinv.client.task ?_ }
    rcases (ClientState.step_effect hclient).task with ⟨tl, -, ht⟩ | heq | heq | ⟨-, heq⟩
    · exact .inl ⟨tl, ht⟩
    · exact .inr (.inl heq)
    · exact .inr (.inr (.inl heq))
    · exact .inr (.inr (.inr heq))
  | server _ hserver hsq _ =>
    refine { h with sq := h.sq.offer hsq, server := metered_of_effect h.server hinv.server.task ?_ }
    rcases (ServerState.step_effect hserver).task with ⟨tl, -, ht⟩ | heq | heq | ⟨-, heq⟩
    · exact .inl ⟨tl, ht⟩
    · exact .inr (.inl heq)
    · exact .inr (.inr (.inl heq))
    · exact .inr (.inr (.inr heq))
  | pumpUp _ hpop _ => exact { h with cq := h.cq.pop hpop }
  | pumpDown hpop _ => exact { h with sq := h.sq.pop hpop }
  | endUp _ _ _ _ | endDown _ _ _ | cutUp _ | cutDown _ => exact { h with }
  | dropUp _ => exact { h with cq := h.cq.cut 0 }
  | dropDown _ => exact { h with sq := h.sq.cut 0 }

theorem bounded_of_reachable (hr : (system setup).Reachable s) : Bounded s := by
  refine Lts.System.invariant_of_reachable (system setup) Bounded ?_ ?_ s hr
  · rintro s rfl
    exact ⟨.fresh, .fresh, ReadTask.metered_fresh _ _, ReadTask.metered_fresh _ _⟩
  · intro s l s' hr h hs
    exact h.step (inv_of_reachable hr) hs

/-- Only the reading task's frames carry bytes, so none carries more than a chunk. -/
theorem Bounded.server_frame (h : Bounded s) (hinv : Inv setup s) :
    ∀ frame ∈ s.server.sent, frame.bytes.length ≤ dataChunkSize := by
  intro frame hmem
  by_cases hstream : frame.isStream = true
  · have hin : frame ∈ s.server.task.sent.filter ServerFrame.isStream := by
      rw [← hinv.server.stream]
      exact List.mem_filter.mpr ⟨hmem, hstream⟩
    exact h.server.sent frame (List.mem_filter.mp hin).1
  · obtain ⟨payload⟩ := frame
    rcases payload with _ | (result | bytes | _ | reason | millis)
    case some.data => exact absurd rfl hstream
    all_goals exact Nat.zero_le _

/-- **Backpressure**, over every run, the faults included. -/
theorem backpressure (hr : (system setup).Reachable s) : Backpressure s := by
  have h := bounded_of_reachable hr
  have hinv := inv_of_reachable hr
  refine ⟨h.cq.queue_le, h.sq.queue_le, ?_, ?_⟩
  · -- what the task has sent is what entered the queue after the `Open`
    have htail : s.cq.sent.tail = s.client.task.sent := by
      rw [hinv.wired.cq_sent, hinv.client.sent_eq]
      split
      · next hstart =>
        have hidle := (hinv.client.not_spawned (by rw [hstart]; rfl)).1
        exact (hinv.client.task.not_spawned hidle).1.symm
      · rfl
    have hpre : s.cq.taken.tail <+: s.cq.sent.tail := by
      obtain ⟨rest, hrest⟩ := s.cq.taken_prefix_sent
      rw [← hrest]
      cases s.cq.taken with
      | nil => exact List.nil_prefix
      | cons frame frames => exact List.prefix_append frames rest
    have hlen : s.cq.sent.tail.length ≤ s.cq.taken.tail.length + outboundQueue := by
      have hwithin := h.cq
      unfold Link.Within at hwithin
      rw [List.length_tail, List.length_tail]
      omega
    have hload := load_le_of_prefix (fun frame : ClientFrame => frame.bytes.length)
      (m := dataChunkSize) hpre hlen ?_
    · have hread := h.client.read
      have hsent : (ReadTask.bytesOf clientKit s.client.task.sent).length
          = clientLoad s.cq.sent.tail := by
        rw [htail, ReadTask.bytesOf, List.length_flatMap]
        rfl
      rw [hsent] at hread
      rw [Nat.succ_mul, ← Nat.add_assoc]
      exact hread.trans (Nat.add_le_add_right hload _)
    · rw [htail]
      exact h.client.sent
  · have hload := load_le_of_prefix (fun frame : ServerFrame => frame.bytes.length)
      (m := dataChunkSize) s.sq.taken_prefix_sent h.sq ?_
    · have hread := h.server.read
      have hsent : (ReadTask.bytesOf serverKit s.server.task.sent).length
          = serverLoad s.sq.sent := by
        rw [← hinv.server_bytes, hinv.wired.sq_sent, List.length_flatMap]
        rfl
      rw [hsent] at hread
      rw [Nat.succ_mul, ← Nat.add_assoc]
      exact hread.trans (Nat.add_le_add_right hload _)
    · rw [hinv.wired.sq_sent]
      exact h.server_frame hinv

end backpressure

/-- The local side has spoken and closed; both its frames are still on their way into
    the queue's other end. -/
theorem backpressure_example :
    ∃ s, (system exampleSetup).run (fresh exampleSetup) (exampleOpen ++
        [.client (.task (.read [2, 3])), .client (.task (.send (dataFrame [2, 3]) false)),
          .client (.task .eof)]) = some s ∧
      s.cq.queue = [dataFrame [2, 3]] ∧ s.client.task.read.length = 2 ∧ Backpressure s := by
  obtain ⟨s, hrun⟩ : ∃ s, (system exampleSetup).run (fresh exampleSetup) (exampleOpen ++
      [.client (.task (.read [2, 3])), .client (.task (.send (dataFrame [2, 3]) false)),
        .client (.task .eof)]) = some s := ⟨_, rfl⟩
  have hseen : ((system exampleSetup).run (fresh exampleSetup) (exampleOpen ++
      [.client (.task (.read [2, 3])), .client (.task (.send (dataFrame [2, 3]) false)),
        .client (.task .eof)])).map (fun s => (s.cq.queue, s.client.task.read.length))
      = some ([dataFrame [2, 3]], 2) := rfl
  rw [hrun, Option.map_some, Option.some.injEq, Prod.mk.injEq] at hseen
  have hr := Lts.System.reachable_of_run (.init rfl) hrun
  exact ⟨s, hrun, hseen.1, hseen.2, backpressure hr⟩

end TunnelState

end EchProxy
