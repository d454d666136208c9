import Sircond.SirCon.Lifecycle

/-!
This module contains what the end of the radio interface means for the callers of `Send`: whose
future carries a value after `OnExit`.
-/

namespace CSirCon

open Machine Scp

def Fulfilled (acts : List Action) (id : Nat) : Prop := id ∈ (resolved acts).map Prod.fst

instance (acts : List Action) (id : Nat) : Decidable (Fulfilled acts id) :=
  inferInstanceAs (Decidable (_ ∈ _))

theorem onExit_eq (s : CSirCon) : s.onExit.1.link.queue = [] ∧ s.onExit.2 = [] := by
  unfold onExit
  have hfree : ∀ queue, onExit.free queue = ([], []) := by
    intro queue
    induction queue with
    | nil => rfl
    | cons bufptr queue ih => exact ih
  rw [hfree]
  exact ⟨rfl, rfl⟩

theorem resolved_queued_eq {block : List UInt8} {now : Nat}
    {tr : List (Entry CSirCon Input Action)} {s : CSirCon}
    (hrun : machine.Run (new block now) tr s)
    : (resolved (outputs tr)).map Prod.fst ++ queued s = pushed tr := by
  apply hrun.invariant (I := fun tr s =>
    (resolved (outputs tr)).map Prod.fst ++ queued s = pushed tr)
  . rfl
  . intro tr s a s' acts ih hstep
    have hpushed : pushed (tr ++ [⟨s, a, acts, s'⟩]) = pushed tr ++ a.pushes s := by
      simp [pushed]
    rw [hpushed]
    rw [← ih]
    rw [outputs_append]
    rw [outputs_singleton]
    rw [resolved_append]
    rw [List.map_append]
    rw [List.append_assoc]
    rw [(queueEffect hstep).queued_eq]
    rw [List.append_assoc]

theorem fulfilled_iff {block : List UInt8} {now : Nat} {tr : List (Entry CSirCon Input Action)}
    {s : CSirCon} (hrun : machine.Run (new block now) tr s) {id : Nat} (hid : id ∈ pushed tr)
    : Fulfilled (outputs tr) id ↔ id ∉ queued s := by
  have heq := resolved_queued_eq hrun
  have hnodup : (pushed tr).Nodup := by
    rw [(Lifecycle.of_run hrun).range]
    apply List.nodup_range
  unfold Fulfilled
  rw [← heq, List.nodup_append] at hnodup
  rw [← heq, List.mem_append] at hid
  constructor
  . intro hdone hqueued
    exact hnodup.2.2 id hdone id hqueued rfl
  . intro hqueued
    cases hid with
    | inl hdone => exact hdone
    | inr h => exact absurd h hqueued

/--
Every future `Send` has returned carries a value after `OnExit` if and only if no frame is queued when
`OnExit` empties the queue: the promises of the frames it deletes are never set.
-/
theorem onExit_fulfils_iff {block : List UInt8} {now : Nat} {tr : List (Entry CSirCon Input Action)}
    {s : CSirCon} (hrun : machine.Run (new block now) tr s)
    : (∀ id ∈ pushed tr, Fulfilled (outputs tr ++ s.onExit.2) id) ↔ s.link.queue = [] := by
  rw [s.onExit_eq.2]
  rw [List.append_nil]
  constructor
  . intro hall
    have hempty : queued s = [] := by
      rw [List.eq_nil_iff_forall_not_mem]
      intro id hid
      have hpushed : id ∈ pushed tr := by
        rw [← resolved_queued_eq hrun]
        apply List.mem_append_right _ hid
      apply (fulfilled_iff hrun hpushed).mp (hall id hpushed) hid
    simpa [queued] using hempty
  . intro hempty id hid
    rw [fulfilled_iff hrun hid]
    simp [queued, hempty]

theorem onExit_fulfils_iff_acked
    : ∃ tr s,
        machine.Run (new (List.replicate stageBufSize 0) 1) tr s
          ∧ inputs tr = [.send getRSSI, .timerProc, .receive (ackBytes 0x00 sfAck)]
          ∧ s.link.queue = [] ∧ ∀ id ∈ pushed tr, Fulfilled (outputs tr ++ s.onExit.2) id := by
  obtain ⟨tr, s, hrun, hin, hcheck⟩ := exists_run (show (machine.exec
    (new (List.replicate stageBufSize 0) 1)
    [.send getRSSI, .timerProc, .receive (ackBytes 0x00 sfAck)]).any
    (fun r => r.2.link.queue = []) = true by decide +kernel)
  exact ⟨tr, s, hrun, hin, hcheck,
    (onExit_fulfils_iff hrun).mpr hcheck⟩

theorem onExit_abandons
    : ∃ tr s,
        machine.Run (new (List.replicate stageBufSize 0) 1) tr s
          ∧ inputs tr = [.send getGain, .timerProc]
          ∧ pushed tr = [0] ∧ s.onExit.1.link.queue = []
          ∧ ¬ ∀ id ∈ pushed tr, Fulfilled (outputs tr ++ s.onExit.2) id := by
  obtain ⟨tr, s, hrun, hin, hcheck⟩ := exists_run (show (machine.exec
    (new (List.replicate stageBufSize 0) 1) [.send getGain, .timerProc]).any
    (fun r => pushed r.1 = [0] ∧ r.2.onExit.1.link.queue = []
      ∧ ¬ ∀ id ∈ pushed r.1, Fulfilled (outputs r.1 ++ r.2.onExit.2) id) = true by decide +kernel)
  exact ⟨tr, s, hrun, hin, hcheck⟩

end CSirCon
