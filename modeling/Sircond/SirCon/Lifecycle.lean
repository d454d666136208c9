import Sircond.SirCon.Machine
import Mathlib.Data.List.Range

/-!
This module contains the life of a frame in the send queue. A frame is identified by the object made
for it, and the history of a run says when the frame was pushed, how often the timer transmitted it
and in which step its promise was set.
-/

namespace CSirCon

open Machine Scp

def pushed (tr : List (Entry CSirCon Input Action)) : List Nat :=
  tr.flatMap fun e => e.input.pushes e.pre

def leaving (e : Entry CSirCon Input Action) : List Nat :=
  (queued e.pre).filter fun id => id ∉ queued e.post

def timerTransmissions (id : Nat) (tr : List (Entry CSirCon Input Action)) : Nat :=
  (transmitted (outputs (tr.filter fun e => e.input = .timerProc))).countP fun frame => frame.id = id

theorem leaving_eq_nil {e : Entry CSirCon Input Action}
    (h : ∀ id ∈ queued e.pre, id ∈ queued e.post)
    : leaving e = [] := by
  unfold leaving
  rw [List.filter_eq_nil_iff]
  simpa using h

theorem leaving_eq_singleton {e : Entry CSirCon Input Action} {id : Nat}
    (h : queued e.pre = id :: queued e.post) (hnodup : (queued e.pre).Nodup)
    : leaving e = [id] := by
  unfold leaving
  rw [h] at hnodup ⊢
  rw [List.nodup_cons] at hnodup
  rw [List.filter_cons_of_pos]
  . rw [List.filter_eq_nil_iff.mpr]
    simp
  . simpa using hnodup.1

theorem timerTransmissions_append (id : Nat) (tr : List (Entry CSirCon Input Action))
    (e : Entry CSirCon Input Action)
    : timerTransmissions id (tr ++ [e])
        =
      timerTransmissions id tr
        + (if e.input = .timerProc then
            (transmitted e.out).countP fun frame => frame.id = id
          else
            0) := by
  unfold timerTransmissions
  rw [List.filter_append, outputs_append, transmitted_append, List.countP_append]
  congr 1
  split
  . next h => simp [h]
  . next h => simp [h, transmitted]

/--
What the history `tr` of a run says about the frames in the queue: they are the last ones pushed,
and each has been transmitted by the timer as often as its retry counter says.
-/
structure Lifecycle (tr : List (Entry CSirCon Input Action)) (s : CSirCon) : Prop where
  order : tr.flatMap leaving ++ queued s = pushed tr
  range : pushed tr = List.range s.allocs
  retries : ∀ frame ∈ s.link.queue,
    frame.retries = timerTransmissions frame.id tr ∧ frame.retries ≤ maxRetries
  fresh : ∀ id, s.allocs ≤ id → timerTransmissions id tr = 0

theorem lifecycle_new (block : List UInt8) (now : Nat) : Lifecycle [] (new block now) where
  order := rfl
  range := rfl
  retries := by simp [new]
  fresh := by simp [timerTransmissions, transmitted]

theorem Lifecycle.nodup {tr : List (Entry CSirCon Input Action)} {s : CSirCon}
    (h : Lifecycle tr s)
    : (queued s).Nodup := by
  have hrange := List.nodup_range (n := s.allocs)
  rw [← h.range, ← h.order] at hrange
  apply (List.nodup_append.mp hrange).2.1

theorem Lifecycle.lt_allocs {tr : List (Entry CSirCon Input Action)} {s : CSirCon}
    (h : Lifecycle tr s) {frame : MsgBuf} (hframe : frame ∈ s.link.queue)
    : frame.id < s.allocs := by
  rw [← List.mem_range, ← h.range, ← h.order]
  apply List.mem_append_right
  apply List.mem_map_of_mem hframe

theorem Lifecycle.leaving_eq {tr : List (Entry CSirCon Input Action)} {s s' : CSirCon} {a : Input}
    {acts : List Action} (h : Lifecycle tr s) (hstep : machine.step s a = some (s', acts))
    : (resolved acts).map Prod.fst = leaving ⟨s, a, acts, s'⟩ := by
  have hnodup := h.nodup
  have heffect := queueEffect hstep
  generalize hqueue' : s'.link.queue = queue', transmitted acts = tx, resolved acts = res at heffect
  cases heffect with
  | push data =>
    rw [leaving_eq_nil]
    . rfl
    . intro id hid
      simp only [queued, hqueue', List.map_append]
      apply List.mem_append_left
      apply hid
  | keep =>
    rw [leaving_eq_nil]
    . rfl
    . simp [queued, hqueue']
  | transmit front rest hqueue | resend msg front rest hqueue =>
    rw [leaving_eq_nil]
    . rfl
    . simp [queued, hqueue', hqueue]
  | timeout front rest hqueue | success msg front rest hqueue =>
    symm
    apply leaving_eq_singleton
    . simp [queued, hqueue', hqueue]
    . apply hnodup

theorem Lifecycle.retries_step {tr : List (Entry CSirCon Input Action)} {s s' : CSirCon} {a : Input}
    {acts : List Action} (h : Lifecycle tr s) (hstep : machine.step s a = some (s', acts))
    {frame : MsgBuf} (hframe : frame ∈ s'.link.queue)
    : frame.retries = timerTransmissions frame.id (tr ++ [⟨s, a, acts, s'⟩])
        ∧ frame.retries ≤ maxRetries := by
  have hnodup := h.nodup
  rw [timerTransmissions_append]
  have heffect := queueEffect hstep
  generalize s'.link.queue = queue', transmitted acts = tx, resolved acts = res
    at heffect hframe ⊢
  cases heffect with
  | push data =>
    rw [List.mem_append, List.mem_singleton] at hframe
    cases hframe with
    | inl hold => simpa using h.retries frame hold
    | inr hnew =>
      subst hnew
      simp [composeFrame, h.fresh]
  | keep => simpa using h.retries frame hframe
  | transmit front rest hqueue hbusy hmax =>
    simp only [queued, hqueue, List.map_cons, List.nodup_cons, List.mem_map] at hnodup
    have hfront := h.retries front (by simp [hqueue])
    rw [List.mem_cons] at hframe
    cases hframe with
    | inl hfirst =>
      subst hfirst
      simp only [if_true, List.countP_singleton, decide_true]
      omega
    | inr hrest =>
      have hne : front.id ≠ frame.id := by
        intro heq
        apply hnodup.1
        exact ⟨frame, hrest, heq.symm⟩
      simpa [hne] using h.retries frame (by simp [hqueue, hrest])
  | timeout front rest hqueue => simpa using h.retries frame (by simp [hqueue, hframe])
  | resend msg front rest hqueue => simpa using h.retries frame (by rw [hqueue]; exact hframe)
  | success msg front rest hqueue => simpa using h.retries frame (by simp [hqueue, hframe])

theorem Lifecycle.fresh_step {tr : List (Entry CSirCon Input Action)} {s s' : CSirCon} {a : Input}
    {acts : List Action} (h : Lifecycle tr s) (hstep : machine.step s a = some (s', acts)) {id : Nat}
    (hid : s.allocs ≤ id)
    : timerTransmissions id (tr ++ [⟨s, a, acts, s'⟩]) = 0 := by
  rw [timerTransmissions_append, h.fresh id hid]
  have heffect := queueEffect hstep
  generalize s'.link.queue = queue', transmitted acts = tx, resolved acts = res at heffect ⊢
  cases heffect with
  | push | keep | timeout | resend | success => simp
  | transmit front rest hqueue =>
    have hmem : front ∈ s.link.queue := by simp [hqueue]
    have := h.lt_allocs hmem
    have hne : front.id ≠ id := by omega
    simp [hne]

theorem Lifecycle.step {tr : List (Entry CSirCon Input Action)} {s s' : CSirCon} {a : Input}
    {acts : List Action} (h : Lifecycle tr s) (hstep : machine.step s a = some (s', acts))
    : Lifecycle (tr ++ [⟨s, a, acts, s'⟩]) s' := by
  have hallocs := (counters_step hstep).1
  have hpushed : pushed (tr ++ [⟨s, a, acts, s'⟩]) = pushed tr ++ a.pushes s := by
    simp [pushed]
  refine ⟨?_, ?_, ?_, ?_⟩
  . rw [hpushed, ← h.order, List.flatMap_append, List.flatMap_singleton, ← h.leaving_eq hstep]
    rw [List.append_assoc, (queueEffect hstep).queued_eq, List.append_assoc]
  . rw [hpushed, h.range, hallocs]
    cases a with
    | send data => simp [Input.pushes, List.range_succ]
    | timerProc => simp [Input.pushes]
    | receive msg => simp [Input.pushes]
  . intro frame hframe
    apply h.retries_step hstep hframe
  . intro id hid
    apply h.fresh_step hstep
    omega

theorem Lifecycle.of_run {block : List UInt8} {now : Nat} {tr : List (Entry CSirCon Input Action)}
    {s : CSirCon} (hrun : machine.Run (new block now) tr s)
    : Lifecycle tr s := by
  apply hrun.invariant
  . apply lifecycle_new
  . intro tr s a s' acts hlife hstep
    apply hlife.step hstep

theorem transmitted_eq_front {s s' : CSirCon} {a : Input} {acts : List Action}
    (hstep : machine.step s a = some (s', acts)) {frame : MsgBuf} (hframe : frame ∈ transmitted acts)
    : ∃ front, s.link.queue.head? = some front
        ∧ frame = { front with retries := frame.retries } := by
  have heffect := queueEffect hstep
  generalize s'.link.queue = queue', transmitted acts = tx, resolved acts = res at heffect hframe
  cases heffect with
  | push | keep | timeout | success => simp at hframe
  | transmit front rest hqueue | resend msg front rest hqueue =>
    rw [List.mem_singleton] at hframe
    refine ⟨front, ?_, ?_⟩
    . rw [hqueue]
      rfl
    . rw [hframe]

theorem success_mem_resolved_iff {s s' : CSirCon} {a : Input} {acts : List Action}
    (hstep : machine.step s a = some (s', acts)) (id : Nat)
    : (id, .success) ∈ resolved acts
        ↔
      ∃ msg front, a = .receive msg ∧ s.link.queue.head? = some front ∧ front.id = id
        ∧ Acknowledges msg front := by
  have heffect := queueEffect hstep
  generalize s'.link.queue = queue', transmitted acts = tx, resolved acts = res at heffect ⊢
  cases heffect with
  | push | transmit | timeout => simp
  | keep a _ _ hack =>
    simp only [List.not_mem_nil, false_iff, not_exists, not_and]
    intro msg front hmsg hfront _
    apply (hack msg front hmsg hfront).1
  | resend msg front rest hqueue hreject =>
    simp only [List.not_mem_nil, false_iff, not_exists, not_and, hqueue, List.head?_cons]
    rintro _ _ ⟨⟩ ⟨⟩ _
    apply hreject.not_acknowledges
  | success msg front rest hqueue hack =>
    simp only [List.mem_singleton, Prod.mk.injEq, and_true, hqueue, List.head?_cons]
    constructor
    . rintro rfl
      exact ⟨msg, front, rfl, rfl, rfl, hack⟩
    . rintro ⟨_, _, ⟨⟩, ⟨⟩, rfl, _⟩
      rfl

theorem timeout_mem_resolved_iff {s s' : CSirCon} {a : Input} {acts : List Action}
    (hstep : machine.step s a = some (s', acts)) (id : Nat)
    : (id, .timeout) ∈ resolved acts
        ↔
      a = .timerProc ∧ s.link.busyTimer = 0 ∧ ∃ front, s.link.queue.head? = some front
        ∧ front.id = id ∧ maxRetries ≤ front.retries := by
  have heffect := queueEffect hstep
  generalize s'.link.queue = queue', transmitted acts = tx, resolved acts = res at heffect ⊢
  cases heffect with
  | push | resend | success => simp
  | keep a _ htimer =>
    simp only [List.not_mem_nil, false_iff, not_exists, not_and]
    intro ha hbusy front hfront
    have := htimer ha (by
      intro hnil
      simp [hnil] at hfront)
    omega
  | transmit front rest hqueue hbusy hretries =>
    simp [hqueue]
    omega
  | timeout front rest hqueue hbusy hretries =>
    simp [hqueue, hbusy, hretries, eq_comm]

/--
The life of a frame in the send queue: frames leave it in the order they were pushed, only the one
in front is transmitted, and the promise of a frame is set when it leaves: to success by a positive
acknowledgement of it, to timeout by a tick after `maxRetries` transmissions by the timer.
-/
theorem queue_lifecycle {block : List UInt8} {now : Nat} {tr : List (Entry CSirCon Input Action)}
    {s : CSirCon} (hrun : machine.Run (new block now) tr s)
    : (tr.flatMap leaving ++ queued s = pushed tr ∧ (pushed tr).Nodup)
        ∧
      ∀ tr₁ e tr₂, tr = tr₁ ++ e :: tr₂ →
        (∀ frame ∈ transmitted e.out, ∃ front, e.pre.link.queue.head? = some front
            ∧ frame = { front with retries := frame.retries })
          ∧
        (resolved e.out).map Prod.fst = leaving e
          ∧
        (∀ id, (id, .success) ∈ resolved e.out ↔
          ∃ msg front, e.input = .receive msg ∧ e.pre.link.queue.head? = some front
            ∧ front.id = id ∧ Acknowledges msg front)
          ∧
        (∀ id, (id, .timeout) ∈ resolved e.out ↔
          e.input = .timerProc ∧ e.pre.link.busyTimer = 0
            ∧ (∃ front, e.pre.link.queue.head? = some front ∧ front.id = id)
            ∧ timerTransmissions id tr₁ = maxRetries) := by
  have hlife := Lifecycle.of_run hrun
  refine ⟨⟨hlife.order, ?_⟩, ?_⟩
  . rw [hlife.range]
    apply List.nodup_range
  . intro tr₁ e tr₂ htr
    obtain ⟨hrun₁, hstep⟩ := hrun.of_prefix tr₁ e tr₂ htr
    have hlife₁ := Lifecycle.of_run hrun₁
    refine ⟨fun frame => transmitted_eq_front hstep, hlife₁.leaving_eq hstep,
      success_mem_resolved_iff hstep, ?_⟩
    intro id
    rw [timeout_mem_resolved_iff hstep]
    constructor
    . rintro ⟨ha, hbusy, front, hfront, rfl, hmax⟩
      have := hlife₁.retries front (List.mem_of_mem_head? hfront)
      refine ⟨ha, hbusy, ⟨front, hfront, rfl⟩, ?_⟩
      omega
    . rintro ⟨ha, hbusy, ⟨front, hfront, rfl⟩, hcount⟩
      have := hlife₁.retries front (List.mem_of_mem_head? hfront)
      refine ⟨ha, hbusy, front, hfront, rfl, ?_⟩
      omega

theorem queue_lifecycle_giveUp
    : ∃ tr s,
        machine.Run (new (List.replicate stageBufSize 0) 1) tr s
          ∧ inputs tr
              = [.send getRSSI, .timerProc, .timerProc, .send getRSSI, .timerProc, .timerProc, .timerProc,
                  .receive (ackBytes 0x01 sfAck)]
          ∧ resolved (outputs tr) = [(0, .timeout), (1, .success)]
          ∧ tr.flatMap leaving ++ queued s = pushed tr ∧ (pushed tr).Nodup := by
  obtain ⟨tr, s, hrun, hin, hcheck⟩ := exists_run (show (machine.exec
    (new (List.replicate stageBufSize 0) 1) [.send getRSSI, .timerProc, .timerProc, .send getRSSI,
      .timerProc, .timerProc, .timerProc, .receive (ackBytes 0x01 sfAck)]).any
    (fun r => resolved (outputs r.1) = [(0, .timeout), (1, .success)]) = true by decide +kernel)
  refine ⟨tr, s, hrun, hin, hcheck, ?_⟩
  apply (queue_lifecycle hrun).1

end CSirCon
