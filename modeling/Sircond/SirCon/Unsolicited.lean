import Sircond.SirCon.Lifecycle

/-!
This module contains what an acknowledgement is worth: a frame counts as received as soon as some
positive acknowledgement carries its sequence number, whether it has been transmitted or not.
-/

namespace CSirCon

open Machine Scp

/--
What makes the radio interface transmit the frame in front: a tick that finds the busy timer at zero,
or an acknowledgement that asks for the frame again.
-/
inductive Calls (s : CSirCon) (front : MsgBuf) : Input → Prop
  | tick (hbusy : s.link.busyTimer = 0) : Calls s front .timerProc
  | reject (msg : List UInt8) (h : Rejects msg front) : Calls s front (.receive msg)

def Called (id : Nat) (tr : List (Entry CSirCon Input Action)) : Prop :=
  ∃ e ∈ tr, ∃ front, e.pre.link.queue.head? = some front ∧ front.id = id
    ∧ Calls e.pre front e.input

def Transmitted (id : Nat) (tr : List (Entry CSirCon Input Action)) : Prop :=
  ∃ frame ∈ transmitted (outputs tr), frame.id = id

theorem calls_of_transmitted {s s' : CSirCon} {a : Input} {acts : List Action}
    (hstep : machine.step s a = some (s', acts)) {frame : MsgBuf} (h : frame ∈ transmitted acts)
    : ∃ front, s.link.queue.head? = some front ∧ front.id = frame.id ∧ Calls s front a := by
  have heffect := queueEffect hstep
  generalize s'.link.queue = queue', transmitted acts = tx, resolved acts = res at heffect h
  cases heffect with
  | push | keep | timeout | success => simp at h
  | transmit front rest hqueue hbusy =>
    obtain rfl := List.mem_singleton.mp h
    rw [hqueue]
    exact ⟨front, rfl, rfl, .tick hbusy⟩
  | resend msg front rest hqueue hreject =>
    obtain rfl := List.mem_singleton.mp h
    rw [hqueue]
    exact ⟨frame, rfl, rfl, .reject msg hreject⟩

theorem transmitted_of_countP {id : Nat} {tr : List (Entry CSirCon Input Action)}
    (h : 0 < timerTransmissions id tr)
    : Transmitted id tr := by
  unfold timerTransmissions at h
  rw [List.countP_pos_iff] at h
  obtain ⟨frame, hframe, hid⟩ := h
  rw [decide_eq_true_eq] at hid
  refine ⟨frame, ?_, hid⟩
  unfold transmitted outputs at hframe ⊢
  rw [List.mem_filterMap] at hframe ⊢
  obtain ⟨act, hact, heq⟩ := hframe
  rw [List.mem_flatMap] at hact
  obtain ⟨e, he, hact⟩ := hact
  exact ⟨act, List.mem_flatMap.mpr ⟨e, List.mem_of_mem_filter he, hact⟩, heq⟩

theorem Transmitted.append {id : Nat} {tr₁ : List (Entry CSirCon Input Action)}
    (h : Transmitted id tr₁) (tr₂ : List (Entry CSirCon Input Action))
    : Transmitted id (tr₁ ++ tr₂) := by
  obtain ⟨frame, hframe, hid⟩ := h
  refine ⟨frame, ?_, hid⟩
  rw [outputs_append, transmitted_append, List.mem_append]
  left
  exact hframe

theorem Called.append {id : Nat} {tr₁ : List (Entry CSirCon Input Action)} (h : Called id tr₁)
    (tr₂ : List (Entry CSirCon Input Action))
    : Called id (tr₁ ++ tr₂) := by
  obtain ⟨e, he, h⟩ := h
  exact ⟨e, List.mem_append_left _ he, h⟩

theorem transmitted_step_of_calls {tr : List (Entry CSirCon Input Action)} {s s' : CSirCon}
    {a : Input} {acts : List Action} (hlife : Lifecycle tr s)
    (hstep : machine.step s a = some (s', acts)) {front : MsgBuf}
    (hfront : s.link.queue.head? = some front) (h : Calls s front a)
    : Transmitted front.id (tr ++ [⟨s, a, acts, s'⟩]) := by
  have hnew : ∀ frame ∈ transmitted acts, frame.id = front.id →
      Transmitted front.id (tr ++ [⟨s, a, acts, s'⟩]) := by
    intro frame hframe hid
    refine ⟨frame, ?_, hid⟩
    rw [outputs_append, transmitted_append, outputs_singleton, List.mem_append]
    right
    exact hframe
  have heffect := queueEffect hstep
  generalize s'.link.queue = queue', transmitted acts = tx, resolved acts = res at heffect hnew
  cases h with
  | reject msg hreject =>
    cases heffect with
    | keep _ _ _ hack => exact absurd hreject (hack msg front rfl hfront).2
    | resend _ first rest hqueue =>
      rw [hqueue, List.head?_cons, Option.some.injEq] at hfront
      subst hfront
      apply hnew _ (List.mem_singleton.mpr rfl) rfl
    | success _ first rest hqueue hack =>
      rw [hqueue, List.head?_cons, Option.some.injEq] at hfront
      subst hfront
      exact absurd hack hreject.not_acknowledges
  | tick hbusy =>
    cases heffect with
    | keep _ _ htimer =>
      have hne : s.link.queue ≠ [] := by
        intro hnil
        simp [hnil] at hfront
      have := htimer rfl hne
      omega
    | transmit first rest hqueue =>
      rw [hqueue, List.head?_cons, Option.some.injEq] at hfront
      subst hfront
      apply hnew _ (List.mem_singleton.mpr rfl) rfl
    | timeout first rest hqueue _ hmax =>
      -- Giving up on a frame means that the timer has transmitted it before.
      rw [hqueue, List.head?_cons, Option.some.injEq] at hfront
      subst hfront
      have hretries := hlife.retries first (by simp [hqueue])
      apply Transmitted.append
      apply transmitted_of_countP
      rw [← hretries.1]
      apply Nat.lt_of_lt_of_le _ hmax
      decide

theorem transmitted_iff_called {block : List UInt8} {now : Nat}
    {tr : List (Entry CSirCon Input Action)} {s : CSirCon}
    (hrun : machine.Run (new block now) tr s) (id : Nat)
    : Transmitted id tr ↔ Called id tr := by
  have hboth : Lifecycle tr s ∧ (Transmitted id tr ↔ Called id tr) := by
    apply hrun.invariant (I := fun tr s => Lifecycle tr s ∧ (Transmitted id tr ↔ Called id tr))
    . refine ⟨lifecycle_new block now, ?_⟩
      simp [Transmitted, Called, transmitted]
    . intro tr s a s' acts ih hstep
      refine ⟨ih.1.step hstep, ?_⟩
      constructor
      . rintro ⟨frame, hframe, hid⟩
        rw [outputs_append, transmitted_append, outputs_singleton, List.mem_append] at hframe
        cases hframe with
        | inl hold =>
          apply Called.append
          apply ih.2.mp ⟨frame, hold, hid⟩
        | inr hnew =>
          obtain ⟨front, hfront, hfid, hcalls⟩ := calls_of_transmitted hstep hnew
          exact ⟨⟨s, a, acts, s'⟩, by simp, front, hfront, hfid.trans hid, hcalls⟩
      . rintro ⟨e, he, front, hfront, hid, hcalls⟩
        rw [List.mem_append, List.mem_singleton] at he
        cases he with
        | inl hold =>
          apply Transmitted.append
          apply ih.2.mpr ⟨e, hold, front, hfront, hid, hcalls⟩
        | inr hnew =>
          subst hnew
          rw [← hid]
          apply transmitted_step_of_calls ih.1 hstep hfront hcalls
  apply hboth.2

/--
A frame is reported as received only after it has been transmitted if and only if every positive
acknowledgement of the frame in front comes after a tick or a request to send the frame again that
found this frame in front: an acknowledgement is matched by its sequence number alone.
-/
theorem success_transmitted_iff {block : List UInt8} {now : Nat}
    {tr : List (Entry CSirCon Input Action)} {s : CSirCon}
    (hrun : machine.Run (new block now) tr s)
    : (∀ tr₁ e tr₂, tr = tr₁ ++ e :: tr₂ → ∀ id, (id, .success) ∈ resolved e.out →
          Transmitted id tr₁)
        ↔
      ∀ tr₁ e tr₂, tr = tr₁ ++ e :: tr₂ → ∀ msg front, e.input = .receive msg →
        e.pre.link.queue.head? = some front → Acknowledges msg front → Called front.id tr₁ := by
  constructor
  . intro hsuccess tr₁ e tr₂ htr msg front ha hfront hack
    obtain ⟨hrun₁, hstep⟩ := hrun.of_prefix tr₁ e tr₂ htr
    apply (transmitted_iff_called hrun₁ front.id).mp
    apply hsuccess tr₁ e tr₂ htr
    exact (success_mem_resolved_iff hstep front.id).mpr ⟨msg, front, ha, hfront, rfl, hack⟩
  . intro hcalled tr₁ e tr₂ htr id hid
    obtain ⟨hrun₁, hstep⟩ := hrun.of_prefix tr₁ e tr₂ htr
    obtain ⟨msg, front, ha, hfront, rfl, hack⟩ := (success_mem_resolved_iff hstep id).mp hid
    apply (transmitted_iff_called hrun₁ front.id).mpr
    apply hcalled tr₁ e tr₂ htr msg front ha hfront hack

theorem success_transmitted_iff_tick
    : ∃ tr s,
        machine.Run (new (List.replicate stageBufSize 0) 1) tr s
          ∧ inputs tr = [.send getRSSI, .timerProc, .receive (ackBytes 0x00 sfAck)]
          ∧ resolved (outputs tr) = [(0, .success)]
          ∧ ((∀ tr₁ e tr₂, tr = tr₁ ++ e :: tr₂ → ∀ id, (id, .success) ∈ resolved e.out →
                Transmitted id tr₁)
              ↔
            ∀ tr₁ e tr₂, tr = tr₁ ++ e :: tr₂ → ∀ msg front, e.input = .receive msg →
              e.pre.link.queue.head? = some front → Acknowledges msg front →
                Called front.id tr₁) := by
  obtain ⟨tr, s, hrun, hin, hcheck⟩ := exists_run (show (machine.exec
    (new (List.replicate stageBufSize 0) 1)
    [.send getRSSI, .timerProc, .receive (ackBytes 0x00 sfAck)]).any
    (fun r => resolved (outputs r.1) = [(0, .success)]) = true by decide +kernel)
  exact ⟨tr, s, hrun, hin, hcheck,
    success_transmitted_iff hrun⟩

theorem success_of_stale_ack
    : ∃ tr s,
        machine.Run (new (List.replicate stageBufSize 0) 1) tr s
          ∧ inputs tr = [.send (setPower 0x03), .receive (ackBytes 0x00 sfAck)]
          ∧ transmitted (outputs tr) = []
          ∧ ¬ ∀ tr₁ e tr₂, tr = tr₁ ++ e :: tr₂ → ∀ id, (id, .success) ∈ resolved e.out →
              Transmitted id tr₁ := by
  obtain ⟨tr, s, hrun, hin, hcheck⟩ := exists_run (show (machine.exec
    (new (List.replicate stageBufSize 0) 1)
    [.send (setPower 0x03), .receive (ackBytes 0x00 sfAck)]).any
    (fun r => transmitted (outputs r.1) = [] ∧ ∃ e ∈ r.1, (0, .success) ∈ resolved e.out) = true
    by decide +kernel)
  obtain ⟨hnone, e, he, hsuccess⟩ := hcheck
  refine ⟨tr, s, hrun, hin, hnone, ?_⟩
  intro hall
  obtain ⟨tr₁, tr₂, htr⟩ := List.append_of_mem he
  have hbefore := (hall tr₁ e tr₂ htr 0 hsuccess).append (e :: tr₂)
  rw [← htr] at hbefore
  obtain ⟨frame, hframe, -⟩ := hbefore
  simp [hnone] at hframe

end CSirCon
