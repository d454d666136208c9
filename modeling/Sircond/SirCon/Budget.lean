import Sircond.SirCon.Lifecycle

/-!
This module contains how often a frame is transmitted. The timer counts its transmissions in the
frame and stops; the answer to a checksum failure reported by the radio transmits without counting.
-/

open Scp Machine

namespace CSirCon

def inFront (s : CSirCon) (id : Nat) : Bool := s.link.queue.head?.any fun front => front.id = id

def ticks (id : Nat) (e : Entry CSirCon Input Action) : Bool :=
  match e.input with
  | .timerProc => e.pre.link.busyTimer = 0 && e.pre.inFront id
  | .send _ => false
  | .receive _ => false

def reportsBadCrc (id : Nat) (e : Entry CSirCon Input Action) : Bool :=
  match e.input with
  | .receive msg => e.pre.link.queue.head?.any fun front => front.id = id ∧ Rejects msg front
  | .send _ => false
  | .timerProc => false

def transmissions (id : Nat) (acts : List Action) : Nat :=
  (transmitted acts).countP fun frame => frame.id = id

theorem transmissions_receive {s s' : CSirCon} {msg : List UInt8} {acts : List Action}
    (hstep : machine.step s (.receive msg) = some (s', acts)) (id : Nat)
    : transmissions id acts = (reportsBadCrc id ⟨s, .receive msg, acts, s'⟩).toNat := by
  have heffect := queueEffect hstep
  unfold transmissions reportsBadCrc
  dsimp only
  generalize s'.link.queue = queue', transmitted acts = tx, resolved acts = res at heffect ⊢
  cases heffect with
  | keep _ _ _ hack =>
    cases hfront : s.link.queue.head? with
    | none => rfl
    | some front => simp [(hack msg front rfl hfront).2]
  | resend _ front rest hqueue hreject =>
    rw [hqueue]
    by_cases hid : front.id = id
    . simp [hid, hreject]
    . simp [hid]
  | success _ front rest hqueue hack =>
    have hreject : ¬ Rejects msg front := fun h => h.not_acknowledges hack
    rw [hqueue]
    simp [hreject]

theorem transmissions_append (id : Nat) (acts₁ acts₂ : List Action)
    : transmissions id (acts₁ ++ acts₂) = transmissions id acts₁ + transmissions id acts₂ := by
  simp [transmissions]

theorem ticks_step {s s' : CSirCon} {acts : List Action}
    (hstep : machine.step s .timerProc = some (s', acts)) (id : Nat)
    : (ticks id ⟨s, .timerProc, acts, s'⟩ = false ∧ transmissions id acts = 0)
        ∨ (ticks id ⟨s, .timerProc, acts, s'⟩ = true
            ∧ ∃ front ∈ s.link.queue, front.id = id
              ∧ transmissions id acts = if front.retries < maxRetries then 1 else 0) := by
  have heffect := queueEffect hstep
  unfold transmissions ticks inFront
  dsimp only
  generalize s'.link.queue = queue', transmitted acts = tx, resolved acts = res at heffect ⊢
  cases heffect with
  | keep a hsend htimer =>
    left
    refine ⟨?_, rfl⟩
    cases hqueue : s.link.queue with
    | nil => simp
    | cons front rest =>
      have hbusy := htimer rfl (by simp [hqueue])
      have hne : s.link.busyTimer ≠ 0 := by omega
      simp [hne]
  | transmit front rest hqueue hbusy hretries =>
    by_cases hid : front.id = id
    . right
      refine ⟨?_, front, ?_, hid, ?_⟩
      . simp [hqueue, hbusy, hid]
      . simp [hqueue]
      . simp [hid, hretries]
    . left
      simp [hqueue, hid]
  | timeout front rest hqueue hbusy hretries =>
    by_cases hid : front.id = id
    . right
      refine ⟨?_, front, ?_, hid, ?_⟩
      . simp [hqueue, hbusy, hid]
      . simp [hqueue]
      . rw [if_neg (by omega)]
        rfl
    . left
      simp [hqueue, hid]

theorem timerTransmissions_eq {block : List UInt8} {now : Nat}
    {tr : List (Entry CSirCon Input Action)} {s : CSirCon}
    (hrun : machine.Run (new block now) tr s) (id : Nat)
    : timerTransmissions id tr = min maxRetries (tr.countP (ticks id)) := by
  apply (hrun.invariant (I := fun tr s => Lifecycle tr s
    ∧ timerTransmissions id tr = min maxRetries (tr.countP (ticks id))) ?_ ?_).2
  . exact ⟨lifecycle_new block now, rfl⟩
  . intro tr s a s' acts ⟨hlife, ih⟩ hstep
    refine ⟨hlife.step hstep, ?_⟩
    rw [timerTransmissions_append, List.countP_append, List.countP_singleton]
    change _ + (if a = .timerProc then transmissions id acts else 0) = _
    cases a with
    | send data => simpa [ticks] using ih
    | receive msg => simpa [ticks] using ih
    | timerProc =>
      rw [if_pos rfl]
      cases ticks_step hstep id with
      | inl h =>
        rw [h.1, h.2]
        simpa using ih
      | inr h =>
        obtain ⟨hticks, front, hfront, hid, htx⟩ := h
        obtain ⟨hretries, hmax⟩ := hlife.retries front hfront
        rw [hid] at hretries
        rw [hticks, htx, if_pos rfl]
        split <;> omega

theorem transmissions_eq {block : List UInt8} {now : Nat}
    {tr : List (Entry CSirCon Input Action)} {s : CSirCon}
    (hrun : machine.Run (new block now) tr s) (id : Nat)
    : transmissions id (outputs tr) = timerTransmissions id tr + tr.countP (reportsBadCrc id) := by
  apply hrun.invariant (I := fun tr _ =>
    transmissions id (outputs tr) = timerTransmissions id tr + tr.countP (reportsBadCrc id))
  . rfl
  . intro tr s a s' acts ih hstep
    rw [timerTransmissions_append, outputs_append, outputs_singleton, transmissions_append, ih,
      List.countP_append, List.countP_singleton]
    change _ + transmissions id acts
      = _ + (if a = .timerProc then transmissions id acts else 0) + _
    cases a with
    | send data =>
      obtain ⟨-, rfl⟩ := Prod.mk.inj (Option.some.inj hstep)
      simp [reportsBadCrc, transmissions, transmitted]
    | timerProc =>
      simp only [reportsBadCrc, if_true, Bool.false_eq_true, if_false]
      omega
    | receive msg =>
      rw [transmissions_receive hstep]
      cases reportsBadCrc id ⟨s, .receive msg, acts, s'⟩ with
      | false => simp
      | true => simp; omega

/--
Every frame is transmitted at most once and retransmitted at most `maxRetries` times if and only if
for every frame the ticks that find it in front, of which `maxRetries` at most make the timer transmit
it, and the acknowledgements that report its checksum wrong are together no more than that.
-/
theorem transmissions_le_iff {block : List UInt8} {now : Nat}
    {tr : List (Entry CSirCon Input Action)} {s : CSirCon}
    (hrun : machine.Run (new block now) tr s)
    : (∀ id, transmissions id (outputs tr) ≤ maxRetries + 1)
        ↔
      ∀ id, min maxRetries (tr.countP (ticks id)) + tr.countP (reportsBadCrc id) ≤ maxRetries + 1 := by
  apply forall_congr'
  intro id
  rw [transmissions_eq hrun, timerTransmissions_eq hrun]

theorem transmissions_le_iff_badCrc
    : ∃ tr s,
        machine.Run (new (List.replicate stageBufSize 0) 1) tr s
          ∧ inputs tr = [.send getRSSI, .timerProc, .receive (ackBytes 0x00 (sfAck ||| sfChksum)),
              .timerProc, .timerProc, .timerProc]
          ∧ transmissions 0 (outputs tr) = 4 ∧ s.link.queue = []
          ∧ ∀ id, transmissions id (outputs tr) ≤ maxRetries + 1 := by
  obtain ⟨tr, s, hrun, hin, hcheck⟩ := exists_run (show (machine.exec
    (new (List.replicate stageBufSize 0) 1) [.send getRSSI, .timerProc,
      .receive (ackBytes 0x00 (sfAck ||| sfChksum)), .timerProc, .timerProc, .timerProc]).any
    (fun r => transmissions 0 (outputs r.1) = 4 ∧ r.2.link.queue = []
      ∧ (r.1.countP fun e => e.input ≠ .timerProc ∧ e.input ≠ .send getRSSI) = 1) = true by
      decide +kernel)
  obtain ⟨htx, hqueue, hcount⟩ := hcheck
  refine ⟨tr, s, hrun, hin, htx, hqueue, (transmissions_le_iff hrun).mpr ?_⟩
  intro id
  have hmax : maxRetries = 3 := rfl
  have hle : tr.countP (reportsBadCrc id) ≤ 1 := by
    rw [← hcount]
    apply List.countP_mono_left
    intro e _ h
    unfold reportsBadCrc at h
    cases hinput : e.input with
    | send data => simp [hinput] at h
    | timerProc => simp [hinput] at h
    | receive msg => simp
  omega

theorem transmissions_badCrc_four
    : ∃ tr s,
        machine.Run (new (List.replicate stageBufSize 0) 1) tr s
          ∧ inputs tr = [.send getRSSI, .timerProc, .receive (ackBytes 0x00 (sfAck ||| sfChksum)),
              .receive (ackBytes 0x00 (sfAck ||| sfChksum)),
              .receive (ackBytes 0x00 (sfAck ||| sfChksum)),
              .receive (ackBytes 0x00 (sfAck ||| sfChksum))]
          ∧ queued s = [0] ∧ transmissions 0 (outputs tr) = 5
          ∧ ¬ ∀ id, transmissions id (outputs tr) ≤ maxRetries + 1 := by
  obtain ⟨tr, s, hrun, hin, hcheck⟩ := exists_run (show (machine.exec
    (new (List.replicate stageBufSize 0) 1)
    [.send getRSSI, .timerProc, .receive (ackBytes 0x00 (sfAck ||| sfChksum)),
      .receive (ackBytes 0x00 (sfAck ||| sfChksum)), .receive (ackBytes 0x00 (sfAck ||| sfChksum)),
      .receive (ackBytes 0x00 (sfAck ||| sfChksum))]).any
    (fun r => queued r.2 = [0] ∧ transmissions 0 (outputs r.1) = 5) = true by decide +kernel)
  refine ⟨tr, s, hrun, hin, hcheck.1, hcheck.2, ?_⟩
  intro h
  have := h 0
  rw [hcheck.2] at this
  simp [maxRetries] at this

end CSirCon
