import Sircond.SirCon.Machine

/-!
This module contains how long a request may stay unanswered. Every tick of the timer brings the
promise of a queued frame closer, unless the radio has replied that it is busy, which costs one tick.
`patience` is the number of ticks that are left.
-/

open Scp Machine

namespace CSirCon

def patience.go (id : Nat) : List MsgBuf → Nat
  | [] => 0
  | bufptr :: rest =>
    maxRetries + 1 - bufptr.retries + if bufptr.id = id then 0 else go id rest

def patience (s : CSirCon) (id : Nat) : Nat := s.link.busyTimer + patience.go id s.link.queue

def ReportsBusy (msg : List UInt8) : Prop :=
  (SHdr.ofBytes msg).flags &&& sfAck ≠ 0 ∧ (SHdr.ofBytes msg).flags &&& sfBusy ≠ 0

instance (msg : List UInt8) : Decidable (ReportsBusy msg) := inferInstanceAs (Decidable (_ ∧ _))

def Input.isTick : Input → Bool
  | .timerProc => true
  | .send _ | .receive _ => false

def Input.isBusy : Input → Bool
  | .receive msg => ReportsBusy msg
  | .send _ | .timerProc => false

theorem patience.go_append {id : Nat} {queue : List MsgBuf} (h : id ∈ queue.map MsgBuf.id)
    (rest : List MsgBuf)
    : patience.go id (queue ++ rest) = patience.go id queue := by
  induction queue with
  | nil => simp at h
  | cons bufptr queue ih =>
    rw [List.cons_append, go, go]
    split
    . rfl
    . next hne =>
      rw [ih]
      simpa [Ne.symm hne] using h

theorem patience.go_le (id : Nat) (queue : List MsgBuf)
    : patience.go id queue ≤ (maxRetries + 1) * queue.length := by
  induction queue with
  | nil => simp [go]
  | cons bufptr queue ih =>
    rw [go, List.length_cons, Nat.mul_add]
    split <;> omega

theorem patience_le (s : CSirCon) (id : Nat)
    : patience s id ≤ (maxRetries + 1) * s.link.queue.length + s.link.busyTimer := by
  have hgo := patience.go_le id s.link.queue
  unfold patience
  omega

theorem busyTimer_onAckFrame (l : Link) (hdr : SHdr)
    : (onAckFrame l hdr).1.busyTimer = l.busyTimer
        ∨ (onAckFrame l hdr).1.busyTimer = busyDelayCount ∧ hdr.flags &&& sfBusy ≠ 0 := by
  unfold onAckFrame
  split
  . exact .inl rfl
  . split
    . split
      . exact .inl rfl
      . split
        . next hbusy => exact .inr ⟨rfl, hbusy⟩
        . exact .inl rfl
    . exact .inl rfl

/-- A frame whose checksum fails is handled too: nothing is left of it but the answer. -/
theorem busyTimer_onFrame (s : CSirCon) (msg : List UInt8)
    : (s.onFrame msg).1.link.busyTimer ≤ s.link.busyTimer + (decide (ReportsBusy msg)).toNat := by
  unfold onFrame onMessage
  dsimp only
  split
  . split
    . next hack =>
      rcases busyTimer_onAckFrame s.link (SHdr.ofBytes msg) with hsame | ⟨hset, hbusy⟩
      . dsimp only
        omega
      . have hreports : ReportsBusy msg := ⟨hack, hbusy⟩
        have hdelay : busyDelayCount = 1 := rfl
        dsimp only
        rw [hset, decide_eq_true hreports]
        simp [hdelay]
    . exact Nat.zero_le _
  . exact Nat.le_add_right _ _

theorem busyTimer_timerProc (s : CSirCon)
    : s.timerProc.1.link.busyTimer + (decide (0 < s.link.busyTimer)).toNat = s.link.busyTimer := by
  unfold timerProc
  split
  . next hbusy =>
    rw [decide_eq_true hbusy]
    simp only [Bool.toNat_true]
    omega
  . next hbusy =>
    rw [decide_eq_false hbusy]
    split
    . rfl
    . dsimp only
      split <;> rfl

def Persistent (s : CSirCon) : Prop := ∀ bufptr ∈ s.link.queue, bufptr.retries ≤ maxRetries

theorem persistent_new (block : List UInt8) (now : Nat) : Persistent (new block now) := by
  simp [Persistent, new]

theorem Persistent.send {s : CSirCon} (h : Persistent s) (data : Payload)
    : Persistent (s.send data).1 := by
  intro bufptr hbufptr
  have hqueue : (s.send data).1.link.queue = s.link.queue ++ [(s.composeFrame data).1] := rfl
  rw [hqueue, List.mem_append, List.mem_singleton] at hbufptr
  rcases hbufptr with hold | rfl
  . apply h bufptr hold
  . exact Nat.zero_le _

theorem Persistent.timerProc {s : CSirCon} (h : Persistent s) : Persistent s.timerProc.1 := by
  unfold Persistent at *
  have heffect := queueEffect_timerProc s
  generalize s.timerProc.1.link.queue = queue', transmitted s.timerProc.2 = tx,
    resolved s.timerProc.2 = res at heffect ⊢
  cases heffect with
  | keep => apply h
  | transmit front rest hqueue _ hmax =>
    rw [hqueue] at h
    rw [List.forall_mem_cons] at h ⊢
    exact ⟨hmax, h.2⟩
  | timeout front rest hqueue =>
    rw [hqueue, List.forall_mem_cons] at h
    apply h.2

theorem onFrame_queue (s : CSirCon) (msg : List UInt8)
    : (s.onFrame msg).1.link.queue = s.link.queue ∧ resolved (s.onFrame msg).2 = []
        ∨ ∃ front rest, s.link.queue = front :: rest ∧ (s.onFrame msg).1.link.queue = rest
          ∧ resolved (s.onFrame msg).2 = [(front.id, .success)]
          ∧ (SHdr.ofBytes msg).flags &&& sfAck ≠ 0 := by
  unfold onFrame onMessage
  dsimp only
  split
  . split
    . next hack =>
      unfold onAckFrame
      split
      . exact .inl ⟨rfl, rfl⟩
      . next front rest hqueue =>
        split
        . split
          . exact .inl ⟨rfl, rfl⟩
          . split
            . exact .inl ⟨rfl, rfl⟩
            . exact .inr ⟨front, rest, hqueue, rfl, rfl, hack⟩
        . exact .inl ⟨rfl, rfl⟩
    . left
      refine ⟨rfl, ?_⟩
      dsimp only
      split <;> rfl
  . exact .inl ⟨rfl, rfl⟩

theorem Persistent.onFrame {s : CSirCon} (h : Persistent s) (msg : List UInt8)
    : Persistent (s.onFrame msg).1 := by
  unfold Persistent at *
  rcases onFrame_queue s msg with ⟨hsame, -⟩ | ⟨front, rest, hqueue, hrest, -⟩
  . rw [hsame]
    apply h
  . rw [hqueue, List.forall_mem_cons] at h
    rw [hrest]
    apply h.2

theorem Persistent.step {s s' : CSirCon} {a : Input} {acts : List Action} (h : Persistent s)
    (hstep : machine.step s a = some (s', acts))
    : Persistent s' := by
  cases a with
  | send data =>
    obtain ⟨rfl, -⟩ := Prod.mk.inj (Option.some.inj hstep)
    apply h.send
  | timerProc =>
    have heq : s.timerProc = (s', acts) := Option.some.inj hstep
    have htimer := h.timerProc
    rw [heq] at htimer
    apply htimer
  | receive msg =>
    simp only [machine] at hstep
    split at hstep
    . have heq : s.onFrame msg = (s', acts) := Option.some.inj hstep
      have hframe := h.onFrame msg
      rw [heq] at hframe
      apply hframe
    . simp at hstep

theorem patience_send {s : CSirCon} {id : Nat} (h : id ∈ queued s) (data : Payload)
    : id ∈ queued (s.send data).1 ∧ patience (s.send data).1 id = patience s id := by
  have hqueue : (s.send data).1.link.queue = s.link.queue ++ [(s.composeFrame data).1] := rfl
  have hbusy : (s.send data).1.link.busyTimer = s.link.busyTimer := rfl
  constructor
  . unfold queued at h ⊢
    rw [hqueue, List.map_append]
    apply List.mem_append_left _ h
  . unfold patience
    rw [hqueue, hbusy, patience.go_append h]

theorem patience_timerProc {s : CSirCon} {id : Nat} (hretries : Persistent s) (h : id ∈ queued s)
    : (id, .timeout) ∈ resolved s.timerProc.2
        ∨ id ∈ queued s.timerProc.1 ∧ patience s.timerProc.1 id + 1 ≤ patience s id := by
  have heffect := queueEffect_timerProc s
  have htimer := busyTimer_timerProc s
  unfold queued patience at *
  generalize s.timerProc.1.link.queue = queue', transmitted s.timerProc.2 = tx,
    resolved s.timerProc.2 = res at heffect ⊢
  cases heffect with
  | keep a _ hkeep =>
    right
    have hbusy : 0 < s.link.busyTimer := by
      apply hkeep rfl
      rintro hnil
      simp [hnil] at h
    rw [decide_eq_true hbusy, Bool.toNat_true] at htimer
    refine ⟨h, ?_⟩
    omega
  | transmit front rest hqueue hbusy hmax =>
    right
    rw [hqueue] at h ⊢
    refine ⟨h, ?_⟩
    simp only [patience.go]
    omega
  | timeout front rest hqueue hbusy hmax =>
    have hfront := hretries front (by simp [hqueue])
    rw [hqueue, List.map_cons, List.mem_cons] at h
    rw [hqueue, patience.go]
    split
    . next hid =>
      left
      simp [hid]
    . next hid =>
      right
      refine ⟨h.resolve_left (Ne.symm hid), ?_⟩
      omega

theorem patience_onFrame {s : CSirCon} {id : Nat} (h : id ∈ queued s) (msg : List UInt8)
    : (∃ rc, (id, rc) ∈ resolved (s.onFrame msg).2)
        ∨ id ∈ queued (s.onFrame msg).1
          ∧ patience (s.onFrame msg).1 id ≤ patience s id + (decide (ReportsBusy msg)).toNat := by
  have hbusy := busyTimer_onFrame s msg
  unfold queued patience at *
  rcases onFrame_queue s msg with ⟨hsame, -⟩ | ⟨front, rest, hqueue, hrest, hsuccess, -⟩
  . right
    rw [hsame]
    refine ⟨h, ?_⟩
    omega
  . rw [hqueue, List.map_cons, List.mem_cons] at h
    rw [hqueue, hrest, patience.go]
    split
    . next hid =>
      left
      exact ⟨.success, by simp [hsuccess, hid]⟩
    . next hid =>
      right
      refine ⟨h.resolve_left (Ne.symm hid), ?_⟩
      omega

theorem patience_pos {s : CSirCon} {id : Nat} (hretries : Persistent s) (h : id ∈ queued s)
    : 0 < patience s id := by
  unfold patience
  unfold queued at h
  cases hqueue : s.link.queue with
  | nil => simp [hqueue] at h
  | cons front rest =>
    have hfront := hretries front (by simp [hqueue])
    rw [patience.go]
    omega

end CSirCon
