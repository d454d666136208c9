import Sircond.SirCon.Impl.OnRun

/-!
This module contains what the handling of a message can do, whatever the message is: an acknowledgement
does one of four things to the send queue, and only the actions of a receiver are left behind.
-/

open Scp

namespace CSirCon

/--
What an acknowledgement does: nothing, or the frame in front is sent again, put off for a while or done
with.
-/
inductive AckEffect (l : Link) (hdr : SHdr) : Link × List Action → Prop
  | keep (hfront : ∀ bufptr ∈ l.queue.head?, hdr.seq ≠ bufptr.seq) : AckEffect l hdr (l, [])
  | resend (bufptr : MsgBuf) (rest : List MsgBuf) (hqueue : l.queue = bufptr :: rest)
      (hseq : hdr.seq = bufptr.seq) (hchksum : hdr.flags &&& sfChksum ≠ 0)
    : AckEffect l hdr (l, [.transmit bufptr])
  | busy (bufptr : MsgBuf) (rest : List MsgBuf) (hqueue : l.queue = bufptr :: rest)
      (hseq : hdr.seq = bufptr.seq) (hchksum : hdr.flags &&& sfChksum = 0)
      (hbusy : hdr.flags &&& sfBusy ≠ 0)
    : AckEffect l hdr ({ l with busyTimer := busyDelayCount }, [])
  | success (bufptr : MsgBuf) (rest : List MsgBuf) (hqueue : l.queue = bufptr :: rest)
      (hseq : hdr.seq = bufptr.seq) (hchksum : hdr.flags &&& sfChksum = 0)
      (hbusy : hdr.flags &&& sfBusy = 0)
    : AckEffect l hdr ({ l with queue := rest }, [.resolve bufptr.id .success])

theorem ackEffect (l : Link) (hdr : SHdr) : AckEffect l hdr (onAckFrame l hdr) := by
  unfold onAckFrame
  split
  . next hqueue =>
    apply AckEffect.keep
    simp [hqueue]
  . next bufptr rest hqueue =>
    split
    . next hseq =>
      split
      . next hchksum => exact .resend bufptr rest hqueue hseq hchksum
      . next hchksum =>
        rw [ne_eq, Decidable.not_not] at hchksum
        split
        . next hbusy => exact .busy bufptr rest hqueue hseq hchksum hbusy
        . next hbusy =>
          rw [ne_eq, Decidable.not_not] at hbusy
          exact .success bufptr rest hqueue hseq hchksum hbusy
    . next hseq =>
      apply AckEffect.keep
      simpa [hqueue] using hseq

theorem onAckFrame_seqs (l : Link) (hdr : SHdr)
    : (onAckFrame l hdr).1.lastSeq = l.lastSeq
        ∧ (onAckFrame l hdr).1.seqExpected = l.seqExpected := by
  have heffect := ackEffect l hdr
  generalize onAckFrame l hdr = r at heffect ⊢
  cases heffect with
  | keep | resend | busy | success => exact ⟨rfl, rfl⟩

/-- The actions that the handling of a message leaves behind. -/
def Action.isHandling : Action → Bool
  | .dispatch _ | .sendACK _ _ | .ack _ _ | .transmit _ | .resolve _ .success | .markRead _ => true
  | .resolve _ .timeout | .resolve _ .noMemory | .keepalive _ => false

theorem isHandling_onMessage (l : Link) (msg : List UInt8)
    : (onMessage l msg).2.1.all Action.isHandling = true := by
  unfold onMessage
  dsimp only
  split
  . split
    . have heffect := ackEffect l (SHdr.ofBytes msg)
      generalize onAckFrame l (SHdr.ofBytes msg) = r at heffect ⊢
      cases heffect with
      | keep | resend | busy | success => rfl
    . dsimp only
      split <;> rfl
  . rfl

theorem parse_handling (fuel : Nat)
    : ∀ {s s' : CSirCon} {acts : List Action}, s.parse fuel = some (s', acts) →
        acts.all Action.isHandling = true
          ∧ s' = { s with stagebuf := s'.stagebuf, link := s'.link } := by
  induction fuel with
  | zero =>
    intro s s' acts h
    simp [parse] at h
  | succ fuel ih =>
    intro s s' acts h
    unfold parse at h
    split at h
    . dsimp only at h
      split at h
      . simp only [Option.bind_eq_bind, Option.bind_eq_some_iff, Option.pure_def,
          Option.some.injEq, Prod.mk.injEq, Prod.exists] at h
        obtain ⟨stagebuf, -, s₁, acts₁, hparse, rfl, rfl⟩ := h
        obtain ⟨hacts, hsame⟩ := ih hparse
        exact ⟨hacts, hsame⟩
      . split at h
        . obtain ⟨rfl, rfl⟩ := Prod.mk.inj (Option.some.inj h)
          exact ⟨rfl, rfl⟩
        . simp only [Option.bind_eq_bind, Option.bind_eq_some_iff, Option.pure_def,
            Option.some.injEq, Prod.mk.injEq, Prod.exists] at h
          obtain ⟨stagebuf, -, s₁, acts₁, hparse, rfl, rfl⟩ := h
          obtain ⟨hacts, hsame⟩ := ih hparse
          refine ⟨?_, hsame⟩
          rw [List.all_append, isHandling_onMessage, Bool.true_and]
          exact hacts
    . obtain ⟨rfl, rfl⟩ := Prod.mk.inj (Option.some.inj h)
      exact ⟨rfl, rfl⟩

end CSirCon
