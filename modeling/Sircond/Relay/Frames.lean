import Sircond.Relay.Impl
import Sircond.SirCon.Transport
import Sircond.SirCon.StopAndWait.Net

/-!
This module contains which payloads the radio thread takes out of the frames it receives: of frames
that are sent again until they are acknowledged, each payload once.
-/

open Scp

namespace CSirCon

def isData (msg : List UInt8) : Bool := (SHdr.ofBytes msg).flags &&& sfAck = 0

def payloadOf (msg : List UInt8) : List UInt8 :=
  (msg.drop SHdr.size).take (SHdr.ofBytes msg).len.toNat

/-- The payloads of data frames, without those of frames that repeat the sequence number before. -/
def accepted (lastSeq : Int) : List (List UInt8) → Int × List (List UInt8)
  | [] => (lastSeq, [])
  | msg :: msgs =>
    let seq := (SHdr.ofBytes msg).seq.toNat
    let (lastSeq', payloads) := accepted seq msgs
    (lastSeq', if seq ≠ lastSeq then payloadOf msg :: payloads else payloads)

theorem accepted_cons (lastSeq : Int) (msg : List UInt8) (msgs : List (List UInt8))
    : accepted lastSeq (msg :: msgs)
        =
      ((accepted (SHdr.ofBytes msg).seq.toNat msgs).1,
        if ((SHdr.ofBytes msg).seq.toNat : Int) ≠ lastSeq then
          payloadOf msg :: (accepted (SHdr.ofBytes msg).seq.toNat msgs).2
        else
          (accepted (SHdr.ofBytes msg).seq.toNat msgs).2) :=
  rfl

theorem accepted_append (lastSeq : Int) (msgs msgs' : List (List UInt8))
    : accepted lastSeq (msgs ++ msgs')
        =
      ((accepted (accepted lastSeq msgs).1 msgs').1,
        (accepted lastSeq msgs).2 ++ (accepted (accepted lastSeq msgs).1 msgs').2) := by
  induction msgs generalizing lastSeq with
  | nil => rfl
  | cons msg msgs ih =>
    rw [List.cons_append, accepted_cons, accepted_cons, ih]
    dsimp only
    split
    . rfl
    . rfl

theorem accepted_frameBytes (lastSeq : Int) (seq : UInt8) (data : Payload)
    (msgs : List (List UInt8))
    : accepted lastSeq (frameBytes seq data :: msgs)
        =
      ((accepted seq.toNat msgs).1,
        if (seq.toNat : Int) ≠ lastSeq then data.bytes :: (accepted seq.toNat msgs).2
        else (accepted seq.toNat msgs).2) := by
  have hhdr := ofBytes_frameBytes seq data []
  rw [List.append_nil] at hhdr
  have hpayload : payloadOf (frameBytes seq data) = data.bytes := by
    unfold payloadOf
    rw [hhdr]
    apply payload_frameBytes
  rw [accepted_cons, hpayload, hhdr]

theorem accepted_copies (seq : UInt8) (data : Payload) (msgs : List (List UInt8)) (k : Nat)
    : accepted seq.toNat (List.replicate k (frameBytes seq data) ++ msgs) = accepted seq.toNat msgs := by
  induction k with
  | zero => rfl
  | succ k ih =>
    rw [List.replicate_succ, List.cons_append, accepted_frameBytes, ih]
    simp

def copies (frames : List (MsgBuf × Nat)) : List (List UInt8) :=
  frames.flatMap fun (bufptr, k) => List.replicate k bufptr.data

/--
What the receiver takes out of frames composed one after the other and each sent at least once are
the payloads they were composed for.
-/
theorem accepted_composeAll (tx : CSirCon) (sent : List (Payload × Nat)) (hk : ∀ m ∈ sent, 1 ≤ m.2)
    (lastSeq : Int) (hseq : tx.seq.toNat ≠ lastSeq)
    : (accepted lastSeq (copies (tx.composeAll sent))).2 = sent.map (·.1.bytes) := by
  induction sent generalizing tx lastSeq with
  | nil => rfl
  | cons m sent ih =>
    obtain ⟨data, k⟩ := m
    rw [List.forall_mem_cons] at hk
    obtain ⟨k, rfl⟩ : ∃ n, k = n + 1 := ⟨k - 1, by have := hk.1; omega⟩
    have hnext : ((tx.composeFrame data).2.seq.toNat : Int) ≠ tx.seq.toNat := by
      have := tx.seq.toNat_lt
      simp only [composeFrame, UInt8.toNat_add, UInt8.reduceToNat]
      omega
    have hrest := ih (tx.composeFrame data).2 hk.2 _ hnext
    have hcopies : copies (tx.composeAll ((data, k + 1) :: sent))
        = List.replicate (k + 1) (frameBytes tx.seq data)
          ++ copies ((tx.composeFrame data).2.composeAll sent) :=
      rfl
    rw [hcopies, List.replicate_succ, List.cons_append, accepted_frameBytes, accepted_copies, hrest,
      if_pos hseq]
    rfl

section OnFrame

variable (s : CSirCon) {msg : List UInt8}

theorem onFrame_of_data (hvalid : ValidFrame msg) (hdata : isData msg)
    : dispatched (s.onFrame msg).2 = (accepted s.link.lastSeq [msg]).2
        ∧ (s.onFrame msg).1.link.lastSeq = (accepted s.link.lastSeq [msg]).1 := by
  unfold isData at hdata
  unfold onFrame onMessage
  dsimp only
  rw [if_pos hvalid.chksum, if_neg (not_not_intro (of_decide_eq_true hdata))]
  rw [accepted_cons]
  unfold accepted payloadOf
  dsimp only
  split
  . exact ⟨rfl, rfl⟩
  . exact ⟨rfl, rfl⟩

theorem onFrame_of_ack (hvalid : ValidFrame msg) (hack : isData msg = false)
    : dispatched (s.onFrame msg).2 = [] ∧ (s.onFrame msg).1.link.lastSeq = s.link.lastSeq := by
  unfold isData at hack
  have hflags : (SHdr.ofBytes msg).flags &&& sfAck ≠ 0 := of_decide_eq_false hack
  unfold onFrame onMessage
  dsimp only
  rw [if_pos hvalid.chksum, if_pos hflags]
  have heffect := ackEffect s.link (SHdr.ofBytes msg)
  generalize onAckFrame s.link (SHdr.ofBytes msg) = r at heffect ⊢
  cases heffect with
  | keep | resend | busy | success => exact ⟨rfl, rfl⟩

theorem lastSeq_timerProc : s.timerProc.1.link.lastSeq = s.link.lastSeq := by
  unfold timerProc
  split
  . rfl
  . split
    . rfl
    . dsimp only
      split
      . rfl
      . rfl

end OnFrame

end CSirCon
