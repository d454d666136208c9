import Sircond.SirCon.Machine
import Sircond.SirCon.Lemmas.Frame

/-!
This module contains the radio interface and its peer joined by two links. A link is a queue of
frames in flight: it may lose any of them, and it may deliver the one in front damaged, as bytes
that fail the checksum. The peer runs the same receiver as the radio interface but never sends.

The frames of the sender are numbered in the order of `Send`, and every copy and every positive
acknowledgement in flight is marked with the number of the frame it belongs to. Neither these marks
nor `accepted`, the number of the frame the peer accepted last, influence a step.
-/

open Scp

namespace CSirCon

structure Flight where
  num : Option Nat
  bytes : List UInt8
  deriving DecidableEq, Repr

def Flight.copy (frame : MsgBuf) : Flight := ⟨some frame.id, frame.data⟩

def emits (num : Option Nat) (acts : List Action) : List Flight :=
  acts.filterMap fun
    | .transmit frame => some (.copy frame)
    | .sendACK ack flags => some ⟨num, ackBytes ack flags⟩
    | _ => none

def numbers (link : List Flight) : List Nat := link.filterMap Flight.num

structure Net where
  a : CSirCon
  b : CSirCon
  toB : List Flight
  toA : List Flight
  accepted : Option Nat
  deriving DecidableEq

namespace Net

inductive Input where
  | send (data : Payload)
  | timerProc
  | deliverB
  | damageB (msg : List UInt8)
  | loseB (k : Nat)
  | deliverA
  | damageA (msg : List UInt8)
  | loseA (k : Nat)
  deriving DecidableEq

inductive Event where
  | dispatch (num : Option Nat) (payload : List UInt8)
  | resolve (id : Nat) (rc : SCResult)
  deriving DecidableEq

def start (a b : CSirCon) : Net where
  a := a
  b := b
  toB := []
  toA := []
  accepted := none

def senderStep (n : Net) (r : CSirCon × List Action) : Net × List Event :=
  ({ n with a := r.1, toB := n.toB ++ emits none r.2 },
    (resolved r.2).map fun (id, rc) => .resolve id rc)

def peerStep (n : Net) (num : Option Nat) (r : CSirCon × List Action) : Net × List Event :=
  ({ n with b := r.1, toA := n.toA ++ emits num r.2, accepted := num <|> n.accepted },
    (dispatched r.2).map fun payload => .dispatch num payload)

def machine : Machine Net Input Event where
  step n
    | .send data => some ({ n with a := (n.a.send data).1 }, [])
    | .timerProc => some (n.senderStep n.a.timerProc)
    | .deliverB =>
      match n.toB with
      | [] => none
      | f :: toB => some ({ n with toB }.peerStep f.num (n.b.onFrame f.bytes))
    | .damageB msg =>
      match n.toB with
      | [] => none
      | _ :: toB =>
        if validateChecksum msg then none else some ({ n with toB }.peerStep none (n.b.onFrame msg))
    | .loseB k => if k < n.toB.length then some ({ n with toB := n.toB.eraseIdx k }, []) else none
    | .deliverA =>
      match n.toA with
      | [] => none
      | f :: toA => some ({ n with toA }.senderStep (n.a.onFrame f.bytes))
    | .damageA msg =>
      match n.toA with
      | [] => none
      | _ :: toA =>
        if validateChecksum msg then none else some ({ n with toA }.senderStep (n.a.onFrame msg))
    | .loseA k => if k < n.toA.length then some ({ n with toA := n.toA.eraseIdx k }, []) else none

end Net

section Parties

variable (s : CSirCon)

theorem ofBytes_ackBytes (seq flags : UInt8)
    : SHdr.ofBytes (ackBytes seq flags) = ⟨pktSentinel, 0x03, 0x00, seq, flags, 0⟩ := by
  rfl

theorem validFrame_ackBytes (seq flags : UInt8) : ValidFrame (ackBytes seq flags) where
  sentinel := rfl
  length := rfl
  chksum := by apply validateChecksum_computeChecksum

theorem onFrame_damaged {msg : List UInt8} (hmsg : validateChecksum msg = false)
    : s.onFrame msg = (s, [.sendACK (SHdr.ofBytes msg).seq (sfAck ||| sfChksum)]) := by
  unfold onFrame onMessage
  dsimp only
  rw [hmsg]
  rfl

theorem onFrame_ackBytes_of_idle {s : CSirCon} (hidle : s.link.queue = []) (seq : UInt8)
    {flags : UInt8} (hflags : flags &&& sfAck ≠ 0)
    : s.onFrame (ackBytes seq flags) = (s, [.ack seq flags]) := by
  unfold onFrame onMessage
  dsimp only
  rw [if_pos (validFrame_ackBytes seq flags).chksum, ofBytes_ackBytes, if_pos hflags]
  unfold onAckFrame
  rw [hidle]

theorem onFrame_frameBytes (seq : UInt8) (data : Payload)
    : s.onFrame (frameBytes seq data)
        =
      ({ s with link.lastSeq := seq.toNat, link.seqExpected := seq + 1, link.busyTimer := 0 },
        .sendACK seq sfAck
          :: if (seq.toNat : Int) ≠ s.link.lastSeq then [.dispatch data.bytes] else []) := by
  have hhdr := ofBytes_frameBytes seq data []
  have hack : (0x00 : UInt8) &&& sfAck = 0 := by decide
  rw [List.append_nil] at hhdr
  unfold onFrame onMessage
  dsimp only
  rw [if_pos (validateChecksum_frameBytes seq data), hhdr]
  rw [if_neg (by simp [hack])]
  rw [payload_frameBytes]

theorem emits_timerProc : emits none s.timerProc.2 = (transmitted s.timerProc.2).map .copy := by
  unfold timerProc
  split
  . rfl
  . split
    . rfl
    . dsimp only
      split
      . rfl
      . rfl

theorem emits_onFrame_ackBytes (seq : UInt8) {flags : UInt8} (hflags : flags &&& sfAck ≠ 0)
    : emits none (s.onFrame (ackBytes seq flags)).2
        =
      (transmitted (s.onFrame (ackBytes seq flags)).2).map .copy := by
  have hack : (SHdr.ofBytes (ackBytes seq flags)).flags &&& sfAck ≠ 0 := hflags
  unfold onFrame onMessage
  dsimp only
  rw [if_pos (validFrame_ackBytes seq flags).chksum, if_pos hack]
  have heffect := ackEffect s.link (SHdr.ofBytes (ackBytes seq flags))
  generalize onAckFrame s.link (SHdr.ofBytes (ackBytes seq flags)) = r at heffect ⊢
  cases heffect with
  | keep | resend | busy | success => rfl

end Parties

end CSirCon
