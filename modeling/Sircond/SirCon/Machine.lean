import Sircond.SirCon.Lemmas.Message
import Sircond.Lib.Machine

/-!
This module contains the radio interface as a machine. Its inputs are the atomic steps of the two
threads that work on the send queue and of the callers of `Send`: queueing a frame, a tick of the
timer and the reception of one frame. The outputs are the actions of the step.

`QueueEffect` says once what such a step can do to the send queue, the guards included: the queue
afterwards, the frames transmitted and the promises set.
-/

open Scp

namespace CSirCon

def dispatched (acts : List Action) : List (List UInt8) :=
  acts.filterMap fun
    | .dispatch payload => some payload
    | _ => none

def acked (acts : List Action) : List (UInt8 × UInt8) :=
  acts.filterMap fun
    | .sendACK ack flags => some (ack, flags)
    | _ => none

def transmitted (acts : List Action) : List MsgBuf :=
  acts.filterMap fun
    | .transmit frame => some frame
    | _ => none

def resolved (acts : List Action) : List (Nat × SCResult) :=
  acts.filterMap fun
    | .resolve id rc => some (id, rc)
    | _ => none

section Projections

variable (acts₁ acts₂ : List Action)

theorem dispatched_append
    : dispatched (acts₁ ++ acts₂) = dispatched acts₁ ++ dispatched acts₂ := by
  simp [dispatched]

theorem acked_append : acked (acts₁ ++ acts₂) = acked acts₁ ++ acked acts₂ := by
  simp [acked]

@[simp]
theorem transmitted_append
    : transmitted (acts₁ ++ acts₂) = transmitted acts₁ ++ transmitted acts₂ := by
  simp [transmitted]

@[simp]
theorem resolved_append : resolved (acts₁ ++ acts₂) = resolved acts₁ ++ resolved acts₂ := by
  simp [resolved]

end Projections

def queued (s : CSirCon) : List Nat := s.link.queue.map MsgBuf.id

inductive Input where
  | send (data : Payload)
  | timerProc
  | receive (msg : List UInt8)
  deriving DecidableEq

def Input.pushes (s : CSirCon) : Input → List Nat
  | .send _ => [s.allocs]
  | .timerProc => []
  | .receive _ => []

structure ValidFrame (msg : List UInt8) : Prop where
  sentinel : (SHdr.ofBytes msg).sentinel = pktSentinel
  length : msg.length = msgLen (SHdr.ofBytes msg)
  chksum : validateChecksum msg = true

instance (msg : List UInt8) : Decidable (ValidFrame msg) :=
  decidable_of_iff ((SHdr.ofBytes msg).sentinel = pktSentinel
      ∧ msg.length = msgLen (SHdr.ofBytes msg) ∧ validateChecksum msg = true)
    ⟨fun ⟨h₁, h₂, h₃⟩ => ⟨h₁, h₂, h₃⟩, fun h => ⟨h.sentinel, h.length, h.chksum⟩⟩

def onFrame (s : CSirCon) (msg : List UInt8) : CSirCon × List Action :=
  let (link, acts, _) := onMessage s.link msg
  ({ s with link }, acts)

def machine : Machine CSirCon Input Action where
  step s
    | .send data => some ((s.send data).1, [])
    | .timerProc => some s.timerProc
    | .receive msg => if ValidFrame msg then some (s.onFrame msg) else none

structure Acknowledges (msg : List UInt8) (bufptr : MsgBuf) : Prop where
  ack : (SHdr.ofBytes msg).flags &&& sfAck ≠ 0
  seq : (SHdr.ofBytes msg).seq = bufptr.seq
  chksum : (SHdr.ofBytes msg).flags &&& sfChksum = 0
  busy : (SHdr.ofBytes msg).flags &&& sfBusy = 0

structure Rejects (msg : List UInt8) (bufptr : MsgBuf) : Prop where
  ack : (SHdr.ofBytes msg).flags &&& sfAck ≠ 0
  seq : (SHdr.ofBytes msg).seq = bufptr.seq
  chksum : (SHdr.ofBytes msg).flags &&& sfChksum ≠ 0

instance (msg : List UInt8) (bufptr : MsgBuf) : Decidable (Acknowledges msg bufptr) :=
  decidable_of_iff ((SHdr.ofBytes msg).flags &&& sfAck ≠ 0
      ∧ (SHdr.ofBytes msg).seq = bufptr.seq ∧ (SHdr.ofBytes msg).flags &&& sfChksum = 0
      ∧ (SHdr.ofBytes msg).flags &&& sfBusy = 0)
    ⟨fun ⟨h₁, h₂, h₃, h₄⟩ => ⟨h₁, h₂, h₃, h₄⟩, fun h => ⟨h.ack, h.seq, h.chksum, h.busy⟩⟩

instance (msg : List UInt8) (bufptr : MsgBuf) : Decidable (Rejects msg bufptr) :=
  decidable_of_iff ((SHdr.ofBytes msg).flags &&& sfAck ≠ 0
      ∧ (SHdr.ofBytes msg).seq = bufptr.seq ∧ (SHdr.ofBytes msg).flags &&& sfChksum ≠ 0)
    ⟨fun ⟨h₁, h₂, h₃⟩ => ⟨h₁, h₂, h₃⟩, fun h => ⟨h.ack, h.seq, h.chksum⟩⟩

theorem Rejects.not_acknowledges {msg : List UInt8} {bufptr : MsgBuf} (h : Rejects msg bufptr)
    : ¬ Acknowledges msg bufptr :=
  fun hack => h.chksum hack.chksum

inductive QueueEffect (s : CSirCon)
    : Input → List MsgBuf → List MsgBuf → List (Nat × SCResult) → Prop
  | push (data : Payload)
    : QueueEffect s (.send data) (s.link.queue ++ [(s.composeFrame data).1]) [] []
  | keep (a : Input) (hsend : ∀ data, a ≠ .send data)
      (htimer : a = .timerProc → s.link.queue ≠ [] → 0 < s.link.busyTimer)
      (hack : ∀ msg front, a = .receive msg → s.link.queue.head? = some front →
        ¬ Acknowledges msg front ∧ ¬ Rejects msg front)
    : QueueEffect s a s.link.queue [] []
  | transmit (front : MsgBuf) (rest : List MsgBuf) (hqueue : s.link.queue = front :: rest)
      (hbusy : s.link.busyTimer = 0) (hretries : front.retries < maxRetries)
    : QueueEffect s .timerProc ({ front with retries := front.retries + 1 } :: rest)
        [{ front with retries := front.retries + 1 }] []
  | timeout (front : MsgBuf) (rest : List MsgBuf) (hqueue : s.link.queue = front :: rest)
      (hbusy : s.link.busyTimer = 0) (hretries : maxRetries ≤ front.retries)
    : QueueEffect s .timerProc rest [] [(front.id, .timeout)]
  | resend (msg : List UInt8) (front : MsgBuf) (rest : List MsgBuf)
      (hqueue : s.link.queue = front :: rest) (hreject : Rejects msg front)
    : QueueEffect s (.receive msg) (front :: rest) [front] []
  | success (msg : List UInt8) (front : MsgBuf) (rest : List MsgBuf)
      (hqueue : s.link.queue = front :: rest) (hack : Acknowledges msg front)
    : QueueEffect s (.receive msg) rest [] [(front.id, .success)]

theorem queueEffect_timerProc (s : CSirCon)
    : QueueEffect s .timerProc s.timerProc.1.link.queue (transmitted s.timerProc.2)
        (resolved s.timerProc.2) := by
  unfold timerProc
  split
  . next hbusy =>
    apply QueueEffect.keep
    . simp
    . intros
      exact hbusy
    . simp
  . next hbusy =>
    split
    . next hqueue =>
      dsimp only
      rw [hqueue]
      apply hqueue ▸ QueueEffect.keep .timerProc (by simp) (by simp [hqueue]) (by simp)
    . next front rest hqueue =>
      dsimp only
      split
      . apply QueueEffect.timeout front rest hqueue
        . omega
        . omega
      . apply QueueEffect.transmit front rest hqueue
        . omega
        . omega

theorem queueEffect_onAckFrame (s : CSirCon) {msg : List UInt8}
    (hack : (SHdr.ofBytes msg).flags &&& sfAck ≠ 0)
    : QueueEffect s (.receive msg) (onAckFrame s.link (SHdr.ofBytes msg)).1.queue
        (transmitted (onAckFrame s.link (SHdr.ofBytes msg)).2)
        (resolved (onAckFrame s.link (SHdr.ofBytes msg)).2) := by
  have heffect := ackEffect s.link (SHdr.ofBytes msg)
  generalize onAckFrame s.link (SHdr.ofBytes msg) = r at heffect ⊢
  cases heffect with
  | keep hfront =>
    apply QueueEffect.keep
    . simp
    . simp
    . simp only [Input.receive.injEq]
      rintro _ bufptr rfl hbufptr
      exact ⟨fun h => hfront bufptr hbufptr h.seq, fun h => hfront bufptr hbufptr h.seq⟩
  | resend bufptr rest hqueue hseq hchksum =>
    dsimp only
    rw [hqueue]
    apply QueueEffect.resend
    . apply hqueue
    . exact ⟨hack, hseq, hchksum⟩
  | busy bufptr rest hqueue hseq hchksum hbusy =>
    apply QueueEffect.keep
    . simp
    . simp
    . simp only [Input.receive.injEq, hqueue, List.head?_cons, Option.some.injEq]
      rintro _ _ rfl rfl
      exact ⟨fun h => hbusy h.busy, fun h => h.chksum hchksum⟩
  | success bufptr rest hqueue hseq hchksum hbusy =>
    apply QueueEffect.success
    . apply hqueue
    . exact ⟨hack, hseq, hchksum, hbusy⟩

theorem queueEffect_onFrame (s : CSirCon) {msg : List UInt8} (hmsg : ValidFrame msg)
    : QueueEffect s (.receive msg) (s.onFrame msg).1.link.queue (transmitted (s.onFrame msg).2)
        (resolved (s.onFrame msg).2) := by
  unfold onFrame onMessage
  dsimp only
  rw [if_pos hmsg.chksum]
  split
  . next hack => apply queueEffect_onAckFrame s hack
  . next hack =>
    have hnone : ∀ acts : List Action, acts = [] ∨ (∃ payload, acts = [.dispatch payload]) →
        transmitted (.sendACK (SHdr.ofBytes msg).seq sfAck :: acts) = []
          ∧ resolved (.sendACK (SHdr.ofBytes msg).seq sfAck :: acts) = [] := by
      rintro acts (rfl | ⟨payload, rfl⟩)
      . simp [transmitted, resolved]
      . simp [transmitted, resolved]
    dsimp only
    obtain ⟨htx, hres⟩ := hnone
      (if ((SHdr.ofBytes msg).seq.toNat : Int) ≠ s.link.lastSeq then
        [.dispatch ((msg.drop SHdr.size).take (SHdr.ofBytes msg).len.toNat)] else []) (by
      split
      . right
        exact ⟨_, rfl⟩
      . left
        rfl)
    rw [htx, hres]
    apply QueueEffect.keep
    . simp
    . simp
    . simp only [Input.receive.injEq]
      rintro _ _ rfl _
      constructor
      . intro h
        apply hack
        apply h.ack
      . intro h
        apply hack
        apply h.ack

theorem queueEffect {s s' : CSirCon} {a : Input} {acts : List Action}
    (hstep : machine.step s a = some (s', acts))
    : QueueEffect s a s'.link.queue (transmitted acts) (resolved acts) := by
  cases a with
  | send data =>
    simp only [machine, Option.some.injEq, Prod.mk.injEq] at hstep
    obtain ⟨rfl, rfl⟩ := hstep
    apply QueueEffect.push
  | timerProc =>
    simp only [machine, Option.some.injEq] at hstep
    have := queueEffect_timerProc s
    rw [hstep] at this
    apply this
  | receive msg =>
    simp only [machine] at hstep
    split at hstep
    . next hmsg =>
      have := queueEffect_onFrame s hmsg
      rw [Option.some.injEq] at hstep
      rw [hstep] at this
      apply this
    . simp at hstep

section QueueEffect

variable {s s' : CSirCon} {a : Input} {tx : List MsgBuf} {res : List (Nat × SCResult)}

theorem QueueEffect.queued_eq (h : QueueEffect s a s'.link.queue tx res)
    : res.map Prod.fst ++ queued s' = queued s ++ a.pushes s := by
  unfold queued
  generalize s'.link.queue = queue' at h
  cases h with
  | push data => simp [Input.pushes, composeFrame]
  | keep a hsend =>
    cases a with
    | send data => simp at hsend
    | timerProc => simp [Input.pushes]
    | receive msg => simp [Input.pushes]
  | transmit front rest hqueue | resend msg front rest hqueue | timeout front rest hqueue
  | success msg front rest hqueue =>
    simp [Input.pushes, hqueue]

theorem QueueEffect.queued_sublist (h : QueueEffect s a s'.link.queue tx res)
    (ha : ∀ data, a ≠ .send data)
    : (queued s').Sublist (queued s) := by
  unfold queued
  generalize s'.link.queue = queue' at h
  cases h with
  | push data => exact absurd rfl (ha data)
  | keep => apply List.Sublist.refl
  | transmit front rest hqueue | resend msg front rest hqueue => simp [hqueue]
  | timeout front rest hqueue | success msg front rest hqueue => simp [hqueue]

theorem QueueEffect.exists_mem (h : QueueEffect s a s'.link.queue tx res)
    (ha : ∀ data, a ≠ .send data) {frame : MsgBuf} (hframe : frame ∈ s'.link.queue)
    : ∃ old ∈ s.link.queue, frame = { old with retries := frame.retries } := by
  generalize s'.link.queue = queue' at h hframe
  cases h with
  | push data => exact absurd rfl (ha data)
  | keep => exact ⟨frame, hframe, rfl⟩
  | transmit front rest hqueue =>
    rw [List.mem_cons] at hframe
    rcases hframe with rfl | hrest
    . exact ⟨front, by simp [hqueue], rfl⟩
    . exact ⟨frame, by simp [hqueue, hrest], rfl⟩
  | resend msg front rest hqueue => exact ⟨frame, by rw [hqueue]; exact hframe, rfl⟩
  | timeout front rest hqueue | success msg front rest hqueue =>
    exact ⟨frame, by simp [hqueue, hframe], rfl⟩

theorem QueueEffect.transmitted_cases (h : QueueEffect s a s'.link.queue tx res)
    : tx = [] ∨ ∃ front rest frame, s.link.queue = front :: rest ∧ tx = [frame]
        ∧ frame = { front with retries := frame.retries } := by
  generalize s'.link.queue = queue' at h
  cases h with
  | push | keep | timeout | success =>
    left
    rfl
  | transmit front rest hqueue | resend msg front rest hqueue =>
    right
    exact ⟨front, rest, _, hqueue, rfl, rfl⟩

end QueueEffect

theorem timerProc_counters (s : CSirCon)
    : s.timerProc.1.allocs = s.allocs ∧ s.timerProc.1.seq = s.seq := by
  unfold timerProc
  split
  . simp
  . split
    . simp
    . dsimp only
      split
      . simp [onTimeout]
      . simp

theorem counters_step {s s' : CSirCon} {a : Input} {acts : List Action}
    (hstep : machine.step s a = some (s', acts))
    : s'.allocs = s.allocs + (a.pushes s).length
        ∧ s'.seq = s.seq + UInt8.ofNat (a.pushes s).length := by
  cases a with
  | send data =>
    simp only [machine, Option.some.injEq, Prod.mk.injEq] at hstep
    rw [← hstep.1]
    simp [send, composeFrame, Input.pushes]
  | timerProc =>
    simp only [machine, Option.some.injEq] at hstep
    have := timerProc_counters s
    rw [hstep] at this
    simpa [Input.pushes] using this
  | receive msg =>
    simp only [machine] at hstep
    split at hstep
    . rw [Option.some.injEq] at hstep
      obtain ⟨rfl, -⟩ := Prod.mk.inj hstep
      simp [Input.pushes]
    . simp at hstep

end CSirCon
