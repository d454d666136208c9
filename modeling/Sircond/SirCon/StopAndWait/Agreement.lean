import Sircond.SirCon.StopAndWait.Invariant
import Mathlib.Data.List.Forall2

/-!
This module contains the agreement of the sender and its peer. As long as everything in flight and
the frame the peer accepted last belong to the 256 frames that end at the front of the send queue,
the sequence number of a frame in front tells its number.
-/

open Scp

namespace CSirCon

namespace Net

open Machine

variable {sent : List Payload} {nums : List Nat} {n : Net}

def sends (as : List Input) : List Payload :=
  as.filterMap fun
    | .send data => some data
    | _ => none

def dispatches (out : List Event) : List (Option Nat × List UInt8) :=
  out.filterMap fun
    | .dispatch num payload => some (num, payload)
    | _ => none

/--
The dispatches `log` are those of the frames with the numbers `nums`, each with the payload sent
under this number.
-/
def Matches (sent : List Payload) (nums : List Nat) (log : List (Option Nat × List UInt8)) : Prop :=
  List.Forall₂ (fun i x => ∃ data, sent[i]? = some data ∧ x = (some i, data.bytes)) nums log

/--
The step with the result `r` sends `more`, and keeps the agreement of what is sent and dispatched;
if it resolves a frame with success, this frame was dispatched before.
-/
structure Advances (sent : List Payload) (nums : List Nat) (more : List Payload)
    (r : Net × List Event) : Prop where
  agreement : ∃ new,
    Agreement (sent ++ more) (nums ++ new) r.1 ∧ Matches sent new (dispatches r.2)
  success : ∀ id, .resolve id .success ∈ r.2 → id ∈ nums

theorem Agreement.advances {r : Net × List Event} (h : Agreement sent nums r.1)
    (hdisp : dispatches r.2 = []) (hsuccess : ∀ id, .resolve id .success ∈ r.2 → id ∈ nums)
    : Advances sent nums [] r where
  agreement := by
    refine ⟨[], ?_, ?_⟩
    . simpa using h
    . rw [hdisp]
      apply List.Forall₂.nil
  success := hsuccess

theorem peerStep_frameBytes (n : Net) (toB : List Flight) (i : Nat) (data : Payload)
    : { n with toB }.peerStep (some i) (n.b.onFrame (frameBytes (UInt8.ofNat i) data))
        =
      ({
        n with
        b := {
          n.b with
          link.lastSeq := (UInt8.ofNat i).toNat
          link.seqExpected := UInt8.ofNat i + 1
          link.busyTimer := 0
        }
        toB
        toA := n.toA ++ [⟨some i, ackBytes (UInt8.ofNat i) sfAck⟩]
        accepted := some i
      },
      if ((UInt8.ofNat i).toNat : Int) ≠ n.b.link.lastSeq then
        [.dispatch (some i) data.bytes]
      else
        []) := by
  rw [onFrame_frameBytes]
  unfold peerStep
  split
  . simp [emits, dispatched]
  . simp [emits, dispatched]

theorem Agreement.mem_of_repeated (h : Agreement sent nums n) (hwindow : InWindow n) {i : Nat}
    {bytes : List UInt8} {toB : List Flight} (htoB : n.toB = ⟨some i, bytes⟩ :: toB)
    (hlast : ((UInt8.ofNat i).toNat : Int) = n.b.link.lastSeq) (hid : i ∈ queued n.a)
    : i ∈ nums := by
  rw [h.lastSeq] at hlast
  cases haccepted : n.accepted with
  | none =>
    simp only [haccepted, lastSeqOf] at hlast
    omega
  | some b =>
    have hle := h.accepted_le htoB haccepted
    have hseq : UInt8.ofNat b = UInt8.ofNat i := by
      rw [← UInt8.toNat_inj]
      simp only [haccepted, lastSeqOf] at hlast
      omega
    -- While frame `i` is queued it is the front, so the window tells it from any other.
    have hfront : i < b + 256 := by
      cases hqueue : n.a.link.queue with
      | nil => simp [queued, hqueue] at hid
      | cons front rest =>
        have hi := (h.behind i (by simp [htoB])).2 front.id (by simp [queued, hqueue])
        have := (hwindow front (by simp [hqueue]) b (by simp [haccepted])).2
        omega
    obtain rfl := ofNat_inj_of_window hseq hle hfront
    apply h.known b _ hid
    simp [haccepted]

theorem Agreement.lt_of_fresh (h : Agreement sent nums n) {i : Nat} {bytes : List UInt8}
    {toB : List Flight} (htoB : n.toB = ⟨some i, bytes⟩ :: toB)
    (hlast : ((UInt8.ofNat i).toNat : Int) ≠ n.b.link.lastSeq) {j : Nat} (hj : j ∈ nums)
    : j < i := by
  obtain ⟨b, hb, hjb⟩ := h.past j hj
  have hle := h.accepted_le htoB hb
  have hne : b ≠ i := by
    rintro rfl
    apply hlast
    rw [h.lastSeq, Option.mem_def.mp hb]
    rfl
  omega

theorem Agreement.deliver (h : Agreement sent nums n) (hwindow : InWindow n) {i : Nat}
    {bytes : List UInt8} {toB : List Flight} (htoB : n.toB = ⟨some i, bytes⟩ :: toB)
    : Advances sent nums [] ({ n with toB }.peerStep (some i) (n.b.onFrame bytes)) := by
  have hcarries : Carries sent i bytes := by
    have := h.toB ⟨some i, bytes⟩ (by simp [htoB])
    simpa using this
  obtain ⟨data, hdata, rfl⟩ := hcarries
  rw [peerStep_frameBytes]
  refine ⟨?_, by split <;> simp⟩
  rw [List.append_nil]
  by_cases hlast : ((UInt8.ofNat i).toNat : Int) = n.b.link.lastSeq
  . refine ⟨[], ?_, ?_⟩
    . apply h.accept htoB
      . apply h.idle
      . rfl
      . simpa using h.log
      . simp
      . simpa using h.mem_of_repeated hwindow htoB hlast
    . rw [if_neg (by simpa using hlast)]
      apply List.Forall₂.nil
  . refine ⟨[i], ?_, ?_⟩
    . apply h.accept htoB
      . apply h.idle
      . rfl
      . rw [List.pairwise_append]
        refine ⟨h.log, by simp, ?_⟩
        simpa using fun j => h.lt_of_fresh htoB hlast
      . simp
      . simp
    . rw [if_pos hlast]
      apply List.Forall₂.cons
      . exact ⟨data, hdata, rfl⟩
      . apply List.Forall₂.nil

theorem Agreement.deliver_nak (h : Agreement sent nums n) {bytes : List UInt8}
    {toB : List Flight} (htoB : n.toB = ⟨none, bytes⟩ :: toB)
    : Advances sent nums [] ({ n with toB }.peerStep none (n.b.onFrame bytes)) := by
  obtain ⟨seq, rfl⟩ : IsNak bytes := by
    have := h.toB ⟨none, bytes⟩ (by simp [htoB])
    simpa using this
  rw [onFrame_ackBytes_of_idle h.idle seq (by decide)]
  apply Agreement.advances
  . have hsub : toB.Sublist n.toB := by simp [htoB]
    have := h.lossy hsub (List.Sublist.refl _)
    simpa [peerStep, emits] using this
  . rfl
  . simp [peerStep, dispatched]

theorem Agreement.damage (h : Agreement sent nums n) {toB : List Flight}
    (htoB : toB.Sublist n.toB) {msg : List UInt8} (hmsg : validateChecksum msg = false)
    : Advances sent nums [] ({ n with toB }.peerStep none (n.b.onFrame msg)) := by
  rw [onFrame_damaged n.b hmsg]
  apply Agreement.advances
  . have hdrop := h.lossy htoB (List.Sublist.refl _)
    simpa [peerStep, emits] using hdrop.nak_toA ⟨(SHdr.ofBytes msg).seq, rfl⟩
  . rfl
  . simp [peerStep, dispatched]

theorem dispatches_senderStep (r : CSirCon × List Action)
    : dispatches (n.senderStep r).2 = [] := by
  simp [dispatches, senderStep]

theorem mem_senderStep {r : CSirCon × List Action} {id : Nat} {rc : SCResult}
    : .resolve id rc ∈ (n.senderStep r).2 ↔ (id, rc) ∈ resolved r.2 := by
  simp [senderStep]

theorem Agreement.tick (h : Agreement sent nums n)
    : Advances sent nums [] (n.senderStep n.a.timerProc) := by
  have heffect := queueEffect_timerProc n.a
  obtain ⟨hallocs, hseq⟩ := timerProc_counters n.a
  apply Agreement.advances
  . have := h.sender heffect (by simp) hallocs hseq
    rw [← emits_timerProc] at this
    apply this
  . apply dispatches_senderStep
  . intro id
    rw [mem_senderStep]
    generalize n.a.timerProc.1.link.queue = queue', transmitted n.a.timerProc.2 = tx,
      resolved n.a.timerProc.2 = res at heffect
    cases heffect with
    | keep | transmit | timeout => simp

theorem Agreement.acknowledge (h : Agreement sent nums n) (hwindow : InWindow n) {f : Flight}
    {toA : List Flight} (htoA : n.toA = f :: toA)
    : Advances sent nums [] ({ n with toA }.senderStep (n.a.onFrame f.bytes)) := by
  obtain ⟨seq, flags, hbytes, hflags⟩ : ∃ seq flags, f.bytes = ackBytes seq flags
      ∧ flags &&& sfAck ≠ 0 := by
    rcases h.toA f (by simp [htoA]) with ⟨i, -, hbytes⟩ | ⟨-, seq, hbytes⟩
    . exact ⟨_, _, hbytes, by decide⟩
    . exact ⟨_, _, hbytes, by decide⟩
  have heffect := queueEffect_onFrame n.a (validFrame_ackBytes seq flags)
  rw [← hbytes] at heffect
  apply Agreement.advances
  . have hsub : toA.Sublist n.toA := by simp [htoA]
    have hdrop := h.lossy (List.Sublist.refl _) hsub
    have := hdrop.sender heffect (by simp) rfl rfl
    rw [hbytes, ← emits_onFrame_ackBytes n.a seq hflags, ← hbytes] at this
    apply this
  . apply dispatches_senderStep
  . intro id
    rw [mem_senderStep]
    generalize (n.a.onFrame f.bytes).1.link.queue = queue',
      transmitted (n.a.onFrame f.bytes).2 = tx, resolved (n.a.onFrame f.bytes).2 = res at heffect
    cases heffect with
    | keep | resend => simp
    | success msg front rest hqueue hack =>
      simp only [List.mem_singleton, Prod.mk.injEq, and_true]
      rintro rfl
      rcases h.toA f (by simp [htoA]) with ⟨i, hnum, hbytes⟩ | ⟨-, seq, hbytes⟩
      . -- The window makes this the acknowledgement of the frame in front and of no other.
        have hseq := hack.seq
        rw [hbytes, ofBytes_ackBytes, (h.queue front (by simp [hqueue])).1] at hseq
        have hi : i ∈ numbers n.toA := by
          simp [htoA, numbers, hnum]
        obtain ⟨hle, hlt⟩ := hwindow front (by simp [hqueue]) i (List.mem_append_right _ hi)
        obtain rfl := ofNat_inj_of_window hseq hle hlt
        apply h.known _ (List.mem_append_right _ hi)
        simp [queued, hqueue]
      . have hchksum := hack.chksum
        rw [hbytes, ofBytes_ackBytes] at hchksum
        exact absurd hchksum (by simp only; decide)

theorem Agreement.damage_ack (h : Agreement sent nums n) {toA : List Flight}
    (htoA : toA.Sublist n.toA) {msg : List UInt8} (hmsg : validateChecksum msg = false)
    : Advances sent nums [] ({ n with toA }.senderStep (n.a.onFrame msg)) := by
  rw [onFrame_damaged n.a hmsg]
  apply Agreement.advances
  . have hdrop := h.lossy (List.Sublist.refl _) htoA
    simpa [senderStep, emits] using hdrop.nak_toB ⟨(SHdr.ofBytes msg).seq, rfl⟩
  . apply dispatches_senderStep
  . simp [mem_senderStep, resolved]

theorem Agreement.step (h : Agreement sent nums n) (hwindow : InWindow n) {a : Input}
    {r : Net × List Event} (hstep : machine.step n a = some r)
    : Advances sent nums (sends [a]) r := by
  cases a with
  | send data =>
    rw [← Option.some.inj hstep]
    refine ⟨⟨[], ?_, .nil⟩, by simp⟩
    rw [List.append_nil]
    apply h.send data
  | timerProc =>
    rw [← Option.some.inj hstep]
    apply h.tick
  | deliverB =>
    simp only [machine] at hstep
    split at hstep
    . simp at hstep
    . next f toB htoB =>
      rw [← Option.some.inj hstep]
      obtain ⟨num, bytes⟩ := f
      cases num with
      | none => apply h.deliver_nak htoB
      | some i => apply h.deliver hwindow htoB
  | damageB msg =>
    simp only [machine] at hstep
    split at hstep
    . simp at hstep
    . next f toB htoB =>
      split at hstep
      . simp at hstep
      . next hmsg =>
        rw [← Option.some.inj hstep]
        apply h.damage
        . simp [htoB]
        . simpa using hmsg
  | loseB k =>
    simp only [machine] at hstep
    split at hstep
    . rw [← Option.some.inj hstep]
      apply Agreement.advances
      . apply h.lossy
        . apply List.eraseIdx_sublist
        . apply List.Sublist.refl
      . rfl
      . simp
    . simp at hstep
  | deliverA =>
    simp only [machine] at hstep
    split at hstep
    . simp at hstep
    . next f toA htoA =>
      rw [← Option.some.inj hstep]
      apply h.acknowledge hwindow htoA
  | damageA msg =>
    simp only [machine] at hstep
    split at hstep
    . simp at hstep
    . next f toA htoA =>
      split at hstep
      . simp at hstep
      . next hmsg =>
        rw [← Option.some.inj hstep]
        apply h.damage_ack
        . simp [htoA]
        . simpa using hmsg
  | loseA k =>
    simp only [machine] at hstep
    split at hstep
    . rw [← Option.some.inj hstep]
      apply Agreement.advances
      . apply h.lossy
        . apply List.Sublist.refl
        . apply List.eraseIdx_sublist
      . rfl
      . simp
    . simp at hstep

theorem Matches.append_sent {log : List (Option Nat × List UInt8)} (h : Matches sent nums log)
    (more : List Payload)
    : Matches (sent ++ more) nums log := by
  apply h.imp
  rintro i x ⟨data, hdata, rfl⟩
  refine ⟨data, ?_, rfl⟩
  rw [List.getElem?_append_left]
  . apply hdata
  . exact (List.getElem?_eq_some_iff.mp hdata).1

theorem Agreement.of_run {start : Net} (hstart : Agreement [] [] start)
    {tr : List (Entry Net Input Event)} (hrun : machine.Run start tr n)
    (hwindow : ∀ e ∈ tr, InWindow e.pre)
    : ∃ nums, Agreement (sends (inputs tr)) nums n
        ∧ Matches (sends (inputs tr)) nums (dispatches (outputs tr)) := by
  apply hrun.invariant_of_forall (C := fun e => InWindow e.pre) ?_ ?_ hwindow
  . exact ⟨[], hstart, .nil⟩
  . rintro tr s a s' out hin ⟨nums, hagree, hmatches⟩ hstep
    obtain ⟨new, hagree', hmatches'⟩ := (hagree.step hin hstep).agreement
    refine ⟨nums ++ new, ?_, ?_⟩
    . simpa [sends] using hagree'
    . have hboth := List.rel_append (hmatches.append_sent (sends [a])) (hmatches'.append_sent (sends [a]))
      simpa [sends, dispatches, Matches] using hboth

end Net

end CSirCon
