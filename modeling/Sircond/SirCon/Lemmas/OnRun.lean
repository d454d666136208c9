import Sircond.SirCon.Lemmas.Frame
import Sircond.SirCon.Lemmas.Message
import Sircond.SOBuf.Lemmas

/-!
This module connects the main loop to a scanner for messages: one iteration of the loop is one
piece of the stream fed to that scanner, whatever the staging buffer does in between. The two
sequence numbers of the receiver keep in step: the one expected is next to the one seen last.
-/

open Scp

namespace CSirCon

theorem onMessage_len (l : Link) (msg : List UInt8)
    : (onMessage l msg).2.2 = if validateChecksum msg then msgLen (SHdr.ofBytes msg) else 1 := by
  unfold onMessage
  dsimp only
  split
  . split <;> rfl
  . rfl

def Link.InStep (l : Link) : Prop := l.seqExpected = UInt8.ofInt (l.lastSeq + 1)

theorem ofInt_toNat (seq : UInt8) : UInt8.ofInt seq.toNat = seq := by
  have := seq.toNat_lt
  rw [← UInt8.toNat_inj, UInt8.ofInt, UInt8.toNat_ofNat']
  omega

theorem Link.InStep.onMessage {l : Link} (h : l.InStep) (msg : List UInt8)
    : (onMessage l msg).1.InStep := by
  unfold CSirCon.onMessage
  dsimp only
  split
  . split
    . obtain ⟨hlast, hexp⟩ := onAckFrame_seqs l (SHdr.ofBytes msg)
      unfold Link.InStep
      rw [hlast, hexp]
      exact h
    . simp [Link.InStep, ofInt_toNat]
  . exact h

def nextMessage (l : Link) (unread : List UInt8) : Option (Nat × Link × List Action) :=
  let hdr := SHdr.ofBytes unread
  if unread.length < SHdr.size then
    none
  else if hdr.sentinel ≠ pktSentinel then
    some (1, l, [.markRead 1])
  else if unread.length < msgLen hdr then
    none
  else
    let (l, acts, len) := onMessage l (unread.take (msgLen hdr))
    some (len, l, acts ++ [.markRead len])

def Waits (unread : List UInt8) : Prop :=
  unread.length < SHdr.size ∨
    (SHdr.ofBytes unread).sentinel = pktSentinel ∧ unread.length < msgLen (SHdr.ofBytes unread)

instance (unread : List UInt8) : Decidable (Waits unread) := by
  unfold Waits
  infer_instance

theorem nextMessage_eq_none_iff {l : Link} {unread : List UInt8}
    : nextMessage l unread = none ↔ Waits unread := by
  unfold nextMessage Waits
  dsimp only
  split
  . simp_all
  . split
    . simp_all
    . split
      . simp_all
      . simp_all

theorem Waits.length_lt {unread : List UInt8} (h : Waits unread) : unread.length < maxPkt := by
  rcases h with h | ⟨-, h⟩
  . unfold maxPkt
    omega
  . have := msgLen_le_maxPkt (SHdr.ofBytes unread)
    omega

theorem ofBytes_take_msgLen {unread : List UInt8}
    (h : msgLen (SHdr.ofBytes unread) ≤ unread.length)
    : SHdr.ofBytes (unread.take (msgLen (SHdr.ofBytes unread))) = SHdr.ofBytes unread := by
  apply SHdr.ofBytes_take
  . unfold msgLen
    omega
  . exact h

theorem nextMessage_len {l : Link} {unread : List UInt8} {n : Nat} {r : Link × List Action}
    (h : nextMessage l unread = some (n, r))
    : 0 < n ∧ n ≤ unread.length := by
  unfold nextMessage at h
  dsimp only at h
  split at h
  . simp at h
  . next hsize =>
    simp only [SHdr.size] at hsize
    split at h
    . simp only [Option.some.injEq, Prod.mk.injEq] at h
      omega
    . split at h
      . simp at h
      . next hlen =>
        simp only [Option.some.injEq, Prod.mk.injEq] at h
        rw [onMessage_len, ofBytes_take_msgLen (by omega)] at h
        rw [← h.1]
        split
        . simp only [msgLen] at hlen ⊢
          omega
        . omega

theorem Link.InStep.nextMessage {l : Link} (h : l.InStep) {unread : List UInt8} {n : Nat} {l' : Link}
    {acts : List Action} (hnext : nextMessage l unread = some (n, l', acts))
    : l'.InStep := by
  unfold CSirCon.nextMessage at hnext
  dsimp only at hnext
  split at hnext
  . simp at hnext
  . split at hnext
    . simp only [Option.some.injEq, Prod.mk.injEq] at hnext
      rw [← hnext.2.1]
      exact h
    . split at hnext
      . simp at hnext
      . simp only [Option.some.injEq, Prod.mk.injEq] at hnext
        rw [← hnext.2.1]
        apply h.onMessage

theorem nextMessage_append {l : Link} {unread : List UInt8} {r : Nat × Link × List Action}
    (h : nextMessage l unread = some r) (more : List UInt8)
    : nextMessage l (unread ++ more) = some r := by
  unfold nextMessage at h ⊢
  dsimp only at h ⊢
  split at h
  . simp at h
  . next hsize =>
    rw [if_neg (by rw [List.length_append]; omega), SHdr.ofBytes_append (by omega)]
    split at h
    . next hsent =>
      rw [if_pos hsent]
      exact h
    . next hsent =>
      rw [if_neg hsent]
      split at h
      . simp at h
      . next hlen =>
        rw [if_neg (by rw [List.length_append]; omega), List.take_append_of_le_length (by omega)]
        exact h

def messages : Scanner Link UInt8 Action where
  next := nextMessage
  pos h := (nextMessage_len h).1
  le h := (nextMessage_len h).2
  stable h more := nextMessage_append h more

theorem parse_eq_scan {s : CSirCon} (hok : s.stagebuf.Ok) (fuel : Nat)
    (hfuel : s.stagebuf.readData.length < fuel)
    : ∃ stagebuf,
        s.parse fuel
            =
          some ({ s with stagebuf, link := (messages.scan s.link s.stagebuf.readData).1 },
            (messages.scan s.link s.stagebuf.readData).2.2)
          ∧
        stagebuf.Ok ∧ stagebuf.size = s.stagebuf.size
          ∧ stagebuf.readData = (messages.scan s.link s.stagebuf.readData).2.1 := by
  induction fuel generalizing s with
  | zero => omega
  | succ fuel ih =>
    have hlen : s.stagebuf.getReadLen = s.stagebuf.readData.length := by
      rw [SOBuffer.length_readData hok, SOBuffer.getReadLen]
    cases hnext : nextMessage s.link s.stagebuf.readData with
    | none =>
      refine ⟨s.stagebuf, ?_, hok, rfl, ?_⟩
      . rw [messages.scan_of_none hnext]
        rcases nextMessage_eq_none_iff.mp hnext with h | ⟨h₁, h₂⟩
        . unfold parse
          rw [if_neg (by omega)]
        . unfold parse
          split
          . dsimp only
            rw [if_neg (by simpa using h₁), if_pos (by omega)]
          . rfl
      . rw [messages.scan_of_none hnext]
    | some r =>
      obtain ⟨n, link, acts⟩ := r
      have hn := nextMessage_len hnext
      obtain ⟨b, hmark, hbok, hbsize, hbread⟩ := SOBuffer.markRead_eq hok hn.2
      have hfuel' : b.readData.length < fuel := by
        rw [hbread, List.length_drop]
        omega
      obtain ⟨stagebuf, hparse, hsok, hssize, hsread⟩ :=
        ih (s := { s with link, stagebuf := b }) hbok hfuel'
      dsimp only at hparse hssize hsread
      rw [hbread] at hparse hsread
      refine ⟨stagebuf, ?_, hsok, by rw [hssize, hbsize], ?_⟩
      . rw [messages.scan_of_some hnext]
        unfold nextMessage at hnext
        dsimp only at hnext
        split at hnext
        . simp at hnext
        . next hsize =>
          unfold parse
          rw [if_pos (by omega)]
          dsimp only
          split at hnext
          . next hsent =>
            simp only [Option.some.injEq, Prod.mk.injEq] at hnext
            obtain ⟨rfl, rfl, rfl⟩ := hnext
            rw [if_pos hsent]
            simp [hmark, hparse]
          . next hsent =>
            rw [if_neg hsent]
            split at hnext
            . simp at hnext
            . next hmsg =>
              simp only [Option.some.injEq, Prod.mk.injEq] at hnext
              obtain ⟨rfl, rfl, rfl⟩ := hnext
              rw [if_neg (by omega)]
              simp [hmark, hparse]
      . rw [messages.scan_of_some hnext]
        exact hsread

def RecvEvent.raw (e : RecvEvent) : List UInt8 :=
  match e.result with
  | .data bytes => bytes
  | .timeout => []
  | .error _ => []

def RecvEvent.fails (e : RecvEvent) : Bool :=
  match e.result with
  | .data _ | .timeout => false
  | .error _ => true

def rawStream (es : List RecvEvent) : List UInt8 := es.flatMap RecvEvent.raw

def Offered (s : CSirCon) : List RecvEvent → Prop
  | [] => True
  | e :: es =>
    e.raw.length ≤ s.stagebuf.getWriteLen.1 ∧
      ∀ s' acts, s.iteration e = some (s', acts, true) → Offered s' es

instance Offered.decidable (s : CSirCon) : (es : List RecvEvent) → Decidable (Offered s es)
  | [] => isTrue trivial
  | e :: es =>
    match h : s.iteration e with
    | some (s', acts, true) =>
      have := Offered.decidable s' es
      decidable_of_iff (e.raw.length ≤ s.stagebuf.getWriteLen.1 ∧ Offered s' es) (by
        simp only [Offered, h]
        constructor
        . rintro ⟨hlen, hes⟩
          refine ⟨hlen, ?_⟩
          rintro _ _ ⟨⟩
          exact hes
        . rintro ⟨hlen, hes⟩
          exact ⟨hlen, hes s' acts rfl⟩)
    | some (_, _, false) =>
      decidable_of_iff (e.raw.length ≤ s.stagebuf.getWriteLen.1) (by simp [Offered, h])
    | none => decidable_of_iff (e.raw.length ≤ s.stagebuf.getWriteLen.1) (by simp [Offered, h])

/--
What holds whenever the main loop is about to read: the staging buffer is intact, nothing in it
could be handled without more bytes, and the two sequence numbers of the receiver belong together.
-/
structure Settled (s : CSirCon) : Prop where
  ok : s.stagebuf.Ok
  size : s.stagebuf.size = stageBufSize
  waits : Waits s.stagebuf.readData
  inStep : s.link.InStep

theorem settled_new {block : List UInt8} (hblock : block.length = stageBufSize) (now : Nat)
    : Settled (new block now) where
  ok := SOBuffer.ok_new block
  size := hblock
  waits := by
    left
    simp [new, SHdr.size]
  inStep := rfl

theorem Settled.room {s : CSirCon} (h : Settled s) : 0 < s.stagebuf.getWriteLen.1 := by
  apply SOBuffer.getWriteLen_pos h.ok
  have := h.waits.length_lt
  rw [h.size, stageBufSize]
  omega

theorem afterRead_cases (s : CSirCon) (now bytes : Nat)
    : (s.afterRead now bytes).1.stagebuf = s.stagebuf
        ∧ (s.afterRead now bytes).1.inESC = s.inESC
        ∧ (s.afterRead now bytes).1.shutdown = s.shutdown
        ∧ (s.afterRead now bytes).1.link.lastSeq = s.link.lastSeq
        ∧ (s.afterRead now bytes).1.link.seqExpected = s.link.seqExpected
        ∧ ((s.afterRead now bytes).2 = [] ∧ (s.afterRead now bytes).1.link = s.link
          ∨ ∃ id, (s.afterRead now bytes).2 = [.keepalive id]) := by
  unfold afterRead
  split
  . split <;> simp
  . split
    . simp [send, composeFrame]
    . simp

theorem length_deEscape_le (inESC : Bool) (raw : List UInt8)
    : (deEscape.run inESC raw).2.length ≤ raw.length := by
  apply Transducer.length_run_le
  intro inESC b
  unfold deEscape
  repeat' split
  all_goals simp

theorem read_of_not_fails {s : CSirCon} {e : RecvEvent} (h : e.fails = false)
    : ∃ lastRx,
        s.read e
          =
        some ({ s with inESC := (deEscape.run s.inESC e.raw).1, lastRx },
          (deEscape.run s.inESC e.raw).2) := by
  unfold RecvEvent.fails at h
  unfold read RecvEvent.raw
  cases hr : e.result with
  | data bytes => exact ⟨_, rfl⟩
  | timeout => exact ⟨s.lastRx, rfl⟩
  | error code => simp [hr] at h

theorem iteration_eq_feed {s : CSirCon} (hs : Settled s) {e : RecvEvent} (he : e.fails = false)
    (hroom : e.raw.length ≤ s.stagebuf.getWriteLen.1)
    : ∃ s' link acts₁ acts₂,
        s.iteration e = some (s', acts₁ ++ acts₂, true) ∧ Settled s' ∧ s'.shutdown = s.shutdown
          ∧ messages.feed deEscape s.inESC link s.stagebuf.readData e.raw
              = (s'.inESC, s'.link, s'.stagebuf.readData, acts₂)
          ∧ link.lastSeq = s.link.lastSeq
          ∧ (acts₁ = [] ∧ link = s.link ∨ ∃ id, acts₁ = [.keepalive id]) := by
  have hpos := hs.room
  obtain ⟨lastRx, hread⟩ :=
    read_of_not_fails (s := { s with stagebuf := s.stagebuf.getWriteLen.2 }) he
  dsimp only at hread
  have hbuf : (deEscape.run s.inESC e.raw).2.length ≤ s.stagebuf.getWriteLen.1 :=
    Nat.le_trans (length_deEscape_le _ _) hroom
  obtain ⟨b, happend, hbok, hbsize, hbread⟩ := SOBuffer.append_eq hs.ok hbuf
  unfold iteration
  dsimp only
  rw [if_pos hpos, hread]
  simp only [happend, Option.bind_eq_bind, Option.bind_some]
  generalize hs₁ : ({ s with inESC := (deEscape.run s.inESC e.raw).1, lastRx, stagebuf := b }
    : CSirCon) = s₁
  obtain ⟨hstage, hesc, hsd, hlast, hexp, hkeep⟩ :=
    afterRead_cases s₁ e.now (deEscape.run s.inESC e.raw).2.length
  generalize hs₂ : s₁.afterRead e.now (deEscape.run s.inESC e.raw).2.length = r at *
  obtain ⟨s₂, acts₁⟩ := r
  dsimp only at *
  have hok₂ : s₂.stagebuf.Ok := by
    rw [hstage, ← hs₁]
    exact hbok
  have hread₂ : s₂.stagebuf.readData
      = s.stagebuf.readData ++ (deEscape.run s.inESC e.raw).2 := by
    rw [hstage, ← hs₁]
    exact hbread
  obtain ⟨stagebuf, hparse, hok, hsize, hrest⟩ :=
    parse_eq_scan (s := s₂) hok₂ (s₂.stagebuf.getReadLen + 1) (by
      rw [SOBuffer.length_readData hok₂, SOBuffer.getReadLen]
      omega)
  simp only [hparse, Option.bind_some, Option.pure_def]
  refine ⟨_, s₂.link, acts₁, _, rfl, ?_, ?_, ?_, ?_, ?_⟩
  . refine ⟨hok, ?_, ?_, ?_⟩
    . dsimp only
      rw [hsize, hstage, ← hs₁]
      exact hbsize.trans hs.size
    . dsimp only
      rw [hrest]
      exact nextMessage_eq_none_iff.mp (messages.next_scan _ _)
    . apply messages.scan_invariant
      . intro l unread n l' acts hl hnext
        exact hl.nextMessage hnext
      . unfold Link.InStep
        rw [hlast, hexp, ← hs₁]
        exact hs.inStep
  . dsimp only
    rw [hsd, ← hs₁]
  . dsimp only
    rw [hrest, hesc, hread₂, ← hs₁]
    rfl
  . rw [hlast, ← hs₁]
  . rw [← hs₁] at hkeep
    exact hkeep

end CSirCon
