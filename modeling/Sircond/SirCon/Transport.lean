import Sircond.SirCon.Lemmas.Reception
import Sircond.SirCon.Machine

/-!
This module contains the round trip of frames: what `ComposeFrame` builds and `Write` encodes is
what the receiver on the other side dispatches and acknowledges.
-/

open Scp

namespace CSirCon

def composeAll (s : CSirCon) : List (Payload × Nat) → List (MsgBuf × Nat)
  | [] => []
  | (data, k) :: sent =>
    let (bufptr, s) := s.composeFrame data
    (bufptr, k) :: composeAll s sent

def writeAll (frames : List (MsgBuf × Nat)) : List UInt8 :=
  frames.flatMap fun (bufptr, k) => (List.replicate k (write bufptr.data)).flatten

theorem dispatched_filter (acts : List Action)
    : dispatched (acts.filter Action.isReception) = dispatched acts := by
  unfold dispatched
  rw [List.filterMap_filter]
  congr 1
  funext a
  cases a <;> rfl

theorem acked_filter (acts : List Action)
    : acked (acts.filter Action.isReception) = acked acts := by
  unfold acked
  rw [List.filterMap_filter]
  congr 1
  funext a
  cases a <;> rfl

theorem next_frameBytes (lastSeq : Int) (seq : UInt8) (data : Payload)
    (rest : List UInt8)
    : reception.next lastSeq (frameBytes seq data ++ rest)
        =
      some ((frameBytes seq data).length, (seq.toNat : Int),
        Action.sendACK seq sfAck :: (if seq.toNat = lastSeq then [] else [.dispatch data.bytes])
          ++ [.markRead (frameBytes seq data).length]) := by
  have hlen := length_frameBytes seq data
  have hmsg := msgLen_frameBytes seq data []
  have hack : (0x00 : UInt8) &&& sfAck = 0 := by decide
  rw [List.append_nil] at hmsg
  have hhdr := ofBytes_frameBytes seq data []
  rw [List.append_nil] at hhdr
  change nextReception lastSeq (frameBytes seq data ++ rest) = _
  unfold nextReception
  dsimp only
  rw [if_neg (by rw [List.length_append]; omega), msgLen_frameBytes, if_neg (by
    rw [ofBytes_frameBytes]
    simp), if_neg (by rw [List.length_append]; omega), List.take_left]
  unfold receive
  dsimp only
  rw [hmsg, hhdr, validateChecksum_frameBytes]
  simp only [Bool.not_true, Bool.false_eq_true, if_false, hack, ne_eq, not_true_eq_false,
    payload_frameBytes]
  split
  . next h => simp [h]
  . simp

theorem scan_frameBytes (lastSeq : Int) (seq : UInt8) (data : Payload) (rest : List UInt8)
    : reception.scan lastSeq (frameBytes seq data ++ rest)
        =
      ((reception.scan seq.toNat rest).1, (reception.scan seq.toNat rest).2.1,
        .sendACK seq sfAck :: (if seq.toNat = lastSeq then [] else [.dispatch data.bytes])
          ++ .markRead (frameBytes seq data).length :: (reception.scan seq.toNat rest).2.2) := by
  rw [reception.scan_of_some (next_frameBytes lastSeq seq data rest)]
  simp

theorem scan_copies (seq : UInt8) (data : Payload) (rest : List UInt8) (k : Nat)
    : ∃ acts,
        reception.scan seq.toNat ((List.replicate k (frameBytes seq data)).flatten ++ rest)
            =
          ((reception.scan seq.toNat rest).1, (reception.scan seq.toNat rest).2.1,
            acts ++ (reception.scan seq.toNat rest).2.2)
          ∧
        dispatched acts = [] ∧ acked acts = List.replicate k (seq, sfAck) := by
  induction k with
  | zero => exact ⟨[], by simp, rfl, rfl⟩
  | succ k ih =>
    obtain ⟨acts, hscan, hdisp, hack⟩ := ih
    rw [List.replicate_succ, List.flatten_cons, List.append_assoc, scan_frameBytes, hscan]
    refine ⟨.sendACK seq sfAck :: .markRead (frameBytes seq data).length :: acts, ?_, ?_, ?_⟩
    . simp
    . simpa [dispatched] using hdisp
    . simpa [acked, List.replicate_succ] using hack

theorem scan_composeAll (tx : CSirCon) (sent : List (Payload × Nat)) (hk : ∀ m ∈ sent, 1 ≤ m.2)
    (lastSeq : Int) (hseq : tx.seq.toNat ≠ lastSeq)
    : ∃ lastSeq' acts,
        reception.scan lastSeq
            ((tx.composeAll sent).flatMap fun (bufptr, k) => (List.replicate k bufptr.data).flatten)
            =
          (lastSeq', [], acts)
          ∧
        dispatched acts = sent.map (·.1.bytes)
          ∧
        acked acts
            =
          (tx.composeAll sent).flatMap fun (bufptr, k) =>
            List.replicate k (bufptr.seq, sfAck) := by
  induction sent generalizing tx lastSeq with
  | nil =>
    refine ⟨lastSeq, [], ?_, rfl, rfl⟩
    apply reception.scan_of_none
    rfl
  | cons m sent ih =>
    obtain ⟨data, k⟩ := m
    obtain ⟨k, rfl⟩ : ∃ n, k = n + 1 := ⟨k - 1, by have := hk _ (List.mem_cons_self ..); omega⟩
    have hnext : ((tx.composeFrame data).2.seq.toNat : Int) ≠ tx.seq.toNat := by
      have := tx.seq.toNat_lt
      simp only [composeFrame, UInt8.toNat_add, UInt8.reduceToNat]
      omega
    obtain ⟨lastSeq', acts, hscan, hdisp, hack⟩ :=
      ih (tx.composeFrame data).2 (fun m hm => hk m (List.mem_cons_of_mem _ hm)) _ hnext
    obtain ⟨copies, hcopies, hcdisp, hcack⟩ := scan_copies tx.seq data
      (((tx.composeFrame data).2.composeAll sent).flatMap fun (bufptr, k) =>
        (List.replicate k bufptr.data).flatten) k
    rw [hscan] at hcopies
    refine ⟨lastSeq', .sendACK tx.seq sfAck :: .dispatch data.bytes
      :: .markRead (frameBytes tx.seq data).length :: copies ++ acts, ?_, ?_, ?_⟩
    . simp only [composeAll, List.flatMap_cons]
      simp only [composeFrame, List.replicate_succ, List.flatten_cons, List.append_assoc] at *
      rw [scan_frameBytes, hcopies]
      simp [hseq]
    . have : dispatched (.sendACK tx.seq sfAck :: .dispatch data.bytes
          :: .markRead (frameBytes tx.seq data).length :: copies)
          = data.bytes :: dispatched copies := rfl
      rw [dispatched_append, this, hdisp, hcdisp]
      rfl
    . have : acked (.sendACK tx.seq sfAck :: .dispatch data.bytes
          :: .markRead (frameBytes tx.seq data).length :: copies)
          = (tx.seq, sfAck) :: acked copies := rfl
      rw [acked_append, this, hack, hcack]
      simp [composeAll, composeFrame, List.replicate_succ]

theorem exists_frameBytes_of_mem_composeAll {tx : CSirCon} {sent : List (Payload × Nat)}
    {frame : MsgBuf × Nat} (h : frame ∈ tx.composeAll sent)
    : ∃ seq data, frame.1.data = frameBytes seq data := by
  induction sent generalizing tx with
  | nil => simp [composeAll] at h
  | cons m sent ih =>
    simp only [composeAll, List.mem_cons] at h
    rcases h with rfl | h
    . exact ⟨_, _, rfl⟩
    . exact ih h

theorem deEscape_writeAll (frames : List (MsgBuf × Nat))
    (hframes : ∀ frame ∈ frames, ∃ seq data, frame.1.data = frameBytes seq data)
    : deEscape.run false (writeAll frames)
        =
      (false, frames.flatMap fun (bufptr, k) => (List.replicate k bufptr.data).flatten) := by
  have hcopies : ∀ (body : List UInt8), body.length < maxPkt → ∀ (k : Nat) (rest : List UInt8),
      deEscape.run false ((List.replicate k (write (pktSentinel :: body))).flatten ++ rest)
        = ((deEscape.run false rest).1,
          (List.replicate k (pktSentinel :: body)).flatten ++ (deEscape.run false rest).2) := by
    intro body hbody k rest
    induction k with
    | zero => simp
    | succ k ih =>
      rw [List.replicate_succ, List.flatten_cons, List.append_assoc, deEscape_write hbody, ih,
        List.replicate_succ, List.flatten_cons, List.append_assoc]
  induction frames with
  | nil => rfl
  | cons frame frames ih =>
    obtain ⟨seq, data, hdata⟩ := hframes _ (List.mem_cons_self ..)
    obtain ⟨body, hbody, hlen⟩ := frameBytes_eq_cons seq data
    have ih := ih fun frame h => hframes frame (List.mem_cons_of_mem _ h)
    simp only [writeAll, List.flatMap_cons] at ih ⊢
    rw [hdata, hbody, hcopies body hlen, ih]

/--
Frame transport round trip: frames composed in order and each written at least once arrive as the
payloads they were composed for, each dispatched once and acknowledged as often as it was written,
however the serial port cuts the stream.
-/
theorem onRun_writeAll (tx : CSirCon) (sent : List (Payload × Nat)) (hk : ∀ m ∈ sent, 1 ≤ m.2)
    {block : List UInt8} (hblock : block.length = stageBufSize) (now : Nat)
    {es : List RecvEvent} (hes : ∀ e ∈ es, e.fails = false) (hoff : Offered (new block now) es)
    (hraw : rawStream es = writeAll (tx.composeAll sent))
    : (∀ frame ∈ tx.composeAll sent, ∃ body,
        frame.1.data = pktSentinel :: body
          ∧ write frame.1.data = pktSentinel :: body.flatMap escapeByte
          ∧ pktSentinel ∉ body.flatMap escapeByte
          ∧ (write frame.1.data).length ≤ stageBufSize)
        ∧
      ∃ rx acts,
        (new block now).onRun es = some (rx, acts)
          ∧ dispatched acts = sent.map (·.1.bytes)
          ∧ acked acts
              = (tx.composeAll sent).flatMap fun (bufptr, k) =>
                  List.replicate k (bufptr.seq, sfAck) := by
  constructor
  . intro frame hframe
    obtain ⟨seq, data, hdata⟩ := exists_frameBytes_of_mem_composeAll hframe
    obtain ⟨body, hbody, hlen⟩ := frameBytes_eq_cons seq data
    rw [hdata, hbody]
    exact ⟨body, rfl, write_cons hlen, pktSentinel_not_mem_flatMap_escapeByte body,
      length_write_le hlen⟩
  . obtain ⟨rx, acts, hrun, -, -, hfeed⟩ :=
      onRun_eq_reception (settled_new hblock now) rfl hes hoff
    obtain ⟨lastSeq, acts', hscan, hdisp, hack⟩ :=
      scan_composeAll tx sent hk (-1) (by omega)
    refine ⟨rx, acts, hrun, ?_⟩
    simp only [Scanner.feed, new, SOBuffer.readData_new, List.nil_append, hraw] at hfeed
    rw [deEscape_writeAll _ fun _ h => exists_frameBytes_of_mem_composeAll h, hscan] at hfeed
    simp only [Prod.mk.injEq] at hfeed
    obtain ⟨-, -, -, hacts⟩ := hfeed
    rw [← dispatched_filter, ← acked_filter, ← hacts]
    exact ⟨hdisp, hack⟩

theorem onRun_writeAll_sentinels
    : ∃ rx acts,
        (new (List.replicate stageBufSize 0) 1).onRun
            [⟨.data [0xA4, 0x03, 0x00, 0x1B], 1⟩,
              ⟨.data [0x53, 0x00, 0x02, 0x80, 0x1B, 0x53, 0x8F, 0xA4, 0x03], 1⟩, ⟨.timeout, 50⟩,
              ⟨.data [0x00, 0x1B, 0x53, 0x00, 0x02, 0x80, 0x1B], 50⟩, ⟨.data [0x53], 50⟩,
              ⟨.data [0x8F, 0xA4, 0x03, 0x00, 0xA5, 0x00, 0x00, 0xB4], 51⟩]
            =
          some (rx, acts)
          ∧ dispatched acts = [[0x80, 0xA4], []]
          ∧ acked acts = [(0xA4, sfAck), (0xA4, sfAck), (0xA5, sfAck)] :=
  (onRun_writeAll { new [] 0 with seq := 0xA4 } [(⟨[0x80, 0xA4], by decide⟩, 2), (⟨[], by decide⟩, 1)]
    (by decide) List.length_replicate 1 (by decide) (by decide +kernel) (by decide +kernel)).2

end CSirCon
