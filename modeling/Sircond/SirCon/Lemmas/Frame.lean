import Sircond.SirCon.Impl.OnRun

/-!
This module contains what the receiver relies on in a frame: it has the header and the checksum it
was built with, and removing the escapes from its encoding gives it back.
-/

open Scp

namespace CSirCon

theorem byteSum_append (xs ys : List UInt8) : byteSum (xs ++ ys) = byteSum xs + byteSum ys := by
  have hfold : ∀ (ys : List UInt8) (a : UInt8), ys.foldl (· + ·) a = a + ys.foldl (· + ·) 0 := by
    intro ys
    induction ys with
    | nil => simp
    | cons y ys ih =>
      intro a
      simp only [List.foldl_cons]
      rw [ih, ih (0 + y), UInt8.zero_add, UInt8.add_assoc]
  unfold byteSum
  rw [List.foldl_append, hfold]

theorem validateChecksum_computeChecksum (data : List UInt8)
    : validateChecksum (data ++ [computeChecksum data]) = true := by
  have hsum : byteSum [computeChecksum data] = -byteSum data := by
    simp [byteSum, computeChecksum, ← UInt8.neg_eq_not_add]
  unfold validateChecksum
  rw [byteSum_append, hsum, UInt8.add_right_neg]
  rfl

section FrameBytes

variable (seq : UInt8) (data : Payload)

theorem toNat_ofNat_length (data : Payload)
    : (UInt8.ofNat data.bytes.length).toNat = data.bytes.length := by
  have := data.fits
  simp only [maxData] at this
  simp only [UInt8.toNat_ofNat']
  omega

@[simp]
theorem validateChecksum_frameBytes : validateChecksum (frameBytes seq data) = true := by
  apply validateChecksum_computeChecksum

theorem ofBytes_frameBytes (rest : List UInt8)
    : SHdr.ofBytes (frameBytes seq data ++ rest)
        =
      ⟨pktSentinel, 0x03, 0x00, seq, 0x00, UInt8.ofNat data.bytes.length⟩ := by
  rfl

theorem length_frameBytes
    : (frameBytes seq data).length = SHdr.size + data.bytes.length + 1 := by
  simp [frameBytes, Nat.add_assoc]

theorem msgLen_frameBytes (rest : List UInt8)
    : msgLen (SHdr.ofBytes (frameBytes seq data ++ rest)) = (frameBytes seq data).length := by
  rw [length_frameBytes, ofBytes_frameBytes]
  simp only [msgLen]
  rw [toNat_ofNat_length]

theorem length_frameBytes_le : (frameBytes seq data).length ≤ maxPkt := by
  have := data.fits
  rw [length_frameBytes]
  simp only [maxPkt]
  omega

theorem payload_frameBytes
    : ((frameBytes seq data).drop SHdr.size).take (UInt8.ofNat data.bytes.length).toNat
        =
      data.bytes := by
  rw [toNat_ofNat_length]
  simp [frameBytes, SHdr.size, SHdr.toBytes]

end FrameBytes

def escapeByte (b : UInt8) : List UInt8 :=
  if b = pktSentinel then
    [asciiEsc, sentinelEsc]
  else if b = asciiEsc then
    [asciiEsc, asciiEsc]
  else
    [b]

theorem length_escapeByte_le (b : UInt8) : (escapeByte b).length ≤ 2 := by
  unfold escapeByte
  split
  . simp
  . split <;> simp

theorem pktSentinel_not_mem_escapeByte (b : UInt8) : pktSentinel ∉ escapeByte b := by
  unfold escapeByte
  split
  . decide
  . split
    . decide
    . next h _ => simpa using fun heq => h heq.symm

theorem deEscape_escapeByte (b : UInt8) (rest : List UInt8)
    : deEscape.run false (escapeByte b ++ rest)
        =
      ((deEscape.run false rest).1, b :: (deEscape.run false rest).2) := by
  have hne : sentinelEsc ≠ asciiEsc := by decide
  unfold escapeByte
  split
  . next h => simp [Transducer.run_cons, deEscape, hne, h]
  . split
    . next h => simp [Transducer.run_cons, deEscape, h]
    . next h => simp [Transducer.run_cons, deEscape, h]

theorem deEscape_flatMap_escapeByte (data rest : List UInt8)
    : deEscape.run false (data.flatMap escapeByte ++ rest)
        =
      ((deEscape.run false rest).1, data ++ (deEscape.run false rest).2) := by
  induction data with
  | nil => simp
  | cons b data ih =>
    rw [List.flatMap_cons, List.append_assoc, deEscape_escapeByte, ih]
    simp

theorem write.go_cons (i : Nat) {tmpbuf : List UInt8} (hfits : tmpbuf.length < stageBufSize)
    (b : UInt8) (buf : List UInt8)
    : write.go (i + 1) tmpbuf (b :: buf) = write.go (i + 2) (tmpbuf ++ escapeByte b) buf := by
  conv => lhs; unfold write.go
  rw [if_pos hfits]
  unfold escapeByte
  split
  . rw [if_pos (by omega)]
  . split
    . rfl
    . rfl

theorem write.go_eq (i : Nat) (tmpbuf buf : List UInt8)
    (hfits : tmpbuf.length + 2 * buf.length ≤ stageBufSize + 1)
    : write.go (i + 1) tmpbuf buf = tmpbuf ++ buf.flatMap escapeByte := by
  induction buf generalizing i tmpbuf with
  | nil => simp [write.go]
  | cons b buf ih =>
    have := length_escapeByte_le b
    rw [List.length_cons] at hfits
    rw [write.go_cons i (by omega), ih]
    . simp
    . rw [List.length_append]
      omega

theorem write_cons {body : List UInt8} (hlen : body.length < maxPkt)
    : write (pktSentinel :: body) = pktSentinel :: body.flatMap escapeByte := by
  have hsize : (0 : Nat) < stageBufSize := by decide
  unfold write write.go
  rw [if_pos (by simpa using hsize), if_pos rfl, if_neg (by omega), write.go_eq]
  . rfl
  . simp only [List.nil_append, List.length_cons, List.length_nil, stageBufSize]
    omega

theorem length_write_le {body : List UInt8} (hlen : body.length < maxPkt)
    : (write (pktSentinel :: body)).length ≤ stageBufSize := by
  have hbody : ∀ data : List UInt8, (data.flatMap escapeByte).length ≤ 2 * data.length := by
    intro data
    induction data with
    | nil => simp
    | cons b data ih =>
      have := length_escapeByte_le b
      simp only [List.flatMap_cons, List.length_append, List.length_cons]
      omega
  have := hbody body
  rw [write_cons hlen, List.length_cons]
  simp only [stageBufSize]
  omega

theorem pktSentinel_not_mem_flatMap_escapeByte (data : List UInt8)
    : pktSentinel ∉ data.flatMap escapeByte := by
  simp only [List.mem_flatMap, not_exists, not_and]
  intro b _
  apply pktSentinel_not_mem_escapeByte

theorem deEscape_write {body : List UInt8} (hlen : body.length < maxPkt) (rest : List UInt8)
    : deEscape.run false (write (pktSentinel :: body) ++ rest)
        =
      ((deEscape.run false rest).1, pktSentinel :: body ++ (deEscape.run false rest).2) := by
  have hne : pktSentinel ≠ asciiEsc := by decide
  rw [write_cons hlen, List.cons_append, Transducer.run_cons]
  simp [deEscape, hne, deEscape_flatMap_escapeByte]

theorem frameBytes_eq_cons (seq : UInt8) (data : Payload)
    : ∃ body, frameBytes seq data = pktSentinel :: body ∧ body.length < maxPkt := by
  have hlen := length_frameBytes_le seq data
  refine ⟨(frameBytes seq data).tail, rfl, ?_⟩
  rw [List.length_tail]
  rw [length_frameBytes] at hlen ⊢
  omega

end CSirCon
