import Sircond.SOBuf.Impl

/-!
This module contains the invariant of slide-over buffers and what their operations do to the unread
bytes.
-/

namespace SOBuffer

/--
The unread bytes lie inside the block, and the write position is not behind the recorded size.
-/
structure Safe (b : SOBuffer) : Prop where
  fits : b.bufpos + b.buflen ≤ b.size
  inside : b.bufpos + b.buflen ≤ b.buf.length

structure Ok (b : SOBuffer) : Prop where
  alloc : b.buf.length = b.size
  fits : b.bufpos + b.buflen ≤ b.size

structure SameBlock (b b' : SOBuffer) : Prop where
  size : b'.size = b.size
  length : b'.buf.length = b.buf.length

theorem Ok.safe {b : SOBuffer} (h : b.Ok) : b.Safe where
  fits := h.fits
  inside := by
    rw [h.alloc]
    apply h.fits

theorem Safe.ok {b : SOBuffer} (h : b.Safe) (halloc : b.buf.length = b.size) : b.Ok where
  alloc := halloc
  fits := h.fits

theorem Ok.of_sameBlock {b b' : SOBuffer} (h : b.Ok) (hsafe : b'.Safe) (hsame : b.SameBlock b')
    : b'.Ok := by
  apply hsafe.ok
  rw [hsame.length, hsame.size]
  apply h.alloc

theorem ok_new (block : List UInt8) : (new block).Ok where
  alloc := rfl
  fits := by simp [new]

@[simp]
theorem readData_new (block : List UInt8) : (new block).readData = [] := by
  simp [readData, new]

section Safe

variable {b b' : SOBuffer}

theorem Safe.length_readData (h : b.Safe) : b.readData.length = b.buflen := by
  have := h.inside
  simp only [readData, List.length_take, List.length_drop]
  omega

theorem Safe.markRead_eq (h : b.Safe) {len : Nat} (hlen : len ≤ b.readData.length)
    : ∃ b', b.markRead len = some b' ∧ b'.Safe ∧ b.SameBlock b'
        ∧ b'.readData = b.readData.drop len := by
  have hfits := h.fits
  have hinside := h.inside
  rw [h.length_readData] at hlen
  refine ⟨_, if_pos hlen, ⟨?_, ?_⟩, ⟨rfl, rfl⟩, ?_⟩
  . dsimp
    split <;> omega
  . dsimp
    split <;> omega
  . simp only [readData]
    split
    . next hempty =>
      rw [hempty, List.take_zero, eq_comm, List.drop_eq_nil_iff, List.length_take]
      omega
    . rw [List.drop_take, List.drop_drop]

theorem Safe.le_of_markRead (hsafe : b.Safe) {len : Nat} (h : b.markRead len = some b')
    : len ≤ b.readData.length := by
  rw [hsafe.length_readData]
  unfold markRead at h
  split at h
  . assumption
  . simp at h

theorem Safe.of_markRead (h : b.Safe) {len : Nat} (hmark : b.markRead len = some b')
    : b'.Safe ∧ b.SameBlock b' ∧ b'.readData = b.readData.drop len := by
  obtain ⟨b₁, hmark₁, hspec⟩ := h.markRead_eq (h.le_of_markRead hmark)
  obtain rfl : b₁ = b' := Option.some.inj (hmark₁.symm.trans hmark)
  exact hspec

theorem Safe.clear_eq (h : b.Safe)
    : ∃ b', b.clear = some b' ∧ b'.Safe ∧ b.SameBlock b' ∧ b'.readData = [] := by
  obtain ⟨b', hmark, hsafe, hsame, hread⟩ := h.markRead_eq (Nat.le_refl b.readData.length)
  rw [h.length_readData] at hmark
  rw [List.drop_length] at hread
  exact ⟨b', hmark, hsafe, hsame, hread⟩

theorem Safe.of_clear (h : b.Safe) (hclear : b.clear = some b')
    : b'.Safe ∧ b.SameBlock b' ∧ b'.readData = [] := by
  obtain ⟨b₁, hclear₁, hspec⟩ := h.clear_eq
  obtain rfl : b₁ = b' := Option.some.inj (hclear₁.symm.trans hclear)
  exact hspec

theorem Safe.getWriteLen_spec (h : b.Safe)
    : b.getWriteLen.2.Safe ∧ b.SameBlock b.getWriteLen.2 ∧ b.getWriteLen.2.buflen = b.buflen
        ∧ b.getWriteLen.2.readData = b.readData
        ∧ b.getWriteLen.1 = b.size - b.getWriteLen.2.bufpos - b.buflen
        ∧ (b.getWriteLen.1 = 0 → b.buflen = b.size) := by
  have hfits := h.fits
  have hinside := h.inside
  have hread := h.length_readData
  simp only [getWriteLen]
  split
  . next hfull =>
    have hlength : (b.readData ++ b.buf.drop b.buflen).length = b.buf.length := by
      simp only [List.length_append, List.length_drop]
      omega
    refine ⟨⟨?_, ?_⟩, ⟨rfl, hlength⟩, rfl, ?_, rfl, ?_⟩
    . dsimp
      omega
    . dsimp only
      omega
    . change ((b.readData ++ b.buf.drop b.buflen).drop 0).take b.buflen = b.readData
      rw [List.drop_zero]
      exact List.take_left' hread
    . dsimp
      omega
  . next hroom =>
    refine ⟨h, ⟨rfl, rfl⟩, rfl, rfl, rfl, ?_⟩
    dsimp
    omega

theorem Safe.getWritePtr_getWriteLen (h : b.Safe)
    : b.getWriteLen.2.getWritePtr + b.getWriteLen.1 = b.size := by
  obtain ⟨hsafe, hsame, hbuflen, -, hroom, -⟩ := h.getWriteLen_spec
  have hfits := hsafe.fits
  have hsize := hsame.size
  unfold getWritePtr
  omega

theorem Safe.store_eq (h : b.Safe) {bytes : List UInt8}
    (hlen : b.getWritePtr + bytes.length ≤ b.buf.length)
    : ∃ b', b.store bytes = some b' ∧ b'.Safe ∧ b.SameBlock b' ∧ b'.bufpos = b.bufpos
        ∧ b'.buflen = b.buflen
        ∧ (b'.buf.drop b'.bufpos).take (b'.buflen + bytes.length) = b.readData ++ bytes := by
  have hfits := h.fits
  have hinside := h.inside
  have hptr : b.getWritePtr = b.bufpos + b.buflen := rfl
  have hlength : (b.buf.take b.getWritePtr ++ bytes
      ++ b.buf.drop (b.getWritePtr + bytes.length)).length = b.buf.length := by
    simp only [List.length_append, List.length_take, List.length_drop]
    omega
  refine ⟨{ b with
    buf := b.buf.take b.getWritePtr ++ bytes ++ b.buf.drop (b.getWritePtr + bytes.length) }, ?_,
    ⟨hfits, ?_⟩, ⟨rfl, hlength⟩, rfl, rfl, ?_⟩
  . unfold store poke
    rw [if_pos hlen]
    rfl
  . dsimp only
    omega
  . simp only [getWritePtr, readData, List.append_assoc]
    rw [List.drop_append_of_le_length (by rw [List.length_take]; omega), List.drop_take]
    rw [← List.append_assoc, List.take_append_of_le_length, List.take_of_length_le]
    . congr 2
      omega
    . simp only [List.length_append, List.length_take, List.length_drop]
      omega
    . simp only [List.length_append, List.length_take, List.length_drop]
      omega

theorem le_of_store {bytes : List UInt8} (h : (b.store bytes).isSome)
    : b.getWritePtr + bytes.length ≤ b.buf.length := by
  unfold store poke at h
  split at h
  . assumption
  . simp at h

theorem Safe.append_eq (h : b.Safe) {bytes : List UInt8} (hlen : bytes.length ≤ b.getWriteLen.1)
    (hinside : b.getWriteLen.2.getWritePtr + bytes.length ≤ b.buf.length)
    : ∃ b', b.getWriteLen.2.append bytes = some b' ∧ b'.Safe ∧ b.SameBlock b'
        ∧ b'.readData = b.readData ++ bytes := by
  have hend := h.getWritePtr_getWriteLen
  obtain ⟨hsafe, ⟨hsize, hlength⟩, hbuflen, hread, hroom, -⟩ := h.getWriteLen_spec
  generalize hb : b.getWriteLen = r at *
  obtain ⟨room, b₁⟩ := r
  dsimp only at *
  obtain ⟨b₂, hstore, hsafe₂, ⟨hsize₂, hlength₂⟩, hbufpos₂, hbuflen₂, hread₂⟩ :=
    hsafe.store_eq (show b₁.getWritePtr + bytes.length ≤ b₁.buf.length by omega)
  have hptr : b₁.getWritePtr = b₁.bufpos + b₁.buflen := rfl
  have hfits := hsafe₂.fits
  have hinside₂ := hsafe₂.inside
  simp only [append, hstore, Option.bind_some]
  by_cases hempty : bytes = []
  . -- Without bytes to append the slide in the assertion is all that may happen.
    subst hempty
    obtain ⟨hsafe₃, ⟨hsize₃, hlength₃⟩, -, hread₃, -, -⟩ := hsafe₂.getWriteLen_spec
    refine ⟨b₂.getWriteLen.2, ?_, hsafe₃, ⟨by omega, by omega⟩, ?_⟩
    . simp [markWritten]
    . rw [hread₃, ← hread]
      simpa [readData] using hread₂
  . have hpos : 0 < bytes.length := List.length_pos_of_ne_nil hempty
    have hwrite : b₂.getWriteLen = (room, b₂) := by
      simp only [getWriteLen]
      rw [if_neg]
      . simp only [Prod.mk.injEq, and_true]
        omega
      . omega
    refine ⟨{ b₂ with buflen := b₂.buflen + bytes.length }, ?_, ⟨?_, ?_⟩, ⟨?_, ?_⟩, ?_⟩
    . simp [markWritten, hwrite, hlen]
    . dsimp
      omega
    . dsimp
      omega
    . dsimp
      omega
    . dsimp
      omega
    . rw [← hread]
      apply hread₂

theorem Safe.of_append (h : b.Safe) {bytes : List UInt8} (hlen : bytes.length ≤ b.getWriteLen.1)
    (happend : b.getWriteLen.2.append bytes = some b')
    : b'.Safe ∧ b.SameBlock b' ∧ b'.readData = b.readData ++ bytes := by
  -- the block may be shorter than the size says, but then the bytes could not be stored
  have hsome : (b.getWriteLen.2.store bytes).isSome := by
    unfold append at happend
    rw [Option.bind_eq_some_iff] at happend
    obtain ⟨b₁, hstore, -⟩ := happend
    simp [hstore]
  have hinside := le_of_store hsome
  rw [h.getWriteLen_spec.2.1.length] at hinside
  obtain ⟨b₁, happend₁, hspec⟩ := h.append_eq hlen hinside
  obtain rfl : b₁ = b' := Option.some.inj (happend₁.symm.trans happend)
  exact hspec

end Safe

theorem length_readData {b : SOBuffer} (h : b.Ok) : b.readData.length = b.buflen :=
  h.safe.length_readData

theorem markRead_eq {b : SOBuffer} (h : b.Ok) {len : Nat} (hlen : len ≤ b.readData.length)
    : ∃ b', b.markRead len = some b' ∧ b'.Ok ∧ b'.size = b.size
        ∧ b'.readData = b.readData.drop len := by
  obtain ⟨b', hmark, hsafe, hsame, hread⟩ := h.safe.markRead_eq hlen
  exact ⟨b', hmark, h.of_sameBlock hsafe hsame, hsame.size, hread⟩

theorem le_of_markRead {b b' : SOBuffer} (hok : b.Ok) {len : Nat} (h : b.markRead len = some b')
    : len ≤ b.readData.length := by
  apply hok.safe.le_of_markRead h

theorem ok_of_markRead {b b' : SOBuffer} (hok : b.Ok) {len : Nat} (h : b.markRead len = some b')
    : b'.Ok := by
  obtain ⟨hsafe, hsame, -⟩ := hok.safe.of_markRead h
  exact hok.of_sameBlock hsafe hsame

theorem clear_eq {b : SOBuffer} (h : b.Ok)
    : ∃ b', b.clear = some b' ∧ b'.Ok ∧ b'.size = b.size ∧ b'.readData = [] := by
  obtain ⟨b', hclear, hsafe, hsame, hread⟩ := h.safe.clear_eq
  exact ⟨b', hclear, h.of_sameBlock hsafe hsame, hsame.size, hread⟩

theorem bufpos_markRead {b b' : SOBuffer} {len : Nat} (h : b.markRead len = some b')
    (hempty : b'.buflen = 0)
    : b'.bufpos = 0 := by
  unfold markRead at h
  split at h
  . obtain rfl := Option.some.inj h
    apply if_pos hempty
  . simp at h

theorem getWriteLen_spec {b : SOBuffer} (h : b.Ok)
    : b.getWriteLen.2.Ok ∧ b.getWriteLen.2.size = b.size ∧ b.getWriteLen.2.buflen = b.buflen
        ∧ b.getWriteLen.2.readData = b.readData
        ∧ b.getWriteLen.1 = b.size - b.getWriteLen.2.bufpos - b.buflen
        ∧ (b.getWriteLen.1 = 0 → b.buflen = b.size) := by
  obtain ⟨hsafe, hsame, hrest⟩ := h.safe.getWriteLen_spec
  exact ⟨h.of_sameBlock hsafe hsame, hsame.size, hrest⟩

theorem getWriteLen_getWriteLen {b : SOBuffer} (h : b.Ok) (hroom : 0 < b.getWriteLen.1)
    : b.getWriteLen.2.getWriteLen = b.getWriteLen := by
  obtain ⟨-, hsize, hlen, -, heq, -⟩ := getWriteLen_spec h
  generalize hb : b.getWriteLen = r at *
  obtain ⟨room, b'⟩ := r
  dsimp only at *
  simp only [getWriteLen]
  rw [if_neg]
  . rw [hsize, hlen, heq]
  . omega

theorem append_eq {b : SOBuffer} (h : b.Ok) {bytes : List UInt8}
    (hlen : bytes.length ≤ b.getWriteLen.1)
    : ∃ b', b.getWriteLen.2.append bytes = some b' ∧ b'.Ok ∧ b'.size = b.size
        ∧ b'.readData = b.readData ++ bytes := by
  have hend := h.safe.getWritePtr_getWriteLen
  have halloc := h.alloc
  obtain ⟨b', happend, hsafe, hsame, hread⟩ := h.safe.append_eq hlen (by omega)
  exact ⟨b', happend, h.of_sameBlock hsafe hsame, hsame.size, hread⟩

theorem getWriteLen_pos {b : SOBuffer} (h : b.Ok) (hlen : b.readData.length < b.size)
    : 0 < b.getWriteLen.1 := by
  obtain ⟨-, -, -, -, -, hfull⟩ := getWriteLen_spec h
  rw [length_readData h] at hlen
  omega

section Get

variable {b : SOBuffer} {bytes : List UInt8}

theorem isSome_append (hok : b.Ok) (h : bytes.length ≤ b.getWriteLen.1)
    : (b.getWriteLen.2.append bytes).isSome := by
  obtain ⟨b', happend, -⟩ := append_eq hok h
  rw [happend]
  rfl

theorem ok_get_append (hok : b.Ok) (h : bytes.length ≤ b.getWriteLen.1)
    : ((b.getWriteLen.2.append bytes).get (isSome_append hok h)).Ok := by
  obtain ⟨b', happend, hok', -⟩ := append_eq hok h
  simpa [happend] using hok'

theorem isSome_clear (hok : b.Ok) : b.clear.isSome := by
  obtain ⟨b', hclear, -⟩ := clear_eq hok
  rw [hclear]
  rfl

theorem ok_get_clear (hok : b.Ok) : (b.clear.get (isSome_clear hok)).Ok := by
  obtain ⟨b', hclear, hok', -⟩ := clear_eq hok
  simpa [hclear] using hok'

end Get

theorem sub_getWritePtr_le (b : SOBuffer) : b.size - b.getWritePtr ≤ b.getWriteLen.1 := by
  unfold getWritePtr getWriteLen
  dsimp only
  split
  . omega
  . dsimp only
    omega

theorem getWritePtr_getWriteLen_le (b : SOBuffer) : b.getWriteLen.2.getWritePtr ≤ b.getWritePtr := by
  unfold getWritePtr getWriteLen
  dsimp only
  split
  . dsimp only
    omega
  . apply Nat.le_refl

theorem getWritePtr_append_le {b b' : SOBuffer} {bytes : List UInt8} (h : b.append bytes = some b')
    : b'.getWritePtr ≤ b.getWritePtr + bytes.length := by
  simp only [append, store, markWritten, Option.bind_eq_some_iff, Option.map_eq_some_iff] at h
  obtain ⟨b₁, ⟨buf, -, rfl⟩, hwritten⟩ := h
  have hslide := getWritePtr_getWriteLen_le { b with buf }
  split at hwritten
  . obtain rfl := Option.some.inj hwritten
    unfold getWritePtr at *
    dsimp only at *
    omega
  . simp at hwritten

theorem getWritePtr_markRead_le {b b' : SOBuffer} {len : Nat} (h : b.markRead len = some b')
    : b'.getWritePtr ≤ b.getWritePtr := by
  unfold markRead at h
  split at h
  . obtain rfl := Option.some.inj h
    unfold getWritePtr
    dsimp only
    split
    . omega
    . omega
  . simp at h

end SOBuffer
