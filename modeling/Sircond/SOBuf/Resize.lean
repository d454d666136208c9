import Sircond.SOBuf.Fifo

/-!
This module contains the slide-over buffer with `Resize` among its operations. `Resize` allocates a
block of the new size and leaves the recorded size as it was, so that the two agree again only after
a resize to the size the buffer was made with.
-/

namespace SOBuffer

open Machine

inductive SizedOp where
  | op (a : Op)
  | resize (block : List UInt8)
  deriving DecidableEq, Repr

def resizable : Machine SOBuffer SizedOp UInt8 where
  step b
    | .op a => machine.step b a
    | .resize block => some (b.resize block, [])

/--
What the unread bytes are meant to be after an operation: a resize cuts them to the new size.
-/
def SizedOp.contents (q : List UInt8) : SizedOp → List UInt8
  | .op a => a.contents q
  | .resize block => q.take block.length

def SizedOp.capacity (n : Nat) : SizedOp → Nat
  | .op _ => n
  | .resize block => block.length

/--
Some sequence of writes fills the buffer with `n` unread bytes, and none fills it with more.
-/
def Holds (b : SOBuffer) (n : Nat) : Prop :=
  (∃ tr b', machine.Run b tr b' ∧ (∀ a ∈ inputs tr, ∃ bytes, a = .write bytes) ∧ b'.getReadLen = n)
    ∧ ∀ tr b', machine.Run b tr b' → (∀ a ∈ inputs tr, ∃ bytes, a = .write bytes) →
        b'.getReadLen ≤ n

structure Sound (q : List UInt8) (n : Nat) (b : SOBuffer) : Prop where
  contents : b.readData = q
  block : b.buf.length = n
  inside : b.getWriteLen.2.getWritePtr + b.getWriteLen.1 ≤ n
  holds : b.Holds n

section Step

variable {b b' : SOBuffer} {out : List UInt8}

theorem Safe.resize (h : b.Safe) (block : List UInt8)
    : (b.resize block).Safe ∧ (b.resize block).size = b.size
        ∧ (b.resize block).buf.length = block.length
        ∧ (b.resize block).readData = b.readData.take block.length := by
  have hfits := h.fits
  have hinside := h.inside
  have hmin : (if b.buflen > block.length then block.length else b.buflen)
      = min block.length b.buflen := by
    split <;> omega
  have hcontents : ((b.buf.drop b.bufpos).take (min block.length b.buflen)).length
      = min block.length b.buflen := by
    rw [List.length_take, List.length_drop]
    omega
  have hlength : ((b.buf.drop b.bufpos).take (min block.length b.buflen)
      ++ block.drop (min block.length b.buflen)).length = block.length := by
    rw [List.length_append, hcontents, List.length_drop]
    omega
  unfold SOBuffer.resize
  simp only [hmin]
  refine ⟨⟨?_, ?_⟩, trivial, hlength, ?_⟩
  . dsimp only
    omega
  . dsimp only
    omega
  . unfold readData
    rw [List.drop_zero, List.take_left' hcontents, List.take_take]

theorem Safe.sizedStep (h : b.Safe) {a : SizedOp}
    (hstep : resizable.step b a = some (b', out))
    : b'.Safe ∧ b'.size = b.size ∧ b'.buf.length = a.capacity b.buf.length
        ∧ b'.readData = a.contents b.readData := by
  cases a with
  | op a =>
    obtain ⟨hsafe, hsame, hread⟩ := h.step hstep
    exact ⟨hsafe, hsame.size, hsame.length, hread⟩
  | resize block =>
    obtain ⟨rfl, -⟩ := Prod.mk.inj (Option.some.inj hstep)
    apply h.resize

end Step

theorem Safe.sizedRun {b b' : SOBuffer} (h : b.Safe) {tr : List (Entry SOBuffer SizedOp UInt8)}
    (hrun : resizable.Run b tr b')
    : b'.Safe ∧ b'.size = b.size
        ∧ b'.buf.length = (inputs tr).foldl SizedOp.capacity b.buf.length
        ∧ b'.readData = (inputs tr).foldl SizedOp.contents b.readData := by
  apply hrun.invariant (I := fun tr b' => b'.Safe ∧ b'.size = b.size
    ∧ b'.buf.length = (inputs tr).foldl SizedOp.capacity b.buf.length
    ∧ b'.readData = (inputs tr).foldl SizedOp.contents b.readData)
  . exact ⟨h, rfl, rfl, rfl⟩
  . intro tr s a s' out ⟨hsafe, hsize, hlength, hread⟩ hstep
    obtain ⟨hsafe', hsize', hlength', hread'⟩ := hsafe.sizedStep hstep
    refine ⟨hsafe', hsize'.trans hsize, ?_, ?_⟩
    . simp [hlength', hlength]
    . simp [hread', hread]

theorem Safe.writes {b b' : SOBuffer} (h : b.Safe) {tr : List (Entry SOBuffer Op UInt8)}
    (hrun : machine.Run b tr b')
    : b'.Safe ∧ b.SameBlock b' := by
  apply hrun.invariant (I := fun _ b' => b'.Safe ∧ b.SameBlock b')
  . exact ⟨h, rfl, rfl⟩
  . intro tr s a s' out ⟨hsafe, hsame⟩ hstep
    obtain ⟨hsafe', hsame', -⟩ := hsafe.step hstep
    exact ⟨hsafe', hsame'.size.trans hsame.size, hsame'.length.trans hsame.length⟩

theorem Safe.getReadLen_le {b b' : SOBuffer} (h : b.Safe) {tr : List (Entry SOBuffer Op UInt8)}
    (hrun : machine.Run b tr b')
    : b'.getReadLen ≤ b.size := by
  obtain ⟨hsafe, hsame⟩ := h.writes hrun
  have hfits := hsafe.fits
  have hsize := hsame.size
  unfold getReadLen
  omega

theorem Ok.exists_full {k : Nat}
    : ∀ {b : SOBuffer}, b.Ok → b.getReadLen + k = b.size →
        ∃ tr b', machine.Run b tr b' ∧ (∀ a ∈ inputs tr, ∃ bytes, a = .write bytes)
          ∧ b'.getReadLen = b.size := by
  induction k with
  | zero =>
    intro b h hk
    exact ⟨[], b, .nil, by simp [inputs], hk⟩
  | succ k ih =>
    intro b h hk
    have hlen := length_readData h
    have hread : b.getReadLen = b.buflen := rfl
    have hroom : 0 < b.getWriteLen.1 := getWriteLen_pos h (by omega)
    obtain ⟨b₁, happend, hok₁, hsize₁, hread₁⟩ :=
      append_eq h (show [(0 : UInt8)].length ≤ b.getWriteLen.1 from hroom)
    have hstep : machine.step b (.write [0]) = some (b₁, []) := by
      simp only [machine]
      rw [if_pos (show [(0 : UInt8)].length ≤ b.getWriteLen.1 from hroom), happend]
      rfl
    have hlen₁ := length_readData hok₁
    have hread₁' : b₁.getReadLen = b₁.buflen := rfl
    rw [hread₁, List.length_append, List.length_singleton] at hlen₁
    obtain ⟨tr, b', hrun, hwrites, hfull⟩ := ih hok₁ (by omega)
    refine ⟨_, b', Run.trans (.snoc .nil hstep) hrun, ?_, hfull.trans hsize₁⟩
    intro a ha
    rw [inputs_append, List.mem_append] at ha
    cases ha with
    | inl ha =>
      rw [List.nil_append, inputs_singleton, List.mem_singleton] at ha
      exact ⟨[0], ha⟩
    | inr ha => exact hwrites a ha

theorem Ok.holds {b : SOBuffer} (h : b.Ok) : b.Holds b.size := by
  constructor
  . have hfits := h.fits
    apply h.exists_full (k := b.size - b.getReadLen)
    unfold getReadLen
    omega
  . intro tr b' hrun _
    apply h.safe.getReadLen_le hrun

/--
After `Resize` and any further operations the buffer is what it is meant to be if and only if the last
resize was to the size the buffer was made with.
-/
theorem resize_sound_iff {block fresh : List UInt8}
    {tr₀ tr : List (Entry SOBuffer SizedOp UInt8)} {b b' : SOBuffer}
    (hrun₀ : resizable.Run (new block) tr₀ b) (hrun : resizable.Run (b.resize fresh) tr b')
    : Sound ((inputs tr).foldl SizedOp.contents (b.readData.take fresh.length))
          ((inputs tr).foldl SizedOp.capacity fresh.length) b'
        ↔
      (inputs tr).foldl SizedOp.capacity fresh.length = block.length := by
  obtain ⟨hsafe₀, hsize₀, -, -⟩ := (ok_new block).safe.sizedRun hrun₀
  obtain ⟨hsafe₁, hsize₁, hlength₁, hread₁⟩ := hsafe₀.resize fresh
  obtain ⟨hsafe, hsize, hlength, hread⟩ := hsafe₁.sizedRun hrun
  have hblock : b'.size = block.length := (hsize.trans hsize₁).trans hsize₀
  have hend := hsafe.getWritePtr_getWriteLen
  rw [hlength₁] at hlength
  rw [hread₁] at hread
  rw [← hlength, ← hread, ← hblock]
  constructor
  . intro h
    apply Nat.le_antisymm
    . obtain ⟨tr', b'', hrun', -, hfull⟩ := h.holds.1
      rw [← hfull]
      apply hsafe.getReadLen_le hrun'
    . rw [← hend]
      apply h.inside
  . intro halloc
    have hok := hsafe.ok halloc
    refine ⟨rfl, rfl, ?_, ?_⟩
    . omega
    . rw [halloc]
      apply hok.holds

theorem resize_sound_iff_back
    : ∃ tr₀ tr b b',
        resizable.Run (new (List.replicate 4 0)) tr₀ b
          ∧ inputs tr₀ = [.op (.write [1, 2, 3]), .op (.markRead 1), .resize (List.replicate 9 0)]
          ∧ resizable.Run (b.resize (List.replicate 4 0)) tr b'
          ∧ inputs tr = [.op (.write [4, 5]), .op (.markRead 1), .op (.write [6])]
          ∧ Sound [3, 4, 5, 6] 4 b' := by
  obtain ⟨tr₀, b, hrun₀, hin₀, hb⟩ := exists_run (show (resizable.exec (new (List.replicate 4 0))
    [.op (.write [1, 2, 3]), .op (.markRead 1), .resize (List.replicate 9 0)]).any
    (fun r => r.2 = ⟨4, [2, 3, 0, 0, 0, 0, 0, 0, 0], 0, 2⟩) = true by decide +kernel)
  obtain ⟨tr, b', hrun, hin, -⟩ := exists_run (show (resizable.exec (b.resize (List.replicate 4 0))
    [.op (.write [4, 5]), .op (.markRead 1), .op (.write [6])]).any (fun _ => True) = true by
      rw [show b = _ from hb]; decide +kernel)
  refine ⟨tr₀, tr, b, b', hrun₀, hin₀, hrun, hin, ?_⟩
  have hsound := (resize_sound_iff hrun₀ hrun).mpr (by rw [hin]; rfl)
  rw [hin, show b = _ from hb] at hsound
  exact hsound

theorem resize_overrun
    : ∃ tr b,
        resizable.Run (new (List.replicate 4 0)) tr b ∧ inputs tr = [.op (.write [1, 2, 3])]
          ∧ (b.resize [0, 0]).readData = [1, 2]
          ∧ (b.resize [0, 0]).getWriteLen = (2, b.resize [0, 0])
          ∧ (b.resize [0, 0]).getWritePtr = 2
          ∧ ¬ Sound (b.readData.take 2) 2 (b.resize [0, 0]) := by
  obtain ⟨tr, b, hrun, hin, hcheck⟩ := exists_run (show (resizable.exec (new (List.replicate 4 0))
    [.op (.write [1, 2, 3])]).any (fun r => (r.2.resize [0, 0]).readData = [1, 2]
      ∧ (r.2.resize [0, 0]).getWriteLen = (2, r.2.resize [0, 0])
      ∧ (r.2.resize [0, 0]).getWritePtr = 2) = true by decide +kernel)
  obtain ⟨hread, hlen, hptr⟩ := hcheck
  refine ⟨tr, b, hrun, hin, hread, hlen, hptr, ?_⟩
  intro h
  have hinside := h.inside
  rw [hlen, hptr] at hinside
  omega

end SOBuffer
