import Sircond.SOBuf.Lemmas
import Sircond.Lib.Fifo

/-!
This module contains the slide-over buffer as a machine, and that it is a queue of bytes: `write`
asks for the free space, which may slide the contents, stores the bytes and marks them as written.
The outputs are the bytes a call of `MarkRead` or `Clear` takes off the front of the readable ones.
-/

namespace SOBuffer

open Machine

inductive Op where
  | getWriteLen
  | write (bytes : List UInt8)
  | markRead (len : Nat)
  | clear
  deriving DecidableEq, Repr

def Op.toFifo : Op → Fifo.Op UInt8
  | .getWriteLen => .query
  | .write bytes => .put bytes
  | .markRead len => .take len
  | .clear => .clear

def Op.contents (q : List UInt8) : Op → List UInt8
  | .getWriteLen => q
  | .write bytes => q ++ bytes
  | .markRead len => q.drop len
  | .clear => []

def machine : Machine SOBuffer Op UInt8 where
  step b
    | .getWriteLen => some (b.getWriteLen.2, [])
    | .write bytes =>
      if bytes.length ≤ b.getWriteLen.1 then
        (b.getWriteLen.2.append bytes).map fun b' => (b', [])
      else
        none
    | .markRead len => (b.markRead len).map fun b' => (b', b.readData.take len)
    | .clear => b.clear.map fun b' => (b', b.readData)

def Op.Allowed (b : SOBuffer) : Op → Prop
  | .getWriteLen => True
  | .write bytes => bytes.length ≤ b.getWriteLen.1
  | .markRead len => len ≤ b.getReadLen
  | .clear => True

instance (b : SOBuffer) (a : Op) : Decidable (a.Allowed b) := by
  unfold Op.Allowed
  cases a with
  | getWriteLen | clear => exact isTrue trivial
  | write | markRead => infer_instance

def written (tr : List (Entry SOBuffer Op UInt8)) : List UInt8 :=
  (inputs tr).flatMap fun a => a.toFifo.elems

theorem getWriteLen_le {b : SOBuffer} (h : b.Ok)
    : b.getWriteLen.1 + b.readData.length ≤ b.size := by
  have hfits := h.fits
  rw [length_readData h]
  obtain ⟨-, -, -, -, hroom, -⟩ := getWriteLen_spec h
  omega

theorem step_of_allowed {b : SOBuffer} (h : b.Ok) {a : Op} (ha : a.Allowed b)
    : (machine.step b a).isSome := by
  cases a with
  | getWriteLen => rfl
  | write bytes =>
    have hroom : bytes.length ≤ b.getWriteLen.1 := ha
    simp only [machine]
    rw [if_pos hroom]
    rw [Option.isSome_map]
    apply isSome_append h hroom
  | markRead len =>
    simp only [Op.Allowed, getReadLen] at ha
    rw [← length_readData h] at ha
    obtain ⟨b', hmark, -⟩ := markRead_eq h ha
    simp [machine, hmark]
  | clear =>
    simp only [machine]
    rw [Option.isSome_map]
    apply isSome_clear h

theorem Safe.step {b b' : SOBuffer} (h : b.Safe) {a : Op} {out : List UInt8}
    (hstep : machine.step b a = some (b', out))
    : b'.Safe ∧ b.SameBlock b' ∧ b'.readData = a.contents b.readData := by
  cases a with
  | getWriteLen =>
    obtain ⟨rfl, -⟩ := Prod.mk.inj (Option.some.inj hstep)
    obtain ⟨hsafe, hsame, -, hread, -, -⟩ := h.getWriteLen_spec
    exact ⟨hsafe, hsame, hread⟩
  | write bytes =>
    simp only [machine] at hstep
    split at hstep
    . next hroom =>
      simp only [Option.map_eq_some_iff, Prod.mk.injEq] at hstep
      obtain ⟨b₁, happend, rfl, -⟩ := hstep
      apply h.of_append hroom happend
    . simp at hstep
  | markRead len =>
    simp only [machine, Option.map_eq_some_iff, Prod.mk.injEq] at hstep
    obtain ⟨b₁, hmark, rfl, -⟩ := hstep
    apply h.of_markRead hmark
  | clear =>
    simp only [machine, Option.map_eq_some_iff, Prod.mk.injEq] at hstep
    obtain ⟨b₁, hclear, rfl, -⟩ := hstep
    apply h.of_clear hclear

structure IsQueue (size : Nat) (b : SOBuffer) (q : List UInt8) : Prop where
  ok : b.Ok
  size : b.size = size
  contents : b.readData = q

theorem simulates_fifo (size : Nat)
    : machine.Simulates ((Fifo.machine size).map Op.toFifo id) (IsQueue size) := by
  intro b q a b' out h hstep
  have hok := h.ok
  have hlen := getWriteLen_le hok
  obtain rfl := h.contents
  rw [h.size] at hlen
  obtain ⟨hsafe, hsame, hread⟩ := hok.safe.step hstep
  have hqueue : IsQueue size b' (a.contents b.readData) :=
    ⟨hok.of_sameBlock hsafe hsame, hsame.size.trans h.size, hread⟩
  refine ⟨a.contents b.readData, ?_, hqueue⟩
  -- the room offered is never more than the queue has left
  cases a with
  | getWriteLen =>
    obtain ⟨-, rfl⟩ := Prod.mk.inj (Option.some.inj hstep)
    rfl
  | write bytes =>
    simp only [machine] at hstep
    split at hstep
    . next hroom =>
      simp only [Option.map_eq_some_iff, Prod.mk.injEq] at hstep
      obtain ⟨-, -, -, rfl⟩ := hstep
      simp only [map, Op.toFifo, Fifo.machine]
      rw [if_pos (by omega)]
      rfl
    . simp at hstep
  | markRead len =>
    simp only [machine, Option.map_eq_some_iff, Prod.mk.injEq] at hstep
    obtain ⟨_, hmark, -, rfl⟩ := hstep
    simp [map, Op.toFifo, Fifo.machine, Op.contents, le_of_markRead hok hmark]
  | clear =>
    simp only [machine, Option.map_eq_some_iff, Prod.mk.injEq] at hstep
    obtain ⟨-, -, -, rfl⟩ := hstep
    simp [map, Op.toFifo, Fifo.machine, Op.contents]

theorem isQueue_of_run {block : List UInt8} {tr : List (Entry SOBuffer Op UInt8)} {b : SOBuffer}
    (hrun : machine.Run (new block) tr b)
    : ∃ q, IsQueue block.length b q ∧ outputs tr ++ q = written tr := by
  have hinit : IsQueue block.length (new block) [] := ⟨ok_new block, rfl, readData_new block⟩
  obtain ⟨tr₁, q, hrun₁, hq, hin, hout⟩ := (simulates_fifo block.length).run hinit hrun
  obtain ⟨tr₂, hrun₂, hin₂, hout₂⟩ := hrun₁.of_map
  refine ⟨q, hq, ?_⟩
  have := Fifo.run_eq hrun₂
  rw [List.nil_append, hin₂, hin, List.flatMap_map] at this
  rw [List.map_id] at hout₂
  rw [← hout, hout₂, this]
  rfl

/--
The slide-over buffer is a queue of bytes: what has been read and what is readable is what has been
written, in this order. It never reaches beyond its block, no assertion of an operation that keeps
within the lengths offered fails, and there is no room only if every byte of the block is unread.
-/
theorem run_fifo {block : List UInt8} {tr : List (Entry SOBuffer Op UInt8)} {b : SOBuffer}
    (hrun : machine.Run (new block) tr b)
    : written tr = outputs tr ++ b.readData
        ∧ b.readData.length = b.getReadLen
        ∧ b.buf.length = block.length
        ∧ b.bufpos + b.getReadLen ≤ block.length
        ∧ b.getWriteLen.2.readData = b.readData
        ∧ b.getWriteLen.2.getWritePtr + b.getWriteLen.1 = block.length
        ∧ (∀ a : Op, a.Allowed b → (machine.step b a).isSome)
        ∧ (b.getWriteLen.1 = 0 → b.getReadLen = block.length) := by
  obtain ⟨q, hq, hbytes⟩ := isQueue_of_run hrun
  have hok := hq.ok
  have hsize := hq.size
  obtain ⟨-, -, -, hread, -, hfull⟩ := getWriteLen_spec hok
  refine ⟨?_, length_readData hok, ?_, ?_, hread, ?_, ?_, ?_⟩
  . rw [hq.contents]
    exact hbytes.symm
  . rw [hok.alloc]
    exact hsize
  . rw [← hsize]
    apply hok.fits
  . rw [hok.safe.getWritePtr_getWriteLen]
    exact hsize
  . intro a ha
    apply step_of_allowed hok ha
  . rw [← hsize]
    apply hfull

theorem run_fifo_slide
    : ∃ tr b,
        machine.Run (new (List.replicate 4 0)) tr b
          ∧ inputs tr
              = [.write [1, 2, 3], .markRead 2, .write [4], .getWriteLen, .write [5], .markRead 2]
          ∧ b.readData = [5] ∧ written tr = outputs tr ++ b.readData := by
  obtain ⟨tr, b, hrun, hin, hcheck⟩ := exists_run (show (machine.exec
    (new (List.replicate 4 0))
    [.write [1, 2, 3], .markRead 2, .write [4], .getWriteLen, .write [5], .markRead 2]).any
    (fun r => r.2.readData = [5]) = true by decide +kernel)
  exact ⟨tr, b, hrun, hin, hcheck, (run_fifo hrun).1⟩

end SOBuffer
