import Sircond.SirServer.Impl.Control
import Sircond.Lib.Machine

/-!
This module contains what `Send` and `TransmitData` do to the bytes a client has pending, and when
`Send` refuses a message. The outputs of the machine of a client are the bytes its socket takes.
-/

namespace Client

open Machine

inductive Input where
  | send (buf : List UInt8)
  | transmitData (sent : Option Nat)
  deriving DecidableEq, Repr

def taken (c : Client) : Option Nat → List UInt8
  | some n => c.txbuf.readData.take n
  | none => []

def machine : Machine Client Input UInt8 where
  step c
    | .send buf => some ((c.send buf).1, [])
    | .transmitData sent => (c.transmitData sent).map fun (c', _) => (c', c.taken sent)

def pending (c : Client) : List UInt8 := c.txbuf.readData

/--
`Send` with `buf` accepts the message as a whole if it fits into the part of a buffer of `size` bytes
that is not pending, and otherwise refuses it and leaves what is pending alone.
-/
def AnswersRight (size : Nat) (c : Client) (buf : List UInt8) : Prop :=
  if buf.length ≤ size - c.pending.length then
    (c.send buf).2 = true ∧ (c.send buf).1.pending = c.pending ++ buf
  else
    (c.send buf).2 = false ∧ (c.send buf).1.pending = c.pending

instance (size : Nat) (c : Client) (buf : List UInt8) : Decidable (AnswersRight size c buf) := by
  unfold AnswersRight
  infer_instance

theorem send_of_le {c : Client} {buf : List UInt8} (h : buf.length ≤ c.txbuf.getWriteLen.1)
    : (c.send buf).2 = true ∧ (c.send buf).1.pending = c.pending ++ buf
        ∧ (c.send buf).1.txbuf.size = c.txbuf.size := by
  obtain ⟨b, happend, -, hsize, hread⟩ := SOBuffer.append_eq c.txok h
  unfold send
  rw [dif_pos h]
  simp [pending, happend, hsize, hread]

theorem send_of_lt {c : Client} {buf : List UInt8} (h : c.txbuf.getWriteLen.1 < buf.length)
    : (c.send buf).2 = false ∧ (c.send buf).1.pending = c.pending
        ∧ (c.send buf).1.txbuf.size = c.txbuf.size := by
  obtain ⟨-, hsize, -, hread, -, -⟩ := SOBuffer.getWriteLen_spec c.txok
  unfold send
  rw [dif_neg (Nat.not_le_of_lt h)]
  exact ⟨rfl, hread, hsize⟩

def sendEach (c : Client) (msgs : List (List UInt8)) : Client :=
  msgs.foldl (fun c msg => (c.send msg).1) c

/-- The messages that are queued when they are sent one after the other. -/
def accepted (c : Client) : List (List UInt8) → List (List UInt8)
  | [] => []
  | msg :: msgs =>
    if (c.send msg).2 then msg :: (c.send msg).1.accepted msgs else (c.send msg).1.accepted msgs

theorem accepted_sublist (c : Client) (msgs : List (List UInt8)) : (c.accepted msgs).Sublist msgs := by
  induction msgs generalizing c with
  | nil => exact List.Sublist.refl _
  | cons msg msgs ih =>
    unfold accepted
    split
    . exact (ih _).cons_cons _
    . exact (ih _).cons _

theorem accepted_append (c : Client) (msgs₁ msgs₂ : List (List UInt8))
    : c.accepted (msgs₁ ++ msgs₂) = c.accepted msgs₁ ++ (c.sendEach msgs₁).accepted msgs₂ := by
  induction msgs₁ generalizing c with
  | nil => rfl
  | cons msg msgs₁ ih =>
    have hsend : c.sendEach (msg :: msgs₁) = (c.send msg).1.sendEach msgs₁ := rfl
    rw [List.cons_append, hsend, accepted, accepted, ih]
    split
    . rfl
    . rfl

theorem pending_sendEach (c : Client) (msgs : List (List UInt8))
    : (c.sendEach msgs).pending = c.pending ++ (c.accepted msgs).flatten := by
  induction msgs generalizing c with
  | nil => simp [sendEach, accepted]
  | cons msg msgs ih =>
    have hsend : c.sendEach (msg :: msgs) = (c.send msg).1.sendEach msgs := rfl
    rw [hsend, ih, accepted]
    cases Nat.lt_or_ge c.txbuf.getWriteLen.1 msg.length with
    | inl hlt =>
      obtain ⟨hrefused, hpending, -⟩ := send_of_lt hlt
      rw [hrefused, hpending]
      rfl
    | inr hge =>
      obtain ⟨haccepted, hpending, -⟩ := send_of_le hge
      rw [haccepted, hpending, if_pos rfl, List.flatten_cons, List.append_assoc]

theorem transmitData_spec {c c' : Client} {sent : Option Nat} {result : Bool}
    (h : c.transmitData sent = some (c', result))
    : c.taken sent ++ c'.pending = c.pending ∧ c'.txbuf.size = c.txbuf.size := by
  have hlen := SOBuffer.length_readData c.txok
  unfold transmitData at h
  split at h
  . cases sent with
    | none =>
      obtain ⟨rfl, -⟩ := Prod.mk.inj (Option.some.inj h)
      exact ⟨rfl, rfl⟩
    | some n =>
      dsimp only at h
      split at h
      . next b hmark =>
        obtain ⟨rfl, -⟩ := Prod.mk.inj (Option.some.inj h)
        obtain ⟨-, hsame, hread⟩ := c.txok.safe.of_markRead hmark
        refine ⟨?_, hsame.size⟩
        simp only [taken, pending, hread]
        apply List.take_append_drop
      . simp at h
  . next hempty =>
    obtain ⟨rfl, -⟩ := Prod.mk.inj (Option.some.inj h)
    have hnil : c.txbuf.readData = [] := by
      rw [← List.length_eq_zero_iff, hlen]
      simpa [txPending, SOBuffer.getReadLen] using hempty
    cases sent with
    | none => exact ⟨rfl, rfl⟩
    | some n => simp [taken, pending, hnil]

theorem size_of_run {c₀ c : Client} {tr : List (Entry Client Input UInt8)}
    (hrun : machine.Run c₀ tr c)
    : c.txbuf.size = c₀.txbuf.size := by
  apply hrun.invariant (I := fun _ c => c.txbuf.size = c₀.txbuf.size) rfl
  intro tr c a c' out ih hstep
  rw [← ih]
  cases a with
  | send buf =>
    obtain ⟨rfl, -⟩ := Prod.mk.inj (Option.some.inj hstep)
    cases Nat.lt_or_ge c.txbuf.getWriteLen.1 buf.length with
    | inl hlt => apply (send_of_lt hlt).2.2
    | inr hge => apply (send_of_le hge).2.2
  | transmitData sent =>
    simp only [machine, Option.map_eq_some_iff, Prod.mk.injEq] at hstep
    obtain ⟨⟨c₁, result⟩, htransmit, rfl, -⟩ := hstep
    apply (transmitData_spec htransmit).2

theorem answersRight_iff_room (c : Client) (buf : List UInt8)
    : AnswersRight c.txbuf.size c buf
        ↔
      (buf.length ≤ c.txbuf.getWriteLen.1 ↔ buf.length ≤ c.txbuf.size - c.pending.length) := by
  unfold AnswersRight
  cases Nat.lt_or_ge c.txbuf.getWriteLen.1 buf.length with
  | inl hlt =>
    obtain ⟨hresult, hpending, -⟩ := send_of_lt hlt
    rw [hresult, hpending]
    simp [Nat.not_le_of_lt hlt]
  | inr hge =>
    obtain ⟨hresult, hpending, -⟩ := send_of_le hge
    rw [hresult, hpending]
    simp [hge]

/--
In every state a client can get to, `Send` is right about a message if and only if the free space of
the transmit buffer is in one piece, or the message fits behind the pending bytes, or it does not fit
at all: the contents only slide when no byte is left behind them.
-/
theorem answersRight_iff {sock : Int} {rxblock txblock : List UInt8}
    {tr : List (Entry Client Input UInt8)} {c : Client}
    (hrun : machine.Run (new sock rxblock txblock) tr c) (buf : List UInt8)
    : AnswersRight txblock.length c buf
        ↔
      c.txbuf.bufpos = 0 ∨ c.txbuf.bufpos + c.txbuf.buflen = txblock.length
        ∨ buf.length ≤ txblock.length - c.txbuf.bufpos - c.txbuf.buflen
        ∨ txblock.length - c.txbuf.buflen < buf.length := by
  have hsize : c.txbuf.size = txblock.length := size_of_run hrun
  have hfits := c.txok.fits
  rw [← hsize]
  rw [answersRight_iff_room]
  rw [pending, SOBuffer.length_readData c.txok]
  unfold SOBuffer.getWriteLen
  dsimp only
  split
  . dsimp only
    omega
  . dsimp only
    omega

theorem answersRight_iff_partial
    : ∃ tr c,
        machine.Run (new 5 [] (List.replicate 4 0)) tr c
          ∧ inputs tr = [.send [1, 2, 3], .transmitData (some 2), .send [4]]
          ∧ c.txbuf.bufpos = 2 ∧ AnswersRight 4 c [5, 6] := by
  obtain ⟨tr, c, hrun, hin, hcheck⟩ := exists_run (show (machine.exec
    (new 5 [] (List.replicate 4 0)) [.send [1, 2, 3], .transmitData (some 2), .send [4]]).any
    (fun r => r.2.txbuf.bufpos = 2 ∧ r.2.txbuf.bufpos + r.2.txbuf.buflen = 4) = true
    by decide +kernel)
  refine ⟨tr, c, hrun, hin, hcheck.1, ?_⟩
  apply (answersRight_iff hrun [5, 6]).mpr
  right
  left
  apply hcheck.2

theorem refused_though_fitting
    : ∃ tr c,
        machine.Run (new 5 (List.replicate CSirServer.sircondBufsize 0)
            (List.replicate CSirServer.sircondBufsize 0)) tr c
          ∧ inputs tr = [.send (List.replicate 500 0x41), .transmitData (some 400)]
          ∧ c.pending.length = 100 ∧ (c.send (List.replicate 20 0x42)).2 = false
          ∧ ¬ AnswersRight CSirServer.sircondBufsize c (List.replicate 20 0x42) := by
  obtain ⟨tr, c, hrun, hin, hcheck⟩ := exists_run (show (machine.exec
    (new 5 (List.replicate CSirServer.sircondBufsize 0)
      (List.replicate CSirServer.sircondBufsize 0))
    [.send (List.replicate 500 0x41), .transmitData (some 400)]).any
    (fun r => r.2.pending.length = 100 ∧ (r.2.send (List.replicate 20 0x42)).2 = false
      ∧ ¬ AnswersRight CSirServer.sircondBufsize r.2 (List.replicate 20 0x42)) = true
    by decide +kernel)
  exact ⟨tr, c, hrun, hin, hcheck⟩

end Client
