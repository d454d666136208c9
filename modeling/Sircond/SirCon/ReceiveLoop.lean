import Sircond.SirCon.Chunking
import Sircond.Lib.Machine

/-!
This module contains the main loop as a machine whose steps are its iterations, with the steps of the
callers of `Send` and of the timer in between. An iteration is a step if the serial port returns no
more bytes than were requested and no assertion fails in it.
-/

open Scp Machine

namespace CSirCon

inductive LoopInput where
  | iteration (e : RecvEvent)
  | send (data : Payload)
  | timerProc
  deriving DecidableEq

def loopMachine : Machine CSirCon LoopInput Action where
  step s
    | .iteration e =>
      if !s.shutdown && e.raw.length ≤ s.stagebuf.getWriteLen.1 then
        (s.iteration e).map fun (s', acts, _) => (s', acts)
      else
        none
    | .send data => some ((s.send data).1, [])
    | .timerProc => some s.timerProc

theorem Settled.getWriteLen {s : CSirCon} (hs : Settled s)
    : Settled { s with stagebuf := s.stagebuf.getWriteLen.2 } := by
  obtain ⟨hok, hsize, -, hread, -, -⟩ := SOBuffer.getWriteLen_spec hs.ok
  constructor
  . exact hok
  . exact hsize.trans hs.size
  . dsimp only
    rw [hread]
    exact hs.waits
  . exact hs.inStep

theorem Settled.iteration {s : CSirCon} (hs : Settled s) {e : RecvEvent}
    (hroom : e.raw.length ≤ s.stagebuf.getWriteLen.1)
    : ∃ s' acts goesOn, s.iteration e = some (s', acts, goesOn) ∧ Settled s' := by
  cases he : e.fails with
  | false =>
    obtain ⟨s', link, acts₁, acts₂, hiter, hs', -⟩ := iteration_eq_feed hs he hroom
    exact ⟨s', acts₁ ++ acts₂, true, hiter, hs'⟩
  | true =>
    refine ⟨_, [], false, ?_, hs.getWriteLen⟩
    unfold RecvEvent.fails at he
    unfold CSirCon.iteration
    dsimp only
    rw [if_pos hs.room]
    cases hr : e.result with
    | data | timeout => simp [hr] at he
    | error code => simp [read, hr]

theorem Settled.loopStep {s s' : CSirCon} {a : LoopInput} {acts : List Action} (hs : Settled s)
    (hstep : loopMachine.step s a = some (s', acts))
    : Settled s' := by
  cases a with
  | iteration e =>
    simp only [loopMachine] at hstep
    split at hstep
    . next h =>
      rw [Bool.and_eq_true, decide_eq_true_eq] at h
      obtain ⟨s₁, acts₁, goesOn, hiter, hs₁⟩ := hs.iteration h.2
      rw [hiter, Option.map_some, Option.some.injEq] at hstep
      obtain ⟨rfl, -⟩ := Prod.mk.inj hstep
      exact hs₁
    . simp at hstep
  | send data =>
    obtain ⟨rfl, -⟩ := Prod.mk.inj (Option.some.inj hstep)
    apply hs.send
  | timerProc =>
    have heq : s.timerProc.1 = s' := congrArg Prod.fst (Option.some.inj hstep)
    rw [← heq]
    apply hs.timerProc

theorem Settled.getReadLen_lt {s : CSirCon} (hs : Settled s) : s.stagebuf.getReadLen < maxPkt := by
  have := hs.waits.length_lt
  rwa [SOBuffer.length_readData hs.ok] at this

theorem read_length_le {s s' : CSirCon} {e : RecvEvent} {buf : List UInt8}
    (h : s.read e = some (s', buf))
    : buf.length ≤ e.raw.length := by
  unfold read RecvEvent.raw at *
  cases hr : e.result with
  | data bytes =>
    simp only [hr, Option.some.injEq, Prod.mk.injEq] at h
    rw [← h.2]
    apply length_deEscape_le
  | timeout =>
    simp only [hr, Option.some.injEq, Prod.mk.injEq] at h
    simp [← h.2]
  | error code => simp [hr] at h

/--
The receive loop is safe: whenever an iteration begins there is room in the staging buffer and less
than one packet is unread, and whatever the serial port returns, `Read` writes no more than the room
offered and the iteration comes to its end, with no assertion failing and less than one packet unread.
-/
theorem receiveLoop_safe {block : List UInt8} (hblock : block.length = stageBufSize) {now : Nat}
    {tr : List (Entry CSirCon LoopInput Action)} {s : CSirCon}
    (hrun : loopMachine.Run (new block now) tr s)
    : 0 < s.stagebuf.getWriteLen.1 ∧ s.stagebuf.getReadLen < maxPkt
        ∧
      ∀ e : RecvEvent, e.raw.length ≤ s.stagebuf.getWriteLen.1 →
        (∀ s' buf, s.read e = some (s', buf) → buf.length ≤ s.stagebuf.getWriteLen.1)
          ∧
        ∃ s' acts goesOn,
          s.iteration e = some (s', acts, goesOn) ∧ s'.stagebuf.getReadLen < maxPkt := by
  have hs : Settled s := by
    apply hrun.invariant (I := fun _ s => Settled s)
    . apply settled_new hblock
    . intro tr s a s' acts hs hstep
      apply hs.loopStep hstep
  refine ⟨hs.room, hs.getReadLen_lt, ?_⟩
  intro e he
  constructor
  . intro s' buf hread
    apply Nat.le_trans (read_length_le hread) he
  . obtain ⟨s', acts, goesOn, hiter, hs'⟩ := hs.iteration he
    exact ⟨s', acts, goesOn, hiter, hs'.getReadLen_lt⟩

theorem receiveLoop_safe_partial
    : ∃ tr s,
        loopMachine.Run (new (List.replicate stageBufSize 0) 1) tr s
          ∧ inputs tr
              = [.iteration ⟨.data [0xA4, 0x03, 0x00, 0x1B, 0x53, 0x00], 1⟩, .send getRSSI, .timerProc,
                  .iteration ⟨.timeout, 40⟩, .iteration ⟨.data [0x09, 0x1B, 0x1B, 0xA4], 41⟩]
          ∧ 0 < s.stagebuf.getWriteLen.1 ∧ s.stagebuf.getReadLen < maxPkt := by
  obtain ⟨tr, s, hrun, hin, -⟩ := exists_run (show (loopMachine.exec
    (new (List.replicate stageBufSize 0) 1)
    [.iteration ⟨.data [0xA4, 0x03, 0x00, 0x1B, 0x53, 0x00], 1⟩, .send getRSSI, .timerProc,
      .iteration ⟨.timeout, 40⟩, .iteration ⟨.data [0x09, 0x1B, 0x1B, 0xA4], 41⟩]).any
    (fun _ => True) = true by decide +kernel)
  have hsafe := receiveLoop_safe List.length_replicate hrun
  exact ⟨tr, s, hrun, hin, hsafe.1, hsafe.2.1⟩

end CSirCon
