import Sircond.SirCon.Lemmas.Reception

/-!
This module contains the main results about the main loop and the pieces in which the serial port
hands over the stream: its staging buffer stays usable, and it acts alike however the stream is cut.
-/

open Scp

namespace CSirCon

theorem Settled.send {s : CSirCon} (hs : Settled s) (data : Payload) : Settled (s.send data).1 where
  ok := hs.ok
  size := hs.size
  waits := hs.waits
  inStep := hs.inStep

theorem timerProc_reception (s : CSirCon)
    : s.timerProc.1.stagebuf = s.stagebuf ∧ s.timerProc.1.link.lastSeq = s.link.lastSeq
        ∧ s.timerProc.1.link.seqExpected = s.link.seqExpected := by
  unfold timerProc
  split
  . exact ⟨rfl, rfl, rfl⟩
  . split
    . exact ⟨rfl, rfl, rfl⟩
    . dsimp only
      split
      . exact ⟨rfl, rfl, rfl⟩
      . exact ⟨rfl, rfl, rfl⟩

theorem Settled.timerProc {s : CSirCon} (hs : Settled s) : Settled s.timerProc.1 := by
  obtain ⟨hstage, hlast, hexp⟩ := timerProc_reception s
  constructor
  . rw [hstage]
    exact hs.ok
  . rw [hstage]
    exact hs.size
  . rw [hstage]
    exact hs.waits
  . unfold Link.InStep
    rw [hlast, hexp]
    exact hs.inStep

theorem onRun_of_shutdown {s : CSirCon} (hsd : s.shutdown = true) (es : List RecvEvent)
    : s.onRun es = some (s, []) := by
  cases es with
  | nil => rfl
  | cons e es => simp [onRun, hsd]

/--
Reception is independent of chunking: on two cuts of one stream the main loop dispatches,
acknowledges and handles the same, in the same order, and ends with the same unread bytes, the same
escape state and the same sequence numbers. If no keepalive is queued on the way, all its actions
and the link agree.
-/
theorem onRun_chunking {s : CSirCon} (hs : Settled s) {es₁ es₂ : List RecvEvent}
    (hes₁ : ∀ e ∈ es₁, e.fails = false) (hes₂ : ∀ e ∈ es₂, e.fails = false)
    (hoff₁ : Offered s es₁) (hoff₂ : Offered s es₂) (hraw : rawStream es₁ = rawStream es₂)
    : ∃ s₁ acts₁ s₂ acts₂,
        s.onRun es₁ = some (s₁, acts₁) ∧ s.onRun es₂ = some (s₂, acts₂)
          ∧ acts₁.filter Action.isReception = acts₂.filter Action.isReception
          ∧ s₁.stagebuf.readData = s₂.stagebuf.readData ∧ s₁.inESC = s₂.inESC
          ∧ s₁.link.lastSeq = s₂.link.lastSeq ∧ s₁.link.seqExpected = s₂.link.seqExpected
          ∧ ((∀ id, .keepalive id ∉ acts₁) → (∀ id, .keepalive id ∉ acts₂) →
              acts₁ = acts₂ ∧ s₁.link = s₂.link) := by
  cases hsd : s.shutdown with
  | true =>
    refine ⟨s, [], s, [], onRun_of_shutdown hsd es₁, onRun_of_shutdown hsd es₂, rfl, rfl, rfl, rfl,
      rfl, ?_⟩
    intros
    exact ⟨rfl, rfl⟩
  | false =>
    obtain ⟨s₁, acts₁, hrun₁, hs₁, -, hrec₁⟩ := onRun_eq_reception hs hsd hes₁ hoff₁
    obtain ⟨s₂, acts₂, hrun₂, hs₂, -, hrec₂⟩ := onRun_eq_reception hs hsd hes₂ hoff₂
    rw [hraw, hrec₂] at hrec₁
    simp only [Prod.mk.injEq] at hrec₁
    obtain ⟨hesc, hlast, hread, hacts⟩ := hrec₁
    have hexp : s₁.link.seqExpected = s₂.link.seqExpected := by
      rw [hs₁.inStep, hs₂.inStep, hlast]
    refine ⟨s₁, acts₁, s₂, acts₂, hrun₁, hrun₂, hacts.symm, hread.symm, hesc.symm, hlast.symm,
      hexp, ?_⟩
    intro hkeep₁ hkeep₂
    have hfeed₁ := onRun_eq_feed hs hsd hes₁ hoff₁ hrun₁ hkeep₁
    have hfeed₂ := onRun_eq_feed hs hsd hes₂ hoff₂ hrun₂ hkeep₂
    rw [hraw, hfeed₂] at hfeed₁
    simp only [Prod.mk.injEq] at hfeed₁
    obtain ⟨-, hlink, -, hall⟩ := hfeed₁
    exact ⟨hall.symm, hlink.symm⟩

theorem onRun_chunking_noise
    : ∃ s₁ acts₁ s₂ acts₂,
        (new (List.replicate stageBufSize 0) 1).onRun
            [⟨.data [0x1B, 0x00, 0x11, 0xA4, 0x03, 0x00, 0x00, 0x00, 0x00, 0x00,
              0xA4, 0x03, 0x00, 0x00, 0x80, 0x00, 0xD9], 1⟩]
            =
          some (s₁, acts₁)
          ∧ (new (List.replicate stageBufSize 0) 1).onRun
            [⟨.data [0x1B], 1⟩, ⟨.data [0x00, 0x11, 0xA4, 0x03], 2⟩, ⟨.timeout, 3⟩,
              ⟨.data [0x00, 0x00, 0x00, 0x00, 0x00, 0xA4, 0x03, 0x00, 0x00, 0x80, 0x00, 0xD9], 4⟩]
            =
          some (s₂, acts₂)
          ∧ acts₁.filter Action.isReception = acts₂.filter Action.isReception
          ∧ s₁.stagebuf.readData = s₂.stagebuf.readData ∧ s₁.inESC = s₂.inESC
          ∧ s₁.link.lastSeq = s₂.link.lastSeq ∧ s₁.link.seqExpected = s₂.link.seqExpected
          ∧ ((∀ id, .keepalive id ∉ acts₁) → (∀ id, .keepalive id ∉ acts₂) →
              acts₁ = acts₂ ∧ s₁.link = s₂.link) :=
  onRun_chunking (settled_new List.length_replicate 1) (by decide) (by decide) (by decide +kernel)
    (by decide +kernel) (by decide)

end CSirCon
