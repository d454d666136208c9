import Sircond.SirCon.Lemmas.OnRun

/-!
This module contains the receiving half of the radio interface: what the main loop dispatches and
acknowledges depends on the bytes received and on the last sequence number seen, not on what becomes
of the send queue meanwhile.
-/

open Scp

namespace CSirCon

def Action.isReception : Action → Bool
  | .dispatch _ | .sendACK _ _ | .ack _ _ | .markRead _ => true
  | .transmit _ | .resolve _ _ | .keepalive _ => false

def receive (lastSeq : Int) (msg : List UInt8) : Int × List Action × Nat :=
  let hdr := SHdr.ofBytes msg
  if !validateChecksum msg then
    (lastSeq, [.sendACK hdr.seq (sfAck ||| sfChksum)], 1)
  else if hdr.flags &&& sfAck ≠ 0 then
    (lastSeq, [.ack hdr.seq hdr.flags], msgLen hdr)
  else if hdr.seq.toNat = lastSeq then
    (lastSeq, [.sendACK hdr.seq sfAck], msgLen hdr)
  else
    let payload := (msg.drop SHdr.size).take hdr.len.toNat
    (hdr.seq.toNat, [.sendACK hdr.seq sfAck, .dispatch payload], msgLen hdr)

theorem onAckFrame_filter (l : Link) (hdr : SHdr)
    : (onAckFrame l hdr).2.filter Action.isReception = [] := by
  have heffect := ackEffect l hdr
  generalize onAckFrame l hdr = r at heffect ⊢
  cases heffect with
  | keep | resend | busy | success => rfl

theorem onMessage_eq_receive (l : Link) (msg : List UInt8)
    : ((onMessage l msg).1.lastSeq, (onMessage l msg).2.1.filter Action.isReception,
        (onMessage l msg).2.2)
        =
      receive l.lastSeq msg := by
  unfold onMessage receive
  dsimp only
  cases validateChecksum msg with
  | false => rfl
  | true =>
    simp only [Bool.not_true, Bool.false_eq_true, if_true, if_false]
    split
    . simp [onAckFrame_seqs, onAckFrame_filter, List.filter_cons, Action.isReception]
    . split
      . simp [List.filter_cons, Action.isReception]
      . next h =>
        rw [ne_eq, Decidable.not_not] at h
        simp [h, List.filter_cons, Action.isReception]

def nextReception (lastSeq : Int) (unread : List UInt8) : Option (Nat × Int × List Action) :=
  let hdr := SHdr.ofBytes unread
  if unread.length < SHdr.size then
    none
  else if hdr.sentinel ≠ pktSentinel then
    some (1, lastSeq, [.markRead 1])
  else if unread.length < msgLen hdr then
    none
  else
    let (lastSeq, acts, len) := receive lastSeq (unread.take (msgLen hdr))
    some (len, lastSeq, acts ++ [.markRead len])

theorem nextReception_eq (l : Link) (unread : List UInt8)
    : nextReception l.lastSeq unread
        =
      (nextMessage l unread).map fun r =>
        (r.1, r.2.1.lastSeq, r.2.2.filter Action.isReception) := by
  unfold nextReception nextMessage
  dsimp only
  split
  . rfl
  . split
    . rfl
    . split
      . rfl
      . rw [← onMessage_eq_receive]
        simp [List.filter_cons, Action.isReception]

def idleLink (lastSeq : Int) : Link where
  busyTimer := 0
  lastSeq := lastSeq
  seqExpected := 0
  queue := []

theorem nextMessage_of_nextReception {lastSeq : Int} {unread : List UInt8}
    {r : Nat × Int × List Action} (h : nextReception lastSeq unread = some r)
    : ∃ r', nextMessage (idleLink lastSeq) unread = some r'
        ∧ r = (r'.1, r'.2.1.lastSeq, r'.2.2.filter Action.isReception) := by
  have heq := nextReception_eq (idleLink lastSeq) unread
  dsimp only [idleLink] at heq
  rw [h, eq_comm, Option.map_eq_some_iff] at heq
  obtain ⟨r', h₁, h₂⟩ := heq
  exact ⟨r', h₁, h₂.symm⟩

def reception : Scanner Int UInt8 Action where
  next := nextReception
  pos h := by
    obtain ⟨r', hnext, hr⟩ := nextMessage_of_nextReception h
    obtain ⟨rfl, -⟩ := Prod.mk.inj hr
    exact (nextMessage_len hnext).1
  le h := by
    obtain ⟨r', hnext, hr⟩ := nextMessage_of_nextReception h
    obtain ⟨rfl, -⟩ := Prod.mk.inj hr
    exact (nextMessage_len hnext).2
  stable {lastSeq unread r} h more := by
    obtain ⟨r', hnext, hr⟩ := nextMessage_of_nextReception h
    have heq := nextReception_eq (idleLink lastSeq) (unread ++ more)
    rw [nextMessage_append hnext more] at heq
    rw [hr]
    exact heq

theorem reception_scan (l : Link) (unread : List UInt8)
    : reception.scan l.lastSeq unread
        =
      ((messages.scan l unread).1.lastSeq, (messages.scan l unread).2.1,
        (messages.scan l unread).2.2.filter Action.isReception) :=
  messages.scan_filter Link.lastSeq Action.isReception nextReception_eq l unread

theorem reception_feed (inESC : Bool) (l : Link) (unread raw : List UInt8)
    : reception.feed deEscape inESC l.lastSeq unread raw
        =
      let (inESC, l, unread, acts) := messages.feed deEscape inESC l unread raw
      (inESC, l.lastSeq, unread, acts.filter Action.isReception) := by
  simp only [Scanner.feed]
  rw [reception_scan]

theorem rawStream_cons (e : RecvEvent) (es : List RecvEvent)
    : rawStream (e :: es) = e.raw ++ rawStream es := by
  simp [rawStream]

theorem onRun_eq_reception {s : CSirCon} (hs : Settled s) (hsd : s.shutdown = false)
    {es : List RecvEvent} (hes : ∀ e ∈ es, e.fails = false) (hoff : Offered s es)
    : ∃ s' acts,
        s.onRun es = some (s', acts) ∧ Settled s' ∧ s'.shutdown = false
          ∧ reception.feed deEscape s.inESC s.link.lastSeq s.stagebuf.readData (rawStream es)
              = (s'.inESC, s'.link.lastSeq, s'.stagebuf.readData,
                  acts.filter Action.isReception) := by
  induction es generalizing s with
  | nil =>
    refine ⟨s, [], rfl, hs, hsd, ?_⟩
    apply reception.feed_nil
    rw [show reception.next = nextReception from rfl, nextReception_eq]
    rw [nextMessage_eq_none_iff.mpr hs.waits]
    rfl
  | cons e es ih =>
    obtain ⟨s₁, link, acts₁, acts₂, hiter, hs₁, hsd₁, hfeed, hlast, hkeep⟩ :=
      iteration_eq_feed hs (hes e (List.mem_cons_self ..)) hoff.1
    obtain ⟨s', acts₃, hrun, hs', hsd', hfeed'⟩ :=
      ih hs₁ (hsd₁.trans hsd) (fun e he => hes e (List.mem_cons_of_mem _ he)) (hoff.2 _ _ hiter)
    refine ⟨s', acts₁ ++ acts₂ ++ acts₃, ?_, hs', hsd', ?_⟩
    . simp [onRun, hsd, hiter, hrun]
    . have hnil : acts₁.filter Action.isReception = [] := by
        rcases hkeep with ⟨rfl, -⟩ | ⟨id, rfl⟩
        . rfl
        . rfl
      rw [rawStream_cons, reception.feed_append, ← hlast, reception_feed, hfeed]
      simp only
      rw [hfeed']
      simp [hnil]

theorem Offered.of_append {s : CSirCon} {es₁ es₂ : List RecvEvent} (hoff : Offered s (es₁ ++ es₂))
    : Offered s es₁ := by
  induction es₁ generalizing s with
  | nil => trivial
  | cons e es₁ ih =>
    refine ⟨hoff.1, ?_⟩
    intro s' acts hiter
    exact ih (hoff.2 s' acts hiter)

theorem Offered.after {s s₁ : CSirCon} (hs : Settled s) (hsd : s.shutdown = false)
    {es₁ es₂ : List RecvEvent} (hes : ∀ e ∈ es₁, e.fails = false) (hoff : Offered s (es₁ ++ es₂))
    {acts : List Action} (hrun : s.onRun es₁ = some (s₁, acts))
    : Offered s₁ es₂ := by
  induction es₁ generalizing s acts with
  | nil =>
    obtain ⟨rfl, -⟩ : s = s₁ ∧ [] = acts := by simpa [onRun] using hrun
    exact hoff
  | cons e es₁ ih =>
    obtain ⟨s', link, acts₁, acts₂, hiter, hs', hsd', -⟩ :=
      iteration_eq_feed hs (hes e (List.mem_cons_self ..)) hoff.1
    simp only [onRun, hsd, hiter, Bool.false_eq_true, if_false, if_true, Option.bind_eq_bind,
      Option.bind_some, Option.bind_eq_some_iff] at hrun
    obtain ⟨⟨s₂, acts₃⟩, hrest, heq⟩ := hrun
    obtain ⟨rfl, -⟩ := Prod.mk.inj (Option.some.inj heq)
    exact ih hs' (hsd'.trans hsd) (fun e he => hes e (List.mem_cons_of_mem _ he))
      (hoff.2 _ _ hiter) hrest

theorem onRun_eq_feed {s : CSirCon} (hs : Settled s) (hsd : s.shutdown = false)
    {es : List RecvEvent} (hes : ∀ e ∈ es, e.fails = false) (hoff : Offered s es)
    {s' : CSirCon} {acts : List Action} (hrun : s.onRun es = some (s', acts))
    (hkeep : ∀ id, .keepalive id ∉ acts)
    : messages.feed deEscape s.inESC s.link s.stagebuf.readData (rawStream es)
        =
      (s'.inESC, s'.link, s'.stagebuf.readData, acts) := by
  induction es generalizing s acts with
  | nil =>
    obtain ⟨rfl, rfl⟩ : s = s' ∧ [] = acts := by simpa [onRun] using hrun
    apply messages.feed_nil
    exact nextMessage_eq_none_iff.mpr hs.waits
  | cons e es ih =>
    obtain ⟨s₁, link, acts₁, acts₂, hiter, hs₁, hsd₁, hfeed, hlast, hprobe⟩ :=
      iteration_eq_feed hs (hes e (List.mem_cons_self ..)) hoff.1
    cases hrest : s₁.onRun es with
    | none => simp [onRun, hsd, hiter, hrest] at hrun
    | some r =>
      obtain ⟨s₂, acts₃⟩ := r
      obtain ⟨rfl, rfl⟩ : s₂ = s' ∧ acts₁ ++ (acts₂ ++ acts₃) = acts := by
        simpa [onRun, hsd, hiter, hrest] using hrun
      rcases hprobe with ⟨rfl, rfl⟩ | ⟨id, rfl⟩
      . have := ih hs₁ (hsd₁.trans hsd) (fun e he => hes e (List.mem_cons_of_mem _ he))
          (hoff.2 _ _ hiter) hrest (fun id hid => hkeep id (by simp [hid]))
        rw [rawStream_cons, messages.feed_append, hfeed]
        simp only
        rw [this]
        rfl
      . exact absurd (by simp) (hkeep id)

end CSirCon
