import Sircond.SirCon.Framing
import Mathlib.Data.List.Induction

/-!
This module contains what becomes of a frame that arrives behind noise. The main result says behind
which noise the receiver finds it. There are three ways to lose it: the noise ends in the middle of
an escape sequence, which then swallows the sentinel of the frame; an escaped sentinel in the noise
begins a frame that reaches into the one that follows; or the noise contains a data frame with the
sequence number of the one that follows.
-/

open Scp

namespace CSirCon

section Noise

variable (noise : List UInt8)

def EndsInEscape : Prop := (noise.reverse.takeWhile (· = asciiEsc)).length % 2 = 1

instance : Decidable (EndsInEscape noise) := inferInstanceAs (Decidable (_ = _))

variable (seq : UInt8) (data : Payload)

def received : List UInt8 := decode (noise ++ write (frameBytes seq data))

def frameStart : Nat := (received noise seq data).length - (frameBytes seq data).length

/--
The noise hides nothing of the frame behind it: the frame begins with a sentinel, no frame in the
noise that the receiver takes or waits for reaches into it, and the last data frame in the noise has
another sequence number.
-/
structure Recovers : Prop where
  start : EndsInEscape noise → (decode noise).getLast? = some pktSentinel
  visible : ¬ (frameCover (received noise seq data)).Shadowed (frameStart noise seq data)
  fresh : ¬ Repeats (received noise seq data) (frameStart noise seq data)

end Noise

theorem deEscape_endsInEscape (noise : List UInt8)
    : (deEscape.run false noise).1 = true ↔ EndsInEscape noise := by
  induction noise using List.reverseRecOn with
  | nil => simp [EndsInEscape]
  | append_singleton noise b ih =>
    unfold EndsInEscape at ih ⊢
    rw [List.reverse_append, List.reverse_singleton, List.singleton_append, deEscape.run_append,
      deEscape.run_cons, deEscape.run_nil]
    by_cases hb : b = asciiEsc
    . rw [List.takeWhile_cons_of_pos (by simpa using hb), List.length_cons]
      cases hesc : (deEscape.run false noise).1 with
      | false =>
        rw [hesc] at ih
        simp only [Bool.false_eq_true, false_iff] at ih
        simp only [deEscape, hb, if_true, Bool.false_eq_true, if_false, true_iff]
        omega
      | true =>
        rw [hesc] at ih
        simp only [true_iff] at ih
        simp only [deEscape, hb, if_true, Bool.false_eq_true, false_iff]
        omega
    . rw [List.takeWhile_cons_of_neg (by simpa using hb)]
      unfold deEscape
      rw [if_neg hb]
      split
      . split
        . simp
        . simp
      . simp

section Arrival

variable (seq : UInt8) (data : Payload)

theorem deEscape_write_frameBytes (inESC : Bool)
    : deEscape.run inESC (write (frameBytes seq data))
        =
      (false, if inESC then (frameBytes seq data).tail else frameBytes seq data) := by
  obtain ⟨body, hbody, hlen⟩ := frameBytes_eq_cons seq data
  have hsent : pktSentinel ≠ asciiEsc ∧ pktSentinel ≠ sentinelEsc := by decide
  have hrest := deEscape_flatMap_escapeByte body []
  rw [List.append_nil, deEscape.run_nil, List.append_nil] at hrest
  rw [hbody, write_cons hlen, deEscape.run_cons]
  cases inESC with
  | false => simp [deEscape, hsent, hrest]
  | true => simp [deEscape, hsent, hrest]

theorem received_eq (noise : List UInt8)
    : received noise seq data
        =
      decode noise
        ++ if EndsInEscape noise then (frameBytes seq data).tail else frameBytes seq data := by
  unfold received decode
  rw [deEscape.run_append, deEscape_write_frameBytes]
  simp only [deEscape_endsInEscape]

theorem escapeByte_eq_concat (b : UInt8)
    : ∃ init last, escapeByte b = init ++ [last]
        ∧ deEscape (deEscape.run false init).1 last = (false, [b]) := by
  have hne : sentinelEsc ≠ asciiEsc := by decide
  unfold escapeByte
  split
  . next hb => exact ⟨[asciiEsc], sentinelEsc, rfl, by simp [deEscape, Transducer.run_cons, hne, hb]⟩
  . split
    . next hb => exact ⟨[asciiEsc], asciiEsc, rfl, by simp [deEscape, Transducer.run_cons, hb]⟩
    . next hb => exact ⟨[], b, rfl, by simp [deEscape, hb]⟩

theorem write_eq_concat
    : ∃ init last b, write (frameBytes seq data) = init ++ [last]
        ∧ ∀ inESC, deEscape (deEscape.run inESC init).1 last = (false, [b]) := by
  obtain ⟨body, hbody, hlen⟩ := frameBytes_eq_cons seq data
  have hsent : pktSentinel ≠ asciiEsc ∧ pktSentinel ≠ sentinelEsc := by decide
  rcases List.eq_nil_or_concat body with rfl | ⟨body, b, rfl⟩
  . have := length_frameBytes seq data
    rw [hbody] at this
    simp [SHdr.size] at this
  . obtain ⟨init, last, hescape, hlast⟩ := escapeByte_eq_concat b
    refine ⟨pktSentinel :: body.flatMap escapeByte ++ init, last, b, ?_, ?_⟩
    . rw [hbody, write_cons hlen]
      simp [List.flatMap_append, hescape]
    . intro inESC
      have hstate : (deEscape inESC pktSentinel).1 = false := by
        cases inESC with
        | false => simp [deEscape, hsent]
        | true => simp [deEscape, hsent]
      rw [List.cons_append, deEscape.run_cons, hstate, deEscape_flatMap_escapeByte, hlast]

theorem length_decode_lt {noise piece₁ piece₂ : List UInt8}
    (hcut : piece₁ ++ piece₂ = noise ++ write (frameBytes seq data)) (hlast : piece₂ ≠ [])
    : (decode piece₁).length < (received noise seq data).length := by
  obtain ⟨init, last, b, hwrite, hstep⟩ := write_eq_concat seq data
  rcases List.eq_nil_or_concat piece₂ with rfl | ⟨piece₂, b', rfl⟩
  . exact absurd rfl hlast
  . rw [hwrite, List.concat_eq_append, ← List.append_assoc, ← List.append_assoc] at hcut
    obtain ⟨hinit, -⟩ := List.append_inj' hcut rfl
    have hreceived : received noise seq data = decode (piece₁ ++ piece₂) ++ [b] := by
      unfold received decode
      rw [hwrite, ← List.append_assoc, hinit, deEscape.run_append false (noise ++ init) [last],
        deEscape.run_append false noise init]
      simp [Transducer.run_cons, hstep]
    have hprefix : decode (piece₁ ++ piece₂)
        = decode piece₁ ++ (deEscape.run (deEscape.run false piece₁).1 piece₂).2 := by
      unfold decode
      rw [deEscape.run_append]
    rw [hreceived, hprefix, List.length_append, List.length_append, List.length_singleton]
    omega

theorem headerAt_behind (pre : List UInt8)
    : headerAt (pre ++ frameBytes seq data) pre.length
        =
      ⟨pktSentinel, 0x03, 0x00, seq, 0x00, UInt8.ofNat data.bytes.length⟩ := by
  unfold headerAt
  rw [List.drop_left, ← List.append_nil (frameBytes seq data), ofBytes_frameBytes]

theorem frameAt_behind (pre : List UInt8)
    : frameAt (pre ++ frameBytes seq data) pre.length = frameBytes seq data := by
  have hmsg := msgLen_frameBytes seq data []
  rw [List.append_nil] at hmsg
  unfold frameAt headerAt
  rw [List.drop_left, hmsg, List.take_length]

theorem validFrame_frameBytes : ValidFrame (frameBytes seq data) := by
  have hhdr := ofBytes_frameBytes seq data []
  have hmsg := msgLen_frameBytes seq data []
  rw [List.append_nil] at hhdr hmsg
  constructor
  . rw [hhdr]
  . rw [hmsg]
  . apply validateChecksum_frameBytes

theorem payloadAt_behind (pre : List UInt8)
    : payloadAt (pre ++ frameBytes seq data) pre.length = data.bytes := by
  unfold payloadAt
  rw [frameAt_behind, headerAt_behind]
  apply payload_frameBytes

theorem not_isAck_behind (pre : List UInt8)
    : ¬ IsAck (pre ++ frameBytes seq data) pre.length := by
  unfold IsAck
  rw [headerAt_behind, ne_eq, Decidable.not_not]
  apply UInt8.zero_and

theorem length_tail_frameBytes
    : (frameBytes seq data).tail.length + 1 = (frameBytes seq data).length := by
  rw [List.length_tail, length_frameBytes]
  omega

theorem received_of_start {noise : List UInt8}
    (hstart : EndsInEscape noise → (decode noise).getLast? = some pktSentinel)
    : ∃ pre, received noise seq data = pre ++ frameBytes seq data
        ∧ frameStart noise seq data = pre.length := by
  obtain ⟨pre, hreceived⟩ : ∃ pre, received noise seq data = pre ++ frameBytes seq data := by
    rw [received_eq]
    split
    . next hescape =>
      obtain ⟨body, hbody, -⟩ := frameBytes_eq_cons seq data
      obtain ⟨pre, hpre⟩ := List.getLast?_eq_some_iff.mp (hstart hescape)
      refine ⟨pre, ?_⟩
      rw [hpre, hbody]
      simp
    . exact ⟨decode noise, rfl⟩
  refine ⟨pre, hreceived, ?_⟩
  unfold frameStart
  rw [hreceived, List.length_append]
  omega

theorem start_of_validFrame {noise : List UInt8}
    (hvalid : ValidFrame (frameAt (received noise seq data) (frameStart noise seq data)))
    (hescape : EndsInEscape noise)
    : (decode noise).getLast? = some pktSentinel := by
  have hsent := getElem?_of_validFrame _ hvalid
  have hlen := length_tail_frameBytes seq data
  have hreceived := received_eq seq data noise
  rw [if_pos hescape] at hreceived
  unfold frameStart at hsent
  rw [hreceived] at hsent
  rcases List.eq_nil_or_concat (decode noise) with hnil | ⟨pre, b, hpre⟩
  . rw [hnil, List.nil_append, show (frameBytes seq data).tail.length - (frameBytes seq data).length
      = 0 by omega] at hsent
    have hbyte : (0x03 : UInt8) = pktSentinel := Option.some.inj hsent
    exact absurd hbyte (by decide)
  . rw [hpre, List.concat_eq_append] at hsent ⊢
    rw [List.length_append, List.length_append, List.length_singleton,
      show pre.length + 1 + (frameBytes seq data).tail.length - (frameBytes seq data).length
        = pre.length by omega] at hsent
    simpa using hsent

end Arrival

section Scan

variable {noise : List UInt8} {seq : UInt8} {data : Payload} {first : Int}

theorem mem_dispatchedAt_received (hfirst : first ≠ seq.toNat)
    : (frameStart noise seq data, data.bytes)
          ∈ dispatchedAt 0 (reception.scan first (received noise seq data)).2.2
        ↔
      Recovers noise seq data := by
  rw [mem_dispatchedAt_scan (List.drop_zero (l := received noise seq data)).symm,
    mem_actedOn_scan (List.drop_zero (l := received noise seq data)).symm
      (frameCover (received noise seq data)).not_shadowed_zero (lastSeq_zero _ first)]
  constructor
  . rintro ⟨⟨-, hvisible, hvalid, hact⟩, hack, -⟩
    have hstart := start_of_validFrame seq data hvalid
    refine ⟨hstart, hvisible, ?_⟩
    intro hrepeats
    rcases hact with h | h
    . apply hack h
    . apply h
      left
      apply hrepeats
  . rintro ⟨hstart, hvisible, hfresh⟩
    obtain ⟨pre, hreceived, hpos⟩ := received_of_start seq data hstart
    rw [hpos, hreceived] at hvisible hfresh ⊢
    refine ⟨⟨Nat.zero_le _, hvisible, ?_, .inr ?_⟩, not_isAck_behind seq data pre,
      (payloadAt_behind seq data pre).symm⟩
    . rw [frameAt_behind]
      apply validFrame_frameBytes
    . rw [repeatsFrom_iff]
      . apply hfresh
      . rw [headerAt_behind]
        apply hfirst

theorem le_length_of_mem_dispatchedAt {stream : List UInt8} {pos : Nat} (seq : UInt8)
    (h : (pos, data.bytes) ∈ dispatchedAt 0 (reception.scan first stream).2.2)
    : pos + (frameBytes seq data).length ≤ stream.length := by
  rw [mem_dispatchedAt_scan (List.drop_zero (l := stream)).symm,
    mem_actedOn_scan (List.drop_zero (l := stream)).symm (frameCover stream).not_shadowed_zero
      (lastSeq_zero _ first)] at h
  obtain ⟨⟨-, -, hvalid, -⟩, -, hpayload⟩ := h
  have hle := add_msgLen_le stream hvalid
  have hlen : data.bytes.length ≤ (headerAt stream pos).len.toNat := by
    rw [hpayload]
    apply List.length_take_le
  rw [length_frameBytes]
  unfold msgLen at hle
  omega

end Scan

theorem decode_of_not_mem {noise : List UInt8} (hesc : asciiEsc ∉ noise) : decode noise = noise := by
  unfold decode
  induction noise with
  | nil => rfl
  | cons b noise ih =>
    rw [List.mem_cons, not_or] at hesc
    have hstep : deEscape false b = (false, [b]) := by
      unfold deEscape
      rw [if_neg (Ne.symm hesc.1)]
      rfl
    rw [deEscape.run_cons, hstep, ih hesc.2]
    rfl

theorem not_endsInEscape_of_not_mem {noise : List UInt8} (hesc : asciiEsc ∉ noise)
    : ¬ EndsInEscape noise := by
  unfold EndsInEscape
  cases hnoise : noise.reverse with
  | nil => simp
  | cons b rest =>
    have hb : b ∈ noise := by
      rw [← List.mem_reverse, hnoise]
      apply List.mem_cons_self
    rw [List.takeWhile_cons_of_neg]
    . simp
    . simp only [decide_eq_true_eq]
      rintro rfl
      apply hesc hb

/-- Noise without sentinels, raw or escaped, hides nothing if it does not end in an escape. -/
theorem recovers_of_not_mem {noise : List UInt8} (hesc : ¬ EndsInEscape noise)
    (hsent : pktSentinel ∉ decode noise) (seq : UInt8) (data : Payload)
    : Recovers noise seq data := by
  have hstart : EndsInEscape noise → (decode noise).getLast? = some pktSentinel :=
    fun h => absurd h hesc
  have hreceived := received_eq seq data noise
  rw [if_neg hesc] at hreceived
  have hpos : frameStart noise seq data = (decode noise).length := by
    unfold frameStart
    rw [hreceived, List.length_append]
    omega
  have hbefore : ∀ j, j < frameStart noise seq data →
      (received noise seq data)[j]? ≠ some pktSentinel := by
    intro j hj hget
    rw [hpos] at hj
    rw [hreceived, List.getElem?_append_left hj] at hget
    apply hsent
    apply List.mem_of_getElem? hget
  refine ⟨hstart, ?_, ?_⟩
  . intro hshadowed
    obtain ⟨j, hj, hcovers, -⟩ := (Cover.shadowed_iff _).mp hshadowed
    apply hbefore j hj
    rw [getElem?_eq_sentinel, hcovers.1]
    rw [hpos] at hj
    rw [hreceived, List.length_append]
    omega
  . rintro ⟨j, hj, hdata, -⟩
    apply hbefore j hj
    apply getElem?_of_validFrame _ hdata.valid

theorem recovers_of_plain {noise : List UInt8} (hesc : asciiEsc ∉ noise)
    (hsent : pktSentinel ∉ noise) (seq : UInt8) (data : Payload)
    : Recovers noise seq data := by
  apply recovers_of_not_mem
  . apply not_endsInEscape_of_not_mem hesc
  . rw [decode_of_not_mem hesc]
    apply hsent

/--
A receiver that stands between two frames dispatches the frame that arrives behind the noise if and
only if the noise hides nothing of it. It does so after the last byte of the frame has arrived,
however the serial port cuts the stream.
-/
theorem resynchronises_iff {s : CSirCon} (hs : Settled s) (hsd : s.shutdown = false)
    (hempty : s.stagebuf.readData = []) (hesc : s.inESC = false) {seq : UInt8} {data : Payload}
    (hseq : s.link.lastSeq ≠ seq.toNat) {noise : List UInt8} {before after : List RecvEvent}
    (hes : ∀ e ∈ before ++ after, e.fails = false) (hoff : Offered s (before ++ after))
    (hraw : rawStream before ++ rawStream after = noise ++ write (frameBytes seq data))
    (hlast : rawStream after ≠ [])
    : ∃ s₁ acts₁ s₂ acts₂,
        s.onRun before = some (s₁, acts₁) ∧ s₁.onRun after = some (s₂, acts₂)
          ∧ ((frameStart noise seq data, data.bytes) ∈ dispatchedAt (consumed acts₁) acts₂
              ↔ Recovers noise seq data) := by
  have hes₁ : ∀ e ∈ before, e.fails = false := fun e he => hes e (List.mem_append_left _ he)
  have hes₂ : ∀ e ∈ after, e.fails = false := fun e he => hes e (List.mem_append_right _ he)
  obtain ⟨s₁, acts₁, hrun₁, hs₁, hsd₁, hfeed₁⟩ := onRun_eq_reception hs hsd hes₁ hoff.of_append
  obtain ⟨s₂, acts₂, hrun₂, -, -, hfeed₂⟩ :=
    onRun_eq_reception hs₁ hsd₁ hes₂ (hoff.after hs hsd hes₁ hrun₁)
  refine ⟨s₁, acts₁, s₂, acts₂, hrun₁, hrun₂, ?_⟩
  have hfeed := reception.feed_append deEscape s.inESC s.link.lastSeq s.stagebuf.readData
    (rawStream before) (rawStream after)
  rw [hfeed₁] at hfeed
  dsimp only at hfeed
  rw [hfeed₂, hraw] at hfeed
  rw [hempty, hesc] at hfeed hfeed₁
  have hacts : (reception.scan s.link.lastSeq (received noise seq data)).2.2
      = acts₁.filter Action.isReception ++ acts₂.filter Action.isReception :=
    congrArg (fun r => r.2.2.2) hfeed
  have hacts₁ : (reception.scan s.link.lastSeq (decode (rawStream before))).2.2
      = acts₁.filter Action.isReception :=
    congrArg (fun r => r.2.2.2) hfeed₁
  rw [← mem_dispatchedAt_received hseq, hacts, located_dispatchedAt.append, List.mem_append,
    located_dispatchedAt.filter, located_dispatchedAt.filter, consumed_filter, Nat.zero_add]
  constructor
  . intro h
    right
    exact h
  . rintro (h | h)
    . -- Before its last byte has arrived the frame is not complete.
      rw [← located_dispatchedAt.filter, ← hacts₁] at h
      have hle := le_length_of_mem_dispatchedAt seq h
      have hlt := length_decode_lt seq data hraw hlast
      unfold frameStart at hle
      omega
    . exact h

theorem resynchronises_iff_plain
    : ∃ s₁ acts₁ s₂ acts₂,
        (new (List.replicate stageBufSize 0) 1).onRun
            [⟨.data [0x53, 0x00, 0xFF], 1⟩, ⟨.timeout, 2⟩,
              ⟨.data [0x11, 0xA4, 0x03, 0x00, 0x1B], 3⟩]
            =
          some (s₁, acts₁)
          ∧ s₁.onRun [⟨.data [0x1B, 0x00, 0x02, 0x80, 0x1B], 4⟩, ⟨.data [0x53, 0x18], 5⟩]
              = some (s₂, acts₂)
          ∧ (4, [0x80, 0xA4]) ∈ dispatchedAt (consumed acts₁) acts₂ := by
  have hs : Settled (new (List.replicate stageBufSize 0) 1) := settled_new List.length_replicate 1
  have hraw : rawStream [⟨.data [0x53, 0x00, 0xFF], 1⟩, ⟨.timeout, 2⟩,
          ⟨.data [0x11, 0xA4, 0x03, 0x00, 0x1B], 3⟩]
        ++ rawStream [⟨.data [0x1B, 0x00, 0x02, 0x80, 0x1B], 4⟩, ⟨.data [0x53, 0x18], 5⟩]
      = [0x53, 0x00, 0xFF, 0x11] ++ write (frameBytes 0x1B ⟨[0x80, 0xA4], by decide⟩) := by
    decide +kernel
  obtain ⟨s₁, acts₁, s₂, acts₂, hrun₁, hrun₂, hiff⟩ :=
    resynchronises_iff hs rfl rfl rfl (by decide) (by decide) (by decide +kernel) hraw (by decide)
  refine ⟨s₁, acts₁, s₂, acts₂, hrun₁, hrun₂, hiff.mpr ?_⟩
  apply recovers_of_plain
  . decide
  . decide

theorem lost_behind_noise
    : pktSentinel ∉ [0x1B] ∧ pktSentinel ∉ [0x1B, 0x53, 0x00, 0x00, 0x00, 0x00, 0xFF]
        ∧
      ∃ s₁ acts₁ s₂ acts₂,
        (new (List.replicate stageBufSize 0) 1).onRun
            [⟨.data ([0x1B] ++ write (frameBytes 0x00 ⟨[0x80, 0x04], by decide⟩)), 1⟩]
            =
          some (s₁, acts₁)
          ∧ dispatched acts₁ = []
          ∧ (new (List.replicate stageBufSize 0) 1).onRun
            [⟨.data ([0x1B, 0x53, 0x00, 0x00, 0x00, 0x00, 0xFF]
              ++ write (frameBytes 0x00 ⟨[0x80, 0x04], by decide⟩)), 1⟩]
            =
          some (s₂, acts₂)
          ∧ dispatched acts₂ = [] := by
  have hcheck : ∀ noise ∈ [[0x1B], [0x1B, 0x53, 0x00, 0x00, 0x00, 0x00, 0xFF]],
      ((new (List.replicate stageBufSize 0) 1).onRun
        [⟨.data (noise ++ write (frameBytes 0x00 ⟨[0x80, 0x04], by decide⟩)), 1⟩]).any
      (fun r => dispatched r.2 = []) = true := by decide +kernel
  obtain ⟨⟨s₁, acts₁⟩, hrun₁, hdisp₁⟩ := (Option.any_eq_true ..).mp (hcheck [0x1B] (by simp))
  obtain ⟨⟨s₂, acts₂⟩, hrun₂, hdisp₂⟩ := (Option.any_eq_true ..).mp
    (hcheck [0x1B, 0x53, 0x00, 0x00, 0x00, 0x00, 0xFF] (by simp))
  rw [decide_eq_true_iff] at hdisp₁ hdisp₂
  exact ⟨by decide, by decide, s₁, acts₁, s₂, acts₂, hrun₁, hdisp₁, hrun₂, hdisp₂⟩

end CSirCon
