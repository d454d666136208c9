import Sircond.SirCon.Lemmas.Reception
import Sircond.SirCon.Machine
import Sircond.Lib.Shadow

/-!
This module contains where the frames begin that the receiver acts on. Positions count the bytes of
the stream with its escapes removed, since the main loop sees no other: that is why an escaped
sentinel can begin a frame. `sourceByte` is the raw byte that completed the byte at a position. The
main result says of which streams an escaped sentinel never begins a frame that is acted on.

Whoever takes the frame at a position covers the bytes of this frame, and who waits for the rest of
it covers everything behind. What is shadowed by an earlier frame is passed over, and so is a data
frame with the sequence number of the data frame before it.
-/

open Scp

namespace CSirCon

def consumed : List Action → Nat
  | [] => 0
  | .markRead len :: acts => len + consumed acts
  | .dispatch _ :: acts | .ack _ _ :: acts | .sendACK _ _ :: acts | .transmit _ :: acts
  | .resolve _ _ :: acts | .keepalive _ :: acts =>
    consumed acts

def actedOn (pos : Nat) : List Action → List Nat
  | [] => []
  | .dispatch _ :: acts | .ack _ _ :: acts => pos :: actedOn pos acts
  | .markRead len :: acts => actedOn (pos + len) acts
  | .sendACK _ _ :: acts | .transmit _ :: acts | .resolve _ _ :: acts | .keepalive _ :: acts =>
    actedOn pos acts

def dispatchedAt (pos : Nat) : List Action → List (Nat × List UInt8)
  | [] => []
  | .dispatch payload :: acts => (pos, payload) :: dispatchedAt pos acts
  | .markRead len :: acts => dispatchedAt (pos + len) acts
  | .ack _ _ :: acts | .sendACK _ _ :: acts | .transmit _ :: acts | .resolve _ _ :: acts
  | .keepalive _ :: acts =>
    dispatchedAt pos acts

theorem consumed_append (acts₁ acts₂ : List Action)
    : consumed (acts₁ ++ acts₂) = consumed acts₁ + consumed acts₂ := by
  induction acts₁ with
  | nil => simp [consumed]
  | cons act acts ih =>
    cases act with
    | markRead len => simp [consumed, ih, Nat.add_assoc]
    | _ => simp [consumed, ih]

/--
What a function says that goes through the actions with the position of each in the stream. Only the
actions of a reception have a say.
-/
structure Located {β : Type} (f : Nat → List Action → List β) : Prop where
  nil : ∀ pos, f pos [] = []
  cons : ∀ pos act acts, f pos (act :: acts) = f pos [act] ++ f (pos + consumed [act]) acts
  silent : ∀ pos act, act.isReception = false → f pos [act] = []

theorem Located.append {β : Type} {f : Nat → List Action → List β} (h : Located f) (pos : Nat)
    (acts₁ acts₂ : List Action)
    : f pos (acts₁ ++ acts₂) = f pos acts₁ ++ f (pos + consumed acts₁) acts₂ := by
  induction acts₁ generalizing pos with
  | nil => simp [h.nil, consumed]
  | cons act acts ih =>
    have hconsumed := consumed_append [act] acts
    rw [List.singleton_append] at hconsumed
    rw [List.cons_append, h.cons, ih, h.cons pos act acts, hconsumed, List.append_assoc,
      Nat.add_assoc]

theorem Located.filter {β : Type} {f : Nat → List Action → List β} (h : Located f) (pos : Nat)
    (acts : List Action)
    : f pos (acts.filter Action.isReception) = f pos acts := by
  induction acts generalizing pos with
  | nil => rfl
  | cons act acts ih =>
    rw [h.cons pos act acts, ← ih]
    cases hact : act.isReception with
    | true => rw [List.filter_cons_of_pos hact, h.cons]
    | false =>
      have hconsumed : consumed [act] = 0 := by
        cases act with
        | markRead len => simp [Action.isReception] at hact
        | dispatch | sendACK | ack | transmit | resolve | keepalive => rfl
      rw [List.filter_cons_of_neg (by simp [hact]), h.silent pos act hact, hconsumed]
      rfl

theorem located_actedOn : Located actedOn where
  nil _ := rfl
  cons pos act acts := by cases act <;> rfl
  silent pos act hact := by cases act <;> first | rfl | simp [Action.isReception] at hact

theorem located_dispatchedAt : Located dispatchedAt where
  nil _ := rfl
  cons pos act acts := by cases act <;> rfl
  silent pos act hact := by cases act <;> first | rfl | simp [Action.isReception] at hact

theorem consumed_filter (acts : List Action)
    : consumed (acts.filter Action.isReception) = consumed acts := by
  induction acts with
  | nil => rfl
  | cons act acts ih =>
    cases act with
    | _ => simp [List.filter_cons, Action.isReception, consumed, ih]

section Frames

variable (stream : List UInt8)

def headerAt (pos : Nat) : SHdr := SHdr.ofBytes (stream.drop pos)

def frameAt (pos : Nat) : List UInt8 := (stream.drop pos).take (msgLen (headerAt stream pos))

def payloadAt (pos : Nat) : List UInt8 :=
  ((frameAt stream pos).drop SHdr.size).take (headerAt stream pos).len.toNat

def frameCover : Cover where
  covers j i := (headerAt stream j).sentinel = pktSentinel
    ∧ (stream.length < j + msgLen (headerAt stream j)
      ∨ ValidFrame (frameAt stream j) ∧ i < j + msgLen (headerAt stream j))
  mono := by
    rintro j i k ⟨hsent, h⟩ hik
    refine ⟨hsent, h.imp_right ?_⟩
    rintro ⟨hvalid, hlt⟩
    exact ⟨hvalid, by omega⟩

def IsAck (pos : Nat) : Prop := (headerAt stream pos).flags &&& sfAck ≠ 0

instance (pos : Nat) : Decidable (IsAck stream pos) := inferInstanceAs (Decidable (_ ≠ _))

structure DataFrame (pos : Nat) : Prop where
  valid : ValidFrame (frameAt stream pos)
  visible : ¬ (frameCover stream).Shadowed pos
  data : ¬ IsAck stream pos

def Repeats (pos : Nat) : Prop :=
  ∃ j, j < pos ∧ DataFrame stream j ∧ (headerAt stream j).seq = (headerAt stream pos).seq
    ∧ ∀ k, j < k → k < pos → ¬ DataFrame stream k

def RepeatsFrom (first : Int) (pos : Nat) : Prop :=
  Repeats stream pos
    ∨
  first = (headerAt stream pos).seq.toNat ∧ ∀ j, j < pos → ¬ DataFrame stream j

def LastSeq (first : Int) (pos : Nat) (lastSeq : Int) : Prop :=
  lastSeq = first ∧ (∀ j, j < pos → ¬ DataFrame stream j)
    ∨
  ∃ j, j < pos ∧ DataFrame stream j ∧ lastSeq = (headerAt stream j).seq.toNat
    ∧ ∀ k, j < k → k < pos → ¬ DataFrame stream k

theorem validFrame_frameAt_iff {pos : Nat}
    : ValidFrame (frameAt stream pos)
        ↔
      (headerAt stream pos).sentinel = pktSentinel
        ∧ msgLen (headerAt stream pos) ≤ (stream.drop pos).length
        ∧ validateChecksum (frameAt stream pos) = true := by
  by_cases hlen : msgLen (headerAt stream pos) ≤ (stream.drop pos).length
  . have hhdr : SHdr.ofBytes (frameAt stream pos) = headerAt stream pos := ofBytes_take_msgLen hlen
    constructor
    . intro h
      refine ⟨?_, hlen, h.chksum⟩
      rw [← hhdr]
      apply h.sentinel
    . rintro ⟨hsent, -, hsum⟩
      refine ⟨?_, ?_, hsum⟩
      . rw [hhdr]
        apply hsent
      . rw [hhdr, frameAt, List.length_take]
        omega
  . have hall : frameAt stream pos = stream.drop pos := List.take_of_length_le (by omega)
    constructor
    . intro h
      exfalso
      apply hlen
      have := h.length
      rw [hall] at this
      apply Nat.le_of_eq this.symm
    . rintro ⟨-, h, -⟩
      exact absurd h hlen

theorem getElem?_eq_sentinel {pos : Nat} (hlt : pos < stream.length)
    : stream[pos]? = some (headerAt stream pos).sentinel := by
  rw [List.getElem?_eq_getElem hlt]
  simp [headerAt, SHdr.ofBytes, List.getD_eq_getElem?_getD, hlt]

theorem add_msgLen_le {pos : Nat} (h : ValidFrame (frameAt stream pos))
    : pos + msgLen (headerAt stream pos) ≤ stream.length := by
  have hlen := ((validFrame_frameAt_iff stream).mp h).2.1
  unfold msgLen at hlen ⊢
  rw [List.length_drop] at hlen
  omega

theorem getElem?_of_validFrame {pos : Nat} (h : ValidFrame (frameAt stream pos))
    : stream[pos]? = some pktSentinel := by
  have hle := add_msgLen_le stream h
  unfold msgLen at hle
  rw [getElem?_eq_sentinel stream (by omega), ((validFrame_frameAt_iff stream).mp h).1]

theorem ofBytes_frameAt {pos : Nat} (h : ValidFrame (frameAt stream pos))
    : SHdr.ofBytes (frameAt stream pos) = headerAt stream pos :=
  ofBytes_take_msgLen ((validFrame_frameAt_iff stream).mp h).2.1

end Frames

section Reader

variable {stream : List UInt8} {first : Int} {pos : Nat}

theorem repeatsFrom_iff (h : first ≠ (headerAt stream pos).seq.toNat)
    : RepeatsFrom stream first pos ↔ Repeats stream pos := by
  unfold RepeatsFrom
  simp [h]

theorem LastSeq.repeats_iff {lastSeq : Int} (h : LastSeq stream first pos lastSeq)
    : RepeatsFrom stream first pos ↔ ((headerAt stream pos).seq.toNat : Int) = lastSeq := by
  rcases h with ⟨rfl, hnone⟩ | ⟨j, hj, hdata, rfl, hlast⟩
  . constructor
    . rintro (⟨j, hj, hdata, -⟩ | ⟨heq, -⟩)
      . exact absurd hdata (hnone j hj)
      . exact heq.symm
    . intro h
      right
      exact ⟨h.symm, hnone⟩
  . constructor
    . rintro (⟨i, hi, hdata', heq, hlast'⟩ | ⟨-, hnone⟩)
      . -- The last data frame before a position is unique.
        obtain rfl : i = j := by
          rcases Nat.lt_trichotomy i j with hij | hij | hij
          . exact absurd hdata (hlast' j hij hj)
          . exact hij
          . exact absurd hdata' (hlast i hij hi)
        rw [heq]
      . exact absurd hdata (hnone j hj)
    . intro h
      left
      refine ⟨j, hj, hdata, ?_, hlast⟩
      rw [← UInt8.toNat_inj]
      omega

theorem lastSeq_zero (stream : List UInt8) (first : Int) : LastSeq stream first 0 first :=
  .inl ⟨rfl, fun j hj => absurd hj (Nat.not_lt_zero j)⟩

theorem LastSeq.next {lastSeq : Int} {n : Nat} (h : LastSeq stream first pos lastSeq) (hn : 0 < n)
    (hinside : ∀ i, pos < i → i < pos + n → ¬ DataFrame stream i)
    : (DataFrame stream pos → LastSeq stream first (pos + n) (headerAt stream pos).seq.toNat)
        ∧ (¬ DataFrame stream pos → LastSeq stream first (pos + n) lastSeq) := by
  constructor
  . intro hdata
    right
    exact ⟨pos, by omega, hdata, rfl, hinside⟩
  . intro hdata
    have hnone : ∀ i, pos ≤ i → i < pos + n → ¬ DataFrame stream i := by
      intro i hi hlt
      rcases Nat.eq_or_lt_of_le hi with rfl | hi
      . apply hdata
      . apply hinside i hi hlt
    rcases h with ⟨rfl, hbefore⟩ | ⟨j, hj, hdata', rfl, hlast⟩
    . left
      refine ⟨rfl, ?_⟩
      intro j hj
      by_cases hjpos : j < pos
      . apply hbefore j hjpos
      . apply hnone j (by omega) hj
    . right
      refine ⟨j, by omega, hdata', rfl, ?_⟩
      intro k hjk hk
      by_cases hkpos : k < pos
      . apply hlast k hjk hkpos
      . apply hnone k (by omega) hk

theorem receive_of_validFrame (lastSeq : Int) (h : ValidFrame (frameAt stream pos))
    : ∃ acts,
        receive lastSeq (frameAt stream pos)
            =
          (if IsAck stream pos then lastSeq else (headerAt stream pos).seq.toNat, acts,
            msgLen (headerAt stream pos))
          ∧ consumed acts = 0
          ∧ (∀ off, actedOn off acts
              = if IsAck stream pos ∨ ((headerAt stream pos).seq.toNat : Int) ≠ lastSeq then
                  [off]
                else
                  [])
          ∧ ∀ off, dispatchedAt off acts
              = if IsAck stream pos then
                  []
                else
                  (actedOn off acts).map (·, payloadAt stream pos) := by
  unfold receive
  rw [ofBytes_frameAt stream h, h.chksum]
  dsimp only
  rw [if_neg (by decide)]
  by_cases hack : IsAck stream pos
  . refine ⟨[.ack (headerAt stream pos).seq (headerAt stream pos).flags], ?_, rfl, ?_, ?_⟩
    . rw [if_pos hack]
      apply if_pos hack
    . intro off
      rw [if_pos (.inl hack)]
      rfl
    . intro off
      rw [if_pos hack]
      rfl
  . by_cases hseq : ((headerAt stream pos).seq.toNat : Int) = lastSeq
    . refine ⟨[.sendACK (headerAt stream pos).seq sfAck], ?_, rfl, ?_, ?_⟩
      . rw [if_neg hack, if_pos hseq, hseq]
        apply if_neg hack
      . intro off
        rw [if_neg (by simp [hack, hseq])]
        rfl
      . intro off
        rw [if_neg hack]
        rfl
    . refine ⟨[.sendACK (headerAt stream pos).seq sfAck, .dispatch (payloadAt stream pos)], ?_, rfl,
        ?_, ?_⟩
      . rw [if_neg hack, if_neg hseq]
        apply if_neg hack
      . intro off
        rw [if_pos (.inr hseq)]
        rfl
      . intro off
        rw [if_neg hack]
        rfl

/--
What the receiver does at `pos`, where it takes `n` bytes: it leaves the bytes it covers, and acts on
the frame at `pos` if this is complete, correct and no repetition.
-/
structure Takes (stream : List UInt8) (pos : Nat) (lastSeq : Int) (n : Nat) (lastSeq' : Int)
    (acts : List Action) : Prop where
  len : consumed acts = n
  inside : ∀ i, pos < i → i < pos + n → (frameCover stream).covers pos i
  past : ¬ (frameCover stream).covers pos (pos + n)
  last {first : Int} : LastSeq stream first pos lastSeq → ¬ (frameCover stream).Shadowed pos →
    LastSeq stream first (pos + n) lastSeq'
  acted {first : Int} : LastSeq stream first pos lastSeq → ∀ i, i ∈ actedOn pos acts ↔
    i = pos ∧ ValidFrame (frameAt stream pos) ∧ (IsAck stream pos ∨ ¬ RepeatsFrom stream first pos)
  dispatched : ∀ r, r ∈ dispatchedAt pos acts ↔
    r.1 ∈ actedOn pos acts ∧ ¬ IsAck stream r.1 ∧ r.2 = payloadAt stream r.1

theorem takes_byte (lastSeq : Int) {acts : List Action} (hcons : consumed acts = 1)
    (hacted : actedOn pos acts = []) (hdisp : dispatchedAt pos acts = [])
    (hpast : ¬ (frameCover stream).covers pos (pos + 1)) (hvalid : ¬ ValidFrame (frameAt stream pos))
    : Takes stream pos lastSeq 1 lastSeq acts where
  len := hcons
  inside i hi hlt := by omega
  past := hpast
  last hlast _ := by
    apply (hlast.next Nat.one_pos (fun i hi hlt => by omega)).2
    intro hdata
    apply hvalid hdata.valid
  acted _ i := by
    rw [hacted]
    simp [hvalid]
  dispatched r := by
    rw [hacted, hdisp]
    simp

theorem takes_frame (lastSeq : Int) (hvalid : ValidFrame (frameAt stream pos))
    : Takes stream pos lastSeq (receive lastSeq (frameAt stream pos)).2.2
        (receive lastSeq (frameAt stream pos)).1
        ((receive lastSeq (frameAt stream pos)).2.1
          ++ [.markRead (receive lastSeq (frameAt stream pos)).2.2]) := by
  obtain ⟨acts, heq, hcons, hacted, hdisp⟩ := receive_of_validFrame lastSeq hvalid
  have hsent := ((validFrame_frameAt_iff stream).mp hvalid).1
  have hcomplete := add_msgLen_le stream hvalid
  have hinside : ∀ i, pos < i → i < pos + msgLen (headerAt stream pos) →
      (frameCover stream).covers pos i := fun i _ hlt => ⟨hsent, .inr ⟨hvalid, hlt⟩⟩
  rw [heq]
  dsimp only
  constructor
  case len => simp [consumed_append, consumed, hcons]
  case inside => apply hinside
  case past =>
    rintro ⟨-, h | ⟨-, h⟩⟩
    . omega
    . omega
  case last =>
    intro first hlast hpos
    have hnext := hlast.next (n := msgLen (headerAt stream pos)) (by unfold msgLen; omega)
      fun i hi hlt hdata => hdata.visible (Cover.shadowed_of_covers hpos hi (hinside i hi hlt))
    split
    . next hack => exact hnext.2 fun hdata => hdata.data hack
    . next hack => exact hnext.1 ⟨hvalid, hpos, hack⟩
  case acted =>
    intro first hlast i
    rw [located_actedOn.append, hacted]
    simp only [actedOn, List.append_nil, hlast.repeats_iff]
    split
    . next hact => simp [hvalid, hact]
    . next hact => simp [hact]
  case dispatched =>
    rintro ⟨i, payload⟩
    rw [located_actedOn.append, located_dispatchedAt.append, hdisp]
    simp only [actedOn, dispatchedAt, List.append_nil]
    -- Whatever is acted on is the frame at `pos`.
    have hpos : i ∈ actedOn pos acts → i = pos := by
      rw [hacted]
      split
      . simp
      . simp
    split
    . next hack =>
      simp only [List.not_mem_nil, false_iff, not_and]
      intro hi hnot
      rw [hpos hi] at hnot
      exact absurd hack hnot
    . next hack =>
      simp only [List.mem_map, Prod.mk.injEq]
      constructor
      . rintro ⟨j, hj, rfl, rfl⟩
        refine ⟨hj, ?_, ?_⟩
        . rw [hpos hj]
          apply hack
        . rw [hpos hj]
      . rintro ⟨hi, -, rfl⟩
        refine ⟨i, hi, rfl, ?_⟩
        rw [hpos hi]

theorem nextReception_takes {lastSeq lastSeq' : Int} {n : Nat} {acts : List Action}
    (h : nextReception lastSeq (stream.drop pos) = some (n, lastSeq', acts))
    : Takes stream pos lastSeq n lastSeq' acts := by
  unfold nextReception at h
  dsimp only at h
  change (if (stream.drop pos).length < SHdr.size then none
    else if (headerAt stream pos).sentinel ≠ pktSentinel then some (1, lastSeq, [.markRead 1])
    else if (stream.drop pos).length < msgLen (headerAt stream pos) then none
    else some ((receive lastSeq (frameAt stream pos)).2.2,
      (receive lastSeq (frameAt stream pos)).1,
      (receive lastSeq (frameAt stream pos)).2.1
        ++ [.markRead (receive lastSeq (frameAt stream pos)).2.2])) = _ at h
  split at h
  . simp at h
  . split at h
    . next hsent =>
      simp only [Option.some.injEq, Prod.mk.injEq] at h
      obtain ⟨rfl, rfl, rfl⟩ := h
      apply takes_byte
      . rfl
      . rfl
      . rfl
      . intro hcovers
        apply hsent hcovers.1
      . intro hvalid
        apply hsent
        apply ((validFrame_frameAt_iff stream).mp hvalid).1
    . next hsent =>
      split at h
      . simp at h
      . next hlen =>
        simp only [Option.some.injEq, Prod.mk.injEq] at h
        obtain ⟨rfl, rfl, rfl⟩ := h
        rw [ne_eq, Decidable.not_not] at hsent
        rw [List.length_drop] at hlen
        have hcomplete : ¬ stream.length < pos + msgLen (headerAt stream pos) := by
          unfold msgLen at hlen ⊢
          omega
        by_cases hvalid : ValidFrame (frameAt stream pos)
        . apply takes_frame lastSeq hvalid
        . have hsum : validateChecksum (frameAt stream pos) = false := by
            rw [← Bool.not_eq_true]
            intro hsum
            apply hvalid
            rw [validFrame_frameAt_iff, List.length_drop]
            exact ⟨hsent, by omega, hsum⟩
          have heq : receive lastSeq (frameAt stream pos)
              = (lastSeq, [.sendACK (SHdr.ofBytes (frameAt stream pos)).seq (sfAck ||| sfChksum)],
                  1) := by
            unfold receive
            rw [hsum]
            rfl
          rw [heq]
          apply takes_byte
          . rfl
          . rfl
          . rfl
          . rintro ⟨-, hincomplete | ⟨hvalid', -⟩⟩
            . apply hcomplete hincomplete
            . apply hvalid hvalid'
          . apply hvalid

theorem not_validFrame_of_waits (h : Waits (stream.drop pos))
    (hpos : ¬ (frameCover stream).Shadowed pos) {i : Nat} (hi : pos ≤ i)
    (hvisible : ¬ (frameCover stream).Shadowed i)
    : ¬ ValidFrame (frameAt stream i) := by
  rw [validFrame_frameAt_iff]
  rintro ⟨hsent, hlen, -⟩
  have hmsg : SHdr.size < msgLen (headerAt stream i) := by
    unfold msgLen
    omega
  rw [List.length_drop] at hlen
  rcases h with hshort | ⟨hsent', hincomplete⟩
  . rw [List.length_drop] at hshort
    omega
  . rw [List.length_drop] at hincomplete
    change stream.length - pos < msgLen (headerAt stream pos) at hincomplete
    rcases Nat.eq_or_lt_of_le hi with rfl | hlt
    . omega
    . apply hvisible
      apply Cover.shadowed_of_covers hpos hlt
      refine ⟨hsent', .inl ?_⟩
      omega

end Reader

theorem mem_actedOn_scan {stream : List UInt8} {first lastSeq : Int} {unread : List UInt8}
    {pos : Nat} (hunread : unread = stream.drop pos) (hpos : ¬ (frameCover stream).Shadowed pos)
    (hlast : LastSeq stream first pos lastSeq) (i : Nat)
    : i ∈ actedOn pos (reception.scan lastSeq unread).2.2
        ↔
      pos ≤ i ∧ ¬ (frameCover stream).Shadowed i ∧ ValidFrame (frameAt stream i)
        ∧ (IsAck stream i ∨ ¬ RepeatsFrom stream first i) := by
  induction lastSeq, unread using reception.scan_induction generalizing pos with
  | wait lastSeq unread hnext =>
    rw [reception.scan_of_none hnext]
    simp only [actedOn, List.not_mem_nil, false_iff]
    rintro ⟨hi, hvisible, hvalid, -⟩
    have hwaits : Waits unread := by
      have heq := nextReception_eq (idleLink lastSeq) unread
      rw [← nextMessage_eq_none_iff (l := idleLink lastSeq), ← Option.map_eq_none_iff, ← heq]
      apply hnext
    rw [hunread] at hwaits
    apply not_validFrame_of_waits hwaits hpos hi hvisible hvalid
  | item lastSeq unread n lastSeq' acts hnext ih =>
    subst hunread
    rw [reception.scan_of_some hnext, located_actedOn.append, List.mem_append]
    have htakes := nextReception_takes hnext
    have hn := reception.pos hnext
    have hpos' := Cover.not_shadowed_next hpos (by omega) htakes.inside htakes.past
    rw [htakes.len, ih List.drop_drop hpos' (htakes.last hlast hpos), htakes.acted hlast]
    constructor
    . rintro (⟨rfl, h⟩ | ⟨hi, h⟩)
      . exact ⟨Nat.le_refl i, hpos, h⟩
      . exact ⟨by omega, h⟩
    . rintro ⟨hi, hvisible, h⟩
      rcases Cover.visible_cases hpos htakes.inside hi hvisible with rfl | hle
      . left
        exact ⟨rfl, h⟩
      . right
        exact ⟨hle, hvisible, h⟩

theorem mem_dispatchedAt_scan {stream : List UInt8} {lastSeq : Int} {unread : List UInt8}
    {pos : Nat} (hunread : unread = stream.drop pos) (i : Nat) (payload : List UInt8)
    : (i, payload) ∈ dispatchedAt pos (reception.scan lastSeq unread).2.2
        ↔
      i ∈ actedOn pos (reception.scan lastSeq unread).2.2 ∧ ¬ IsAck stream i
        ∧ payload = payloadAt stream i := by
  induction lastSeq, unread using reception.scan_induction generalizing pos with
  | wait lastSeq unread hnext =>
    rw [reception.scan_of_none hnext]
    simp [actedOn, dispatchedAt]
  | item lastSeq unread n lastSeq' acts hnext ih =>
    subst hunread
    have htakes := nextReception_takes hnext
    rw [reception.scan_of_some hnext, located_actedOn.append, located_dispatchedAt.append, List.mem_append,
      List.mem_append, htakes.len, htakes.dispatched, ih List.drop_drop]
    rw [or_and_right]

section Origin

variable (raw : List UInt8)

def decode : List UInt8 := (deEscape.run false raw).2

def sourceByte (pos : Nat) : Option UInt8 :=
  ((deEscape.located.run (false, 0) raw).2[pos]?).bind fun (_, p) => raw[p]?

def RawSentinel (pos : Nat) : Prop := sourceByte raw pos = some pktSentinel

def EscapedSentinel (pos : Nat) : Prop :=
  (decode raw)[pos]? = some pktSentinel ∧ sourceByte raw pos = some sentinelEsc

instance (pos : Nat) : Decidable (RawSentinel raw pos) := inferInstanceAs (Decidable (_ = _))

theorem rawSentinel_iff {pos : Nat} (h : (decode raw)[pos]? = some pktSentinel)
    : RawSentinel raw pos ↔ ¬ EscapedSentinel raw pos := by
  have hne : sentinelEsc ≠ pktSentinel := by decide
  have hsource : sourceByte raw pos = some pktSentinel ∨ sourceByte raw pos = some sentinelEsc := by
    have hfst := h
    unfold decode at hfst
    rw [← deEscape.run_located false 0, List.getElem?_map, Option.map_eq_some_iff] at hfst
    obtain ⟨⟨b, p⟩, hget, rfl⟩ := hfst
    obtain ⟨xs₁, x, xs₂, hraw, hp, hmem⟩ :=
      deEscape.mem_run_located (List.mem_of_getElem? hget)
    have hx : raw[p]? = some x := by
      rw [hraw, hp]
      simp
    unfold sourceByte
    rw [hget, Option.bind_some]
    dsimp only
    rw [hx, Option.some.injEq, Option.some.injEq]
    unfold deEscape at hmem
    split at hmem
    . split at hmem
      . exact absurd (List.mem_singleton.mp hmem) (by decide)
      . simp at hmem
    . split at hmem
      . split at hmem
        . next hesc =>
          right
          apply hesc
        . simp at hmem
      . left
        exact (List.mem_singleton.mp hmem).symm
  unfold RawSentinel EscapedSentinel
  rcases hsource with hs | hs
  . simp [hs, Ne.symm hne]
  . simp [hs, h, hne]

end Origin

/--
The receiver acts only on frames that begin with a raw sentinel if and only if every complete frame
with a right checksum that begins with an escaped sentinel is passed over, because it is shadowed or
because it is a data frame that repeats the one before.
-/
theorem framing_iff {block : List UInt8} (hblock : block.length = stageBufSize) (now : Nat)
    {es : List RecvEvent} (hes : ∀ e ∈ es, e.fails = false) (hoff : Offered (new block now) es)
    : ∃ s acts, (new block now).onRun es = some (s, acts)
        ∧
      ((∀ pos ∈ actedOn 0 acts, RawSentinel (rawStream es) pos)
        ↔
      ∀ pos, EscapedSentinel (rawStream es) pos →
        ValidFrame (frameAt (decode (rawStream es)) pos) →
          (frameCover (decode (rawStream es))).Shadowed pos
            ∨ ¬ IsAck (decode (rawStream es)) pos ∧ Repeats (decode (rawStream es)) pos) := by
  obtain ⟨s, acts, hrun, -, -, hfeed⟩ := onRun_eq_reception (settled_new hblock now) rfl hes hoff
  refine ⟨s, acts, hrun, ?_⟩
  have hacted := mem_actedOn_scan (List.drop_zero (l := decode (rawStream es))).symm
    (frameCover (decode (rawStream es))).not_shadowed_zero
    (lastSeq_zero _ (-1))
  have hscan : actedOn 0 (reception.scan (-1) (decode (rawStream es))).2.2 = actedOn 0 acts := by
    rw [← located_actedOn.filter 0 acts]
    congr 1
    have hacts := congrArg (fun r => r.2.2.2) hfeed
    apply hacts
  have hfresh : ∀ pos, RepeatsFrom (decode (rawStream es)) (-1) pos
      ↔ Repeats (decode (rawStream es)) pos := fun pos => repeatsFrom_iff (by omega)
  simp only [hscan, Nat.zero_le, true_and, hfresh] at hacted
  constructor
  . intro hall pos hescaped hvalid
    by_contra hact
    rw [not_or, not_and_or, Decidable.not_not] at hact
    have hraw := hall pos ((hacted pos).mpr ⟨hact.1, hvalid, hact.2⟩)
    apply (rawSentinel_iff _ (getElem?_of_validFrame _ hvalid)).mp hraw hescaped
  . intro hall pos hmem
    obtain ⟨hvisible, hvalid, hact⟩ := (hacted pos).mp hmem
    rw [rawSentinel_iff _ (getElem?_of_validFrame _ hvalid)]
    intro hescaped
    rcases hall pos hescaped hvalid with hshadowed | ⟨hack, hrepeats⟩
    . apply hvisible hshadowed
    . rcases hact with h | h
      . apply hack h
      . apply h hrepeats

theorem framing_iff_escaped_payload
    : ∃ s acts,
        (new (List.replicate stageBufSize 0) 1).onRun
            [⟨.data [0xA4, 0x03, 0x00, 0x05, 0x00, 0x01, 0x1B], 1⟩, ⟨.data [0x53, 0xAF], 2⟩]
            =
          some (s, acts)
        ∧
      ((∀ pos ∈ actedOn 0 acts,
          RawSentinel [0xA4, 0x03, 0x00, 0x05, 0x00, 0x01, 0x1B, 0x53, 0xAF] pos)
        ↔
      ∀ pos, EscapedSentinel [0xA4, 0x03, 0x00, 0x05, 0x00, 0x01, 0x1B, 0x53, 0xAF] pos →
        ValidFrame (frameAt [0xA4, 0x03, 0x00, 0x05, 0x00, 0x01, 0xA4, 0xAF] pos) →
          (frameCover [0xA4, 0x03, 0x00, 0x05, 0x00, 0x01, 0xA4, 0xAF]).Shadowed pos
            ∨ ¬ IsAck [0xA4, 0x03, 0x00, 0x05, 0x00, 0x01, 0xA4, 0xAF] pos
              ∧ Repeats [0xA4, 0x03, 0x00, 0x05, 0x00, 0x01, 0xA4, 0xAF] pos) :=
  framing_iff List.length_replicate 1 (by decide) (by decide +kernel)

theorem acks_escaped_payload
    : ∃ s acts,
        (new (List.replicate stageBufSize 0) 1).onRun
            [⟨.data [0xA4, 0x03, 0x00, 0x05, 0x00, 0x07, 0x1B, 0x53, 0x03, 0x00, 0x00, 0x80, 0x00,
              0xD9, 0x00], 1⟩]
            =
          some (s, acts)
        ∧ actedOn 0 acts = [6] ∧ .ack 0x00 0x80 ∈ acts
        ∧ ¬ ∀ pos ∈ actedOn 0 acts,
            RawSentinel [0xA4, 0x03, 0x00, 0x05, 0x00, 0x07, 0x1B, 0x53, 0x03, 0x00, 0x00, 0x80,
              0x00, 0xD9, 0x00] pos := by
  obtain ⟨⟨s, acts⟩, hrun, hcheck⟩ := (Option.any_eq_true ..).mp (show
    ((new (List.replicate stageBufSize 0) 1).onRun
      [⟨.data [0xA4, 0x03, 0x00, 0x05, 0x00, 0x07, 0x1B, 0x53, 0x03, 0x00, 0x00, 0x80, 0x00, 0xD9,
        0x00], 1⟩]).any
    (fun r => actedOn 0 r.2 = [6] ∧ .ack 0x00 0x80 ∈ r.2 ∧ ¬ ∀ pos ∈ actedOn 0 r.2,
      RawSentinel [0xA4, 0x03, 0x00, 0x05, 0x00, 0x07, 0x1B, 0x53, 0x03, 0x00, 0x00, 0x80, 0x00,
        0xD9, 0x00] pos)
    = true by decide +kernel)
  rw [decide_eq_true_iff] at hcheck
  exact ⟨s, acts, hrun, hcheck⟩

end CSirCon
