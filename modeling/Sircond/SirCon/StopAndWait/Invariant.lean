import Sircond.SirCon.StopAndWait.Net
import Mathlib.Data.List.Count

/-!
This module contains the invariant of the sender, its peer and the two links, after the payloads
`sent` were sent and the frames with the numbers `nums` were dispatched. It orders the numbers
of the peer's last frame, of the copies in flight and of the queue, in this order, and says that the
peer has dispatched a queued frame before any acknowledgement of it exists.

Each lemma after the definition is about one thing that can happen to the network: something gets
lost, a frame is sent, the sender works on its queue, a complaint about a damaged frame is sent, the
peer accepts a frame.
-/

open Scp

namespace CSirCon

theorem ofNat_inj_of_window {i n : Nat} (h : UInt8.ofNat i = UInt8.ofNat n) (hle : i ≤ n)
    (hwindow : n < i + 256)
    : i = n := by
  have := congrArg UInt8.toNat h
  simp only [UInt8.toNat_ofNat'] at this
  omega

def Carries (sent : List Payload) (i : Nat) (bytes : List UInt8) : Prop :=
  ∃ data, sent[i]? = some data ∧ bytes = frameBytes (UInt8.ofNat i) data

def IsNak (bytes : List UInt8) : Prop := ∃ seq, bytes = ackBytes seq (sfAck ||| sfChksum)

def lastSeqOf : Option Nat → Int
  | none => -1
  | some i => (UInt8.ofNat i).toNat

theorem Carries.lt {sent : List Payload} {i : Nat} {bytes : List UInt8} (h : Carries sent i bytes)
    : i < sent.length := by
  obtain ⟨data, hdata, -⟩ := h
  exact (List.getElem?_eq_some_iff.mp hdata).1

theorem Carries.append {sent : List Payload} {i : Nat} {bytes : List UInt8}
    (h : Carries sent i bytes) (more : List Payload)
    : Carries (sent ++ more) i bytes := by
  obtain ⟨data, hdata, hbytes⟩ := h
  refine ⟨data, ?_, hbytes⟩
  rw [List.getElem?_append_left]
  . apply hdata
  . exact (List.getElem?_eq_some_iff.mp hdata).1

@[simp]
theorem numbers_nil : numbers [] = [] := rfl

@[simp]
theorem numbers_cons (i : Nat) (bytes : List UInt8) (link : List Flight)
    : numbers (⟨some i, bytes⟩ :: link) = i :: numbers link := rfl

@[simp]
theorem numbers_append (link₁ link₂ : List Flight)
    : numbers (link₁ ++ link₂) = numbers link₁ ++ numbers link₂ := by
  simp [numbers]

theorem numbers_sublist {link₁ link₂ : List Flight} (h : link₁.Sublist link₂)
    : (numbers link₁).Sublist (numbers link₂) := by
  apply h.filterMap

theorem numbers_map_copy (frames : List MsgBuf)
    : numbers (frames.map .copy) = frames.map MsgBuf.id := by
  simp [numbers, List.filterMap_map, Flight.copy, Function.comp_def]

namespace Net

/--
Everything in flight and the frame the peer accepted last belong to the 256 frames that end at the
front of the send queue.
-/
def InWindow (n : Net) : Prop :=
  ∀ front ∈ n.a.link.queue.head?,
    ∀ i ∈ n.accepted.toList ++ numbers n.toB ++ numbers n.toA, i ≤ front.id ∧ front.id < i + 256

instance (n : Net) : Decidable (InWindow n) := by
  unfold InWindow
  infer_instance

structure Agreement (sent : List Payload) (nums : List Nat) (n : Net) : Prop where
  allocs : n.a.allocs = sent.length
  seq : n.a.seq = UInt8.ofNat sent.length
  sorted : (queued n.a).Pairwise (· < ·)
  queue : ∀ frame ∈ n.a.link.queue,
    frame.seq = UInt8.ofNat frame.id ∧ Carries sent frame.id frame.data
  toB : ∀ f ∈ n.toB,
    (∃ i, f.num = some i ∧ Carries sent i f.bytes) ∨ (f.num = none ∧ IsNak f.bytes)
  toA : ∀ f ∈ n.toA,
    (∃ i, f.num = some i ∧ f.bytes = ackBytes (UInt8.ofNat i) sfAck)
      ∨ (f.num = none ∧ IsNak f.bytes)
  idle : n.b.link.queue = []
  lastSeq : n.b.link.lastSeq = lastSeqOf n.accepted
  order : (n.accepted.toList ++ numbers n.toB).Pairwise (· ≤ ·)
  behind : ∀ i ∈ n.accepted.toList ++ numbers n.toB ++ numbers n.toA,
    i < sent.length ∧ ∀ id ∈ queued n.a, i ≤ id
  log : nums.Pairwise (· < ·)
  past : ∀ i ∈ nums, ∃ b ∈ n.accepted, i ≤ b
  known : ∀ i ∈ n.accepted.toList ++ numbers n.toA, i ∈ queued n.a → i ∈ nums

variable {sent : List Payload} {nums : List Nat} {n : Net}

theorem Agreement.lossy (h : Agreement sent nums n) {toB toA : List Flight}
    (hB : toB.Sublist n.toB) (hA : toA.Sublist n.toA)
    : Agreement sent nums { n with toB, toA } where
  allocs := h.allocs
  seq := h.seq
  sorted := h.sorted
  queue := h.queue
  toB f hf := h.toB f (hB.subset hf)
  toA f hf := h.toA f (hA.subset hf)
  idle := h.idle
  lastSeq := h.lastSeq
  order := h.order.sublist ((numbers_sublist hB).append_left _)
  behind i hi :=
    h.behind i
      ((((numbers_sublist hB).append_left _).append (numbers_sublist hA)).subset hi)
  log := h.log
  past := h.past
  known i hi := h.known i (((numbers_sublist hA).append_left _).subset hi)

theorem Agreement.send (h : Agreement sent nums n) (data : Payload)
    : Agreement (sent ++ [data]) nums { n with a := (n.a.send data).1 } := by
  have hqueued : queued (n.a.send data).1 = queued n.a ++ [sent.length] := by
    simp [queued, CSirCon.send, composeFrame, h.allocs]
  have hlt : ∀ id ∈ queued n.a, id < sent.length := by
    intro id hid
    simp only [queued, List.mem_map] at hid
    obtain ⟨frame, hframe, rfl⟩ := hid
    apply (h.queue frame hframe).2.lt
  constructor
  case allocs => simp [CSirCon.send, composeFrame, h.allocs]
  case seq => simp [CSirCon.send, composeFrame, h.seq]
  case sorted =>
    rw [hqueued, List.pairwise_append]
    refine ⟨h.sorted, by simp, ?_⟩
    simpa using hlt
  case queue =>
    intro frame hframe
    simp only [CSirCon.send, composeFrame, List.mem_append, List.mem_singleton] at hframe
    cases hframe with
    | inl hold =>
      obtain ⟨hseq, hcarries⟩ := h.queue frame hold
      exact ⟨hseq, hcarries.append [data]⟩
    | inr hnew =>
      subst hnew
      dsimp only
      rw [h.seq, h.allocs]
      exact ⟨rfl, data, by simp, rfl⟩
  case toB =>
    intro f hf
    cases h.toB f hf with
    | inl hcopy =>
      obtain ⟨i, hnum, hcarries⟩ := hcopy
      left
      exact ⟨i, hnum, hcarries.append [data]⟩
    | inr hnak =>
      right
      apply hnak
  case toA => apply h.toA
  case idle => apply h.idle
  case lastSeq => apply h.lastSeq
  case order => apply h.order
  case behind =>
    intro i hi
    obtain ⟨hi, hids⟩ := h.behind i hi
    rw [hqueued, List.length_append, List.length_singleton]
    refine ⟨by omega, ?_⟩
    intro id hid
    rw [List.mem_append, List.mem_singleton] at hid
    cases hid with
    | inl hold => apply hids id hold
    | inr hnew => omega
  case log => apply h.log
  case past => apply h.past
  case known =>
    intro i hi hid
    dsimp only at hid
    rw [hqueued, List.mem_append, List.mem_singleton] at hid
    cases hid with
    | inl hold => apply h.known i hi hold
    | inr hnew =>
      have := (h.behind i (by
        simp only [List.mem_append] at hi ⊢
        tauto)).1
      omega

theorem Agreement.sender (h : Agreement sent nums n) {a' : CSirCon} {a : CSirCon.Input}
    {tx : List MsgBuf} {res : List (Nat × SCResult)}
    (heffect : QueueEffect n.a a a'.link.queue tx res) (ha : ∀ data, a ≠ .send data)
    (hallocs : a'.allocs = n.a.allocs) (hseq : a'.seq = n.a.seq)
    : Agreement sent nums { n with a := a', toB := n.toB ++ tx.map .copy } := by
  have hsub := heffect.queued_sublist ha
  -- A transmitted frame is the one in front, so nothing behind it is smaller.
  have htx : ∀ frame ∈ tx, Carries sent frame.id frame.data
      ∧ frame.id ∈ queued n.a ∧ ∀ id ∈ queued n.a, frame.id ≤ id := by
    intro frame hframe
    rcases heffect.transmitted_cases with rfl | ⟨front, rest, _, hqueue, rfl, heq⟩
    . simp at hframe
    . rw [List.mem_singleton] at hframe
      subst hframe
      rw [heq]
      have hsorted := h.sorted
      simp only [queued, hqueue, List.map_cons, List.pairwise_cons] at hsorted ⊢
      refine ⟨(h.queue front (by simp [hqueue])).2, by simp, ?_⟩
      intro id hid
      rw [List.mem_cons] at hid
      rcases hid with rfl | hid
      . apply Nat.le_refl
      . apply Nat.le_of_lt (hsorted.1 id hid)
  constructor
  case allocs => rw [hallocs, h.allocs]
  case seq => rw [hseq, h.seq]
  case sorted => apply h.sorted.sublist hsub
  case queue =>
    intro frame hframe
    obtain ⟨old, hold, heq⟩ := heffect.exists_mem ha hframe
    rw [heq]
    apply h.queue old hold
  case toB =>
    intro f hf
    simp only [List.mem_append, List.mem_map] at hf
    rcases hf with hold | ⟨frame, hframe, rfl⟩
    . apply h.toB f hold
    . left
      exact ⟨frame.id, rfl, (htx frame hframe).1⟩
  case toA => apply h.toA
  case idle => apply h.idle
  case lastSeq => apply h.lastSeq
  case order =>
    rw [numbers_append, numbers_map_copy, ← List.append_assoc, List.pairwise_append]
    refine ⟨h.order, ?_, ?_⟩
    . rcases heffect.transmitted_cases with rfl | ⟨_, _, _, _, rfl, _⟩
      . simp
      . simp
    . intro i hi id hid
      obtain ⟨frame, hframe, rfl⟩ := List.mem_map.mp hid
      apply (h.behind i (List.mem_append_left _ hi)).2
      apply (htx frame hframe).2.1
  case behind =>
    intro i hi
    rw [numbers_append, numbers_map_copy] at hi
    by_cases hold : i ∈ n.accepted.toList ++ numbers n.toB ++ numbers n.toA
    . obtain ⟨hlt, hids⟩ := h.behind i hold
      exact ⟨hlt, fun id hid => hids id (hsub.subset hid)⟩
    . have hnew : i ∈ tx.map MsgBuf.id := by
        simp only [List.mem_append] at hi hold
        tauto
      obtain ⟨frame, hframe, rfl⟩ := List.mem_map.mp hnew
      obtain ⟨hcarries, -, hids⟩ := htx frame hframe
      exact ⟨hcarries.lt, fun id hid => hids id (hsub.subset hid)⟩
  case log => apply h.log
  case past => apply h.past
  case known => exact fun i hi hid => h.known i hi (hsub.subset hid)

theorem Agreement.nak_toB (h : Agreement sent nums n) {bytes : List UInt8} (hbytes : IsNak bytes)
    : Agreement sent nums { n with toB := n.toB ++ [⟨none, bytes⟩] } where
  allocs := h.allocs
  seq := h.seq
  sorted := h.sorted
  queue := h.queue
  toB f hf := by
    rw [List.mem_append, List.mem_singleton] at hf
    rcases hf with hold | rfl
    . apply h.toB f hold
    . right
      exact ⟨rfl, hbytes⟩
  toA := h.toA
  idle := h.idle
  lastSeq := h.lastSeq
  order := by simpa [numbers] using h.order
  behind := by simpa [numbers] using h.behind
  log := h.log
  past := h.past
  known := h.known

theorem Agreement.nak_toA (h : Agreement sent nums n) {bytes : List UInt8} (hbytes : IsNak bytes)
    : Agreement sent nums { n with toA := n.toA ++ [⟨none, bytes⟩] } where
  allocs := h.allocs
  seq := h.seq
  sorted := h.sorted
  queue := h.queue
  toB := h.toB
  toA f hf := by
    rw [List.mem_append, List.mem_singleton] at hf
    rcases hf with hold | rfl
    . apply h.toA f hold
    . right
      exact ⟨rfl, hbytes⟩
  idle := h.idle
  lastSeq := h.lastSeq
  order := h.order
  behind := by simpa [numbers] using h.behind
  log := h.log
  past := h.past
  known := by simpa [numbers] using h.known

theorem Agreement.accepted_le (h : Agreement sent nums n) {i : Nat} {bytes : List UInt8}
    {toB : List Flight} (htoB : n.toB = ⟨some i, bytes⟩ :: toB) {b : Nat} (hb : b ∈ n.accepted)
    : b ≤ i := by
  have horder := h.order
  rw [List.pairwise_append] at horder
  apply horder.2.2 b
  . simpa [Option.mem_def] using hb
  . simp [htoB]

theorem Agreement.accept (h : Agreement sent nums n) {i : Nat} {bytes : List UInt8}
    {toB : List Flight} (htoB : n.toB = ⟨some i, bytes⟩ :: toB) {b' : CSirCon}
    (hidle : b'.link.queue = []) (hlast : b'.link.lastSeq = (UInt8.ofNat i).toNat) {new : List Nat}
    (hlog : (nums ++ new).Pairwise (· < ·)) (hnew : ∀ j ∈ new, j ≤ i)
    (hknown : i ∈ queued n.a → i ∈ nums ++ new)
    : Agreement sent (nums ++ new) {
        n with
        b := b', toB, accepted := some i
        toA := n.toA ++ [⟨some i, ackBytes (UInt8.ofNat i) sfAck⟩]
      } := by
  have horder := (List.pairwise_append.mp h.order).2.1
  have hbehind := h.behind
  simp only [htoB, numbers_cons] at horder hbehind
  constructor
  case allocs => apply h.allocs
  case seq => apply h.seq
  case sorted => apply h.sorted
  case queue => apply h.queue
  case toB =>
    intro f hf
    apply h.toB f
    rw [htoB]
    apply List.mem_cons_of_mem _ hf
  case toA =>
    intro f hf
    rw [List.mem_append, List.mem_singleton] at hf
    rcases hf with hold | rfl
    . apply h.toA f hold
    . left
      exact ⟨i, rfl, rfl⟩
  case idle => apply hidle
  case lastSeq => apply hlast
  case order =>
    apply horder
  case behind =>
    intro j hj
    apply hbehind
    simp only [numbers_append, numbers_cons, numbers_nil, Option.toList_some, List.mem_append,
      List.mem_cons, List.not_mem_nil, or_false] at hj ⊢
    tauto
  case log => apply hlog
  case past =>
    intro j hj
    refine ⟨i, rfl, ?_⟩
    rw [List.mem_append] at hj
    cases hj with
    | inl hold =>
      obtain ⟨b, hb, hle⟩ := h.past j hold
      apply Nat.le_trans hle
      apply h.accepted_le htoB hb
    | inr hin => apply hnew j hin
  case known =>
    intro j hj hid
    simp only [numbers_append, numbers_cons, numbers_nil, Option.toList_some, List.mem_append,
      List.mem_singleton] at hj
    by_cases hji : j = i
    . subst hji
      apply hknown hid
    . apply List.mem_append_left
      apply h.known j _ hid
      rw [List.mem_append]
      right
      tauto

end Net

end CSirCon
