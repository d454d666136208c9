import Sircond.Lib.BigEndian
import Sircond.SirCon.Caching
import Sircond.SirCon.Lemmas.Asserts

/-!
This module contains which channels are valid according to the channel map the radio has sent, and
that the bitmap kept of it says the same.
-/

open Scp Machine Decoder

namespace Cache

/--
The bitmap a message carries: of a response to `GET_CHANNEL_MAP` with result code zero that is long
enough to hold it.
-/
def mapOf : List UInt8 → Option (List UInt8)
  | kind :: id :: hi :: lo :: body =>
    if kind = msgGetResp ∧ id = scpGetChannelMap ∧ hi = 0 ∧ lo = 0
        ∧ channelBitmapSize ≤ body.length then
      some (body.take channelBitmapSize)
    else
      none
  | _ => none

theorem mapOf_eq (payload : List UInt8) (after : Memory)
    : (Maps (memory payload after) payload.length
          ∧ mapOf payload = some (bitmap (memory payload after)))
        ∨ (¬ Maps (memory payload after) payload.length ∧ mapOf payload = none) := by
  have hsize : channelBitmapSize = 28 := rfl
  rcases payload with _ | ⟨kind, _ | ⟨id, _ | ⟨hi, _ | ⟨lo, body⟩⟩⟩⟩
  iterate 4
    right
    simp [Maps, mapOf]
  have hmaps : Maps (memory (kind :: id :: hi :: lo :: body) after)
        (kind :: id :: hi :: lo :: body).length
      ↔ kind = msgGetResp ∧ id = scpGetChannelMap ∧ hi = 0 ∧ lo = 0
        ∧ channelBitmapSize ≤ body.length := by
    simp [Maps, memory, hsize]
  rw [hmaps]
  by_cases h : kind = msgGetResp ∧ id = scpGetChannelMap ∧ hi = 0 ∧ lo = 0
    ∧ channelBitmapSize ≤ body.length
  . left
    refine ⟨h, ?_⟩
    simp only [mapOf, bitmap]
    rw [if_pos h, value_copy]
    . rfl
    . simp only [List.length_cons]
      omega
  . right
    refine ⟨h, ?_⟩
    simp only [mapOf]
    rw [if_neg h]

section Follows

variable {c c' : Cache} {ds : List Dispatched}

theorem CacheEffect.channelMap {d : Dispatched} {after : Memory}
    (h : CacheEffect (memory d.payload after) d.payload.length c c' d.events)
    : c'.channelMap = (mapOf d.payload).getD c.channelMap
        ∧ ∀ m : SCEChannelMap, .channelMap m ∈ d.events ↔ mapOf d.payload = some m.channelMap := by
  have hmap := mapOf_eq d.payload after
  generalize d.events = events at h ⊢
  cases h with
  | keep _ _ hmaps hevents =>
    cases hmap with
    | inl hmap => exact absurd hmap.1 hmaps
    | inr hmap => simp [hmap.2, hevents]
  | tune _ _ hmaps _ hevents =>
    cases hmap with
    | inl hmap => exact absurd hmap.1 hmaps
    | inr hmap => simp [hmap.2, hevents]
  | map _ hmaps =>
    cases hmap with
    | inl hmap =>
      refine ⟨by simp [hmap.2], ?_⟩
      intro m
      cases m
      simp [hmap.2, eq_comm]
    | inr hmap => exact absurd hmaps hmap.1

theorem Follows.channelMap (h : Follows c ds c')
    : c'.channelMap = ((ds.filterMap fun d => mapOf d.payload).getLast?).getD c.channelMap := by
  induction h with
  | nil => rfl
  | cons after heffect _ ih =>
    rw [ih, heffect.channelMap.1, List.filterMap_cons]
    split
    . next hnone => rw [hnone, Option.getD_none]
    . next bits hsome => simp [hsome, List.getLast?_cons]

theorem Follows.carried (h : Follows c ds c')
    : ∀ d ∈ ds, ∀ m : SCEChannelMap,
        .channelMap m ∈ d.events ↔ mapOf d.payload = some m.channelMap := by
  induction h with
  | nil => simp
  | cons after heffect _ ih =>
    simp only [List.mem_cons, forall_eq_or_imp]
    exact ⟨heffect.channelMap.2, ih⟩

end Follows

section IsValidChannel

variable {c : Cache} (channel : UInt8)

theorem isValidChannel_iff_testBit (hlen : c.channelMap.length = channelBitmapSize)
    : c.isValidChannel channel = true
        ↔
      channel.toNat < maxChannels ∧ (bigEndian c.channelMap).testBit channel.toNat = true := by
  have hsize : channelBitmapSize = 28 := rfl
  have hmax : maxChannels = 224 := rfl
  unfold isValidChannel
  split
  . next hlt =>
    have hmod : (channel % 8).toNat = channel.toNat % 8 := UInt8.toNat_mod channel 8
    dsimp only
    rw [decide_eq_true_iff, BigEndian.and_mask_eq_iff _ _ (by omega), hmod,
      BigEndian.testBit_bigEndian, hlen]
    have hbits : channel.toNat < 8 * channelBitmapSize := by omega
    simp [hlt, hbits]
  . next hlt => simp [hlt]

theorem isValidChannel_new : Cache.new.isValidChannel channel = false := by
  have hzero : bigEndian Cache.new.channelMap = 0 := by decide
  have hiff := isValidChannel_iff_testBit (c := Cache.new) channel rfl
  rw [hzero, Nat.zero_testBit] at hiff
  simpa using hiff

end IsValidChannel

theorem length_of_mapOf {payload bits : List UInt8} (h : mapOf payload = some bits)
    : bits.length = channelBitmapSize := by
  unfold mapOf at h
  split at h
  . split at h
    . next hmap =>
      obtain rfl := Option.some.inj h
      rw [List.length_take, Nat.min_eq_left hmap.2.2.2.2]
    . simp at h
  . simp at h

/--
The valid channels are the bits of the most recent bitmap, and there are none before the first one.
-/
theorem Follows.isValidChannel {c : Cache} {ds : List Dispatched} (h : Follows Cache.new ds c)
    (channel : UInt8)
    : c.isValidChannel channel = true
        ↔
      channel.toNat < maxChannels
        ∧ ∃ bits, (ds.filterMap fun d => mapOf d.payload).getLast? = some bits
            ∧ (bigEndian bits).testBit channel.toNat = true := by
  have hmap := h.channelMap
  cases hlast : (ds.filterMap fun d => mapOf d.payload).getLast? with
  | none =>
    have hvalid : c.isValidChannel channel = Cache.new.isValidChannel channel := by
      rw [hlast, Option.getD_none] at hmap
      unfold Cache.isValidChannel
      rw [hmap]
    simp [hvalid, isValidChannel_new]
  | some bits =>
    rw [hlast, Option.getD_some] at hmap
    have hmem := List.mem_of_getLast? hlast
    rw [List.mem_filterMap] at hmem
    obtain ⟨d, -, hd⟩ := hmem
    have hlen : c.channelMap.length = channelBitmapSize := by
      rw [hmap]
      apply length_of_mapOf hd
    simp [isValidChannel_iff_testBit channel hlen, hmap]

end Cache

namespace CSirCon

open Cache

/--
A channel is valid if and only if its bit is set in the most recent bitmap the radio has sent. The
event of a bitmap carries these bytes, no other message changes the map or comes with such an event,
and no message makes an assertion of the decoders fail.
-/
theorem isValidChannel_iff {block : List UInt8} {now : Nat}
    {tr : List (Entry (CSirCon × Cache) (Input × Memory) Dispatched)} {s : CSirCon} {c : Cache}
    (hrun : cachingMachine.Run (CSirCon.new block now, Cache.new) tr (s, c))
    : (∀ channel : UInt8,
        c.isValidChannel channel = true
          ↔
        channel.toNat < maxChannels
          ∧ ∃ bits, ((outputs tr).filterMap fun d => mapOf d.payload).getLast? = some bits
              ∧ (bigEndian bits).testBit channel.toNat = true)
        ∧
      ∀ e ∈ tr,
        (∀ d ∈ e.out, ∀ m : SCEChannelMap,
            .channelMap m ∈ d.events ↔ mapOf d.payload = some m.channelMap)
          ∧ ((∀ d ∈ e.out, mapOf d.payload = none) →
              e.post.2.channelMap = e.pre.2.channelMap)
          ∧ ∀ d ∈ e.out, ∀ (c : Cache) (after : Memory),
              Asserts (memory d.payload after) (c.dispatch 0 d.payload.length) := by
  refine ⟨(follows_of_run hrun).isValidChannel, ?_⟩
  intro e he
  have hfollows := follows_of_mem hrun he
  refine ⟨hfollows.carried, ?_, ?_⟩
  . intro hnone
    have hmap := hfollows.channelMap
    rw [List.filterMap_eq_nil_iff.mpr hnone] at hmap
    exact hmap
  . intro d _ c after
    apply asserts_dispatch

theorem isValidChannel_iff_lastBit
    : ∃ tr s c,
        cachingMachine.Run (CSirCon.new (List.replicate stageBufSize 0) 1, Cache.new) tr (s, c)
          ∧ (outputs tr).map Dispatched.payload
              = [[0x60, 0x10, 0x00, 0x00] ++ List.replicate 27 0 ++ [0x05],
                  [0x60, 0x10, 0x00, 0x00] ++ List.replicate 27 0xFF]
          ∧ c.isValidChannel 2 = true
          ∧ (c.isValidChannel 2 = true
              ↔
            (2 : UInt8).toNat < maxChannels
              ∧ ∃ bits, ((outputs tr).filterMap fun d => mapOf d.payload).getLast? = some bits
                  ∧ (bigEndian bits).testBit (2 : UInt8).toNat = true) := by
  obtain ⟨tr, ⟨s, c⟩, hrun, -, hcheck⟩ := exists_run (show (cachingMachine.exec
    (CSirCon.new (List.replicate stageBufSize 0) 1, Cache.new)
    [(.receive (frameBytes 0x05
        ⟨[0x60, 0x10, 0x00, 0x00] ++ List.replicate 27 0 ++ [0x05], by decide⟩), fun _ => 0),
      (.receive (frameBytes 0x06
        ⟨[0x60, 0x10, 0x00, 0x00] ++ List.replicate 27 0xFF, by decide⟩), fun _ => 0)]).any
    (fun r => (outputs r.1).map Dispatched.payload
        = [[0x60, 0x10, 0x00, 0x00] ++ List.replicate 27 0 ++ [0x05],
          [0x60, 0x10, 0x00, 0x00] ++ List.replicate 27 0xFF]
      ∧ r.2.2.isValidChannel 2 = true) = true by
      decide +kernel)
  obtain ⟨hout, hvalid⟩ := hcheck
  exact ⟨tr, s, c, hrun, hout, hvalid, (isValidChannel_iff hrun).1 2⟩

end CSirCon
