import Sircond.SirCon.Lemmas.Decoder

/-!
This module contains what dispatching a message does to the cached values. `CacheEffect` says once
which messages change them, and which events are notified with the change.
-/

open Scp Decoder

namespace Cache

section Effect

variable (mem : Memory) (len : Nat)

/--
The message at the start of the memory tells to which channel the radio is tuned.
-/
def Tunes : Prop :=
  (mem 0 = msgAsync ∧ mem 1 = scpAsyncStatus ∧ mem 2 = stTune)
    ∨ (mem 0 = msgGetResp ∧ mem 1 = scpGetChannel ∧ mem 2 = 0 ∧ mem 3 = 0)
    ∨ (mem 0 = msgSetResp ∧ mem 1 = scpSetChannel ∧ mem 2 = 0 ∧ mem 3 = 0 ∧ 4 < len)

def Maps : Prop :=
  mem 0 = msgGetResp ∧ mem 1 = scpGetChannelMap ∧ mem 2 = 0 ∧ mem 3 = 0 ∧ 32 ≤ len

def bitmap : List UInt8 := (copy 4 channelBitmapSize).value mem

end Effect

def Names (channel : UInt8) : SCEvent → Prop
  | .channel e => e.channel = channel
  | .channelInfo e => e.channel = channel
  | _ => False

inductive CacheEffect (mem : Memory) (len : Nat) (c : Cache) : Cache → List SCEvent → Prop
  | keep (events : List SCEvent) (htunes : ¬ Tunes mem len) (hmaps : ¬ Maps mem len)
      (hevents : ∀ m, .channelMap m ∉ events)
    : CacheEffect mem len c c events
  | tune (events : List SCEvent) (htunes : Tunes mem len) (hmaps : ¬ Maps mem len)
      (hnames : ∃ event ∈ events, Names (mem 4) event) (hevents : ∀ m, .channelMap m ∉ events)
    : CacheEffect mem len c { c with currChannel := mem 4 } events
  | map (htunes : ¬ Tunes mem len) (hmaps : Maps mem len)
    : CacheEffect mem len c { c with channelMap := bitmap mem }
        [.getResult 0, .channelMap ⟨bitmap mem⟩]

/--
The decoder leaves the cached values alone and notifies no channel map.
-/
def Quiet (mem : Memory) (c : Cache) (m : Decoder (Cache × List SCEvent)) : Prop :=
  (m.value mem).1 = c ∧ ∀ bits, .channelMap bits ∉ (m.value mem).2

section Quiet

variable {mem : Memory} {c : Cache} {len : Nat}

theorem quiet_pure {events : List SCEvent} (h : ∀ bits, .channelMap bits ∉ events)
    : Quiet mem c (pure (c, events)) :=
  ⟨rfl, h⟩

theorem quiet_notifyDecoded {α : Type} {deserialize : Nat → Nat → Decoder (α × Nat)}
    {event : α → SCEvent} {k : Nat} (h : ∀ a bits, event a ≠ .channelMap bits)
    : Quiet mem c (c.notifyDecoded deserialize event 0 len k) := by
  refine ⟨rfl, ?_⟩
  intro bits hmem
  simp only [notifyDecoded, Logged.value_bind, Logged.value_pure, List.mem_singleton] at hmem
  apply h _ bits hmem.symm

theorem quiet_notifySongInfo {k : Nat} : Quiet mem c (c.notifySongInfo 0 len k) := by
  refine ⟨rfl, ?_⟩
  intro bits hmem
  simp [notifySongInfo] at hmem

theorem quiet_channelAndSong
    : Quiet mem c (do
        let (i, s) ← decodeChannelAndSong 0 len
        return (c, [.channelInfo i, .songInfo s])) := by
  refine ⟨rfl, ?_⟩
  intro bits hmem
  simp at hmem

theorem Quiet.ite {p : Prop} [Decidable p] {m₁ m₂ : Decoder (Cache × List SCEvent)}
    (hpos : p → Quiet mem c m₁) (hneg : ¬ p → Quiet mem c m₂)
    : Quiet mem c (if p then m₁ else m₂) := by
  by_cases h : p
  . rw [if_pos h]
    apply hpos h
  . rw [if_neg h]
    apply hneg h

theorem quiet_asyncStatus (htune : mem 2 ≠ stTune) : Quiet mem c (c.asyncStatus 0 len) := by
  change Quiet mem c (if mem 2 = stTune then _ else _)
  rw [if_neg htune]
  refine .ite (fun _ => quiet_notifyDecoded (by simp)) fun _ => ?_
  refine .ite (fun _ => quiet_notifyDecoded (by simp)) fun _ => ?_
  exact quiet_pure (by simp)

theorem quiet_async {id : UInt8} (htune : id = scpAsyncStatus → mem 2 ≠ stTune)
    : Quiet mem c (async id c 0 len) := by
  unfold async
  refine .ite (fun _ => quiet_pure (by simp)) fun _ => ?_
  refine .ite (fun _ => quiet_notifySongInfo) fun _ => ?_
  refine .ite (fun _ => quiet_notifyDecoded (by simp)) fun _ => ?_
  refine .ite (fun _ => quiet_notifyDecoded (by simp)) fun _ => ?_
  refine .ite (fun hstatus => quiet_asyncStatus (htune hstatus)) fun _ => ?_
  refine .ite (fun _ => quiet_notifyDecoded (by simp)) fun _ => ?_
  exact quiet_pure (by simp)

theorem quiet_getChannelMap (hlen : len < 32) : Quiet mem c (c.getChannelMap 0 len) := by
  unfold getChannelMap
  rw [if_neg (Nat.not_le.mpr hlen)]
  exact quiet_pure (by simp)

theorem quiet_getResponse {id : UInt8} (hchannel : id ≠ scpGetChannel)
    (hmap : id = scpGetChannelMap → len < 32)
    : Quiet mem c (getResponse id c 0 len) := by
  unfold getResponse
  refine .ite (fun _ => quiet_notifyDecoded (by simp)) fun _ => ?_
  refine .ite (fun _ => quiet_notifyDecoded (by simp)) fun _ => ?_
  refine .ite (fun _ => quiet_notifyDecoded (by simp)) fun _ => ?_
  refine .ite (fun h => absurd h hchannel) fun _ => ?_
  refine .ite (fun _ => quiet_channelAndSong) fun _ => ?_
  refine .ite (fun _ => quiet_notifySongInfo) fun _ => ?_
  refine .ite (fun h => quiet_getChannelMap (hmap h)) fun _ => ?_
  refine .ite (fun _ => quiet_notifyDecoded (by simp)) fun _ => ?_
  refine .ite (fun _ => quiet_notifyDecoded (by simp)) fun _ => ?_
  refine .ite (fun _ => quiet_notifyDecoded (by simp)) fun _ => ?_
  refine .ite (fun _ => quiet_notifyDecoded (by simp)) fun _ => ?_
  refine .ite (fun _ => quiet_notifyDecoded (by simp)) fun _ => ?_
  exact quiet_pure (by simp)

theorem value_resultCode (mem : Memory)
    : (resultCode 0).value mem = 0 ↔ mem 2 = 0 ∧ mem 3 = 0 := by
  have hvalue : (resultCode 0).value mem = (mem 2).toUInt16 <<< 8 ||| (mem 3).toUInt16 := rfl
  have hshift : (mem 2).toUInt16 <<< 8 = 0 ↔ mem 2 = 0 := by
    have := (mem 2).toNat_lt
    rw [← UInt16.toNat_inj, ← UInt8.toNat_inj, UInt16.toNat_shiftLeft]
    simp [Nat.shiftLeft_eq]
    omega
  have hlo : (mem 3).toUInt16 = 0 ↔ mem 3 = 0 := by
    rw [← UInt16.toNat_inj, ← UInt8.toNat_inj]
    simp
  rw [hvalue, UInt16.or_eq_zero_iff, hshift, hlo]

end Quiet

theorem Quiet.keep {mem : Memory} {c : Cache} {len : Nat} {m : Decoder (Cache × List SCEvent)}
    (h : Quiet mem c m) (htunes : ¬ Tunes mem len) (hmaps : ¬ Maps mem len)
    : CacheEffect mem len c (m.value mem).1 (m.value mem).2 := by
  rw [h.1]
  apply CacheEffect.keep _ htunes hmaps h.2

section Dispatch

variable {mem : Memory} (c : Cache) (len : Nat)

theorem cacheEffect_dispatchAsync (hkind : mem 0 = msgAsync)
    : CacheEffect mem len c ((c.dispatchAsync 0 len).value mem).1
        ((c.dispatchAsync 0 len).value mem).2 := by
  have hmaps : ¬ Maps mem len := by
    intro h
    exact absurd (hkind.symm.trans h.1) (by decide)
  change CacheEffect mem len c ((async (mem 1) c 0 len).value mem).1
    ((async (mem 1) c 0 len).value mem).2
  by_cases htune : mem 1 = scpAsyncStatus ∧ mem 2 = stTune
  . obtain ⟨hid, htype⟩ := htune
    have hvalue : (async (mem 1) c 0 len).value mem
        = ({ c with currChannel := mem 4 }, [.channel ⟨mem 4⟩]) := by
      rw [hid]
      change (if mem 2 = stTune then c.notifyChannel 0 len else _).value mem = _
      rw [if_pos htype]
      rfl
    rw [hvalue]
    apply CacheEffect.tune _ _ hmaps
    . exact ⟨_, List.mem_singleton_self _, rfl⟩
    . simp
    . left
      exact ⟨hkind, hid, htype⟩
  . apply Quiet.keep _ _ hmaps
    . apply quiet_async
      intro hid htype
      exact htune ⟨hid, htype⟩
    . rintro (h | h | h)
      . exact htune h.2
      . exact absurd (hkind.symm.trans h.1) (by decide)
      . exact absurd (hkind.symm.trans h.1) (by decide)

theorem value_dispatchGetResponse
    : (c.dispatchGetResponse 0 len).value mem
        =
      if mem 2 = 0 ∧ mem 3 = 0 then
        (((getResponse (mem 1) c 0 len).value mem).1,
          .getResult 0 :: ((getResponse (mem 1) c 0 len).value mem).2)
      else
        (c, [.getResult ((resultCode 0).value mem)]) := by
  have hcode := value_resultCode mem
  simp only [dispatchGetResponse, Logged.value_bind, value_read, Nat.zero_add]
  split
  . next hzero =>
    rw [if_pos (hcode.mp hzero)]
    simp only [Logged.value_bind, Logged.value_pure, hzero]
  . next hzero =>
    rw [if_neg (fun h => hzero (hcode.mpr h))]
    simp only [Logged.value_pure]

theorem value_dispatchSetResponse
    : (c.dispatchSetResponse 0 len).value mem
        =
      if (mem 2 = 0 ∧ mem 3 = 0) ∧ mem 1 = scpSetChannel ∧ 4 < len then
        ({ c with currChannel := mem 4 },
          [.setResult 0, .channelInfo ((decodeChannelAndSong 0 len).value mem).1,
            .songInfo ((decodeChannelAndSong 0 len).value mem).2])
      else
        (c, [.setResult ((resultCode 0).value mem)]) := by
  have hcode := value_resultCode mem
  unfold dispatchSetResponse
  rw [Logged.value_bind, Logged.value_bind, value_read, Nat.zero_add]
  by_cases hzero : (resultCode 0).value mem = 0
  . have hres := hcode.mp hzero
    rw [if_pos hzero]
    by_cases hid : mem 1 = scpSetChannel
    . rw [if_pos hid]
      by_cases hlen : 4 < len
      . rw [if_pos hlen, if_pos ⟨hres, hid, hlen⟩]
        simp only [Logged.value_bind, Logged.value_pure, hzero]
        rfl
      . rw [if_neg hlen, if_neg (fun h => hlen h.2.2)]
        simp only [Logged.value_pure]
    . rw [if_neg hid, if_neg (fun h => hid h.2.1)]
      simp only [Logged.value_pure]
  . rw [if_neg hzero, if_neg (fun h => hzero (hcode.mpr h.1))]
    simp only [Logged.value_pure]

theorem cacheEffect_dispatchSetResponse (hkind : mem 0 = msgSetResp)
    : CacheEffect mem len c ((c.dispatchSetResponse 0 len).value mem).1
        ((c.dispatchSetResponse 0 len).value mem).2 := by
  have hmaps : ¬ Maps mem len := by
    intro h
    exact absurd (hkind.symm.trans h.1) (by decide)
  rw [value_dispatchSetResponse]
  split
  . next h =>
    apply CacheEffect.tune _ _ hmaps
    . exact ⟨.channelInfo ((decodeChannelAndSong 0 len).value mem).1, by simp, rfl⟩
    . simp
    . right
      right
      exact ⟨hkind, h.2.1, h.1.1, h.1.2, h.2.2⟩
  . next h =>
    apply CacheEffect.keep _ _ hmaps
    . simp
    . rintro (htunes | htunes | htunes)
      . exact absurd (hkind.symm.trans htunes.1) (by decide)
      . exact absurd (hkind.symm.trans htunes.1) (by decide)
      . obtain ⟨-, hid, hhi, hlo, hlen⟩ := htunes
        exact h ⟨⟨hhi, hlo⟩, hid, hlen⟩

theorem cacheEffect_dispatchGetResponse (hkind : mem 0 = msgGetResp)
    : CacheEffect mem len c ((c.dispatchGetResponse 0 len).value mem).1
        ((c.dispatchGetResponse 0 len).value mem).2 := by
  have htunes : Tunes mem len ↔ mem 1 = scpGetChannel ∧ mem 2 = 0 ∧ mem 3 = 0 := by
    constructor
    . rintro (h | h | h)
      . exact absurd (hkind.symm.trans h.1) (by decide)
      . exact h.2
      . exact absurd (hkind.symm.trans h.1) (by decide)
    . intro h
      right
      left
      exact ⟨hkind, h⟩
  have hmaps : Maps mem len ↔ mem 1 = scpGetChannelMap ∧ mem 2 = 0 ∧ mem 3 = 0 ∧ 32 ≤ len :=
    and_iff_right hkind
  rw [value_dispatchGetResponse]
  split
  . next hzero =>
    by_cases hchannel : mem 1 = scpGetChannel
    . have hvalue : (getResponse (mem 1) c 0 len).value mem
          = ({ c with currChannel := mem 4 }, [.channel ⟨mem 4⟩]) := by
        rw [hchannel]
        rfl
      rw [hvalue]
      apply CacheEffect.tune
      . exact htunes.mpr ⟨hchannel, hzero⟩
      . intro h
        exact absurd (hchannel.symm.trans (hmaps.mp h).1) (by decide)
      . exact ⟨.channel ⟨mem 4⟩, by simp, rfl⟩
      . simp
    by_cases hmap : mem 1 = scpGetChannelMap ∧ 32 ≤ len
    . have hvalue : (getResponse (mem 1) c 0 len).value mem
          = ({ c with channelMap := bitmap mem }, [.channelMap ⟨bitmap mem⟩]) := by
        rw [hmap.1]
        change (if 32 ≤ len then _ else _ : Decoder _).value mem = _
        rw [if_pos hmap.2]
        rfl
      rw [hvalue]
      apply CacheEffect.map
      . intro h
        exact hchannel (htunes.mp h).1
      . exact hmaps.mpr ⟨hmap.1, hzero.1, hzero.2, hmap.2⟩
    have hquiet : Quiet mem c (getResponse (mem 1) c 0 len) := by
      apply quiet_getResponse hchannel
      intro hid
      apply Nat.not_le.mp
      intro hlen
      exact hmap ⟨hid, hlen⟩
    rw [hquiet.1]
    apply CacheEffect.keep
    . intro h
      exact hchannel (htunes.mp h).1
    . intro h
      have := hmaps.mp h
      exact hmap ⟨this.1, this.2.2.2⟩
    . intro bits hmem
      rw [List.mem_cons] at hmem
      cases hmem with
      | inl h => simp at h
      | inr h => exact hquiet.2 bits h
  . next hzero =>
    apply CacheEffect.keep
    . intro h
      exact hzero (htunes.mp h).2
    . intro h
      have := hmaps.mp h
      exact hzero ⟨this.2.1, this.2.2.1⟩
    . simp

theorem cacheEffect
    : CacheEffect mem len c ((c.dispatch 0 len).value mem).1 ((c.dispatch 0 len).value mem).2 := by
  unfold dispatch
  rw [Logged.value_bind, value_read]
  by_cases hset : mem 0 = msgSetResp
  . rw [if_pos hset]
    apply cacheEffect_dispatchSetResponse _ _ hset
  rw [if_neg hset]
  by_cases hget : mem 0 = msgGetResp
  . rw [if_pos hget]
    apply cacheEffect_dispatchGetResponse _ _ hget
  rw [if_neg hget]
  by_cases hasync : mem 0 = msgAsync
  . rw [if_pos hasync]
    apply cacheEffect_dispatchAsync _ _ hasync
  rw [if_neg hasync]
  apply CacheEffect.keep
  . rintro (h | h | h)
    . exact hasync h.1
    . exact hget h.1
    . exact hset h.1
  . intro h
    exact hget h.1
  . simp

end Dispatch

end Cache
