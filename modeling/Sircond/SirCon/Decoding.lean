import Sircond.SirCon.Lemmas.Dispatch
import Sircond.SirCon.Machine

/-!
This module contains which payloads are decoded without leaving them. `Fits` says so in terms of the
payload: it is as long as its kind asks for, and the records in it are complete.
-/

open Scp Decoder Record

namespace Record

def ChannelAndSongFit (body : List UInt8) : Prop :=
  ((takeChannel body).bind fun (c, rest) => takeSong (.new c.channel) rest).isSome

def SongFits : List UInt8 → Prop
  | [] => False
  | channel :: rest => (takeSong (.new channel) rest).isSome

def StatusFits : List UInt8 → Prop
  | [] => False
  | type :: rest =>
    if type = stTune then
      2 ≤ rest.length
    else if type = stSignal then
      1 ≤ rest.length
    else if type = stAntenna then
      1 ≤ rest.length
    else
      True

def AsyncFits (id : UInt8) (body : List UInt8) : Prop :=
  if id = scpAsyncReset then
    True
  else if id = scpAsyncSongInfo then
    SongFits body
  else if id = scpAsyncSongID then
    (takeString (body.drop 1)).isSome = true
  else if id = scpAsyncTime then
    sizeofDateTime ≤ body.length
  else if id = scpAsyncStatus then
    StatusFits body
  else if id = scpAsyncSignal then
    3 ≤ body.length
  else
    True

def GetFits (id : UInt8) (body : List UInt8) : Prop :=
  if id = scpGetGain then
    1 ≤ body.length
  else if id = scpGetMute then
    1 ≤ body.length
  else if id = scpGetPower then
    1 ≤ body.length
  else if id = scpGetChannel then
    1 ≤ body.length
  else if id = scpGetChannelInfo then
    ChannelAndSongFit body
  else if id = scpGetSongInfo then
    SongFits body
  else if id = scpGetChannelMap then
    True
  else if id = scpGetSID then
    (takeString body).isSome = true
  else if id = scpGetTZInfo then
    3 ≤ body.length
  else if id = scpGetTime then
    sizeofDateTime ≤ body.length
  else if id = scpGetStatus then
    3 ≤ body.length
  else if id = scpGetRSSI then
    3 ≤ body.length
  else
    True

def SetFits (id : UInt8) (body : List UInt8) : Prop :=
  id = scpSetChannel → body = [] ∨ ChannelAndSongFit body

/--
The payload is long enough for its kind, and the strings in it end before it does. The body of a
response counts only if its result code is zero.
-/
def Fits : List UInt8 → Prop
  | [] => False
  | kind :: rest =>
    if kind = msgSetResp then
      match rest with
      | id :: hi :: lo :: body => hi = 0 → lo = 0 → SetFits id body
      | _ => False
    else if kind = msgGetResp then
      match rest with
      | id :: hi :: lo :: body => hi = 0 → lo = 0 → GetFits id body
      | _ => False
    else if kind = msgAsync then
      match rest with
      | id :: body => AsyncFits id body
      | _ => False
    else
      True

end Record

section Deserialize

variable {α : Type} {payload : List UInt8} {after : Memory}

theorem inside_oneByte (event : UInt8 → α) (data len : Nat)
    : Inside payload after (oneByte event data len) ↔ data < payload.length ∧ 1 ≤ len := by
  simp [oneByte]

theorem inside_threeBytes (event : UInt8 → UInt8 → UInt8 → α) (data len : Nat)
    : Inside payload after (threeBytes event data len)
        ↔
      data + 2 < payload.length ∧ 3 ≤ len := by
  simp only [threeBytes, inside_bind, inside_read, inside_ret]
  omega

theorem inside_pascalString (event : List UInt8 → α) {data len : Nat}
    (hlen : data + len = payload.length)
    : Inside payload after (pascalString event data len)
        ↔
      (takeString (payload.drop data)).isSome := by
  have hdecodes : Decodes payload after data (pascalString event data len)
      ((takeString (payload.drop data)).bind fun r => some (event r.1, r.2)) := by
    apply (decodes_copyPascalString data).bind
    intro str n hn
    apply decodes_ret
    . exact hn
    . omega
  rw [hdecodes.inside_iff]
  cases takeString (payload.drop data) with
  | none => rfl
  | some r => rfl

theorem inside_time (data len : Nat)
    : Inside payload after (SCETime.deserialize data len)
        ↔
      data + 8 < payload.length ∧ sizeofDateTime ≤ len := by
  simp only [SCETime.deserialize, inside_bind, inside_read, inside_ret]
  omega

theorem inside_channelMap (data len : Nat)
    : Inside payload after (SCEChannelMap.deserialize data len)
        ↔
      data + channelBitmapSize ≤ payload.length ∧ channelBitmapSize ≤ len := by
  have hsize : channelBitmapSize = 28 := rfl
  simp only [SCEChannelMap.deserialize, inside_bind, inside_check, inside_copy, inside_ret,
    decide_eq_true_eq]
  omega

end Deserialize

namespace Cache

section Notify

variable {payload : List UInt8} {after : Memory} {c : Cache}

theorem inside_notifyDecoded {α : Type} {deserialize : Nat → Nat → Decoder (α × Nat)}
    {event : α → SCEvent} {k : Nat}
    : Inside payload after (c.notifyDecoded deserialize event 0 payload.length k)
        ↔
      k ≤ payload.length ∧ Inside payload after (deserialize k (payload.length - k)) := by
  unfold notifyDecoded
  simp only [inside_bind, inside_sub, inside_pure, and_true, Nat.zero_add]
  apply and_congr_right
  intro hk
  rw [value_sub hk]

theorem inside_notifyChannel
    : Inside payload after (c.notifyChannel 0 payload.length) ↔ 5 ≤ payload.length := by
  unfold notifyChannel SCEChannel.deserialize
  simp only [inside_bind, inside_sub, inside_pure, and_true, Nat.zero_add, inside_oneByte]
  constructor
  . rintro ⟨hle, hlt, -⟩
    omega
  . intro hle
    rw [value_sub (by omega)]
    omega

theorem inside_notifySongInfo {k : Nat}
    : Inside payload after (c.notifySongInfo 0 payload.length k)
        ↔
      SongFits (payload.drop k) := by
  unfold notifySongInfo
  simp only [inside_bind, inside_read, inside_sub, inside_pure, and_true, Nat.zero_add, value_read]
  by_cases hk : k < payload.length
  . rw [value_sub (by omega), (decodes_song (by omega) _).inside_iff,
      List.drop_eq_getElem_cons hk, memory_eq after hk]
    unfold SongFits
    simp [hk, Nat.succ_le_of_lt hk]
  . rw [List.drop_eq_nil_of_le (by omega)]
    simp [SongFits, hk]

theorem inside_decodeChannelAndSong (hlen : 4 ≤ payload.length)
    : Inside payload after (decodeChannelAndSong 0 payload.length)
        ↔
      ChannelAndSongFit (payload.drop 4) := by
  have hchannel : Decodes payload after 4
      (SCEChannelInfo.deserialize 4 (payload.length - 4)) (takeChannel (payload.drop 4)) :=
    decodes_channel (by omega)
  unfold decodeChannelAndSong ChannelAndSongFit
  simp only [inside_bind, inside_sub, inside_pure, and_true, Nat.zero_add]
  rw [value_sub hlen]
  cases htake : takeChannel (payload.drop 4) with
  | none =>
    rw [htake] at hchannel
    unfold Decodes at hchannel
    simp [hchannel]
  | some r =>
    obtain ⟨i, rest⟩ := r
    rw [htake] at hchannel
    obtain ⟨hinside, n, hvalue, hle, rfl⟩ := hchannel
    rw [hvalue]
    dsimp only
    rw [value_sub hle, (decodes_song (by omega) _).inside_iff]
    simp [hlen, hinside, hle]

theorem inside_getChannelMap : Inside payload after (c.getChannelMap 0 payload.length) := by
  have hsize : channelBitmapSize = 28 := rfl
  unfold getChannelMap
  split
  . next hlen =>
    simp only [inside_bind, inside_sub, inside_channelMap, inside_copy, inside_pure, and_true]
    rw [value_sub (by omega)]
    omega
  . apply inside_pure

theorem inside_asyncStatus
    : Inside payload after (c.asyncStatus 0 payload.length) ↔ StatusFits (payload.drop 2) := by
  unfold asyncStatus
  rw [inside_bind, inside_read, value_read, Nat.zero_add]
  by_cases hlen : 2 < payload.length
  . have hrest : (payload.drop (2 + 1)).length = payload.length - (2 + 1) := List.length_drop
    rw [memory_eq after (by omega), List.drop_eq_getElem_cons hlen]
    unfold StatusFits
    dsimp only
    by_cases htune : payload[2] = stTune
    . rw [if_pos htune, if_pos htune, inside_notifyChannel]
      omega
    rw [if_neg htune, if_neg htune]
    by_cases hsignal : payload[2] = stSignal
    . rw [if_pos hsignal, if_pos hsignal, inside_notifyDecoded, SCESignal.deserialize,
        inside_oneByte]
      omega
    rw [if_neg hsignal, if_neg hsignal]
    by_cases hantenna : payload[2] = stAntenna
    . rw [if_pos hantenna, if_pos hantenna, inside_notifyDecoded, SCEAntenna.deserialize,
        inside_oneByte]
      omega
    rw [if_neg hantenna, if_neg hantenna]
    simp [hlen]
  . rw [List.drop_eq_nil_of_le (by omega)]
    simp [StatusFits, hlen]

end Notify

section Dispatch

variable {payload : List UInt8} {after : Memory} {c : Cache}

theorem inside_getResponse (hlen : 4 ≤ payload.length) (id : UInt8)
    : Inside payload after (getResponse id c 0 payload.length) ↔ GetFits id (payload.drop 4) := by
  have hbody : (payload.drop 4).length = payload.length - 4 := List.length_drop
  unfold getResponse GetFits
  by_cases hgain : id = scpGetGain
  . rw [if_pos hgain, if_pos hgain]
    rw [inside_notifyDecoded, SCEGain.deserialize, inside_oneByte]
    omega
  rw [if_neg hgain, if_neg hgain]
  by_cases hmute : id = scpGetMute
  . rw [if_pos hmute, if_pos hmute]
    rw [inside_notifyDecoded, SCEMute.deserialize, inside_oneByte]
    omega
  rw [if_neg hmute, if_neg hmute]
  by_cases hpower : id = scpGetPower
  . rw [if_pos hpower, if_pos hpower]
    rw [inside_notifyDecoded, SCEPower.deserialize, inside_oneByte]
    omega
  rw [if_neg hpower, if_neg hpower]
  by_cases hchannel : id = scpGetChannel
  . rw [if_pos hchannel, if_pos hchannel]
    rw [inside_notifyChannel]
    omega
  rw [if_neg hchannel, if_neg hchannel]
  by_cases hinfo : id = scpGetChannelInfo
  . rw [if_pos hinfo, if_pos hinfo]
    rw [inside_bind, inside_decodeChannelAndSong hlen]
    simp
  rw [if_neg hinfo, if_neg hinfo]
  by_cases hsong : id = scpGetSongInfo
  . rw [if_pos hsong, if_pos hsong]
    apply inside_notifySongInfo
  rw [if_neg hsong, if_neg hsong]
  by_cases hmap : id = scpGetChannelMap
  . rw [if_pos hmap, if_pos hmap]
    rw [iff_true]
    apply inside_getChannelMap
  rw [if_neg hmap, if_neg hmap]
  by_cases hsid : id = scpGetSID
  . rw [if_pos hsid, if_pos hsid]
    rw [inside_notifyDecoded, SCESiriusID.deserialize, inside_pascalString _ (by omega)]
    simp [hlen]
  rw [if_neg hsid, if_neg hsid]
  by_cases htz : id = scpGetTZInfo
  . rw [if_pos htz, if_pos htz]
    rw [inside_notifyDecoded, SCETimeZoneInfo.deserialize, inside_threeBytes]
    omega
  rw [if_neg htz, if_neg htz]
  by_cases htime : id = scpGetTime
  . rw [if_pos htime, if_pos htime]
    rw [inside_notifyDecoded, inside_time]
    unfold sizeofDateTime
    omega
  rw [if_neg htime, if_neg htime]
  by_cases hstatus : id = scpGetStatus
  . rw [if_pos hstatus, if_pos hstatus]
    rw [inside_notifyDecoded, SCEStatus.deserialize, inside_threeBytes]
    omega
  rw [if_neg hstatus, if_neg hstatus]
  by_cases hrssi : id = scpGetRSSI
  . rw [if_pos hrssi, if_pos hrssi]
    rw [inside_notifyDecoded, SCERSSI.deserialize, inside_threeBytes]
    omega
  rw [if_neg hrssi, if_neg hrssi]
  simp

theorem inside_async (hlen : 2 ≤ payload.length) (id : UInt8)
    : Inside payload after (async id c 0 payload.length) ↔ AsyncFits id (payload.drop 2) := by
  have hbody : (payload.drop 2).length = payload.length - 2 := List.length_drop
  unfold async AsyncFits
  by_cases hreset : id = scpAsyncReset
  . rw [if_pos hreset, if_pos hreset]
    simp
  rw [if_neg hreset, if_neg hreset]
  by_cases hsong : id = scpAsyncSongInfo
  . rw [if_pos hsong, if_pos hsong]
    apply inside_notifySongInfo
  rw [if_neg hsong, if_neg hsong]
  by_cases hid : id = scpAsyncSongID
  . rw [if_pos hid, if_pos hid]
    rw [inside_notifyDecoded, List.drop_drop]
    by_cases hk : 3 ≤ payload.length
    . rw [SCESongID.deserialize, inside_pascalString _ (by omega)]
      simp [hk]
    . rw [List.drop_eq_nil_of_le (by omega)]
      simp [hk, takeString]
  rw [if_neg hid, if_neg hid]
  by_cases htime : id = scpAsyncTime
  . rw [if_pos htime, if_pos htime]
    rw [inside_notifyDecoded, inside_time]
    unfold sizeofDateTime
    omega
  rw [if_neg htime, if_neg htime]
  by_cases hstatus : id = scpAsyncStatus
  . rw [if_pos hstatus, if_pos hstatus]
    apply inside_asyncStatus
  rw [if_neg hstatus, if_neg hstatus]
  by_cases hsignal : id = scpAsyncSignal
  . rw [if_pos hsignal, if_pos hsignal]
    rw [inside_notifyDecoded, SCERSSI.deserialize, inside_threeBytes]
    omega
  rw [if_neg hsignal, if_neg hsignal]
  simp

theorem inside_resultCode : Inside payload after (resultCode 0) ↔ 4 ≤ payload.length := by
  simp only [resultCode, inside_bind, inside_read, inside_pure, and_true]
  omega

theorem value_resultCode_eq_zero_iff (kind id : UInt8) {hi lo : UInt8} (body : List UInt8)
    (after : Memory)
    : (resultCode 0).value (memory (kind :: id :: hi :: lo :: body) after) = 0
        ↔
      hi = 0 ∧ lo = 0 := by
  apply value_resultCode

theorem inside_dispatchGetResponse {kind id hi lo : UInt8} {body : List UInt8}
    : Inside (kind :: id :: hi :: lo :: body) after
        (c.dispatchGetResponse 0 (kind :: id :: hi :: lo :: body).length)
        ↔
      (hi = 0 → lo = 0 → GetFits id body) := by
  have hlen : 4 ≤ (kind :: id :: hi :: lo :: body).length := by
    simp only [List.length_cons]
    omega
  have hid : memory (kind :: id :: hi :: lo :: body) after (0 + 1) = id := rfl
  unfold dispatchGetResponse
  rw [inside_bind, inside_resultCode, inside_bind, inside_read, value_read, hid, ← and_imp,
    ← value_resultCode_eq_zero_iff kind id body after]
  split
  . next hzero =>
    rw [inside_bind, inside_getResponse hlen]
    simp [hzero]
  . next hzero => simp [hzero]

theorem inside_dispatchSetResponse {kind id hi lo : UInt8} {body : List UInt8}
    : Inside (kind :: id :: hi :: lo :: body) after
        (c.dispatchSetResponse 0 (kind :: id :: hi :: lo :: body).length)
        ↔
      (hi = 0 → lo = 0 → SetFits id body) := by
  have hlen : 4 ≤ (kind :: id :: hi :: lo :: body).length := by
    simp only [List.length_cons]
    omega
  have hid : memory (kind :: id :: hi :: lo :: body) after (0 + 1) = id := rfl
  have hbody : (kind :: id :: hi :: lo :: body).length > 4 ↔ body ≠ [] := by
    simp only [List.length_cons, ne_eq, ← List.length_pos_iff]
    omega
  unfold dispatchSetResponse SetFits
  rw [inside_bind, inside_resultCode, inside_bind, inside_read, value_read, hid, ← and_imp,
    ← value_resultCode_eq_zero_iff kind id body after]
  split
  . next hzero =>
    split
    . next hset =>
      subst hset
      split
      . next hlong =>
        rw [inside_bind, inside_decodeChannelAndSong hlen]
        simp [hzero, hbody.mp hlong]
      . next hshort =>
        rw [hbody, ne_eq, Decidable.not_not] at hshort
        simp [hshort]
    . next hset => simp [hset]
  . next hzero => simp [hzero]

theorem inside_dispatchAsync {kind id : UInt8} {body : List UInt8}
    : Inside (kind :: id :: body) after (c.dispatchAsync 0 (kind :: id :: body).length)
        ↔
      AsyncFits id body := by
  have hlen : 2 ≤ (kind :: id :: body).length := by
    simp only [List.length_cons]
    omega
  have hid : memory (kind :: id :: body) after (0 + 1) = id := rfl
  unfold dispatchAsync
  rw [inside_bind, inside_read, value_read, hid, inside_async hlen]
  simp

theorem not_inside_response (hlen : payload.length < 4)
    : ¬ Inside payload after (c.dispatchGetResponse 0 payload.length)
        ∧ ¬ Inside payload after (c.dispatchSetResponse 0 payload.length) := by
  constructor
  . unfold dispatchGetResponse
    rw [inside_bind, inside_resultCode]
    rintro ⟨h, -⟩
    omega
  . unfold dispatchSetResponse
    rw [inside_bind, inside_resultCode]
    rintro ⟨h, -⟩
    omega

end Dispatch

theorem inside_dispatch (c : Cache) (payload : List UInt8) (after : Memory)
    : Inside payload after (c.dispatch 0 payload.length) ↔ Fits payload := by
  cases payload with
  | nil => simp [dispatch, Fits]
  | cons kind rest =>
    have hkind : memory (kind :: rest) after 0 = kind := rfl
    unfold dispatch Fits
    rw [inside_bind, inside_read, value_read, hkind]
    simp only [List.length_cons, Nat.zero_lt_succ, true_and]
    by_cases hset : kind = msgSetResp
    . rw [if_pos hset, if_pos hset]
      rcases rest with _ | ⟨id, _ | ⟨hi, _ | ⟨lo, body⟩⟩⟩
      . exact iff_of_false (not_inside_response (by simp)).2 not_false
      . exact iff_of_false (not_inside_response (by simp)).2 not_false
      . exact iff_of_false (not_inside_response (by simp)).2 not_false
      . apply inside_dispatchSetResponse
    rw [if_neg hset, if_neg hset]
    by_cases hget : kind = msgGetResp
    . rw [if_pos hget, if_pos hget]
      rcases rest with _ | ⟨id, _ | ⟨hi, _ | ⟨lo, body⟩⟩⟩
      . exact iff_of_false (not_inside_response (by simp)).1 not_false
      . exact iff_of_false (not_inside_response (by simp)).1 not_false
      . exact iff_of_false (not_inside_response (by simp)).1 not_false
      . apply inside_dispatchGetResponse
    rw [if_neg hget, if_neg hget]
    by_cases hasync : kind = msgAsync
    . rw [if_pos hasync, if_pos hasync]
      cases rest with
      | nil => simp [dispatchAsync]
      | cons id body => apply inside_dispatchAsync
    rw [if_neg hasync, if_neg hasync]
    simp

/--
Decoding stays inside the payload if and only if the payload fits: then it reads only bytes of the
payload, no length wraps and no record claims more bytes than it was given.
-/
theorem dispatch_inside_iff (c : Cache) (data : Payload) (after : Memory)
    : Inside data.bytes after (c.dispatch 0 data.bytes.length) ↔ Fits data.bytes := by
  apply inside_dispatch

theorem dispatch_short_songInfo
    : CSirCon.ValidFrame [0xA4, 0x03, 0x00, 0x00, 0x00, 0x02, 0x80, 0x01, 0xD6]
        ∧ (SHdr.ofBytes [0xA4, 0x03, 0x00, 0x00, 0x00, 0x02, 0x80, 0x01, 0xD6]).flags &&& sfAck = 0
        ∧ .read 2 ∈ (new.dispatch 0 2).log (memory [0x80, 0x01] fun _ => 0xD6)
        ∧ .sub 2 3 ∈ (new.dispatch 0 2).log (memory [0x80, 0x01] fun _ => 0xD6)
        ∧ ¬ Inside [0x80, 0x01] (fun _ => 0xD6) (new.dispatch 0 2) := by
  decide +kernel

end Cache
