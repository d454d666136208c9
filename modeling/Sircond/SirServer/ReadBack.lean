import Sircond.SirCon.Lemmas.Dispatch
import Sircond.SirServer.Arguments
import Sircond.SirServer.Gateway
import Sircond.SirServer.Lemmas.Text

/-!
This module contains the way of a setting from the command of one client to what all of them are told
when the radio reports it: the text, the bytes of the request, the bytes of the response, the text.
-/

open Scp CSirCon CSirServer Cache

namespace Setting

/-- The request by which a setting is read. `SET ASYNC` has none. -/
def getID : Setting → Option UInt8
  | .gain => some scpGetGain
  | .power => some scpGetPower
  | .channel => some scpGetChannel
  | .tzInfo _ => some scpGetTZInfo
  | .async => none

/-- The response to that request of a radio that has taken over the bytes set by `data`. -/
def report (id : UInt8) (data : Payload) : List UInt8 :=
  [msgGetResp, id, 0x00, 0x00] ++ data.bytes.drop 2

def told : Setting → Int → List UInt8
  | .gain, value => ascii "GAIN," ++ signed value
  | .power, value => ascii "POWER," ++ signed value
  | .channel, value => ascii "CHANNEL," ++ signed value
  | .tzInfo dst, value =>
    ascii "TZINFO," ++ signed value ++ ascii "," ++ signed (if strtoul dst > 0 then 1 else 0)
  | .async, _ => []

def event : Setting → List UInt8 → SCEvent
  | .gain, number => .gain ⟨(atoi number).toInt8⟩
  | .power, number => .power ⟨(strtoul number).toUInt32.toUInt8 &&& 0x03⟩
  | .channel, number => .channel ⟨(strtoul number).toUInt8⟩
  | .tzInfo dst, number =>
    .timeZoneInfo ⟨(atoi number).toInt16, if strtoul dst > 0 then 0x01 else 0x00⟩
  | .async, _ => .reset

theorem toInt16_setTZ (offset : Int16)
    : ((offset >>> 8).toUInt16.toUInt8.toUInt16 <<< 8
        ||| (offset &&& 0xff).toUInt16.toUInt8.toUInt16).toInt16 = offset := by
  have hhigh := toNat_highByte offset
  have hlow := toNat_lowByte offset
  generalize (offset >>> 8).toUInt16.toUInt8 = hi at *
  generalize (offset &&& 0xff).toUInt16.toUInt8 = lo at *
  have hlt := offset.toUInt16.toNat_lt
  have hor : hi.toUInt16 <<< 8 ||| lo.toUInt16 = offset.toUInt16 := by
    have hhi := hi.toNat_lt
    have hlo : lo.toNat < 2 ^ 8 := lo.toNat_lt
    have hfits : hi.toNat <<< 8 % 2 ^ 16 = hi.toNat <<< 8 := by
      rw [Nat.shiftLeft_eq]
      omega
    rw [← UInt16.toNat_inj, UInt16.toNat_or, UInt16.toNat_shiftLeft, UInt8.toNat_toUInt16,
      UInt8.toNat_toUInt16]
    change hi.toNat <<< 8 % 2 ^ 16 ||| lo.toNat = _
    rw [hfits, ← Nat.shiftLeft_add_eq_or_of_lt hlo, Nat.shiftLeft_eq]
    omega
  rw [hor]
  rfl

theorem value_dispatch_report (cache : Cache) (id : UInt8) (bytes : List UInt8) (after : Memory)
    : ((cache.dispatch 0 ([msgGetResp, id, 0x00, 0x00] ++ bytes).length).value
        (memory ([msgGetResp, id, 0x00, 0x00] ++ bytes) after)).2
        = .getResult 0 :: ((getResponse id cache 0 ([msgGetResp, id, 0x00, 0x00] ++ bytes).length).value
            (memory ([msgGetResp, id, 0x00, 0x00] ++ bytes) after)).2 := by
  generalize ([msgGetResp, id, 0x00, 0x00] ++ bytes).length = len
  have hdispatch : (cache.dispatch 0 len).value (memory ([msgGetResp, id, 0x00, 0x00] ++ bytes) after)
      = (cache.dispatchGetResponse 0 len).value
        (memory ([msgGetResp, id, 0x00, 0x00] ++ bytes) after) := by
    have hkind : memory ([msgGetResp, id, 0x00, 0x00] ++ bytes) after 0 = msgGetResp := rfl
    unfold Cache.dispatch
    rw [Logged.value_bind, value_read, hkind, if_neg (by decide), if_pos rfl]
  rw [hdispatch, value_dispatchGetResponse, if_pos ⟨rfl, rfl⟩]
  rfl

theorem dispatch_report {c : Setting} {id : UInt8} (hid : c.getID = some id) (number : List UInt8)
    (cache : Cache) (after : Memory)
    : ((cache.dispatch 0 (report id (c.payload number)).length).value
        (memory (report id (c.payload number)) after)).2
        = [.getResult 0, c.event number] := by
  unfold report
  rw [value_dispatch_report]
  cases c with
  | gain =>
    obtain rfl := Option.some.inj hid
    unfold getResponse
    rw [if_pos rfl]
    rfl
  | power =>
    obtain rfl := Option.some.inj hid
    unfold getResponse
    rw [if_neg (by decide), if_neg (by decide), if_pos rfl]
    rfl
  | channel =>
    obtain rfl := Option.some.inj hid
    unfold getResponse
    rw [if_neg (by decide), if_neg (by decide), if_neg (by decide), if_pos rfl]
    rfl
  | tzInfo dst =>
    obtain rfl := Option.some.inj hid
    unfold getResponse
    rw [if_neg (by decide), if_neg (by decide), if_neg (by decide), if_neg (by decide),
      if_neg (by decide), if_neg (by decide), if_neg (by decide), if_neg (by decide), if_pos rfl]
    change [SCEvent.getResult 0, .timeZoneInfo
      ⟨((((atoi number).toInt16 >>> 8).toUInt16.toUInt8.toUInt16 <<< 8
        ||| ((atoi number).toInt16 &&& 0xff).toUInt16.toUInt8.toUInt16)).toInt16,
        if decide (strtoul dst > 0) then 0x01 else 0x00⟩] = _
    rw [toInt16_setTZ]
    simp [event]
  | async => simp [getID] at hid

theorem line_event {c : Setting} {id : UInt8} (hid : c.getID = some id) (number : List UInt8)
    : (c.event number).out = c.told (c.sets number) := by
  cases c with
  | gain => rfl
  | power =>
    change ascii "POWER," ++ unsigned _ = _
    rw [unsigned_eq_signed]
    rfl
  | channel =>
    change ascii "CHANNEL," ++ unsigned _ = _
    rw [unsigned_eq_signed]
    rfl
  | tzInfo dst =>
    change ascii "TZINFO," ++ signed _ ++ ascii "," ++ unsigned _ = _
    rw [unsigned_eq_signed]
    have hdst : signed (if strtoul dst > 0 then (0x01 : UInt8) else 0x00).toNat
        = signed (if strtoul dst > 0 then 1 else 0) := by
      split
      . rfl
      . rfl
    rw [hdst]
    rfl
  | async => simp [getID] at hid

theorem length_signed_le {value : Int} (hmin : -32768 ≤ value) (hmax : value ≤ 32768)
    : (signed value).length ≤ 6 := by
  have hdecimal : (decimal value.natAbs).length ≤ 5 := by
    unfold decimal
    rw [List.length_map, Nat.length_toDigits_le_iff (by decide) (by decide)]
    omega
  unfold signed
  split
  . rw [List.length_cons]
    omega
  . omega

theorem length_told_lt {c : Setting} {value : Int} (hmin : c.min ≤ value) (hmax : value ≤ c.max)
    : (c.told value ++ endl).length < UInt8.size := by
  have hvalue : (signed value).length ≤ 6 := by
    apply length_signed_le
    . apply Int.le_trans _ hmin
      cases c <;> simp [Setting.min]
    . apply Int.le_trans hmax
      cases c <;> simp [Setting.max]
  have hendl : endl.length = 1 := rfl
  rw [List.length_append, hendl]
  cases c with
  | gain | power | channel =>
    simp only [told, List.length_append]
    have hkeyword : (ascii "GAIN,").length ≤ 8 ∧ (ascii "POWER,").length ≤ 8
        ∧ (ascii "CHANNEL,").length ≤ 8 := by decide
    have hsize : UInt8.size = 256 := rfl
    omega
  | tzInfo dst =>
    simp only [told, List.length_append]
    have hkeyword : (ascii "TZINFO,").length = 7 ∧ (ascii ",").length = 1 := by decide
    have hdst : (signed (if strtoul dst > 0 then 1 else 0)).length = 1 := by
      split
      . rfl
      . rfl
    have hsize : UInt8.size = 256 := rfl
    omega
  | async => exact Nat.lt_of_lt_of_le (Nat.lt_succ_self 1) (by decide)

theorem server_update {c : Setting} {id : UInt8} (hid : c.getID = some id) (number : List UInt8)
    (o : Observer)
    : (o.update (.event (c.event number))).1.server
        = o.server.broadcast (c.told (c.sets number) ++ endl) := by
  have hhandling : Observer.handling (.event (c.event number)) = .notifyAll := by
    cases c with
    | gain | power | channel | tzInfo => rfl
    | async => simp [getID] at hid
  have hhandles := o.handles (.event (c.event number))
  rw [hhandling] at hhandles
  cases hhandles with
  | notifyAll hserver =>
    rw [hserver, ← line_event hid number]
    rfl

/--
A setting makes the round trip: if the number that a client in control writes is in the range of the
command, then exactly one request is sent, and of the response of a radio that has taken over its bytes,
to the request that reads the setting, a line with the same number is queued for every client whose
buffer has room for it, whatever the caches hold and whatever lies in memory behind the response.
-/
theorem told_to_all {c : Setting} {id : UInt8} (hid : c.getID = some id) {n : Numeral}
    (hmin : c.min ≤ n.value) (hmax : n.value ≤ c.max) {cmd : List UInt8} (radio : Radio)
    {s : CSirServer} {client : ClientPtr} (hcmd : strTokenize cmd 0x20 true = c.tokens n.text)
    (hcontrol : s.controller = some client) (cache : Cache) (after : Memory) {sock : Int}
    {tr : List (Machine.Entry Observer Observer.Input Effect)} {o : Observer}
    (hrun : Observer.machine.Run (.new sock) tr o)
    : ∃ data e, sent (processCommand radio s client cmd).2 = [data]
        ∧ ((cache.dispatch 0 (report id data).length).value (memory (report id data) after)).2
            = [.getResult 0, e]
        ∧ ∀ d ∈ o.server.clients, ∀ cl ∈ o.server.heap[d]?,
            (c.told n.value ++ endl).length ≤ cl.txbuf.getWriteLen.1 →
              ∃ cl' ∈ (o.update (.event e)).1.server.heap[d]?,
                cl'.pending = cl.pending ++ (c.told n.value ++ endl) := by
  refine ⟨c.payload n.text, c.event n.text, sent_processCommand c radio hcmd hcontrol,
    dispatch_report hid n.text cache after, ?_⟩
  intro d hd cl hcl hroom
  rw [server_update hid, sets_text c hmin hmax]
  have hshort : (c.told n.value ++ endl).length % UInt8.size = (c.told n.value ++ endl).length :=
    Nat.mod_eq_of_lt (length_told_lt hmin hmax)
  have hheap : (o.server.broadcast (c.told n.value ++ endl)).heap[d]?
      = some (cl.send (c.told n.value ++ endl)).1 := by
    have hsent := heap_sendAll o.server ((c.told n.value ++ endl).take
      ((c.told n.value ++ endl).length % UInt8.size)) (Observer.informed_of_run hrun).2 d
    rw [if_pos hd, hcl, hshort, List.take_length] at hsent
    unfold broadcast
    rw [show 256 = UInt8.size from rfl, hshort, List.take_length]
    exact hsent
  exact ⟨_, hheap, (Client.send_of_le hroom).2.1⟩

theorem told_to_all_tzInfo
    : ∃ data e tr o cl,
        sent (processCommand ⟨255, .success⟩ ((CSirServer.new 3).acquireControl 0).1 0
          (ascii "SET TZINFO -300 1")).2 = [data]
          ∧ ((Cache.new.dispatch 0 (report scpGetTZInfo data).length).value
            (memory (report scpGetTZInfo data) fun _ => 0xFF)).2 = [.getResult 0, e]
          ∧ Observer.machine.Run (.new 3) tr o
          ∧ Machine.inputs tr = [.server (.connect 5), .notice .startup]
          ∧ (o.update (.event e)).1.server.heap[0]? = some cl
          ∧ cl.pending = ascii "STARTUP\nTZINFO,-300,1\n" := by
  let n : Numeral := ⟨.minus, [3, 0, 0], by decide⟩
  let c : Setting := .tzInfo (ascii "1")
  have hmin : c.min ≤ n.value := by decide
  have hmax : n.value ≤ c.max := by decide
  have hcmd : strTokenize (ascii "SET TZINFO -300 1") 0x20 true = c.tokens n.text := by decide
  have hcontrol : ((CSirServer.new 3).acquireControl 0).1.controller = some 0 := rfl
  have hline : c.told n.value ++ endl = ascii "TZINFO,-300,1\n" := by decide
  have hexec : (Observer.machine.exec (.new 3) [.server (.connect 5), .notice .startup]).any
      (fun r => 0 ∈ r.2.server.clients ∧ ∃ cl ∈ r.2.server.heap[0]?,
        cl.pending = ascii "STARTUP\n" ∧ (ascii "TZINFO,-300,1\n").length ≤ cl.txbuf.getWriteLen.1)
      = true := by
    decide +kernel
  obtain ⟨tr, o, hrun, hin, hmem, cl, hcl, hpending, hroom⟩ := Machine.exists_run hexec
  obtain ⟨data, e, hsent, hevents, htold⟩ := told_to_all rfl hmin hmax ⟨255, .success⟩ hcmd hcontrol
    Cache.new (fun _ => 0xFF) hrun
  rw [hline] at htold
  obtain ⟨cl', hcl', hpending'⟩ := htold 0 hmem cl hcl hroom
  refine ⟨data, e, tr, o, cl', hsent, hevents, hrun, hin, hcl', ?_⟩
  rw [hpending', hpending]
  decide

end Setting
