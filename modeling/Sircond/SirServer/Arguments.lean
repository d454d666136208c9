import Sircond.SirServer.Access
import Sircond.Util.Numeral
import Sircond.Lib.BigEndian

/-!
This module contains which numbers the commands that take one hand on to the radio unchanged.
-/

open Scp CSirCon CSirServer

/--
The `SET` commands with a number. The `dst` argument of `SET TZINFO` is any token.
-/
inductive Setting where
  | gain
  | power
  | channel
  | tzInfo (dst : List UInt8)
  | async
  deriving DecidableEq, Repr

namespace Setting

def tokens : Setting → List UInt8 → Tokens
  | .gain, number => [ascii "SET", ascii "GAIN", number]
  | .power, number => [ascii "SET", ascii "POWER", number]
  | .channel, number => [ascii "SET", ascii "CHANNEL", number]
  | .tzInfo dst, number => [ascii "SET", ascii "TZINFO", number, dst]
  | .async, number => [ascii "SET", ascii "ASYNC", number]

def min : Setting → Int
  | .gain => -128
  | .tzInfo _ => -32768
  | _ => 0

def max : Setting → Int
  | .gain => 127
  | .power => 3
  | .channel => 255
  | .tzInfo _ => 32767
  | .async => 255

/--
The number that a request of the radio sets.
-/
def decode : Setting → List UInt8 → Option Int
  | .gain, [kind, id, db] =>
    if kind = msgSet ∧ id = scpSetGain then some db.toInt8.toInt else none
  | .power, [kind, id, mode] =>
    if kind = msgSet ∧ id = scpSetPower ∧ mode < 4 then some mode.toNat else none
  | .channel, kind :: id :: idx :: _ =>
    if kind = msgSet ∧ id = scpSetChannel then some idx.toNat else none
  | .tzInfo _, kind :: id :: hi :: lo :: _ =>
    if kind = msgSet ∧ id = scpSetTZInfo then
      some (Int16.ofNat (bigEndian [hi, lo])).toInt
    else
      none
  | .async, [kind, id, _, _, _, flags, _] =>
    if kind = msgSet ∧ id = scpSetAsync then some flags.toNat else none
  | _, _ => none

def payload : Setting → List UInt8 → Payload
  | .gain, number => setGain (atoi number).toInt8
  | .power, number => setPower (strtoul number).toUInt32.toUInt8
  | .channel, number => setChannel (strtoul number).toUInt8
  | .tzInfo dst, number => setTZ (atoi number).toInt16 (decide (strtoul dst > 0))
  | .async, number => enableAsyncNotifications (strtoul number).toUInt32.toUInt8

theorem processSet_eq (c : Setting) (number : List UInt8) (radio : Radio) (s : CSirServer)
    (client : ClientPtr)
    : processSet radio s client (c.tokens number) = request (c.payload number) radio s client := by
  cases c with
  | gain | power | channel | tzInfo | async => rfl

theorem sent_processCommand (c : Setting) {number cmd : List UInt8} (radio : Radio)
    {s : CSirServer} {client : ClientPtr} (hcmd : strTokenize cmd 0x20 true = c.tokens number)
    (hcontrol : s.controller = some client)
    : sent (processCommand radio s client cmd).2 = [c.payload number] := by
  have hhead : token (c.tokens number) 0 = ascii "SET" := by cases c <;> rfl
  have hlookup : cmdHandlers.lookup (ascii "SET") = some (validateSet, processSet) := rfl
  have hlength : 2 ≤ (c.tokens number).length := by cases c <;> simp [tokens]
  have hvalid : validateSet s client (c.tokens number) = true := by
    simp [validateSet, hasControl, hcontrol, hlength]
  unfold processCommand
  rw [hcmd]
  dsimp only
  rw [if_pos (by omega), hhead, hlookup]
  dsimp only
  rw [if_pos hvalid, processSet_eq, sent_request]

/--
The number that the request made for an argument sets.
-/
def sets : Setting → List UInt8 → Int
  | .gain, number => (atoi number).toInt8.toInt
  | .power, number => ((strtoul number).toUInt32.toUInt8 &&& 0x03).toNat
  | .channel, number => (strtoul number).toUInt8.toNat
  | .tzInfo _, number => (atoi number).toInt16.toInt
  | .async, number => (strtoul number).toUInt32.toUInt8.toNat

theorem toNat_highByte (offset : Int16)
    : (offset >>> 8).toUInt16.toUInt8.toNat = offset.toUInt16.toNat / 256 := by
  have hshift : (offset >>> 8).toBitVec = offset.toBitVec.sshiftRight 8 := rfl
  have hbits : (offset >>> 8).toBitVec.setWidth 8 = offset.toBitVec.extractLsb' 8 8 := by
    rw [hshift]
    ext i hi
    have hlt : 8 + i < 16 := by omega
    simp only [BitVec.getElem_setWidth, BitVec.getLsbD_sshiftRight, BitVec.getElem_extractLsb', hlt,
      if_true]
    simp
    omega
  have hbyte : (offset >>> 8).toUInt16.toUInt8.toBitVec
      = offset.toUInt16.toBitVec.extractLsb' 8 8 := hbits
  have hlt := offset.toUInt16.toNat_lt
  rw [← UInt8.toNat_toBitVec, hbyte, BitVec.extractLsb'_toNat, Nat.shiftRight_eq_div_pow,
    UInt16.toNat_toBitVec]
  omega

theorem toNat_lowByte (offset : Int16)
    : (offset &&& 0xff).toUInt16.toUInt8.toNat = offset.toUInt16.toNat % 256 := by
  have hmask : (0xff : Int16).toBitVec.setWidth 8 = BitVec.allOnes 8 := by decide
  have hbyte : (offset &&& 0xff).toUInt16.toUInt8.toBitVec = offset.toUInt16.toBitVec.setWidth 8 := by
    change (offset.toBitVec &&& (0xff : Int16).toBitVec).setWidth 8 = offset.toBitVec.setWidth 8
    rw [BitVec.setWidth_and, hmask, BitVec.and_allOnes]
  rw [← UInt8.toNat_toBitVec, hbyte, BitVec.toNat_setWidth]
  rfl

theorem bigEndian_setTZ (offset : Int16)
    : Int16.ofNat (bigEndian [(offset >>> 8).toUInt16.toUInt8, (offset &&& 0xff).toUInt16.toUInt8])
        = offset := by
  have hvalue : bigEndian [(offset >>> 8).toUInt16.toUInt8, (offset &&& 0xff).toUInt16.toUInt8]
      = offset.toUInt16.toNat := by
    have hsize : UInt8.size = 256 := rfl
    simp only [bigEndian, List.map_cons, List.map_nil, List.reverse_cons, List.reverse_nil,
      List.nil_append, List.cons_append, Nat.ofDigits_cons, Nat.ofDigits_nil, toNat_highByte,
      toNat_lowByte, hsize]
    omega
  have hbits : BitVec.ofNat 16 offset.toBitVec.toNat = offset.toBitVec := by simp
  rw [hvalue, ← Int16.toBitVec_inj]
  exact hbits

theorem and_three_lt (b : UInt8) : b &&& 0x03 < 4 := by
  rw [UInt8.lt_iff_toNat_lt, UInt8.toNat_and]
  exact Nat.lt_succ_of_le Nat.and_le_right

theorem decode_payload (c : Setting) (number : List UInt8)
    : c.decode (c.payload number).bytes = some (c.sets number) := by
  cases c with
  | gain => simp [payload, setGain, decode, sets]
  | power => simp [payload, setPower, decode, sets, and_three_lt]
  | channel => simp [payload, setChannel, decode, sets]
  | tzInfo dst =>
    dsimp only [payload, setTZ, decode, sets]
    rw [bigEndian_setTZ]
    rfl
  | async => simp [payload, enableAsyncNotifications, decode, sets]

theorem sets_bounds (c : Setting) (number : List UInt8)
    : c.min ≤ c.sets number ∧ c.sets number ≤ c.max := by
  cases c with
  | gain =>
    have hlt := (atoi number).toInt8.toInt_lt
    have hge := (atoi number).toInt8.le_toInt
    dsimp only [min, max, sets]
    omega
  | power =>
    have hlt := and_three_lt (strtoul number).toUInt32.toUInt8
    rw [UInt8.lt_iff_toNat_lt] at hlt
    dsimp only [min, max, sets]
    change _ < 4 at hlt
    omega
  | channel =>
    have hlt := (strtoul number).toUInt8.toNat_lt
    dsimp only [min, max, sets]
    omega
  | tzInfo dst =>
    have hlt := (atoi number).toInt16.toInt_lt
    have hge := (atoi number).toInt16.le_toInt
    dsimp only [min, max, sets]
    omega
  | async =>
    have hlt := (strtoul number).toUInt32.toUInt8.toNat_lt
    dsimp only [min, max, sets]
    omega

theorem sets_text (c : Setting) {n : Numeral} (hmin : c.min ≤ n.value) (hmax : n.value ≤ c.max)
    : c.sets n.text = n.value := by
  have hsize : UInt64.size = 18446744073709551616 := rfl
  have hmin₃₂ : Int32.minValue.toInt = -2147483648 := rfl
  have hmax₃₂ : Int32.maxValue.toInt = 2147483647 := rfl
  cases c with
  | gain =>
    dsimp only [min, max] at hmin hmax
    dsimp only [sets]
    rw [Numeral.atoi_text (by omega) (by omega), Int32.toInt8_ofInt, Int8.toInt_ofInt_of_le]
    all_goals omega
  | power =>
    dsimp only [min, max] at hmin hmax
    have hmod := Nat.and_two_pow_sub_one_eq_mod (n.value.toNat % 256) 2
    dsimp only [sets]
    rw [Numeral.strtoul_text (by omega) (by omega), UInt8.toNat_and]
    simp at hmod ⊢
    omega
  | channel =>
    dsimp only [min, max] at hmin hmax
    dsimp only [sets]
    rw [Numeral.strtoul_text (by omega) (by omega)]
    simp
    omega
  | tzInfo dst =>
    dsimp only [min, max] at hmin hmax
    dsimp only [sets]
    rw [Numeral.atoi_text (by omega) (by omega), Int32.toInt16_ofInt, Int16.toInt_ofInt_of_le]
    all_goals omega
  | async =>
    dsimp only [min, max] at hmin hmax
    dsimp only [sets]
    rw [Numeral.strtoul_text (by omega) (by omega)]
    simp
    omega

/--
The number that is written reaches the radio unchanged if and only if it is in the range of the
command.
-/
theorem sets_iff (c : Setting) (n : Numeral) {cmd : List UInt8} (radio : Radio) {s : CSirServer}
    {client : ClientPtr} (hcmd : strTokenize cmd 0x20 true = c.tokens n.text)
    (hcontrol : s.controller = some client)
    : (∀ data ∈ sent (processCommand radio s client cmd).2, c.decode data.bytes = some n.value)
        ↔
      c.min ≤ n.value ∧ n.value ≤ c.max := by
  rw [sent_processCommand c radio hcmd hcontrol]
  simp only [List.mem_singleton, forall_eq, decode_payload, Option.some.injEq]
  constructor
  . intro h
    rw [← h]
    apply sets_bounds
  . intro h
    apply sets_text c h.1 h.2

theorem sets_iff_negativeGain
    : strTokenize (ascii "SET GAIN -12") 0x20 true
          = gain.tokens (Numeral.mk .minus [1, 2] (by decide)).text
        ∧ (Numeral.mk .minus [1, 2] (by decide)).value = -12
        ∧ ((∀ data ∈ sent (processCommand ⟨255, .success⟩ ((CSirServer.new 3).acquireControl 0).1 0
              (ascii "SET GAIN -12")).2,
            gain.decode data.bytes = some (Numeral.mk .minus [1, 2] (by decide)).value)
          ↔
          gain.min ≤ (Numeral.mk .minus [1, 2] (by decide)).value
            ∧ (Numeral.mk .minus [1, 2] (by decide)).value ≤ gain.max) := by
  refine ⟨by decide, by decide, ?_⟩
  exact sets_iff gain _ ⟨255, .success⟩ (by decide) (by decide)

theorem channel_wrapped
    : (Numeral.mk .absent [3, 0, 0] (by decide)).value = 300
        ∧ (processCommand ⟨255, .success⟩ ((CSirServer.new 3).acquireControl 0).1 0
            (ascii "SET CHANNEL 300")).2
          = [.send (setChannel 44), .notify 0 (ascii "OK\n")]
        ∧ ¬ ∀ data ∈ sent (processCommand ⟨255, .success⟩ ((CSirServer.new 3).acquireControl 0).1 0
            (ascii "SET CHANNEL 300")).2,
          channel.decode data.bytes = some 300 := by
  decide

end Setting
