import Sircond.SirCon.Lemmas.Decoder

/-!
This module contains that the assertions of the decoders hold for every message.
-/

open Scp Decoder

/--
The assertions made hold, whatever else is accessed.
-/
def Access.Holds : Access → Prop
  | .read _ => True
  | .sub _ _ => True
  | .ret _ _ => True
  | .check holds => holds = true

def Asserts {α : Type} (mem : Memory) (m : Decoder α) : Prop := m.All Access.Holds mem

section Asserts

variable {α β : Type} {mem : Memory}

theorem asserts_pure (a : α) : Asserts mem (pure a) := Logged.all_pure a

theorem Asserts.bind_value {m : Decoder α} {f : α → Decoder β} (hm : Asserts mem m)
    (hf : Asserts mem (f (m.value mem)))
    : Asserts mem (m >>= f) :=
  (Logged.all_bind m f).mpr ⟨hm, hf⟩

theorem Asserts.bind {m : Decoder α} {f : α → Decoder β} (hm : Asserts mem m)
    (hf : ∀ a, Asserts mem (f a))
    : Asserts mem (m >>= f) :=
  hm.bind_value (hf _)

theorem Asserts.ite {c : Prop} [Decidable c] {m₁ m₂ : Decoder α} (hpos : c → Asserts mem m₁)
    (hneg : ¬ c → Asserts mem m₂)
    : Asserts mem (if c then m₁ else m₂) :=
  Logged.all_ite hpos hneg

theorem asserts_read (pos : Nat) : Asserts mem (read pos) := (Logged.all_ask ..).mpr trivial

theorem asserts_sub (len k : Nat) : Asserts mem (sub len k) := (Logged.all_ask ..).mpr trivial

theorem asserts_check {holds : Bool} (h : holds = true) : Asserts mem (check holds) :=
  (Logged.all_ask ..).mpr h

theorem asserts_ret (len : Nat) (event : α) (n : Nat) : Asserts mem (ret len event n) :=
  (Logged.all_ask ..).mpr trivial

theorem asserts_copy (data n : Nat) : Asserts mem (copy data n) := by
  induction n generalizing data with
  | zero => apply asserts_pure
  | succ n ih =>
    apply (asserts_read data).bind
    intro b
    apply (ih (data + 1)).bind
    intro bytes
    apply asserts_pure

theorem asserts_copyPascalString (srcstr : Nat) : Asserts mem (copyPascalString srcstr) := by
  apply (asserts_read srcstr).bind
  intro len
  apply (asserts_copy _ _).bind
  intro str
  apply asserts_pure

theorem asserts_oneByte (event : UInt8 → α) (data len : Nat)
    : Asserts mem (oneByte event data len) := by
  apply (asserts_read data).bind
  intro b
  apply asserts_ret

theorem asserts_threeBytes (event : UInt8 → UInt8 → UInt8 → α) (data len : Nat)
    : Asserts mem (threeBytes event data len) := by
  apply (asserts_read _).bind
  intro b₀
  apply (asserts_read _).bind
  intro b₁
  apply (asserts_read _).bind
  intro b₂
  apply asserts_ret

theorem asserts_pascalString (event : List UInt8 → α) (data len : Nat)
    : Asserts mem (pascalString event data len) := by
  apply (asserts_copyPascalString data).bind
  intro r
  apply asserts_ret

theorem asserts_time (data len : Nat) : Asserts mem (SCETime.deserialize data len) := by
  unfold SCETime.deserialize
  iterate 9
    apply (asserts_read _).bind
    intro _
  apply asserts_ret

theorem asserts_go (data len numFields : Nat) (s : SCESongInfo) (offset : Nat)
    : Asserts mem (SCESongInfo.deserialize.go data len s offset numFields) := by
  induction numFields generalizing s offset with
  | zero => apply asserts_ret
  | succ numFields ih =>
    unfold SCESongInfo.deserialize.go
    refine .ite (fun _ => ?_) fun _ => asserts_ret _ _ _
    apply (asserts_read _).bind
    intro tag
    refine .ite (fun _ => ih _ _) fun _ => ?_
    apply (asserts_copyPascalString _).bind
    intro r
    apply ih

theorem asserts_song (s : SCESongInfo) (data len : Nat) : Asserts mem (s.deserialize data len) := by
  unfold SCESongInfo.deserialize
  refine .ite (fun _ => asserts_ret _ _ _) fun _ => ?_
  apply (asserts_read data).bind
  intro numFields
  apply asserts_go

theorem asserts_channelInfo (data len : Nat) : Asserts mem (SCEChannelInfo.deserialize data len) := by
  unfold SCEChannelInfo.deserialize
  apply (asserts_read _).bind
  intro channel
  apply (asserts_read _).bind
  intro genre
  apply (asserts_copyPascalString _).bind
  intro sname
  apply (asserts_copyPascalString _).bind
  intro lname
  apply (asserts_copyPascalString _).bind
  intro sgenre
  apply (asserts_copyPascalString _).bind
  intro lgenre
  apply asserts_ret

end Asserts

namespace Cache

section Asserts

variable {mem : Memory} (c : Cache) (data len : Nat)

theorem asserts_notifyDecoded {α : Type} {deserialize : Nat → Nat → Decoder (α × Nat)}
    (event : α → SCEvent) (k : Nat) (h : ∀ data len, Asserts mem (deserialize data len))
    : Asserts mem (c.notifyDecoded deserialize event data len k) := by
  apply (asserts_sub _ _).bind
  intro n
  apply (h _ _).bind
  intro r
  apply asserts_pure

theorem asserts_notifyChannel : Asserts mem (c.notifyChannel data len) := by
  apply (asserts_sub _ _).bind
  intro n
  apply (asserts_oneByte _ _ _).bind
  intro r
  apply asserts_pure

theorem asserts_notifySongInfo (k : Nat) : Asserts mem (c.notifySongInfo data len k) := by
  apply (asserts_read _).bind
  intro channel
  apply (asserts_sub _ _).bind
  intro n
  apply (asserts_song _ _ _).bind
  intro r
  apply asserts_pure

theorem asserts_decodeChannelAndSong : Asserts mem (decodeChannelAndSong data len) := by
  apply (asserts_sub _ _).bind
  intro n
  apply (asserts_channelInfo _ _).bind
  intro r
  apply (asserts_sub _ _).bind
  intro m
  apply (asserts_song _ _ _).bind
  intro r'
  apply asserts_pure

/--
The length guard of the dispatcher leaves enough bytes behind the result code for the bitmap.
-/
theorem asserts_getChannelMap : Asserts mem (c.getChannelMap data len) := by
  refine .ite (fun hlen => ?_) fun _ => asserts_pure _
  have hsize : channelBitmapSize = 28 := rfl
  have hsub : (sub len 4).value mem = len - 4 := value_sub (by omega) mem
  apply (asserts_sub _ _).bind_value
  rw [hsub]
  have hcheck : decide (len - 4 ≥ channelBitmapSize) = true := by
    rw [decide_eq_true_eq]
    omega
  apply Asserts.bind
  . apply (asserts_check hcheck).bind
    intro _
    apply (asserts_copy _ _).bind
    intro channelMap
    apply asserts_ret
  . intro m
    apply (asserts_copy _ _).bind
    intro channelMap
    apply asserts_pure

theorem asserts_asyncStatus : Asserts mem (c.asyncStatus data len) := by
  apply (asserts_read _).bind
  intro type
  refine .ite (fun _ => asserts_notifyChannel _ _ _) fun _ => ?_
  refine .ite (fun _ => asserts_notifyDecoded _ _ _ _ _ (asserts_oneByte _)) fun _ => ?_
  refine .ite (fun _ => asserts_notifyDecoded _ _ _ _ _ (asserts_oneByte _)) fun _ => ?_
  apply asserts_pure

theorem asserts_async (id : UInt8) : Asserts mem (async id c data len) := by
  refine .ite (fun _ => asserts_pure _) fun _ => ?_
  refine .ite (fun _ => asserts_notifySongInfo _ _ _ _) fun _ => ?_
  refine .ite (fun _ => asserts_notifyDecoded _ _ _ _ _ (asserts_pascalString _)) fun _ => ?_
  refine .ite (fun _ => asserts_notifyDecoded _ _ _ _ _ asserts_time) fun _ => ?_
  refine .ite (fun _ => asserts_asyncStatus _ _ _) fun _ => ?_
  refine .ite (fun _ => asserts_notifyDecoded _ _ _ _ _ (asserts_threeBytes _)) fun _ => ?_
  apply asserts_pure

theorem asserts_getResponse (id : UInt8) : Asserts mem (getResponse id c data len) := by
  refine .ite (fun _ => asserts_notifyDecoded _ _ _ _ _ (asserts_oneByte _)) fun _ => ?_
  refine .ite (fun _ => asserts_notifyDecoded _ _ _ _ _ (asserts_oneByte _)) fun _ => ?_
  refine .ite (fun _ => asserts_notifyDecoded _ _ _ _ _ (asserts_oneByte _)) fun _ => ?_
  refine .ite (fun _ => asserts_notifyChannel _ _ _) fun _ => ?_
  refine .ite (fun _ => (asserts_decodeChannelAndSong _ _).bind fun _ => asserts_pure _) fun _ => ?_
  refine .ite (fun _ => asserts_notifySongInfo _ _ _ _) fun _ => ?_
  refine .ite (fun _ => asserts_getChannelMap _ _ _) fun _ => ?_
  refine .ite (fun _ => asserts_notifyDecoded _ _ _ _ _ (asserts_pascalString _)) fun _ => ?_
  refine .ite (fun _ => asserts_notifyDecoded _ _ _ _ _ (asserts_threeBytes _)) fun _ => ?_
  refine .ite (fun _ => asserts_notifyDecoded _ _ _ _ _ asserts_time) fun _ => ?_
  refine .ite (fun _ => asserts_notifyDecoded _ _ _ _ _ (asserts_threeBytes _)) fun _ => ?_
  refine .ite (fun _ => asserts_notifyDecoded _ _ _ _ _ (asserts_threeBytes _)) fun _ => ?_
  apply asserts_pure

theorem asserts_resultCode : Asserts mem (resultCode data) := by
  apply (asserts_read _).bind
  intro hi
  apply (asserts_read _).bind
  intro lo
  apply asserts_pure

theorem asserts_dispatchGetResponse : Asserts mem (c.dispatchGetResponse data len) := by
  apply (asserts_resultCode _).bind
  intro result
  apply (asserts_read _).bind
  intro id
  refine .ite (fun _ => ?_) fun _ => asserts_pure _
  apply (asserts_getResponse _ _ _ _).bind
  intro r
  apply asserts_pure

theorem asserts_dispatchSetResponse : Asserts mem (c.dispatchSetResponse data len) := by
  apply (asserts_resultCode _).bind
  intro result
  apply (asserts_read _).bind
  intro id
  refine .ite (fun _ => ?_) fun _ => asserts_pure _
  refine .ite (fun _ => ?_) fun _ => asserts_pure _
  refine .ite (fun _ => ?_) fun _ => asserts_pure _
  apply (asserts_decodeChannelAndSong _ _).bind
  intro r
  apply asserts_pure

/--
No message makes an assertion fail, however short it is and whatever lies behind it.
-/
theorem asserts_dispatch : Asserts mem (c.dispatch data len) := by
  apply (asserts_read _).bind
  intro kind
  refine .ite (fun _ => asserts_dispatchSetResponse _ _ _) fun _ => ?_
  refine .ite (fun _ => asserts_dispatchGetResponse _ _ _) fun _ => ?_
  refine .ite (fun _ => ?_) fun _ => asserts_pure _
  apply (asserts_read _).bind
  intro id
  apply asserts_async

end Asserts

end Cache
