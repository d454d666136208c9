import Sircond.SirCon.Impl.Dispatch

/-!
This module contains what the records in a payload look like, as parsers on the bytes that are left
of it, and the proof that the decoders do what these parsers do. A decoder that stays inside the
payload is one whose parser finds a complete record there.
-/

open Scp Decoder

namespace Record

def takeString : List UInt8 → Option (List UInt8 × List UInt8)
  | [] => none
  | len :: rest =>
    if len.toNat ≤ rest.length then
      some (rest.take len.toNat, rest.drop len.toNat)
    else
      none

def takeFields (s : SCESongInfo) : Nat → List UInt8 → Option (SCESongInfo × List UInt8)
  | 0, rest => some (s, rest)
  | _ + 1, [] => some (s, [])
  | numFields + 1, tag :: rest =>
    if tag = sitErase then
      takeFields s numFields rest
    else
      (takeString rest).bind fun (str, rest) => takeFields (s.setField tag str) numFields rest

def takeSong (s : SCESongInfo) : List UInt8 → Option (SCESongInfo × List UInt8)
  | [] => some (s, [])
  | numFields :: rest => takeFields s numFields.toNat rest

def takeChannel (bytes : List UInt8) : Option (SCEChannelInfo × List UInt8) :=
  match bytes with
  | channel :: genre :: rest =>
    (takeString (rest.drop 3)).bind fun (sname, rest) =>
      (takeString rest).bind fun (lname, rest) =>
        (takeString rest).bind fun (sgenre, rest) =>
          (takeString rest).bind fun (lgenre, rest) =>
            some (⟨channel, genre, sname, lname, sgenre, lgenre⟩, rest)
  | _ => none

end Record

open Record

def Access.Ok (size : Nat) : Access → Prop
  | .read pos => pos < size
  | .sub len k => k ≤ len
  | .ret len n => n ≤ len
  | .check holds => holds = true

instance (size : Nat) : DecidablePred (Access.Ok size)
  | .read pos => inferInstanceAs (Decidable (pos < size))
  | .sub len k => inferInstanceAs (Decidable (k ≤ len))
  | .ret len n => inferInstanceAs (Decidable (n ≤ len))
  | .check holds => inferInstanceAs (Decidable (holds = true))

def memory (payload : List UInt8) (after : Memory) : Memory := fun pos =>
  payload[pos]?.getD (after pos)

/--
The decoder reads only bytes of the payload, whatever lies behind it, no length wraps and no
`deserialize` call claims more bytes than it was given.
-/
def Inside {α : Type} (payload : List UInt8) (after : Memory) (m : Decoder α) : Prop :=
  m.All (Access.Ok payload.length) (memory payload after)

instance {α : Type} (payload : List UInt8) (after : Memory) (m : Decoder α)
    : Decidable (Inside payload after m) := by
  unfold Inside
  infer_instance

section Inside

variable {α β : Type} {payload : List UInt8} {after : Memory}

@[simp]
theorem inside_pure (a : α) : Inside payload after (pure a) := by
  apply Logged.all_pure

@[simp]
theorem inside_bind (m : Decoder α) (f : α → Decoder β)
    : Inside payload after (m >>= f)
        ↔
      Inside payload after m ∧ Inside payload after (f (m.value (memory payload after))) := by
  apply Logged.all_bind

@[simp]
theorem inside_read (pos : Nat) : Inside payload after (read pos) ↔ pos < payload.length := by
  apply Logged.all_ask

@[simp]
theorem inside_sub (len k : Nat) : Inside payload after (sub len k) ↔ k ≤ len := by
  apply Logged.all_ask

@[simp]
theorem inside_ret (len : Nat) (event : α) (n : Nat)
    : Inside payload after (ret len event n) ↔ n ≤ len := by
  apply Logged.all_ask

@[simp]
theorem inside_check (holds : Bool) : Inside payload after (check holds) ↔ holds = true := by
  apply Logged.all_ask

@[simp]
theorem value_read (pos : Nat) (mem : Memory) : (read pos).value mem = mem pos := rfl

theorem value_sub {len k : Nat} (h : k ≤ len) (mem : Memory)
    : (sub len k).value mem = len - k := by
  apply if_pos h

theorem memory_eq (after : Memory) {pos : Nat} (h : pos < payload.length)
    : memory payload after pos = payload[pos] := by
  simp [memory, h]

end Inside

/--
The decoder does from `data` on what a parser does with the result `g`: it stays inside the payload
and gets to where the parser gets, or it leaves the payload where the parser fails.
-/
def Decodes {α : Type} (payload : List UInt8) (after : Memory) (data : Nat) (m : Decoder (α × Nat))
    (g : Option (α × List UInt8)) : Prop :=
  match g with
  | some (a, rest) => Inside payload after m ∧ ∃ n, m.value (memory payload after) = (a, n)
      ∧ data + n ≤ payload.length ∧ payload.drop (data + n) = rest
  | none => ¬ Inside payload after m

section Decodes

variable {α β : Type} {payload : List UInt8} {after : Memory} {data : Nat}

theorem Decodes.inside_iff {m : Decoder (α × Nat)} {g : Option (α × List UInt8)}
    (h : Decodes payload after data m g)
    : Inside payload after m ↔ g.isSome := by
  cases g with
  | none => exact iff_of_false h (by simp)
  | some r => exact iff_of_true h.1 rfl

theorem Decodes.bind {pos : Nat} {m : Decoder (α × Nat)} {g : Option (α × List UInt8)}
    {f : α × Nat → Decoder (β × Nat)} {g' : α × List UInt8 → Option (β × List UInt8)}
    (hm : Decodes payload after pos m g)
    (hf : ∀ a n, pos + n ≤ payload.length →
      Decodes payload after data (f (a, n)) (g' (a, payload.drop (pos + n))))
    : Decodes payload after data (m >>= f) (g.bind g') := by
  cases g with
  | none =>
    unfold Decodes at hm
    simp [Decodes, hm]
  | some r =>
    obtain ⟨a, rest⟩ := r
    obtain ⟨hinside, n, hvalue, hle, rfl⟩ := hm
    have h := hf a n hle
    rw [Option.bind_some]
    cases hg : g' (a, payload.drop (pos + n)) with
    | none =>
      rw [hg] at h
      unfold Decodes at h
      simp [Decodes, hvalue, h]
    | some r =>
      rw [hg] at h
      obtain ⟨hinside', n', hvalue', hle', hrest⟩ := h
      refine ⟨?_, n', ?_, hle', hrest⟩
      . rw [inside_bind, hvalue]
        exact ⟨hinside, hinside'⟩
      . rw [Logged.value_bind, hvalue]
        apply hvalue'

theorem decodes_read_bind {pos : Nat} {f : UInt8 → Decoder (α × Nat)}
    {g : Option (α × List UInt8)} (hshort : payload.length ≤ pos → g = none)
    (hf : ∀ h : pos < payload.length, Decodes payload after data (f payload[pos]) g)
    : Decodes payload after data (read pos >>= f) g := by
  by_cases hpos : pos < payload.length
  . have h := hf hpos
    rw [← memory_eq after hpos] at h
    cases g with
    | none =>
      unfold Decodes at h
      simp [Decodes, h]
    | some r =>
      obtain ⟨hinside, hvalue⟩ := h
      refine ⟨?_, hvalue⟩
      rw [inside_bind, inside_read]
      exact ⟨hpos, hinside⟩
  . rw [hshort (by omega)]
    simp [Decodes, hpos]

theorem decodes_ret {len n : Nat} (event : α) (hle : data + n ≤ payload.length) (hlen : n ≤ len)
    : Decodes payload after data (ret len event n) (some (event, payload.drop (data + n))) := by
  refine ⟨?_, n, rfl, hle, rfl⟩
  rw [inside_ret]
  apply hlen

theorem inside_copy (data n : Nat)
    : Inside payload after (copy data n) ↔ n = 0 ∨ data + n ≤ payload.length := by
  induction n generalizing data with
  | zero => simp [copy]
  | succ n ih =>
    simp only [copy, inside_bind, inside_read, ih, inside_pure, and_true]
    omega

theorem value_copy {data n : Nat} (h : data + n ≤ payload.length)
    : (copy data n).value (memory payload after) = (payload.drop data).take n := by
  induction n generalizing data with
  | zero => simp [copy]
  | succ n ih =>
    rw [List.drop_eq_getElem_cons (by omega), List.take_succ_cons]
    simp only [copy, Logged.value_bind, value_read, Logged.value_pure]
    rw [ih (by omega), memory_eq after (by omega)]

theorem decodes_copyPascalString (data : Nat)
    : Decodes payload after data (copyPascalString data) (takeString (payload.drop data)) := by
  unfold copyPascalString
  apply decodes_read_bind
  . intro h
    rw [List.drop_eq_nil_of_le h]
    rfl
  . intro h
    rw [List.drop_eq_getElem_cons h]
    unfold takeString
    dsimp only
    rw [List.length_drop]
    split
    . next hlen =>
      refine ⟨?_, payload[data].toNat + 1, ?_, by omega, ?_⟩
      . simp only [inside_bind, inside_copy, inside_pure, and_true]
        omega
      . rw [Logged.value_bind, value_copy (by omega)]
        rfl
      . rw [List.drop_drop]
        congr 1
        omega
    . next hlen =>
      unfold Decodes
      simp only [inside_bind, inside_copy, inside_pure, and_true]
      omega

theorem decodes_go {len : Nat} (hlen : data + len = payload.length) (numFields : Nat)
    {s : SCESongInfo} {offset : Nat} (hoffset : offset ≤ len)
    : Decodes payload after data (SCESongInfo.deserialize.go data len s offset numFields)
        (takeFields s numFields (payload.drop (data + offset))) := by
  induction numFields generalizing s offset with
  | zero =>
    unfold SCESongInfo.deserialize.go takeFields
    apply decodes_ret
    . omega
    . omega
  | succ numFields ih =>
    unfold SCESongInfo.deserialize.go
    split
    . next hlt =>
      have hpos : data + offset < payload.length := by omega
      rw [List.drop_eq_getElem_cons hpos]
      unfold takeFields
      apply decodes_read_bind
      . intro h
        omega
      . intro h
        split
        . apply ih
          omega
        . apply (decodes_copyPascalString (data + (offset + 1))).bind
          intro str n hn
          have hnext : data + (offset + 1) + n = data + (offset + 1 + n) := by omega
          rw [hnext]
          apply ih
          omega
    . next hlt =>
      obtain rfl : offset = len := by omega
      have hnil : payload.drop (data + offset) = [] := List.drop_eq_nil_of_le (by omega)
      rw [hnil]
      unfold takeFields
      rw [← hnil]
      apply decodes_ret
      . omega
      . omega

theorem decodes_song {len : Nat} (hlen : data + len = payload.length) (s : SCESongInfo)
    : Decodes payload after data (s.deserialize data len) (takeSong s (payload.drop data)) := by
  unfold SCESongInfo.deserialize
  split
  . have hnil : payload.drop data = [] := List.drop_eq_nil_of_le (by omega)
    have htake : takeSong s (payload.drop data) = some (s, payload.drop (data + 0)) := by
      rw [Nat.add_zero, hnil]
      rfl
    rw [htake]
    apply decodes_ret
    . omega
    . omega
  . have hpos : data < payload.length := by omega
    rw [List.drop_eq_getElem_cons hpos]
    unfold takeSong
    apply decodes_read_bind
    . intro h
      omega
    . intro h
      apply decodes_go hlen
      omega

theorem decodes_channel {len : Nat} (hlen : data + len = payload.length)
    : Decodes payload after data (SCEChannelInfo.deserialize data len)
        (takeChannel (payload.drop data)) := by
  unfold SCEChannelInfo.deserialize
  apply decodes_read_bind
  . intro h
    rw [List.drop_eq_nil_of_le h]
    rfl
  . intro h
    rw [List.drop_eq_getElem_cons h]
    apply decodes_read_bind
    . intro h'
      rw [List.drop_eq_nil_of_le h']
      rfl
    . intro h'
      rw [List.drop_eq_getElem_cons h']
      unfold takeChannel
      dsimp only
      rw [List.drop_drop]
      apply (decodes_copyPascalString (data + 5)).bind
      intro sname n₁ h₁
      dsimp only
      rw [Nat.add_assoc data]
      apply (decodes_copyPascalString (data + (5 + n₁))).bind
      intro lname n₂ h₂
      dsimp only
      rw [Nat.add_assoc data]
      apply (decodes_copyPascalString (data + (5 + n₁ + n₂))).bind
      intro sgenre n₃ h₃
      dsimp only
      rw [Nat.add_assoc data]
      apply (decodes_copyPascalString (data + (5 + n₁ + n₂ + n₃))).bind
      intro lgenre n₄ h₄
      dsimp only
      rw [Nat.add_assoc data]
      apply decodes_ret
      . omega
      . omega

end Decodes
