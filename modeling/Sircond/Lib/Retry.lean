import Mathlib.Data.List.Basic
import Mathlib.Data.List.Range

/-!
This module contains attempts that are repeated until one succeeds or their number is used up: which of
them are made, and what they leave behind.

The attempts are numbered, and each of them says whether it has succeeded and what it has done. `pause`
is what is done after an attempt that has failed.
-/

namespace Retry

variable {β : Type}

def retry (f : Nat → Bool × List β) (pause : List β) : Nat → Nat → Bool × List β
  | 0, _ => (false, [])
  | left + 1, cnt =>
    let (succeeded, acts) := f cnt
    if succeeded then
      (true, acts)
    else
      let (succeeded, acts') := retry f pause left (cnt + 1)
      (succeeded, acts ++ pause ++ acts')

/-- The number of attempts that are made. -/
def tries (p : Nat → Bool) : Nat → Nat → Nat
  | 0, _ => 0
  | left + 1, cnt => if p cnt then 1 else tries p left (cnt + 1) + 1

section

variable (f : Nat → Bool × List β) (pause : List β) (left cnt : Nat)

theorem retry_fst_iff : (retry f pause left cnt).1 = true ↔ ∃ i < left, (f (cnt + i)).1 = true := by
  induction left generalizing cnt with
  | zero => simp [retry]
  | succ left ih =>
    unfold retry
    dsimp only
    split
    . next hsucceeded =>
      simp only [true_iff]
      exact ⟨0, Nat.succ_pos left, hsucceeded⟩
    . next hfailed =>
      rw [ih]
      constructor
      . rintro ⟨i, hi, hf⟩
        exact ⟨i + 1, by omega, by rwa [Nat.add_succ, ← Nat.succ_add]⟩
      . rintro ⟨i, hi, hf⟩
        cases i with
        | zero => exact absurd hf hfailed
        | succ i => exact ⟨i, by omega, by rwa [Nat.succ_add, ← Nat.add_succ]⟩

theorem retry_snd
    : (retry f pause left cnt).2
        = (List.range (tries (fun i => (f i).1) left cnt)).flatMap fun i =>
            (f (cnt + i)).2 ++ if (f (cnt + i)).1 then [] else pause := by
  induction left generalizing cnt with
  | zero => rfl
  | succ left ih =>
    unfold retry tries
    dsimp only
    split
    . next hsucceeded =>
      simp [hsucceeded]
    . next hfailed =>
      dsimp only
      rw [ih, List.range_succ_eq_map, List.flatMap_cons, List.flatMap_map]
      simp only [Nat.add_zero, if_neg hfailed, Nat.succ_eq_add_one, Nat.add_assoc, Nat.add_comm 1]

variable {f left cnt}

theorem retry_congr {f' : Nat → Bool × List β} (h : ∀ i < left, f (cnt + i) = f' (cnt + i))
    : retry f pause left cnt = retry f' pause left cnt := by
  induction left generalizing cnt with
  | zero => rfl
  | succ left ih =>
    have hrest : retry f pause left (cnt + 1) = retry f' pause left (cnt + 1) := by
      apply ih
      intro i hi
      rw [Nat.succ_add, ← Nat.add_succ]
      apply h
      omega
    unfold retry
    rw [hrest, ← Nat.add_zero cnt, h 0 (Nat.succ_pos left)]

end

end Retry
