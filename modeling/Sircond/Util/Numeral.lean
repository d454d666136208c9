import Sircond.Util.Basic
import Sircond.Lib.Numeral
import Mathlib.Data.List.TakeWhile

/-!
This module contains what the number conversions make of a decimal number: the number itself, if it
fits into the type of the result.
-/

namespace Numeral

theorem isDigit_digit (d : Fin 10) : isDigit (digit d) = true := by
  revert d
  decide

theorem isSpace_digit (d : Fin 10) : isSpace (digit d) = false := by
  revert d
  decide

theorem digit_ne_sign (d : Fin 10) : digit d ≠ 0x2D ∧ digit d ≠ 0x2B := by
  revert d
  decide

theorem isDigit_of_mem {n : Numeral} {b : UInt8} (h : b ∈ n.digitText) : isDigit b = true := by
  unfold digitText at h
  rw [List.mem_map] at h
  obtain ⟨d, -, rfl⟩ := h
  apply isDigit_digit

theorem parseDigits_digitText (n : Numeral) : parseDigits n.digitText = n.magnitude := by
  have hall : n.digitText.takeWhile isDigit = n.digitText := by
    rw [List.takeWhile_eq_self_iff]
    intro b hb
    apply isDigit_of_mem hb
  unfold parseDigits magnitude
  rw [hall, digitText, List.foldl_map, ← foldl_digits]
  congr 1
  funext k d
  rw [toNat_digit]
  omega

theorem cStr_text (n : Numeral) : cStr n.text = n.text := by
  have hdigit : ∀ b ∈ n.digitText, b ≠ 0 := by
    rintro b hb rfl
    have := isDigit_of_mem hb
    simp [isDigit] at this
  unfold cStr
  rw [List.takeWhile_eq_self_iff]
  intro b hb
  rw [decide_eq_true_iff]
  unfold text at hb
  split at hb
  . apply hdigit b hb
  . cases hb with
    | head => decide
    | tail _ hb => apply hdigit b hb
  . cases hb with
    | head => decide
    | tail _ hb => apply hdigit b hb

theorem parseDecimal_text (n : Numeral) : parseDecimal n.text = (decide (n.sign = .minus), n.magnitude) := by
  have hdigits := n.parseDigits_digitText
  unfold parseDecimal
  rw [cStr_text]
  cases hsign : n.sign with
  | absent =>
    obtain ⟨d, ds, hds⟩ := List.exists_cons_of_ne_nil n.nonempty
    have htext : n.text = digit d :: ds.map digit := by simp [text, hsign, digitText, hds]
    have hcons : n.digitText = digit d :: ds.map digit := by simp [digitText, hds]
    obtain ⟨hminus, hplus⟩ := digit_ne_sign d
    rw [htext, List.dropWhile_cons_of_neg (by simp [isSpace_digit])]
    simp [hminus, hplus, ← hcons, hdigits]
  | plus =>
    have htext : n.text = 0x2B :: n.digitText := by simp [text, hsign]
    rw [htext, List.dropWhile_cons_of_neg (by decide)]
    simp [hdigits]
  | minus =>
    have htext : n.text = 0x2D :: n.digitText := by simp [text, hsign]
    rw [htext, List.dropWhile_cons_of_neg (by decide)]
    simp [hdigits]

theorem strtoul_text {n : Numeral} (hnonneg : 0 ≤ n.value) (hlt : n.value < UInt64.size)
    : strtoul n.text = UInt64.ofNat n.value.toNat := by
  have habs := n.natAbs_value
  unfold strtoul
  rw [parseDecimal_text]
  dsimp only
  rw [if_neg (by omega)]
  by_cases hsign : n.sign = .minus
  . have hvalue := value_of_minus hsign
    have hzero : n.magnitude = 0 := by omega
    have hzero' : n.value.toNat = 0 := by omega
    rw [hzero, hzero']
    simp
  . have htoNat : n.value.toNat = n.magnitude := by omega
    simp [hsign, htoNat]

theorem atoi_text {n : Numeral} (hmin : Int32.minValue.toInt ≤ n.value)
    (hmax : n.value ≤ Int32.maxValue.toInt)
    : atoi n.text = Int32.ofInt n.value := by
  have hmin₃₂ : Int32.minValue.toInt = -2147483648 := rfl
  have hmax₃₂ : Int32.maxValue.toInt = 2147483647 := rfl
  have hmin₆₄ : Int64.minValue.toInt = -9223372036854775808 := rfl
  have hmax₆₄ : Int64.maxValue.toInt = 9223372036854775807 := rfl
  have hstrtol : strtol n.text = n.value := by
    unfold strtol
    rw [parseDecimal_text]
    dsimp only
    by_cases hsign : n.sign = .minus
    . have hvalue := value_of_minus hsign
      rw [if_pos (by simpa using hsign), max_eq_left (by omega), hvalue]
    . have hvalue := value_of_ne_minus hsign
      rw [if_neg (by simpa using hsign), min_eq_left (by omega), hvalue]
  rw [atoi, hstrtol]

end Numeral
