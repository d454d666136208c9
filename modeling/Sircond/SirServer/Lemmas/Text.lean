import Sircond.SirServer.EventLines
import Sircond.Util.Numeral

/-!
This module contains what the decimal numbers in the text of an event say: a number is read back by the
conversions of the C library.
-/

theorem isDigit_of_mem_decimal {n : Nat} {b : UInt8} (h : b ∈ decimal n) : isDigit b = true := by
  unfold decimal at h
  rw [List.mem_map] at h
  rcases h with ⟨c, hc, rfl⟩
  apply isDigit_toUInt8
  apply Nat.isDigit_of_mem_toDigits (by decide) (by decide) hc

theorem toNat_toUInt8_of_isDigit {c : Char} (h : c.isDigit = true) : c.toUInt8.toNat = c.toNat := by
  have hzero : '0'.val.toNat = 0x30 := rfl
  have hnine : '9'.val.toNat = 0x39 := rfl
  simp only [Char.isDigit, Bool.and_eq_true, decide_eq_true_eq, ge_iff_le, UInt32.le_iff_toNat_le,
    hzero, hnine] at h
  have htoNat : c.toNat = c.val.toNat := rfl
  rw [Char.toUInt8, UInt32.toNat_toUInt8, htoNat]
  omega

theorem parseDigits_decimal (n : Nat) : parseDigits (decimal n) = n := by
  have hall : (decimal n).takeWhile isDigit = decimal n := by
    rw [List.takeWhile_eq_self_iff]
    intro b hb
    apply isDigit_of_mem_decimal hb
  have hfold : ∀ (l : List Char) (init : Nat), (∀ c ∈ l, c.isDigit = true) →
      l.foldl (fun k c => 10 * k + (c.toUInt8.toNat - 0x30)) init = Nat.ofDigitChars 10 l init := by
    intro l
    induction l with
    | nil => simp
    | cons c l ih =>
      intro init hl
      rw [List.forall_mem_cons] at hl
      rw [List.foldl_cons, ih _ hl.2, Nat.ofDigitChars_cons, toNat_toUInt8_of_isDigit hl.1]
      rfl
  unfold parseDigits
  rw [hall, decimal, List.foldl_map, hfold]
  . apply Nat.ofDigitChars_ten_toDigits
  . intro c hc
    apply Nat.isDigit_of_mem_toDigits (by decide) (by decide) hc

theorem exists_decimal_eq_cons (n : Nat)
    : ∃ b rest, decimal n = b :: rest ∧ isDigit b = true := by
  rcases hdecimal : decimal n with _ | ⟨b, rest⟩
  . unfold decimal at hdecimal
    rw [List.map_eq_nil_iff] at hdecimal
    exact absurd hdecimal Nat.toDigits_ne_nil
  . refine ⟨b, rest, rfl, ?_⟩
    apply isDigit_of_mem_decimal (n := n)
    rw [hdecimal]
    apply List.mem_cons_self

theorem mem_signed {n : Int} {b : UInt8} (h : b ∈ signed n) : isDigit b = true ∨ b = 0x2D := by
  unfold signed at h
  split at h
  . cases h with
    | head => exact .inr rfl
    | tail _ h => exact .inl (isDigit_of_mem_decimal h)
  . exact .inl (isDigit_of_mem_decimal h)

theorem unsigned_eq_signed (b : UInt8) : unsigned b = signed b.toNat := by
  unfold signed
  rw [if_neg (by omega), Int.natAbs_natCast]
  rfl

theorem decimal_eq_signed (n : Nat) : decimal n = signed n := by
  unfold signed
  rw [if_neg (by omega), Int.natAbs_natCast]

theorem cStr_signed (n : Int) : cStr (signed n) = signed n := by
  unfold cStr
  rw [List.takeWhile_eq_self_iff]
  intro b hb
  rw [decide_eq_true_iff]
  rintro rfl
  rcases mem_signed hb with hdigit | hminus
  . simp [isDigit] at hdigit
  . simp at hminus

theorem ne_of_isDigit {b : UInt8} (h : isDigit b = true)
    : isSpace b = false ∧ b ≠ 0x2D ∧ b ≠ 0x2B := by
  simp only [isDigit, Bool.and_eq_true, decide_eq_true_eq, UInt8.le_iff_toNat_le,
    UInt8.reduceToNat] at h
  simp only [isSpace, Bool.or_eq_false_iff, Bool.and_eq_false_iff, decide_eq_false_iff_not,
    UInt8.le_iff_toNat_le, ← UInt8.toNat_inj, ne_eq, UInt8.reduceToNat]
  omega

theorem parseDecimal_signed (n : Int) : parseDecimal (signed n) = (decide (n < 0), n.natAbs) := by
  unfold parseDecimal
  rw [cStr_signed]
  by_cases hneg : n < 0
  . have hsigned : signed n = 0x2D :: decimal n.natAbs := if_pos hneg
    rw [hsigned, List.dropWhile_cons_of_neg (by decide)]
    simp [parseDigits_decimal, hneg]
  . have hsigned : signed n = decimal n.natAbs := if_neg hneg
    rcases exists_decimal_eq_cons n.natAbs with ⟨b, rest, hdecimal, hdigit⟩
    obtain ⟨hspace, hminus, hplus⟩ := ne_of_isDigit hdigit
    rw [hsigned, hdecimal, List.dropWhile_cons_of_neg (by simp [hspace])]
    simp only [hminus, hplus, if_false]
    rw [← hdecimal, parseDigits_decimal, decide_eq_false hneg]

theorem signed_inj {n n' : Int} (h : signed n = signed n') : n = n' := by
  have hparse := congrArg parseDecimal h
  rw [parseDecimal_signed, parseDecimal_signed] at hparse
  obtain ⟨hsign, habs⟩ := Prod.mk.inj hparse
  rw [decide_eq_decide] at hsign
  omega
