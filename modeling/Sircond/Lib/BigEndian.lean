import Mathlib.Data.Nat.Bitwise
import Mathlib.Data.Nat.Digits.Defs
import Mathlib.Data.List.Induction

/-!
This module contains bytes read as one number, the first byte being the most significant one, and
which byte a bit of the number is in.
-/

def bigEndian (bytes : List UInt8) : Nat := Nat.ofDigits UInt8.size (bytes.map UInt8.toNat).reverse

namespace BigEndian

theorem bigEndian_append (bytes : List UInt8) (b : UInt8)
    : bigEndian (bytes ++ [b]) = UInt8.size * bigEndian bytes + b.toNat := by
  unfold bigEndian
  rw [List.map_append, List.reverse_append]
  simp only [List.map_cons, List.map_nil, List.reverse_cons, List.reverse_nil, List.nil_append,
    List.cons_append, Nat.ofDigits_cons]
  omega

/--
Bit `i` of the number is bit `i % 8` of the byte that has `i / 8` bytes behind it.
-/
theorem testBit_bigEndian (bytes : List UInt8)
    : ∀ i : Nat,
        (bigEndian bytes).testBit i
          =
        (i < 8 * bytes.length
          && (bytes.getD (bytes.length - i / 8 - 1) 0).toNat.testBit (i % 8)) := by
  induction bytes using List.reverseRecOn with
  | nil => simp [bigEndian]
  | append_singleton bytes b ih =>
    intro i
    have hbit := Nat.testBit_two_pow_mul_add (bigEndian bytes) (i := 8) b.toNat_lt i
    rw [bigEndian_append]
    refine hbit.trans ?_
    rw [List.length_append, List.length_singleton]
    split
    . next hi =>
      have hdiv : i / 8 = 0 := by omega
      have hmod : i % 8 = i := by omega
      have hlt : i < 8 * (bytes.length + 1) := by omega
      simp [hdiv, hmod, hlt]
    . next hi =>
      rw [ih]
      have hdiv : (i - 8) / 8 = i / 8 - 1 := by omega
      have hmod : (i - 8) % 8 = i % 8 := by omega
      by_cases hlt : i < 8 * (bytes.length + 1)
      . have hlt' : i - 8 < 8 * bytes.length := by omega
        have hidx : bytes.length + 1 - i / 8 - 1 = bytes.length - (i / 8 - 1) - 1 := by omega
        rw [hidx, List.getD_append _ _ _ _ (by omega), hdiv, hmod]
        simp [hlt, hlt']
      . have hlt' : ¬ i - 8 < 8 * bytes.length := by omega
        simp [hlt, hlt']

theorem and_mask_eq_iff (b k : UInt8) (hk : k.toNat < 8)
    : b &&& 1 <<< k = 1 <<< k ↔ b.toNat.testBit k.toNat = true := by
  have hpos := Nat.two_pow_pos k.toNat
  have hlt := Nat.pow_lt_pow_right (show 1 < 2 by decide) hk
  have hmask : (1 <<< k : UInt8).toNat = 2 ^ k.toNat := by
    rw [UInt8.toNat_shiftLeft, Nat.mod_eq_of_lt hk, Nat.shiftLeft_eq]
    simp
    omega
  rw [← UInt8.toNat_inj, UInt8.toNat_and, hmask, Nat.and_two_pow]
  cases b.toNat.testBit k.toNat with
  | false => simp; omega
  | true => simp

end BigEndian
