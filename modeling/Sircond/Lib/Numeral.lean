import Mathlib.Data.Nat.Digits.Defs

/-!
This module contains decimal numbers as they are written: an optional sign and at least one digit.
-/

inductive Sign where
  | absent
  | plus
  | minus
  deriving DecidableEq, Repr

structure Numeral where
  sign : Sign
  digits : List (Fin 10)
  nonempty : digits ≠ []
  deriving DecidableEq, Repr

namespace Numeral

def digit (d : Fin 10) : UInt8 := UInt8.ofNat (0x30 + d.val)

def digitText (n : Numeral) : List UInt8 := n.digits.map digit

def text (n : Numeral) : List UInt8 :=
  match n.sign with
  | .absent => n.digitText
  | .plus => 0x2B :: n.digitText
  | .minus => 0x2D :: n.digitText

def magnitude (n : Numeral) : Nat := Nat.ofDigits 10 (n.digits.map Fin.val).reverse

/--
The integer that is written.
-/
def value (n : Numeral) : Int :=
  match n.sign with
  | .minus => -n.magnitude
  | _ => n.magnitude

theorem toNat_digit (d : Fin 10) : (digit d).toNat = 0x30 + d.val := by
  unfold digit
  rw [UInt8.toNat_ofNat']
  omega

/--
Digits read from the most significant one on, as a left fold.
-/
theorem foldl_digits (digits : List (Fin 10))
    : digits.foldl (fun n d => 10 * n + d.val) 0 = Nat.ofDigits 10 (digits.map Fin.val).reverse := by
  rw [Nat.ofDigits_eq_foldr, List.foldl_eq_foldr_reverse, ← List.map_reverse, List.foldr_map]
  congr 1
  funext d n
  simp only [Nat.cast_id]
  omega

theorem natAbs_value (n : Numeral) : n.value.natAbs = n.magnitude := by
  unfold value
  split
  . rw [Int.natAbs_neg, Int.natAbs_natCast]
  . apply Int.natAbs_natCast

theorem value_of_minus {n : Numeral} (h : n.sign = .minus) : n.value = -n.magnitude := by
  simp [value, h]

theorem value_of_ne_minus {n : Numeral} (h : n.sign ≠ .minus) : n.value = n.magnitude := by
  unfold value
  split
  . next hminus => exact absurd hminus h
  . rfl

end Numeral
