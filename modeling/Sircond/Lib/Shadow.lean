import Mathlib.Tactic.Common

/-!
This module contains the positions at which a reader stands that goes from left to right and jumps
over each item it takes. An item may begin at any position, and items may overlap: one that begins
inside an item taken before is never looked at. Which positions these are is a property of the items
alone: `covers j i` says that whoever takes the item at `j` does not stop at `i`, and a position is
shadowed if it is covered from an earlier one that is not shadowed itself.
-/

structure Cover where
  covers : Nat → Nat → Prop
  mono : ∀ {j i k}, covers j k → i ≤ k → covers j i

namespace Cover

variable (C : Cover)

def Shadowed (i : Nat) : Prop := ∃ j, ∃ _ : j < i, C.covers j i ∧ ¬ Shadowed j
  termination_by i

theorem shadowed_iff {i : Nat}
    : C.Shadowed i ↔ ∃ j, j < i ∧ C.covers j i ∧ ¬ C.Shadowed j := by
  rw [Shadowed]
  constructor
  . rintro ⟨j, hlt, h⟩
    exact ⟨j, hlt, h⟩
  . rintro ⟨j, hlt, h⟩
    exact ⟨j, hlt, h⟩

theorem not_shadowed_zero : ¬ C.Shadowed 0 := by
  rw [shadowed_iff]
  rintro ⟨j, hlt, -⟩
  apply Nat.not_lt_zero j hlt

variable {C}

theorem shadowed_of_covers {q i : Nat} (hq : ¬ C.Shadowed q) (hlt : q < i) (h : C.covers q i)
    : C.Shadowed i :=
  C.shadowed_iff.mpr ⟨q, hlt, h, hq⟩

theorem not_shadowed_next {q q' : Nat} (hq : ¬ C.Shadowed q) (hlt : q < q')
    (hinside : ∀ i, q < i → i < q' → C.covers q i) (hend : ¬ C.covers q q')
    : ¬ C.Shadowed q' := by
  intro hq'
  obtain ⟨j, hj, hcovers, hnot⟩ := C.shadowed_iff.mp hq'
  rcases Nat.lt_trichotomy j q with hjq | rfl | hjq
  . -- What covers the end from before the item covers its start.
    apply hq
    apply shadowed_of_covers hnot hjq
    apply C.mono hcovers
    omega
  . apply hend hcovers
  . apply hnot
    apply shadowed_of_covers hq hjq
    apply hinside j hjq hj

theorem visible_cases {q q' i : Nat} (hq : ¬ C.Shadowed q)
    (hinside : ∀ i, q < i → i < q' → C.covers q i) (hi : q ≤ i) (hvisible : ¬ C.Shadowed i)
    : i = q ∨ q' ≤ i := by
  rcases Nat.eq_or_lt_of_le hi with rfl | hlt
  . left
    rfl
  . right
    apply Nat.le_of_not_lt
    intro hend
    apply hvisible
    apply shadowed_of_covers hq hlt
    apply hinside i hlt hend

end Cover
