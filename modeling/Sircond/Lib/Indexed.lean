import Mathlib.Data.List.Basic
import Mathlib.Tactic.Common

/-!
This module contains lists of keys with an index. Each key has a value that no other key has, and the
index contains these values and one more, `base`, which is the value of no key. A key goes in
together with a new entry of the index, and out together with the entry of its value.
-/

structure Indexed {κ ν : Type} (keys : List κ) (value : κ → ν) (base : ν) (index : List ν)
    : Prop where
  nodup : keys.Nodup
  distinct : ∀ k ∈ keys, ∀ l ∈ keys, value k = value l → k = l
  ne_base : ∀ k ∈ keys, value k ≠ base
  mem_index : ∀ v, v ∈ index ↔ v = base ∨ ∃ k ∈ keys, value k = v

namespace Indexed

variable {κ ν : Type} {keys : List κ} {value value' : κ → ν} {base : ν} {index : List ν}

theorem ne_of_not_mem (h : Indexed keys value base index) {v : ν} (hv : v ∉ index)
    : v ≠ base ∧ ∀ k ∈ keys, value k ≠ v := by
  rw [h.mem_index, not_or] at hv
  refine ⟨hv.1, ?_⟩
  intro k hk heq
  apply hv.2
  exact ⟨k, hk, heq⟩

theorem concat (h : Indexed keys value base index) {key : κ} {v : ν} (hkey : key ∉ keys)
    (hv : v ∉ index) (hnew : value' key = v) (hold : ∀ k ∈ keys, value' k = value k)
    : Indexed (keys ++ [key]) value' base (index ++ [v]) := by
  obtain ⟨hbase, hother⟩ := h.ne_of_not_mem hv
  have hmem : ∀ k, k ∈ keys ++ [key] ↔ k ∈ keys ∨ k = key := by simp
  have hne : ∀ k ∈ keys, value' k ≠ value' key := by
    intro k hk
    rw [hold k hk, hnew]
    apply hother k hk
  constructor
  . rw [List.nodup_append]
    refine ⟨h.nodup, by simp, ?_⟩
    intro k hk l hl heq
    apply hkey
    rw [← List.mem_singleton.mp hl, ← heq]
    exact hk
  . intro k hk l hl heq
    cases (hmem k).mp hk with
    | inl hk =>
      cases (hmem l).mp hl with
      | inl hl =>
        rw [hold k hk, hold l hl] at heq
        apply h.distinct k hk l hl heq
      | inr hl =>
        rw [hl] at heq
        exact absurd heq (hne k hk)
    | inr hk =>
      rw [hk] at heq ⊢
      cases (hmem l).mp hl with
      | inl hl => exact absurd heq.symm (hne l hl)
      | inr hl => exact hl.symm
  . intro k hk
    cases (hmem k).mp hk with
    | inl hk =>
      rw [hold k hk]
      apply h.ne_base k hk
    | inr hk =>
      rw [hk, hnew]
      exact hbase
  . intro w
    rw [List.mem_append, List.mem_singleton, h.mem_index, or_assoc]
    apply or_congr_right
    constructor
    . rintro (⟨k, hk, hw⟩ | hw)
      . exact ⟨k, (hmem k).mpr (.inl hk), (hold k hk).trans hw⟩
      . exact ⟨key, (hmem key).mpr (.inr rfl), hnew.trans hw.symm⟩
    . rintro ⟨k, hk, hw⟩
      cases (hmem k).mp hk with
      | inl hk =>
        left
        exact ⟨k, hk, (hold k hk).symm.trans hw⟩
      | inr hk =>
        right
        rw [← hw, hk, hnew]

theorem erase [DecidableEq κ] [DecidableEq ν] (h : Indexed keys value base index) {key : κ}
    (hkey : key ∈ keys) (hold : ∀ k ∈ keys, k ≠ key → value' k = value k)
    : Indexed (keys.erase key) value' base (index.filter fun v => v ≠ value key) := by
  have hmem : ∀ k, k ∈ keys.erase key ↔ k ≠ key ∧ k ∈ keys := fun k => h.nodup.mem_erase_iff
  constructor
  . apply h.nodup.erase
  . intro k hk l hl
    rw [hmem] at hk hl
    rw [hold k hk.2 hk.1, hold l hl.2 hl.1]
    apply h.distinct k hk.2 l hl.2
  . intro k hk
    rw [hmem] at hk
    rw [hold k hk.2 hk.1]
    apply h.ne_base k hk.2
  . intro v
    rw [List.mem_filter, h.mem_index, decide_eq_true_eq]
    constructor
    . rintro ⟨hbase | ⟨k, hk, hv⟩, hne⟩
      . left
        exact hbase
      . right
        have hkne : k ≠ key := by
          rintro rfl
          exact hne hv.symm
        refine ⟨k, (hmem k).mpr ⟨hkne, hk⟩, ?_⟩
        rw [hold k hk hkne]
        exact hv
    . rintro (hbase | ⟨k, hk, hv⟩)
      . refine ⟨.inl hbase, ?_⟩
        rw [hbase]
        apply Ne.symm (h.ne_base key hkey)
      . rw [hmem] at hk
        rw [hold k hk.2 hk.1] at hv
        refine ⟨.inr ⟨k, hk.2, hv⟩, ?_⟩
        rw [← hv]
        intro heq
        apply hk.1
        apply h.distinct k hk.2 key hkey heq

end Indexed
