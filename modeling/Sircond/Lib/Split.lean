import Mathlib.Data.List.Basic
import Mathlib.Tactic.Common

/-!
This module contains how a list splits into tokens at a separator. Every separator ends a token, which
may be empty, and what stands behind the last separator is a token of its own unless it is empty. The
other way round, tokens that are each ended by the separator can be told apart in a list and in any
first part of it.
-/

inductive Split {α : Type} (c : α) : List α → List (List α) → Prop
  | nil : Split c [] []
  | last {t : List α} (hne : t ≠ []) (hc : c ∉ t) : Split c t [t]
  | cons {t s : List α} {ts : List (List α)} (hc : c ∉ t) (hs : Split c s ts)
    : Split c (t ++ c :: s) (t :: ts)

namespace Split

variable {α : Type} {c : α} {s : List α} {ts : List (List α)}

theorem notMem_of_mem (h : Split c s ts) : ∀ t ∈ ts, c ∉ t := by
  induction h with
  | nil => simp
  | last hne hc => simpa using hc
  | cons hc hs ih =>
    intro t ht
    cases ht with
    | head => exact hc
    | tail _ ht => apply ih t ht

theorem eq_nil_iff (h : Split c s ts) : ts = [] ↔ s = [] := by
  cases h with
  | nil => simp
  | last hne hc => simpa using hne
  | cons hc hs => simp

theorem length_eq [DecidableEq α] (h : Split c s ts)
    : ts.length = s.count c + if s = [] ∨ s.getLast? = some c then 0 else 1 := by
  induction h with
  | nil => simp
  | @last t hne hc =>
    have hlast : t.getLast? ≠ some c := by
      intro hlast
      apply hc
      apply List.mem_of_getLast? hlast
    rw [List.count_eq_zero_of_not_mem hc, if_neg (by simp [hne, hlast])]
    rfl
  | @cons t s ts hc hs ih =>
    rw [List.length_cons, ih, List.count_append, List.count_cons_self,
      List.count_eq_zero_of_not_mem hc]
    cases s with
    | nil => simp
    | cons b s =>
      simp only [List.append_eq_nil_iff, reduceCtorEq, and_false, false_or,
        List.getLast?_append_cons, List.getLast?_cons_cons]
      omega

theorem intercalate_eq [DecidableEq α] (h : Split c s ts)
    : [c].intercalate ts = if s.getLast? = some c then s.dropLast else s := by
  induction h with
  | nil => rfl
  | @last t hne hc =>
    rw [List.intercalate_singleton, if_neg]
    intro hlast
    apply hc
    apply List.mem_of_getLast? hlast
  | @cons t s ts hc hs ih =>
    cases s with
    | nil =>
      rw [hs.eq_nil_iff.mpr rfl]
      simp
    | cons b s =>
      have hne : ts ≠ [] := by
        rw [ne_eq, hs.eq_nil_iff]
        simp
      rw [List.intercalate_cons_of_ne_nil hne, ih, List.getLast?_append_cons,
        List.getLast?_cons_cons, List.dropLast_append_cons, List.dropLast_cons_cons]
      split
      . simp
      . simp

theorem total (c : α) (s : List α) : ∃ ts, Split c s ts := by
  by_cases hc : c ∈ s
  . rcases List.eq_append_cons_of_mem hc with ⟨t, s', rfl, ht⟩
    cases total c s' with
    | intro ts hs => exact ⟨t :: ts, .cons ht hs⟩
  . cases s with
    | nil => exact ⟨[], .nil⟩
    | cons b s => exact ⟨[b :: s], .last (by simp) hc⟩
termination_by s.length

end Split

section Terminated

variable {α : Type} {c : α}

/-- Every token is ended by the separator, the last one too. -/
def terminated (c : α) (ts : List (List α)) : List α := ts.flatMap fun t => t ++ [c]

theorem append_inj_of_notMem {t u s r : List α} (ht : c ∉ t) (hu : c ∉ u)
    (h : t ++ c :: s = u ++ c :: r)
    : t = u ∧ s = r := by
  induction t generalizing u with
  | nil =>
    cases u with
    | nil => exact ⟨rfl, (List.cons.inj h).2⟩
    | cons b u => simp [(List.cons.inj h).1] at hu
  | cons a t ih =>
    cases u with
    | nil => simp [← (List.cons.inj h).1] at ht
    | cons b u =>
      obtain ⟨rfl, htail⟩ := List.cons.inj h
      rw [List.mem_cons, not_or] at ht hu
      obtain ⟨rfl, hrest⟩ := ih ht.2 hu.2 htail
      exact ⟨rfl, hrest⟩

theorem terminated_cons (t : List α) (ts : List (List α))
    : terminated c (t :: ts) = t ++ c :: terminated c ts := by
  simp [terminated]

theorem prefix_of_terminated {ts us : List (List α)} {rest : List α} (hts : ∀ t ∈ ts, c ∉ t)
    (hus : ∀ u ∈ us, c ∉ u) (h : terminated c ts ++ rest = terminated c us)
    : ts <+: us := by
  induction ts generalizing us with
  | nil => apply List.nil_prefix
  | cons t ts ih =>
    rw [List.forall_mem_cons] at hts
    cases us with
    | nil => simp [terminated] at h
    | cons u us =>
      rw [List.forall_mem_cons] at hus
      rw [terminated_cons, terminated_cons, List.append_assoc, List.cons_append] at h
      obtain ⟨rfl, hrest⟩ := append_inj_of_notMem hts.1 hus.1 h
      rw [List.prefix_cons_inj]
      apply ih hts.2 hus.2 hrest

theorem terminated_inj {ts us : List (List α)} (hts : ∀ t ∈ ts, c ∉ t) (hus : ∀ u ∈ us, c ∉ u)
    (h : terminated c ts = terminated c us)
    : ts = us := by
  obtain ⟨ws, rfl⟩ : ts <+: us := by
    apply prefix_of_terminated hts hus
    rw [List.append_nil]
    exact h
  have hlength := congrArg List.length h
  cases ws with
  | nil => rw [List.append_nil]
  | cons w ws => simp [terminated] at hlength

end Terminated
