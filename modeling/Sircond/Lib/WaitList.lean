import Sircond.Lib.Machine
import Mathlib.Data.List.Nodup

/-!
This module contains waiting lists: a resource that belongs to the first of the clients in line,
each of them in line at most once. A history of requests and releases, the newest one first,
determines the list: it holds the clients with an outstanding request, the oldest request first.
-/

structure WaitList (α : Type) where
  toList : List α
  nodup : toList.Nodup

namespace WaitList

inductive Op (α : Type) where
  | acquire (x : α)
  | release (x : α)
  deriving DecidableEq, Repr

inductive Standing where
  | outside
  | waiting
  | holding
  deriving DecidableEq, Repr

inductive Reply (α : Type) where
  | answer (x : α) (granted : Bool)
  | acquired (x : α)
  deriving DecidableEq, Repr

variable {α : Type}

def empty : WaitList α := ⟨[], .nil⟩

def holder (l : WaitList α) : Option α := l.toList.head?

def waiting (l : WaitList α) : List α := l.toList.tail

theorem mem_waiting_iff {l : WaitList α} {x : α}
    : x ∈ l.waiting ↔ x ∈ l.toList ∧ l.holder ≠ some x := by
  have hnodup := l.nodup
  unfold waiting holder
  cases hl : l.toList with
  | nil => simp
  | cons y ys =>
    rw [hl, List.nodup_cons] at hnodup
    simp only [List.tail_cons, List.mem_cons, List.head?_cons, ne_eq, Option.some.injEq]
    constructor
    . intro hx
      refine ⟨.inr hx, ?_⟩
      rintro rfl
      apply hnodup.1 hx
    . rintro ⟨rfl | hx, hne⟩
      . exact absurd rfl hne
      . apply hx

theorem holder_mem {l : WaitList α} {x : α} (h : l.holder = some x) : x ∈ l.toList := by
  apply List.mem_of_mem_head? h

variable [DecidableEq α]

def acquire (l : WaitList α) (x : α) : WaitList α :=
  if h : x ∈ l.toList then
    l
  else
    ⟨l.toList ++ [x], l.nodup.append (by simp) (by simpa using h)⟩

def release (l : WaitList α) (x : α) : WaitList α := ⟨l.toList.erase x, l.nodup.erase x⟩

def apply (l : WaitList α) : Op α → WaitList α
  | .acquire x => l.acquire x
  | .release x => l.release x

def machine : Machine (WaitList α) (Op α) (Reply α) where
  step l
    | .acquire x =>
      let l' := l.acquire x
      some (l', [.answer x (l'.holder = some x)])
    | .release x =>
      let l' := l.release x
      some (l', if l'.holder = l.holder then [] else l'.holder.toList.map .acquired)

def after : List (Op α) → WaitList α
  | [] => empty
  | op :: hist => (after hist).apply op

def requestedAt (x : α) : List (Op α) → Option Nat
  | [] => none
  | .acquire y :: hist =>
    if x = y then
      -- A repeated request does not lose its place.
      (requestedAt x hist).or (some hist.length)
    else
      requestedAt x hist
  | .release y :: hist => if x = y then none else requestedAt x hist

theorem toList_acquire (l : WaitList α) (x : α)
    : (l.acquire x).toList = if x ∈ l.toList then l.toList else l.toList ++ [x] := by
  unfold acquire
  split
  . rfl
  . rfl

theorem mem_acquire {l : WaitList α} {x y : α}
    : y ∈ (l.acquire x).toList ↔ y ∈ l.toList ∨ y = x := by
  unfold acquire
  split
  . next h =>
    constructor
    . exact .inl
    . rintro (hy | rfl)
      . apply hy
      . apply h
  . simp

theorem mem_release {l : WaitList α} {x y : α}
    : y ∈ (l.release x).toList ↔ y ≠ x ∧ y ∈ l.toList := by
  apply l.nodup.mem_erase_iff

theorem holder_release_iff {l : WaitList α} {x y : α}
    : (l.release x).holder ≠ l.holder ∧ (l.release x).holder = some y
        ↔
      x ≠ y ∧ y ∈ l.waiting ∧ (l.release x).holder = some y := by
  constructor
  . rintro ⟨hne, hy⟩
    have hmem := mem_release.mp (holder_mem hy)
    refine ⟨hmem.1.symm, mem_waiting_iff.mpr ⟨hmem.2, ?_⟩, hy⟩
    intro hl
    apply hne
    rw [hy, hl]
  . rintro ⟨-, hwait, hy⟩
    refine ⟨?_, hy⟩
    rw [hy]
    intro hl
    apply (mem_waiting_iff.mp hwait).2 hl.symm

theorem mem_after_iff {x : α} {hist : List (Op α)}
    : x ∈ (after hist).toList ↔ (requestedAt x hist).isSome := by
  induction hist with
  | nil => simp [after, empty, requestedAt]
  | cons op hist ih =>
    cases op with
    | acquire y =>
      simp only [after, apply, mem_acquire, requestedAt, ih]
      split
      . next h => simp [h]
      . next h => simp [h]
    | release y =>
      simp only [after, apply, mem_release, requestedAt, ih]
      split
      . next h => simp [h]
      . next h => simp [h]

theorem requestedAt_lt {x : α} {hist : List (Op α)} {n : Nat} (h : requestedAt x hist = some n)
    : n < hist.length := by
  induction hist with
  | nil => simp [requestedAt] at h
  | cons op hist ih =>
    rw [List.length_cons]
    cases op with
    | acquire y =>
      simp only [requestedAt] at h
      split at h
      . cases hreq : requestedAt x hist with
        | none =>
          simp only [hreq, Option.none_or, Option.some.injEq] at h
          omega
        | some m =>
          simp only [hreq, Option.some_or] at h
          have := ih (hreq.trans h)
          omega
      . have := ih h
        omega
    | release y =>
      simp only [requestedAt] at h
      split at h
      . simp at h
      . have := ih h
        omega

theorem after_sorted (hist : List (Op α))
    : (after hist).toList.Pairwise fun x y =>
        ∀ m ∈ requestedAt x hist, ∀ n ∈ requestedAt y hist, m < n := by
  induction hist with
  | nil => exact .nil
  | cons op hist ih =>
    cases op with
    | acquire z =>
      -- Who is in line keeps its place, whoever asks.
      have hkeep : ∀ x ∈ (after hist).toList,
          requestedAt x (.acquire z :: hist) = requestedAt x hist := by
        intro x hx
        rw [mem_after_iff, Option.isSome_iff_exists] at hx
        obtain ⟨n, hn⟩ := hx
        simp [requestedAt, hn]
      have hold : (after hist).toList.Pairwise fun x y =>
          ∀ m ∈ requestedAt x (.acquire z :: hist), ∀ n ∈ requestedAt y (.acquire z :: hist),
            m < n := by
        apply ih.imp_of_mem
        intro x y hx hy h
        rw [hkeep x hx, hkeep y hy]
        apply h
      simp only [after, apply, acquire]
      split
      . apply hold
      . next hz =>
        rw [List.pairwise_append]
        refine ⟨hold, by simp, ?_⟩
        intro x hx y hy m hm n hn
        rw [List.mem_singleton] at hy
        subst hy
        rw [hkeep x hx] at hm
        have hnone : requestedAt y hist = none := by
          rw [← Option.not_isSome_iff_eq_none, ← mem_after_iff]
          apply hz
        simp only [requestedAt, if_true, hnone, Option.none_or, Option.mem_some] at hn
        have := requestedAt_lt hm
        omega
    | release z =>
      have hkeep : ∀ x, x ≠ z → requestedAt x (.release z :: hist) = requestedAt x hist := by
        intro x hx
        simp [requestedAt, hx]
      have hsub := ih.sublist (List.erase_sublist (a := z))
      apply hsub.imp_of_mem
      intro x y hx hy h
      rw [hkeep x ((after hist).nodup.mem_erase_iff.mp hx).1]
      rw [hkeep y ((after hist).nodup.mem_erase_iff.mp hy).1]
      apply h

def standing (l : WaitList α) (x : α) : Standing :=
  if l.holder = some x then
    .holding
  else if x ∈ l.toList then
    .waiting
  else
    .outside

theorem standing_acquire (l : WaitList α) (x y : α)
    : (l.acquire x).standing y
        =
      if y = x then
        if (l.acquire x).holder = some x then .holding else .waiting
      else
        l.standing y := by
  have hmem : x ∈ (l.acquire x).toList := mem_acquire.mpr (.inr rfl)
  split
  . next hy =>
    subst hy
    simp [standing, hmem]
  . next hy =>
    have hholder : (l.acquire x).holder = some y ↔ l.holder = some y := by
      unfold holder
      rw [toList_acquire]
      split
      . rfl
      . cases l.toList with
        | nil => simpa [eq_comm] using hy
        | cons z zs => simp
    simp [standing, hholder, mem_acquire, hy]

theorem standing_release (l : WaitList α) (x y : α)
    : (l.release x).standing y
        =
      if y = x then
        .outside
      else if (l.release x).holder = some y then
        .holding
      else
        l.standing y := by
  by_cases hy : y = x
  . subst hy
    have hmem : y ∉ (l.release y).toList := fun h => (mem_release.mp h).1 rfl
    have hholder : (l.release y).holder ≠ some y := fun h => hmem (holder_mem h)
    simp [standing, hmem, hholder]
  . rw [if_neg hy]
    by_cases hholder : (l.release x).holder = some y
    . simp [standing, hholder]
    . -- Who is in front stays there until it leaves.
      have hfront : l.holder ≠ some y := by
        intro h
        apply hholder
        have hrelease : (l.release x).holder = (l.toList.erase x).head? := rfl
        rw [hrelease]
        obtain ⟨zs, hl⟩ := List.head?_eq_some_iff.mp h
        rw [hl, List.erase_cons_tail (by simpa using hy), List.head?_cons]
      simp [standing, hholder, hfront, mem_release, hy]

theorem run_machine {tr : List (Machine.Entry (WaitList α) (Op α) (Reply α))} {l : WaitList α}
    (hrun : machine.Run empty tr l)
    : l = after (Machine.inputs tr).reverse := by
  induction hrun with
  | nil => rfl
  | snoc _ hstep ih =>
    rw [Machine.inputs_append, Machine.inputs_singleton, List.reverse_append]
    simp only [List.reverse_singleton, List.singleton_append, after, ← ih]
    simp only [machine] at hstep
    split at hstep
    all_goals
      simp only [Option.some.injEq, Prod.mk.injEq] at hstep
      rw [← hstep.1]
      rfl

end WaitList
