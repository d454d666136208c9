import Mathlib.Data.List.Basic
import Mathlib.Tactic.Common

/-!
This module contains the two halves of a decoder for a stream that arrives in pieces: transducers,
which answer every token with a list of tokens, and scanners, which cut items off the front of the
tokens received so far and wait when the item in front is not complete yet. The main result is that
neither can tell how the stream was cut.
-/

def Transducer (σ α β : Type) := σ → α → σ × List β

namespace Transducer

variable {σ α β : Type}

def run (T : Transducer σ α β) (s : σ) : List α → σ × List β
  | [] => (s, [])
  | x :: xs =>
    let (s, ys) := T s x
    let (s, zs) := run T s xs
    (s, ys ++ zs)

variable (T : Transducer σ α β)

@[simp]
theorem run_nil (s : σ) : T.run s [] = (s, []) := rfl

theorem run_cons (s : σ) (x : α) (xs : List α)
    : T.run s (x :: xs) = ((T.run (T s x).1 xs).1, (T s x).2 ++ (T.run (T s x).1 xs).2) := rfl

theorem run_append (s : σ) (xs ys : List α)
    : T.run s (xs ++ ys)
        =
      ((T.run (T.run s xs).1 ys).1, (T.run s xs).2 ++ (T.run (T.run s xs).1 ys).2) := by
  induction xs generalizing s with
  | nil => simp
  | cons x xs ih => simp [run_cons, ih]

theorem length_run_le (hT : ∀ s x, (T s x).2.length ≤ 1) (s : σ) (xs : List α)
    : (T.run s xs).2.length ≤ xs.length := by
  induction xs generalizing s with
  | nil => simp
  | cons x xs ih =>
    have := hT s x
    have := ih (T s x).1
    simp only [run_cons, List.length_append, List.length_cons]
    omega

def located : Transducer (σ × Nat) α (β × Nat) := fun (s, n) x =>
  let (s, ys) := T s x
  ((s, n + 1), ys.map fun y => (y, n))

theorem run_located (s : σ) (n : Nat) (xs : List α)
    : (T.located.run (s, n) xs).2.map Prod.fst = (T.run s xs).2 := by
  induction xs generalizing s n with
  | nil => rfl
  | cons x xs ih =>
    rw [run_cons, run_cons, List.map_append]
    simp [located, ih, Function.comp_def]

theorem mem_run_located {s : σ} {n : Nat} {xs : List α} {y : β} {p : Nat}
    (h : (y, p) ∈ (T.located.run (s, n) xs).2)
    : ∃ xs₁ x xs₂, xs = xs₁ ++ x :: xs₂ ∧ p = n + xs₁.length ∧ y ∈ (T (T.run s xs₁).1 x).2 := by
  induction xs generalizing s n with
  | nil => simp at h
  | cons x xs ih =>
    rw [run_cons, List.mem_append] at h
    rcases h with h | h
    . simp only [located, List.mem_map, Prod.mk.injEq] at h
      obtain ⟨y', hy, rfl, rfl⟩ := h
      exact ⟨[], x, xs, rfl, rfl, hy⟩
    . obtain ⟨xs₁, x', xs₂, rfl, rfl, hy⟩ := ih h
      refine ⟨x :: xs₁, x', xs₂, rfl, ?_, hy⟩
      rw [List.length_cons]
      omega

end Transducer

/--
A scanner. `next s xs` is `none` if the scanner waits for more than `xs`, otherwise the number of
tokens it takes off the front of `xs`, its new state and the outputs made for them. What it decides
on a prefix of the stream it also decides on the whole stream.
-/
structure Scanner (σ α β : Type) where
  next : σ → List α → Option (Nat × σ × List β)
  pos : ∀ {s xs n r}, next s xs = some (n, r) → 0 < n
  le : ∀ {s xs n r}, next s xs = some (n, r) → n ≤ xs.length
  stable : ∀ {s xs r}, next s xs = some r → ∀ ys, next s (xs ++ ys) = some r

namespace Scanner

variable {σ α β : Type}

def go (S : Scanner σ α β) : Nat → σ → List α → σ × List α × List β
  | 0, s, xs => (s, xs, [])
  | fuel + 1, s, xs =>
    match S.next s xs with
    | none => (s, xs, [])
    | some (n, s, out) =>
      let (s, xs, outs) := go S fuel s (xs.drop n)
      (s, xs, out ++ outs)

def scan (S : Scanner σ α β) (s : σ) (xs : List α) : σ × List α × List β := S.go xs.length s xs

variable (S : Scanner σ α β)

theorem go_fuel (fuel₁ fuel₂ : Nat) {s : σ} {xs : List α} (h₁ : xs.length ≤ fuel₁)
    (h₂ : xs.length ≤ fuel₂)
    : S.go fuel₁ s xs = S.go fuel₂ s xs := by
  induction fuel₁ generalizing fuel₂ s xs with
  | zero =>
    obtain rfl : xs = [] := by simpa using h₁
    cases fuel₂ with
    | zero => rfl
    | succ fuel₂ =>
      cases hnext : S.next s [] with
      | none => simp [go, hnext]
      | some r =>
        have hpos := S.pos hnext
        have hle := S.le hnext
        simp only [List.length_nil] at hle
        omega
  | succ fuel₁ ih =>
    cases hnext : S.next s xs with
    | none => cases fuel₂ <;> simp [go, hnext]
    | some r =>
      obtain ⟨n, s', out⟩ := r
      have hpos := S.pos hnext
      have hle := S.le hnext
      cases fuel₂ with
      | zero => omega
      | succ fuel₂ =>
        simp only [go, hnext]
        rw [ih fuel₂]
        . rw [List.length_drop]
          omega
        . rw [List.length_drop]
          omega

theorem scan_of_none {s : σ} {xs : List α} (h : S.next s xs = none)
    : S.scan s xs = (s, xs, []) := by
  unfold scan
  cases xs <;> simp [go, h]

theorem scan_of_some {s s' : σ} {xs : List α} {n : Nat} {out : List β}
    (h : S.next s xs = some (n, s', out))
    : S.scan s xs
        =
      ((S.scan s' (xs.drop n)).1, (S.scan s' (xs.drop n)).2.1,
        out ++ (S.scan s' (xs.drop n)).2.2) := by
  have hpos := S.pos h
  have hle := S.le h
  unfold scan
  rw [S.go_fuel _ (xs.length + 1) (by omega) (by omega)]
  simp only [go, h]
  rw [S.go_fuel _ (xs.drop n).length]
  . rw [List.length_drop]
    omega
  . omega

theorem scan_induction {P : σ → List α → Prop}
    (wait : ∀ s xs, S.next s xs = none → P s xs)
    (item : ∀ s xs n s' out, S.next s xs = some (n, s', out) → P s' (xs.drop n) → P s xs)
    (s : σ) (xs : List α)
    : P s xs := by
  induction hlen : xs.length using Nat.strongRecOn generalizing s xs with
  | ind len ih =>
    cases hnext : S.next s xs with
    | none => exact wait s xs hnext
    | some r =>
      obtain ⟨n, s', out⟩ := r
      have hpos := S.pos hnext
      have hle := S.le hnext
      refine item s xs n s' out hnext (ih _ ?_ s' (xs.drop n) rfl)
      rw [List.length_drop]
      omega

theorem next_scan (s : σ) (xs : List α) : S.next (S.scan s xs).1 (S.scan s xs).2.1 = none := by
  induction s, xs using S.scan_induction with
  | wait s xs h => simp [S.scan_of_none h, h]
  | item s xs n s' out h ih => simpa [S.scan_of_some h] using ih

theorem scan_invariant {I : σ → Prop}
    (hnext : ∀ s xs n s' out, I s → S.next s xs = some (n, s', out) → I s') {s : σ} (hs : I s)
    (xs : List α)
    : I (S.scan s xs).1 := by
  induction s, xs using S.scan_induction with
  | wait s xs h =>
    rw [S.scan_of_none h]
    exact hs
  | item s xs n s' out h ih =>
    rw [S.scan_of_some h]
    exact ih (hnext s xs n s' out hs h)

theorem scan_append (s : σ) (xs ys : List α)
    : S.scan s (xs ++ ys)
        =
      ((S.scan (S.scan s xs).1 ((S.scan s xs).2.1 ++ ys)).1,
        (S.scan (S.scan s xs).1 ((S.scan s xs).2.1 ++ ys)).2.1,
        (S.scan s xs).2.2 ++ (S.scan (S.scan s xs).1 ((S.scan s xs).2.1 ++ ys)).2.2) := by
  induction s, xs using S.scan_induction with
  | wait s xs h => simp [S.scan_of_none h]
  | item s xs n s' out h ih =>
    rw [S.scan_of_some (S.stable h ys)]
    rw [List.drop_append_of_le_length (S.le h)]
    rw [ih]
    simp [S.scan_of_some h, List.append_assoc]

theorem scan_filter {σ' : Type} {S' : Scanner σ' α β} (p : σ → σ') (keep : β → Bool)
    (hnext : ∀ s xs, S'.next (p s) xs
      = (S.next s xs).map fun r => (r.1, p r.2.1, r.2.2.filter keep))
    (s : σ) (xs : List α)
    : S'.scan (p s) xs
        =
      (p (S.scan s xs).1, (S.scan s xs).2.1, (S.scan s xs).2.2.filter keep) := by
  induction s, xs using S.scan_induction with
  | wait s xs h =>
    rw [S.scan_of_none h, S'.scan_of_none]
    . rfl
    . rw [hnext, h]
      rfl
  | item s xs n s' out h ih =>
    have h' : S'.next (p s) xs = some (n, p s', out.filter keep) := by
      rw [hnext, h]
      rfl
    rw [S.scan_of_some h, S'.scan_of_some h', ih]
    simp

section Feed

variable {τ γ : Type} (T : Transducer τ γ α)

def feed (t : τ) (s : σ) (unread : List α) (piece : List γ) : τ × σ × List α × List β :=
  let (t, xs) := T.run t piece
  (t, S.scan s (unread ++ xs))

theorem feed_nil {s : σ} {unread : List α} (h : S.next s unread = none) (t : τ)
    : S.feed T t s unread [] = (t, s, unread, []) := by
  simp [feed, S.scan_of_none h]

theorem feed_append (t : τ) (s : σ) (unread : List α) (piece₁ piece₂ : List γ)
    : S.feed T t s unread (piece₁ ++ piece₂)
        =
      let (t, s, unread, out₁) := S.feed T t s unread piece₁
      let (t, s, unread, out₂) := S.feed T t s unread piece₂
      (t, s, unread, out₁ ++ out₂) := by
  simp only [feed, T.run_append]
  rw [← List.append_assoc, S.scan_append s (unread ++ (T.run t piece₁).2)]

end Feed

end Scanner
