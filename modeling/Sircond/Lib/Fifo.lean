import Sircond.Lib.Machine

/-!
This module contains first-in first-out queues of limited capacity as a machine. The outputs are the
elements taken out of the queue.
-/

namespace Fifo

open Machine

variable {α : Type}

inductive Op (α : Type) where
  | query
  | put (xs : List α)
  | take (n : Nat)
  | clear

def Op.elems : Op α → List α
  | .query => []
  | .put xs => xs
  | .take _ => []
  | .clear => []

def machine (capacity : Nat) : Machine (List α) (Op α) α where
  step q
    | .query => some (q, [])
    | .put xs => if q.length + xs.length ≤ capacity then some (q ++ xs, []) else none
    | .take n => if n ≤ q.length then some (q.drop n, q.take n) else none
    | .clear => some ([], q)

theorem step_eq {capacity : Nat} {q q' out : List α} {a : Op α}
    (h : (machine capacity).step q a = some (q', out))
    : out ++ q' = q ++ a.elems := by
  cases a with
  | query =>
    obtain ⟨rfl, rfl⟩ := Prod.mk.inj (Option.some.inj h)
    simp [Op.elems]
  | put xs =>
    simp only [machine] at h
    split at h
    . obtain ⟨rfl, rfl⟩ := Prod.mk.inj (Option.some.inj h)
      rfl
    . simp at h
  | take n =>
    simp only [machine] at h
    split at h
    . obtain ⟨rfl, rfl⟩ := Prod.mk.inj (Option.some.inj h)
      simp [Op.elems]
    . simp at h
  | clear =>
    obtain ⟨rfl, rfl⟩ := Prod.mk.inj (Option.some.inj h)
    simp [Op.elems]

theorem run_eq {capacity : Nat} {q₀ q : List α} {tr : List (Entry (List α) (Op α) α)}
    (hrun : (machine capacity).Run q₀ tr q)
    : outputs tr ++ q = q₀ ++ (inputs tr).flatMap Op.elems := by
  apply hrun.invariant
  . simp [inputs]
  . intro tr q a q' out ih hstep
    rw [outputs_append]
    rw [outputs_singleton]
    rw [List.append_assoc]
    rw [step_eq hstep]
    rw [← List.append_assoc]
    rw [ih]
    simp [inputs]

end Fifo
